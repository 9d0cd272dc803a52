/-
An event that is appended again under its id.

The retry is compared with the record that was read, written once more.  The two agree
exactly where the record can be read and the strings of the event's keys are in the order
of the keys.
-/
import EdgeFort.Telemetry.Bounds

namespace EdgeFort.Telemetry

open Effect Spool

variable {I : Interpreter} {maxBytes : Nat} {event : PyObject} {i : PyStr} {s t : Spool}

/-! ## The record of an event -/

/-- What is written of a record. -/
def recordJson (w : Json) (eventId : PyStr) : Json :=
  .obj [(py "_record", .str recordMarker), (py "event", w), (py "event_id", .str eventId)]

theorem sortItems_record : PyObject.sortItems [((.str (py "_record") : PyKey),
      PyObject.str recordMarker), (.str (py "event_id"), .str i), (.str (py "event"), event)] =
    .ok [(.str (py "_record"), .str recordMarker), (.str (py "event"), event),
      (.str (py "event_id"), .str i)] := rfl

theorem written_record {n : Nat} {w : Json} :
    (record event i).written I n = .ok w ↔
      ∃ m v, n = m + 2 ∧ event.written I (m + 1) = .ok v ∧ w = recordJson v i := by
  constructor
  · intro h
    obtain ⟨m, sorted, fields, rfl, rfl, hsorts, hsorted, hfields⟩ := PyObject.written_dict h
    obtain ⟨m, rfl⟩ : ∃ k, m = k + 1 := by
      cases m with
      | zero => cases hsorts
      | succ m => exact ⟨m, rfl⟩
    obtain rfl := Except.ok.inj (hsorted.symm.trans sortItems_record)
    obtain ⟨⟨k₁, v₁⟩, _, ⟨hk₁, hv₁⟩, htail₁, rfl⟩ := List.forall₂_cons_left_iff.mp hfields
    obtain ⟨⟨k₂, v₂⟩, _, ⟨hk₂, hv₂⟩, htail₂, rfl⟩ := List.forall₂_cons_left_iff.mp htail₁
    obtain ⟨⟨k₃, v₃⟩, _, ⟨hk₃, hv₃⟩, htail₃, rfl⟩ := List.forall₂_cons_left_iff.mp htail₂
    obtain rfl := List.forall₂_nil_left_iff.mp htail₃
    cases hk₁
    cases hk₂
    cases hk₃
    simp only [PyObject.written] at hv₁ hv₃
    cases hv₁
    cases hv₃
    exact ⟨m, v₂, rfl, hv₂, rfl⟩
  · rintro ⟨m, v, rfl, hv, rfl⟩
    refine PyObject.written_dict_succ.mpr
      ⟨Json.sorts_of_pos (by omega) _, _, _, rfl, sortItems_record, ?_⟩
    refine .cons ⟨rfl, ?_⟩ (.cons ⟨rfl, hv⟩ (.cons ⟨rfl, ?_⟩ .nil))
    · rw [PyObject.written]
    · rw [PyObject.written]

theorem decodeRecord_recordJson (hI : I.Lawful) {w : Json} {b : Bytes} (hi : isEventId i = true)
    (hs : (recordJson w i).strict = true) (he : (recordJson w i).encodable = true)
    (hr : (recordJson w i).refusal I.dumpsNesting = none)
    (hd : (recordJson w i).readDepth ≤ I.loadsNesting)
    (hb : utf8Encode (Json.render I false (recordJson w i)) = .ok b) :
    decodeRecord I b = .ok ⟨some i, w, true⟩ := by
  have hload : strictJsonLoads I (.bytes b) = .ok (recordJson w i) :=
    Json.loadsBytes_render_obj hI hs he hr hd hb
  rw [decodeRecord, hload, ok_bind, recordJson]
  dsimp only
  rw [if_pos ⟨rfl, rfl⟩]
  show (do
    let eventId ← validateEventId (.str i)
    return (⟨some eventId, w, true⟩ : Record)) = _
  rw [validateEventId, if_pos hi]
  rfl

theorem distinct_record (h : event.distinct = true) : (record event i).distinct = true := by
  rw [record, PyObject.distinct, Bool.and_eq_true, decide_eq_true_eq, PyObject.distinctFields_iff]
  constructor
  · show [PyKey.str (py "_record"), .str (py "event_id"), .str (py "event")].Pairwise
      fun a b => a.pyEq b = false
    decide
  · intro f hf
    simp only [List.mem_cons, List.not_mem_nil, or_false] at hf
    rcases hf with rfl | rfl | rfl
    · rfl
    · rfl
    · exact h

theorem readDepth_recordJson (w : Json) (i : PyStr) :
    (recordJson w i).readDepth = max w.readDepth 1 + 1 := by
  simp [recordJson, Json.readDepth, Json.readDepthFields]

/-- The record of the event nests no deeper than `json.loads` recurses. -/
def Readable (I : Interpreter) (event : PyObject) (i : PyStr) : Prop :=
  ∀ data, (record event i).written I I.dumpsNesting = .ok data → data.readDepth ≤ I.loadsNesting

/-- The line of an event reads back as what was written of the event. -/
theorem encodeRecord_reads (hI : I.Lawful) (hevent : event.distinct = true) {line : Bytes}
    (h : encodeRecord I event i = .ok line) : ∃ w body,
      event.written I I.dumpsNesting = .ok w ∧ w.encodable = true ∧ line = body ++ [0x0A] ∧
      (Readable I event i → decodeRecord I body = .ok ⟨some i, w, true⟩) := by
  obtain ⟨hi, body, hbody, rfl⟩ := encodeRecord_eq_ok.mp h
  obtain ⟨W, hW, hencodable, hb⟩ := PyObject.canonicalBytes_eq_ok.mp hbody
  have hstrict : W.strict = true := PyObject.strict_written hI.printsApart (distinct_record hevent) hW
  have hrefusal : W.refusal I.dumpsNesting = none := PyObject.refusal_written hW
  obtain ⟨m, w, hm, hw, rfl⟩ := written_record.mp hW
  refine ⟨w, body, PyObject.written_mono hw (by omega), ?_, rfl, fun hreadable => ?_⟩
  · rw [recordJson, Json.encodable, Json.encodableFields_iff] at hencodable
    exact (hencodable (py "event", w) (by simp)).2
  · exact decodeRecord_recordJson hI hi hstrict hencodable hrefusal (hreadable _ hW) hb

/-- What was read of an event has the canonical bytes of the event if the strings of the
event's keys are in the order of the keys. -/
theorem canonicalBytes_read {w : Json} (hw : event.written I I.dumpsNesting = .ok w)
    (hencodable : w.encodable = true) (horder : event.keysInOrder I = true) :
    ∃ b, w.toObject.canonicalBytes I = .ok b ∧ event.canonicalBytes I = .ok b := by
  have hrefusal : w.refusal I.dumpsNesting = none := PyObject.refusal_written hw
  have hself : w.sortKeys = w := (PyObject.sortKeys_written hw).mpr horder
  have hb : utf8Encode (Json.render I false w) = .ok _ :=
    utf8Encode_eq_ok.mpr ⟨Json.utf8Encodable_render hencodable, rfl⟩
  refine ⟨_, ?_, PyObject.canonicalBytes_eq_ok.mpr ⟨w, hw, hencodable, hb⟩⟩
  rw [PyObject.canonicalBytes_toObject, Json.dumpsBytes_eq_ok, hself]
  exact ⟨hrefusal, hb⟩

/-- What has the canonical bytes of an event is what is written of it, its items sorted. -/
theorem written_of_canonicalBytes (hI : I.Lawful) (hevent : event.distinct = true) {x : Json}
    {b : Bytes} (hx : x.strict = true) (hxb : x.toObject.canonicalBytes I = .ok b)
    (hb : event.canonicalBytes I = .ok b) : event.written I I.dumpsNesting = .ok x.sortKeys := by
  rw [PyObject.canonicalBytes_toObject, Json.dumpsBytes_eq_ok] at hxb
  obtain ⟨hrefusal, htext⟩ := hxb
  obtain ⟨w, hw, hencodable, hwtext⟩ := PyObject.canonicalBytes_eq_ok.mp hb
  have hrender : Json.render I false x.sortKeys = Json.render I false w :=
    Except.ok.inj ((utf8Decode_encode htext).symm.trans (utf8Decode_encode hwtext))
  have hxencodable : x.sortKeys.encodable = true :=
    Json.encodable_of_render _ _ hrefusal (utf8Encode_eq_ok.mp htext).1
  rw [Json.render_injective hI.printsApart
    ⟨Json.strict_sortKeys x hx, hxencodable, hrefusal⟩
    ⟨PyObject.strict_written hI.printsApart hevent hw, hencodable, PyObject.refusal_written hw⟩
    hrender]
  exact hw

theorem encodable_recordJson {w : Json} (hi : isEventId i = true) (hw : w.encodable = true) :
    (recordJson w i).encodable = true := by
  have hid : utf8Encodable i = true := by
    simp only [isEventId, Bool.and_eq_true, List.all_eq_true] at hi
    simp only [utf8Encodable, List.all_eq_true, Bool.not_eq_true']
    intro c hc
    have hdigit := hi.2 c hc
    simp only [isHexDigit, Bool.or_eq_true, Bool.and_eq_true, decide_eq_true_eq] at hdigit
    simp only [isSurrogate, Bool.and_eq_false_iff, decide_eq_false_iff_not]
    omega
  rw [recordJson, Json.encodable, Json.encodableFields_iff]
  intro f hf
  simp only [List.mem_cons, List.not_mem_nil, or_false] at hf
  rcases hf with rfl | rfl | rfl
  · exact ⟨by decide, by decide⟩
  · exact ⟨(show utf8Encodable (py "event") = true by decide), hw⟩
  · exact ⟨(show utf8Encodable (py "event_id") = true by decide), hid⟩

/-- An event that can be written, but not as a record, is nested too deeply. -/
theorem encodeRecord_error {b : Bytes} {e : PyError} (hi : isEventId i = true)
    (hb : event.canonicalBytes I = .ok b) (h : encodeRecord I event i = .error e) :
    e.cls = .recursionError := by
  obtain ⟨w, hw, hencodable, -⟩ := PyObject.canonicalBytes_eq_ok.mp hb
  rw [encodeRecord, validateEventId, if_pos hi, ok_bind] at h
  cases hrecord : (record event i).written I I.dumpsNesting with
  | error e' =>
    have hroom : (record event i).written I (I.dumpsNesting + 1) = .ok (recordJson w i) := by
      have hge := I.dumpsNesting_ge
      obtain ⟨k, hk⟩ : ∃ k, I.dumpsNesting = k + 1 := ⟨I.dumpsNesting - 1, by omega⟩
      rw [hk] at hw ⊢
      exact written_record.mpr ⟨k, w, rfl, hw, rfl⟩
    rw [PyObject.canonicalBytes, hrecord, error_bind, error_bind] at h
    cases h
    exact PyObject.error_written hroom hrecord
  | ok W =>
    exfalso
    obtain ⟨m, v, hm, hv, rfl⟩ := written_record.mp hrecord
    have hvw : v = w :=
      Except.ok.inj ((PyObject.written_mono hv (by omega)).symm.trans hw)
    subst hvw
    have hbytes : utf8Encode (Json.render I false (recordJson v i)) = .ok _ :=
      utf8Encode_eq_ok.mpr ⟨Json.utf8Encodable_render (encodable_recordJson hi hencodable), rfl⟩
    rw [PyObject.canonicalBytes, hrecord, ok_bind, hbytes] at h
    cases h

/-! ## Finding a record -/

variable (I) in
/-- The line has a record with the id. -/
def hasId (i : PyStr) (raw : Bytes) : Bool := (record? I raw).any (·.eventId = some i)

theorem findEvent_cons (raw : Bytes) (lines : List Bytes) :
    findEvent I i (raw :: lines) =
      if hasId I i raw then (record? I raw).map Record.event else findEvent I i lines := by
  rw [findEvent, hasId, record?]
  cases decodeRecord I raw with
  | error e => rfl
  | ok r =>
    dsimp only
    rw [Option.any_some, Option.map_some]
    simp only [decide_eq_true_eq]

theorem findEvent_eq_some {lines : List Bytes} {x : Json} (h : findEvent I i lines = some x) :
    ∃ raw r, decodeRecord I raw = .ok r ∧ r.eventId = some i ∧ r.event = x := by
  induction lines with
  | nil => cases h
  | cons raw lines ih =>
    rw [findEvent] at h
    cases hdecode : decodeRecord I raw with
    | error => exact ih (by simpa [hdecode] using h)
    | ok r =>
      simp only [hdecode] at h
      split_ifs at h with hid
      · exact ⟨raw, r, hdecode, hid, Option.some.inj h⟩
      · exact ih h

theorem findEvent_append {lines more : List Bytes} {x : Json} (h : findEvent I i lines = some x) :
    findEvent I i (lines ++ more) = some x := by
  induction lines with
  | nil => cases h
  | cons raw lines ih =>
    rw [findEvent_cons] at h
    rw [List.cons_append, findEvent_cons]
    split_ifs at h ⊢
    · exact h
    · exact ih h

theorem findEvent_eq_none {lines : List Bytes} :
    findEvent I i lines = none ↔ ∀ raw ∈ lines, hasId I i raw = false := by
  induction lines with
  | nil => exact iff_of_true rfl fun raw hraw => absurd hraw List.not_mem_nil
  | cons raw lines ih =>
    rw [findEvent_cons, List.forall_mem_cons]
    cases hid : hasId I i raw with
    | false =>
      rw [if_neg Bool.false_ne_true, ih]
      exact (and_iff_right rfl).symm
    | true =>
      -- a line with the id has an event
      rw [if_pos rfl, Option.map_eq_none_iff]
      refine iff_of_false (fun hnone => ?_) fun h => Bool.noConfusion h.1
      rw [hasId, hnone] at hid
      cases hid

theorem findEvent_append_none {lines more : List Bytes} (h : findEvent I i lines = none) :
    findEvent I i (lines ++ more) = findEvent I i more := by
  induction lines with
  | nil => rfl
  | cons raw lines ih =>
    obtain ⟨hraw, hlines⟩ := List.forall_mem_cons.mp (findEvent_eq_none.mp h)
    rw [List.cons_append, findEvent_cons, hraw, if_neg Bool.false_ne_true]
    exact ih (findEvent_eq_none.mpr hlines)

/-- Lines before the first with the id make no difference. -/
theorem findEvent_drop {lines : List Bytes} {n : Nat} (hn : n ≤ lines.findIdx (hasId I i)) :
    findEvent I i (lines.drop n) = findEvent I i lines := by
  induction lines generalizing n with
  | nil => rw [List.drop_nil]
  | cons raw lines ih =>
    cases n with
    | zero => rfl
    | succ n =>
      rw [List.findIdx_cons] at hn
      cases hid : hasId I i raw with
      | true =>
        rw [hid, cond_true] at hn
        omega
      | false =>
        rw [hid, cond_false] at hn
        rw [List.drop_succ_cons, findEvent_cons, hid, if_neg Bool.false_ne_true]
        exact ih (Nat.le_of_succ_le_succ hn)

/-- A record that was found is strict, and nests no deeper than `json.loads` recurses. -/
theorem readDepth_found {raw : Bytes} {r : Record} (h : decodeRecord I raw = .ok r)
    (hid : r.eventId = some i) :
    r.event.strict = true ∧ max r.event.readDepth 1 + 1 ≤ I.loadsNesting := by
  rw [decodeRecord, bind_eq_ok] at h
  obtain ⟨value, hvalue, h⟩ := h
  have hstrict := Json.loadsBytes_strict hvalue
  have hdepth := Json.readDepth_loadsBytes hvalue
  cases value with
  | obj fields =>
    dsimp only at h
    split_ifs at h
    · simp only [bind_eq_ok, pure_eq_ok] at h
      obtain ⟨_, -, rfl⟩ := h
      have hitem := Json.readDepth_item fields (py "event")
      rw [Json.readDepth] at hdepth
      refine ⟨Json.item_strict hstrict _, ?_⟩
      dsimp only
      omega
    · cases h
      cases hid
  | null | bool | int | float | str | arr =>
    cases h
    cases hid

/-! ## Later calls -/

/-- How many lines a call evicts. -/
def Spool.evicted (I : Interpreter) (maxBytes : Nat) (event : PyObject) (eventId : Option PyStr)
    (token : PyStr) (s : Spool) : Nat :=
  match s.append I maxBytes event eventId token with
  | (.ok true, s') => s'.dropped - s.dropped
  | _ => 0

/-- The index of the first line that has a record with the id. -/
def Spool.place (I : Interpreter) (i : PyStr) (s : Spool) : Nat :=
  (bodies s.content).findIdx (hasId I i)

/-- Calls of `append`, none of which evicts the record with the id, or writes behind its line
while that has no end. -/
def laterAppends (I : Interpreter) (maxBytes : Nat) (i : PyStr) (s : Spool) : System Spool where
  initial t := t = s
  step t t' := ∃ event eventId token,
    t.evicted I maxBytes event eventId token ≤ t.place I i ∧
      t' = (t.append I maxBytes event eventId token).2 ∧
        (t'.content = t.content ∨ t.place I i < (endedLines t.content).length)

/-- The spool has the event under the id. -/
structure Holds (I : Interpreter) (maxBytes : Nat) (i : PyStr) (x : Json) (s : Spool) : Prop where
  fits : s.content.length ≤ maxBytes
  found : findEvent I i (bodies s.content) = some x

/-- A record on a line with an end is found among these lines. -/
theorem findEvent_ended {x : Json} (h : findEvent I i (bodies s.content) = some x)
    (hended : s.place I i < (endedLines s.content).length) :
    findEvent I i ((endedLines s.content).map Line.body) = some x ∧
      ((endedLines s.content).map Line.body).findIdx (hasId I i) = s.place I i := by
  unfold Spool.place at *
  rw [bodies, splitLines_ended_unended, List.map_append] at *
  rw [← List.length_map Line.body] at hended
  cases hfind : findEvent I i ((endedLines s.content).map Line.body) with
  | none =>
    exfalso
    have hnone := findEvent_eq_none.mp hfind
    rw [List.findIdx_append, List.findIdx_eq_length_of_false hnone, if_neg (Nat.lt_irrefl _)]
      at hended
    omega
  | some y =>
    rw [findEvent_append hfind] at h
    refine ⟨h, ?_⟩
    rw [List.findIdx_append] at hended ⊢
    split_ifs at hended ⊢
    · rfl
    · omega

theorem Holds.append {x : Json} (h : Holds I maxBytes i x t) {other : PyObject}
    {eventId : Option PyStr} {token : PyStr}
    (hkept : t.evicted I maxBytes other eventId token ≤ t.place I i)
    (hended : (t.append I maxBytes other eventId token).2.content = t.content ∨
      t.place I i < (endedLines t.content).length) :
    Holds I maxBytes i x (t.append I maxBytes other eventId token).2 := by
  have hcases := append_cases I maxBytes other eventId token t
  unfold Spool.evicted at hkept
  generalize t.append I maxBytes other eventId token = result at hcases hkept hended
  rcases hended with hsame | hended
  · constructor
    · rw [hsame]
      exact h.fits
    · rw [hsame]
      exact h.found
  cases hcases with
  | invalid | overfull | found => exact h
  | oversize => exact ⟨h.fits, h.found⟩
  | @written _ _ t' n hprepare _ hwrites =>
    obtain ⟨body, rfl, hbody, hne⟩ := prepare_line hprepare
    dsimp only at hkept
    rw [hwrites.dropped, Nat.add_sub_cancel_left] at hkept
    obtain ⟨hfound, hplace⟩ := findEvent_ended h.found hended
    refine ⟨hwrites.fits, ?_⟩
    rw [bodies, hwrites.lines hbody hne, filter_drop_ended (hkept.trans hended.le),
      List.map_append, List.map_drop]
    apply findEvent_append
    rw [findEvent_drop (hplace ▸ hkept)]
    exact hfound

theorem Holds.later {x : Json} (h : Holds I maxBytes i x s)
    (hlater : (laterAppends I maxBytes i s).Reachable t) : Holds I maxBytes i x t := by
  apply System.invariant (Holds I maxBytes i x) ?_ ?_ hlater
  · rintro t rfl
    exact h
  · rintro t t' ht ⟨other, eventId, token, hkept, rfl, hended⟩
    exact ht.append hkept hended

/-! ## The law -/

theorem prepare_supplied {token j : PyStr} {line : Bytes} :
    prepare I event (some i) token = .ok (j, line) ↔
      i = j ∧ isEventId i = true ∧ encodeRecord I event i = .ok line := by
  by_cases hi : isEventId i = true
  · rw [prepare, chooseId, validateEventId, if_pos hi, ok_bind]
    simp only [bind_eq_ok, pure_eq_ok, Prod.mk.injEq]
    constructor
    · rintro ⟨_, hline, rfl, rfl⟩
      exact ⟨rfl, hi, hline⟩
    · rintro ⟨rfl, -, hline⟩
      exact ⟨line, hline, rfl, rfl⟩
  · rw [prepare, chooseId, validateEventId, if_neg hi, error_bind]
    exact ⟨fun h => absurd h error_ne_ok, fun h => absurd h.2.1 hi⟩

theorem compareEvents_eq {x : Json} {a b : Bytes} (ha : x.toObject.canonicalBytes I = .ok a)
    (hb : event.canonicalBytes I = .ok b) :
    (a = b → compareEvents I x event = .ok ()) ∧
      (a ≠ b → ∃ e, compareEvents I x event = .error e ∧ e.cls = .valueError) := by
  rw [compareEvents, ha, ok_bind, hb, ok_bind]
  constructor
  · intro hab
    rw [raiseIf_neg (not_not.mpr hab)]
  · intro hab
    rw [raiseIf_pos hab]
    exact ⟨_, rfl, rfl⟩

/-- The event is read back as what is written of it again: its record can be read, and the
strings of its keys are in the order of the keys. -/
def Stable (I : Interpreter) (event : PyObject) (i : PyStr) : Prop :=
  Readable I event i ∧ event.keysInOrder I = true

/-- What a record of the event is put behind, if it has no end, does not change how the
record is read. -/
def Separate (I : Interpreter) (maxBytes : Nat) (event : PyObject) (i : PyStr)
    (content : Bytes) : Prop :=
  ∀ body, encodeRecord I event i = .ok (body ++ [0x0A]) →
    decodeRecord I (unended (leftover maxBytes content (body.length + 1)) ++ body) =
      decodeRecord I body

/-- The id is in the file, or the record is read as it is written. -/
def Placed (I : Interpreter) (maxBytes : Nat) (event : PyObject) (i : PyStr)
    (content : Bytes) : Prop :=
  (findEvent I i (bodies content)).isSome = true ∨ Separate I maxBytes event i content

/-- Behind lines that have their ends every record is read as it is written. -/
theorem separate_of_terminated (hs : Terminated s.content) :
    Separate I maxBytes event i s.content := by
  intro body _
  obtain ⟨n, hn⟩ := exists_leftover maxBytes s.content (body.length + 1)
  rw [hn, unended_terminated (terminated_drop hs n), List.nil_append]

/-- A record that has the canonical bytes of the event can be read, and has the items in
order. -/
theorem stable_of_same (hI : I.Lawful) (hevent : event.distinct = true) {raw b : Bytes}
    {r : Record} (hraw : decodeRecord I raw = .ok r) (hid : r.eventId = some i)
    (hrb : r.event.toObject.canonicalBytes I = .ok b) (hb : event.canonicalBytes I = .ok b) :
    Stable I event i := by
  obtain ⟨hstrict, hdepth⟩ := readDepth_found hraw hid
  have hwritten := written_of_canonicalBytes hI hevent hstrict hrb hb
  constructor
  · intro data hdata
    obtain ⟨m, w, hm, hw, rfl⟩ := written_record.mp hdata
    have hsame : w = r.event.sortKeys :=
      Except.ok.inj ((PyObject.written_mono hw (by omega)).symm.trans hwritten)
    rw [readDepth_recordJson, hsame, Json.readDepth_sortKeys]
    exact hdepth
  · exact (PyObject.sortKeys_written hwritten).mp (Json.sortKeys_sortKeys _)

/-- An event whose retry is accepted, and writes nothing, is stable. -/
theorem stable_of_retry (hI : I.Lawful) (hevent : event.distinct = true) {token : PyStr}
    (h : t.append I maxBytes event (some i) token = (.ok true, t)) : Stable I event i := by
  have hcases := append_cases I maxBytes event (some i) token t
  rw [h] at hcases
  generalize hresult : (Except.ok true, t) = result at hcases
  have hr := congrArg Prod.fst hresult
  have ht := congrArg Prod.snd hresult
  cases hcases with
  | invalid => cases hr
  | oversize => cases hr
  | overfull => cases hr
  | @found j _ x hprepare _ _ _ hfind =>
    obtain ⟨rfl, -, -⟩ := prepare_supplied.mp hprepare
    obtain ⟨raw, record, hraw, hid, rfl⟩ := findEvent_eq_some hfind
    cases hcompare : compareEvents I record.event event with
    | error e =>
      rw [hcompare] at hr
      cases hr
    | ok u =>
      simp only [compareEvents, bind_eq_ok, raiseIf_eq_ok, not_not] at hcompare
      obtain ⟨_, ha, _, hb, rfl⟩ := hcompare
      exact stable_of_same hI hevent hraw hid ha hb
  | @written _ line _ n hprepare _ hwrites =>
    -- a line that is written makes the file another
    exfalso
    obtain rfl : t = _ := ht
    obtain ⟨body, rfl, -⟩ := prepare_line hprepare
    have hnone : n = 0 := by
      have hdropped := hwrites.dropped
      omega
    have hcontent := congrArg List.length hwrites.content
    rw [hnone, List.drop_zero, joinLines_splitLines] at hcontent
    simp only [List.length_append, List.length_singleton] at hcontent
    omega

/-- The record on the new line is the first with its id, where there was none. -/
theorem findEvent_written {s' : Spool} {body : Bytes} {n : Nat} {r : Record}
    (hwrites : Writes maxBytes s s' (body ++ [0x0A]) n) (hunbroken : Unbroken body)
    (hne : body ≠ []) (hnone : findEvent I i (bodies s.content) = none)
    (hread : decodeRecord I (unended (leftover maxBytes s.content (body.length + 1)) ++ body) =
      .ok r) (hid : r.eventId = some i) :
    findEvent I i (bodies s'.content) = some r.event := by
  have hleft : findEvent I i ((((splitLines s.content).drop n).filter
      fun l => l.ending ≠ []).map Line.body) = none := by
    refine findEvent_eq_none.mpr fun raw hraw => findEvent_eq_none.mp hnone raw ?_
    obtain ⟨l, hl, rfl⟩ := List.mem_map.mp hraw
    exact List.mem_map_of_mem (List.mem_of_mem_drop (List.mem_of_mem_filter hl))
  have hrecord : record? I (unended (leftover maxBytes s.content (body.length + 1)) ++ body) =
      some r := by
    rw [record?, hread]
  have hhas : hasId I i (unended (leftover maxBytes s.content (body.length + 1)) ++ body) =
      true := by
    rw [hasId, hrecord]
    exact decide_eq_true hid
  rw [bodies, hwrites.lines hunbroken hne, List.map_append, findEvent_append_none hleft,
    List.map_singleton, findEvent_cons]
  rw [Line.ended, hhas, if_pos rfl, hrecord]
  rfl

/-- A call that accepted a stable event leaves the event in the spool. -/
theorem holds_of_append (hI : I.Lawful) (hevent : event.distinct = true)
    (hstable : Stable I event i) (hplaced : Placed I maxBytes event i s.content) {token : PyStr}
    {s₁ : Spool} (haccept : s.append I maxBytes event (some i) token = (.ok true, s₁)) :
    ∃ x b line, Holds I maxBytes i x s₁ ∧ x.toObject.canonicalBytes I = .ok b ∧
      event.canonicalBytes I = .ok b ∧ isEventId i = true ∧
      encodeRecord I event i = .ok line ∧ line.length ≤ maxBytes := by
  have hcases := append_cases I maxBytes event (some i) token s
  rw [haccept] at hcases
  generalize hr : (Except.ok true : Except PyError Bool) = r at hcases
  cases hcases with
  | invalid => cases hr
  | oversize => cases hr
  | overfull => cases hr
  | @found j line x hprepare hfits hsize _ hfind =>
    obtain ⟨rfl, hi, hline⟩ := prepare_supplied.mp hprepare
    cases hcompare : compareEvents I x event with
    | error e =>
      rw [hcompare] at hr
      cases hr
    | ok u =>
      simp only [compareEvents, bind_eq_ok, raiseIf_eq_ok, not_not] at hcompare
      obtain ⟨b, ha, _, hb, rfl⟩ := hcompare
      exact ⟨x, b, line, ⟨hsize, hfind⟩, ha, hb, hi, hline, hfits⟩
  | @written j line _ n hprepare hnone hwrites =>
    obtain ⟨rfl, hi, hline⟩ := prepare_supplied.mp hprepare
    obtain ⟨body', hbody', hunbroken, hne⟩ := prepare_line hprepare
    obtain ⟨w, body, hw, hencodable, rfl, hdecode⟩ := encodeRecord_reads hI hevent hline
    obtain rfl : body = body' := List.append_cancel_right hbody'
    obtain ⟨b, ha, hb⟩ := canonicalBytes_read hw hencodable hstable.2
    have hfind := hnone rfl
    have hseparate : Separate I maxBytes event i s.content := by
      rcases hplaced with hfound | hseparate
      · rw [hfind] at hfound
        cases hfound
      · exact hseparate
    refine ⟨w, b, _, ⟨hwrites.fits, ?_⟩, ha, hb, hi, hline, ?_⟩
    · exact findEvent_written hwrites hunbroken hne hfind
        ((hseparate body hline).trans (hdecode hstable.1)) rfl
    · have hfits := hwrites.fits
      rw [hwrites.content, List.length_append] at hfits
      omega

/-- The other event has other canonical bytes. -/
def Differ (I : Interpreter) (event other : PyObject) : Prop :=
  ∃ c, other.canonicalBytes I = .ok c ∧ event.canonicalBytes I ≠ .ok c

/-- The event has a line that fits into a spool. -/
def HasLine (I : Interpreter) (maxBytes : Nat) (event : PyObject) (i : PyStr) : Prop :=
  ∃ line, encodeRecord I event i = .ok line ∧ line.length ≤ maxBytes

/-- An event is found under its id, and another event is refused there. -/
structure Idempotent (I : Interpreter) (maxBytes : Nat) (event : PyObject) (i : PyStr)
    (other : PyObject) (t : Spool) : Prop where
  retry : ∀ token, t.append I maxBytes event (some i) token = (.ok true, t)
  refused : Differ I event other → ∀ token, ∃ e,
    t.append I maxBytes other (some i) token = (.error e, t) ∧ e.cls = .valueError

/-- A call with the id compares the two events. -/
theorem Holds.append_eq {x : Json} (h : Holds I maxBytes i x t) (hi : isEventId i = true)
    (hline : HasLine I maxBytes event i) (token : PyStr) :
    t.append I maxBytes event (some i) token =
      ((compareEvents I x event).map fun _ => true, t) := by
  obtain ⟨line, hline, hfits⟩ := hline
  exact append_found (prepare_supplied.mpr ⟨rfl, hi, hline⟩) hfits h.fits rfl h.found

/-- A call that raises `ValueError` for an event that can be written had a line that fits. -/
theorem Holds.hasLine {x : Json} (h : Holds I maxBytes i x t) (hi : isEventId i = true)
    {b : Bytes} (hb : event.canonicalBytes I = .ok b) {token : PyStr} {e : PyError}
    (hcall : t.append I maxBytes event (some i) token = (.error e, t))
    (he : e.cls = .valueError) : HasLine I maxBytes event i := by
  have hcases := append_cases I maxBytes event (some i) token t
  rw [hcall] at hcases
  generalize hresult : (Except.error e, t) = result at hcases
  have hr := congrArg Prod.fst hresult
  cases hcases with
  | invalid hprepare =>
    obtain rfl := Except.error.inj hr
    have hencode : encodeRecord I event i = .error e := by
      rw [prepare, chooseId, validateEventId, if_pos hi, ok_bind] at hprepare
      cases hline : encodeRecord I event i with
      | error e' =>
        rw [hline, error_bind] at hprepare
        exact congrArg _ (Except.error.inj hprepare)
      | ok line =>
        rw [hline] at hprepare
        cases hprepare
    rw [encodeRecord_error hi hb hencode] at he
    cases he
  | oversize => cases hr
  | overfull hsize => exact absurd h.fits (Nat.not_le.mpr hsize)
  | @found j line _ hprepare hfits =>
    obtain ⟨rfl, -, hline⟩ := prepare_supplied.mp hprepare
    exact ⟨line, hline, hfits⟩
  | written => cases hr

/-- After an event was accepted, and while its record stays, it is idempotent exactly if it is
stable and the other event has a line that fits. -/
theorem append_idempotent_iff (hI : I.Lawful) (hevent : event.distinct = true)
    (hplaced : Placed I maxBytes event i s.content) {token : PyStr} {s₁ : Spool}
    (haccept : s.append I maxBytes event (some i) token = (.ok true, s₁))
    (hlater : (laterAppends I maxBytes i s₁).Reachable t) (other : PyObject) :
    Idempotent I maxBytes event i other t ↔
      Stable I event i ∧ (Differ I event other → HasLine I maxBytes other i) := by
  constructor
  · intro h
    have hstable : Stable I event i := stable_of_retry hI hevent (h.retry token)
    refine ⟨hstable, fun hother => ?_⟩
    obtain ⟨x, b, line, hholds, -, -, hi, -⟩ := holds_of_append hI hevent hstable hplaced haccept
    obtain ⟨c, hc, -⟩ := id hother
    obtain ⟨e, hcall, he⟩ := h.refused hother token
    exact (hholds.later hlater).hasLine hi hc hcall he
  · rintro ⟨hstable, hlines⟩
    obtain ⟨x, b, line, hholds, hx, hb, hi, hline, hfits⟩ :=
      holds_of_append hI hevent hstable hplaced haccept
    have ht : Holds I maxBytes i x t := hholds.later hlater
    constructor
    · intro token'
      rw [ht.append_eq hi ⟨line, hline, hfits⟩ token', (compareEvents_eq hx hb).1 rfl]
      rfl
    · intro hother token'
      obtain ⟨c, hc, hne⟩ := id hother
      have hbc : b ≠ c := by
        rintro rfl
        exact hne hb
      obtain ⟨e, he, hcls⟩ := (compareEvents_eq hx hc).2 hbc
      rw [ht.append_eq hi (hlines hother) token', he]
      exact ⟨e, rfl, hcls⟩

/-- `{9: True, 10: True}`, which is stored in the order of the numbers and read back
to be written in the order of the strings. -/
def numericKeys : PyObject := .dict [(.int 9, .bool true), (.int 10, .bool true)]

def numericSpool : Spool :=
  (Spool.append Sample.interpreter 1024 numericKeys (some sampleToken) [] ⟨[], 0, 0⟩).2

/-- The retry of an event that was accepted is refused. -/
theorem retry_refused :
    Spool.append Sample.interpreter 1024 numericKeys (some sampleToken) [] ⟨[], 0, 0⟩ =
      (.ok true, numericSpool) ∧
    (Spool.append Sample.interpreter 1024 numericKeys (some sampleToken) [] numericSpool).1.isOk =
      false := by
  decide +kernel

def stringSpool : Spool :=
  (Spool.append Sample.interpreter 1024 (.str (py "a")) (some sampleToken) [] ⟨[], 0, 0⟩).2

theorem append_idempotent_iff_sample :
    Idempotent Sample.interpreter 1024 (.str (py "a")) sampleToken longEvent stringSpool ↔
      Stable Sample.interpreter (.str (py "a")) sampleToken ∧
        (Differ Sample.interpreter (.str (py "a")) longEvent →
          HasLine Sample.interpreter 1024 longEvent sampleToken) :=
  append_idempotent_iff Sample.interpreter_lawful (by decide)
    (Or.inr (separate_of_terminated (Or.inl rfl)))
    (show Spool.append Sample.interpreter 1024 (.str (py "a")) (some sampleToken) []
      ⟨[], 0, 0⟩ = (.ok true, stringSpool) by decide +kernel) (.initial rfl) longEvent

end EdgeFort.Telemetry
