/-
No event that was accepted is lost without a trace.

Several processes share one spool file, each with an object and counters of its own.
An accepted record stays in the file on a line with its end until a sink took it or it
was evicted, each on a line, with a call or on an evicted line of its own.  A line without
an end, which only a crash leaves, takes the line that is appended to it along.
-/
import EdgeFort.Telemetry.Idempotence

namespace EdgeFort.Telemetry

open Effect Spool

variable {I : Interpreter} {maxBytes : Nat}

/-! ## Processes on one spool -/

/-- The counters of an `OfflineSpool` object. -/
structure Counters where
  corrupt : Nat
  dropped : Nat

/-- The file, the object of each process and the processes that have crashed.  No call
reads the rest: the events whose `append` returned `True` after it wrote them, with their
ids, what was passed to calls of a sink that returned, and what the objects counted in
`dropped`: the body of an evicted line, or nothing for an event that had no room. -/
structure Shared where
  content : Bytes
  counters : Nat → Counters
  crashed : List Nat
  accepted : List (PyObject × PyStr)
  delivered : List Json
  counted : List (Nat × Option Bytes)

namespace Shared

/-- The spool as the object of process `p` has it. -/
def view (w : Shared) (p : Nat) : Spool :=
  ⟨w.content, (w.counters p).corrupt, (w.counters p).dropped⟩

/-- The file and the counters of process `p` after a call. -/
def put (w : Shared) (p : Nat) (s : Spool) : Shared :=
  { w with content := s.content, counters := Function.update w.counters p ⟨s.corrupt, s.dropped⟩ }

def crash (w : Shared) (p : Nat) : Shared := { w with crashed := p :: w.crashed }

/-- What an `append` on `s` counted in `dropped`. -/
def drops (s : Spool) : Except PyError Bool × Spool → List (Option Bytes)
  | (.ok true, s') => ((bodies s.content).take (s'.dropped - s.dropped)).map some
  | (.ok false, _) => [none]
  | (.error _, _) => []

/-- `append` in process `p`, before it returns. -/
def append (I : Interpreter) (maxBytes : Nat) (w : Shared) (p : Nat) (event : PyObject)
    (eventId : Option PyStr) (token : PyStr) : Shared :=
  let result := (w.view p).append I maxBytes event eventId token
  { w.put p result.2 with
    counted := w.counted ++ (drops (w.view p) result).map fun body => (p, body) }

/-- The event an `append` on `s` has accepted. -/
def accepts (event : PyObject) (i : PyStr) (s : Spool) :
    Except PyError Bool × Spool → List (PyObject × PyStr)
  | (.ok true, s') => if s' = s then [] else [(event, i)]
  | _ => []

/-- `append` returns. -/
def appended (I : Interpreter) (maxBytes : Nat) (w : Shared) (p : Nat) (event : PyObject)
    (eventId : Option PyStr) (token : PyStr) : Shared :=
  { w.append I maxBytes p event eventId token with
    accepted := accepts event (eventId.getD token) (w.view p)
      ((w.view p).append I maxBytes event eventId token) ++ w.accepted }

/-- The calls of a sink that returned. -/
def returned (sink : Nat → Bool) (calls : List Json) : List Json :=
  (calls.zipIdx.filter fun call => sink call.2).map Prod.fst

/-- `_flush` in process `p`. -/
def flush (I : Interpreter) (maxBytes : Nat) (w : Shared) (p : Nat) (sink : Nat → Bool)
    (maxEvents : Option Int) (includeRecord : Bool) : Shared :=
  let (_, s, calls) := (w.view p).flush I maxBytes sink maxEvents includeRecord
  { w.put p s with delivered := w.delivered ++ returned sink calls }

/-- A `_flush` that has made some calls of the sink and written nothing. -/
def flushing (I : Interpreter) (maxBytes : Nat) (w : Shared) (p : Nat) (sink : Nat → Bool)
    (maxEvents : Option Int) (includeRecord : Bool) (made : Nat) : Shared :=
  let (_, _, calls) := (w.view p).flush I maxBytes sink maxEvents includeRecord
  { w with delivered := w.delivered ++ returned sink (calls.take made) }

end Shared

/-- A call of one process, or its crash: outside a call, inside an `append` before or
after the write or with a part of the line written, inside a flush before or after the
file is replaced. -/
inductive Shared.Step (I : Interpreter) (maxBytes : Nat) (w : Shared) (p : Nat) : Shared → Prop
  | append {event : PyObject} {eventId : Option PyStr} {token : PyStr} :
      event.distinct = true → Step I maxBytes w p (w.appended I maxBytes p event eventId token)
  | flush (sink : Nat → Bool) (maxEvents : Option Int) (includeRecord : Bool) :
      Step I maxBytes w p (w.flush I maxBytes p sink maxEvents includeRecord)
  | crash : Step I maxBytes w p (w.crash p)
  | appendCrash (event : PyObject) (eventId : Option PyStr) (token : PyStr) :
      Step I maxBytes w p ((w.append I maxBytes p event eventId token).crash p)
  | appendTorn (event : PyObject) (eventId : Option PyStr) (token : PyStr) {line : Bytes}
      (n : Nat) :
      ((w.view p).append I maxBytes event eventId token).2.content = w.content ++ line →
      Step I maxBytes w p ({ w with content := w.content ++ line.take n }.crash p)
  | flushingCrash (sink : Nat → Bool) (maxEvents : Option Int) (includeRecord : Bool)
      (made : Nat) :
      Step I maxBytes w p
        ((w.flushing I maxBytes p sink maxEvents includeRecord made).crash p)
  | flushCrash (sink : Nat → Bool) (maxEvents : Option Int) (includeRecord : Bool) :
      Step I maxBytes w p ((w.flush I maxBytes p sink maxEvents includeRecord).crash p)

/-- Processes that share a spool file, whatever it holds at first. -/
def sharedSystem (I : Interpreter) (maxBytes : Nat) : System Shared where
  initial w := Spool.opened maxBytes w.content = .ok ⟨w.content, 0, 0⟩ ∧
    w = ⟨w.content, fun _ => ⟨0, 0⟩, [], [], [], []⟩
  step w w' := ∃ p, p ∉ w.crashed ∧ Shared.Step I maxBytes w p w'

/-! ## Accounted events -/

/-- An accepted record: the event and its id, the body of the line and what that reads as. -/
structure Entry where
  event : PyObject
  eventId : PyStr
  body : Bytes
  record : Record

namespace Entry

def key (e : Entry) : PyObject × PyStr := (e.event, e.eventId)

def line (e : Entry) : Line := .ended e.body

end Entry

/-- The line reads as a record with the id and with what is written of the event. -/
structure IsRecord (I : Interpreter) (event : PyObject) (i : PyStr) (body : Bytes) (r : Record) :
    Prop where
  decoded : decodeRecord I body = .ok r
  eventId : r.eventId = some i
  event : ∃ n, event.written I n = .ok r.event

/-- Where the accepted records are, each in a place of its own: on lines that have an end,
with calls of a sink that returned, and on lines that an object has evicted and counted. -/
structure Places (I : Interpreter) (w : Shared) (kept : List Entry) (sent : List (Bool × Entry))
    (evicted : List (Nat × Entry)) : Prop where
  accepted : ((kept ++ sent.map Prod.snd ++ evicted.map Prod.snd).map Entry.key).Perm w.accepted
  records : ∀ e ∈ kept ++ sent.map Prod.snd ++ evicted.map Prod.snd,
    IsRecord I e.event e.eventId e.body e.record
  lines : (kept.map Entry.line).Sublist (splitLines w.content)
  delivered : (sent.map fun e => delivery e.1 e.2.record).Sublist w.delivered
  counted : (evicted.map fun e => (e.1, some e.2.body)).Sublist w.counted

/-- Every accepted event is in the spool, or a sink took it, or its line was evicted and
counted. -/
def Accounted (I : Interpreter) (w : Shared) : Prop :=
  ∃ kept sent evicted, Places I w kept sent evicted

/-- What the object of `p` counted in `dropped` is what it evicted or refused. -/
def Shared.Ledger (w : Shared) : Prop :=
  ∀ p, (w.counters p).dropped = w.counted.countP fun entry => entry.1 = p

/-- An event is accepted only where its record can be read: as it is written, and behind what
follows the last line break. -/
def Legible (I : Interpreter) (maxBytes : Nat) (w w' : Shared) : Prop :=
  ∀ e, w'.accepted = e :: w.accepted →
    Readable I e.1 e.2 ∧ Separate I maxBytes e.1 e.2 w.content

/-- There is a record of the event: on a line of the spool, with a call of a sink that
returned, or on an evicted line. -/
def Traced (I : Interpreter) (w : Shared) (event : PyObject) (i : PyStr) : Prop :=
  ∃ body r, IsRecord I event i body r ∧
    (body ∈ bodies w.content ∨ (∃ includeRecord, delivery includeRecord r ∈ w.delivered) ∨
      ∃ p, (p, some body) ∈ w.counted)

theorem Accounted.traced {w : Shared} (h : Accounted I w) {e : PyObject × PyStr}
    (he : e ∈ w.accepted) : Traced I w e.1 e.2 := by
  obtain ⟨kept, sent, evicted, h⟩ := h
  obtain ⟨entry, hentry, rfl⟩ := List.mem_map.mp (h.accepted.mem_iff.mpr he)
  refine ⟨entry.body, entry.record, h.records entry hentry, ?_⟩
  rcases List.mem_append.mp hentry with hentry | hevicted
  · rcases List.mem_append.mp hentry with hkept | hsent
    · exact Or.inl (List.mem_map_of_mem (h.lines.subset (List.mem_map_of_mem hkept)))
    · obtain ⟨⟨b, entry⟩, hmem, rfl⟩ := List.mem_map.mp hsent
      exact Or.inr (Or.inl ⟨b, h.delivered.subset (List.mem_map.mpr ⟨_, hmem, rfl⟩)⟩)
  · obtain ⟨⟨p, entry⟩, hmem, rfl⟩ := List.mem_map.mp hevicted
    exact Or.inr (Or.inr ⟨p, h.counted.subset (List.mem_map.mpr ⟨_, hmem, rfl⟩)⟩)

/-! ## What a call keeps -/

variable {w : Shared} {kept : List Entry} {sent : List (Bool × Entry)}
  {evicted : List (Nat × Entry)}

/-- Some of the values of a list, before and after a place in it. -/
theorem sublist_take_drop {α β : Type} {f : α → β} {xs : List α} {ys : List β}
    (h : (xs.map f).Sublist ys) (n : Nat) : ∃ before after, xs = before ++ after ∧
      (before.map f).Sublist (ys.take n) ∧ (after.map f).Sublist (ys.drop n) := by
  rw [← List.take_append_drop n ys, List.sublist_append_iff] at h
  obtain ⟨_, _, hmap, hbefore, hafter⟩ := h
  obtain ⟨before, after, rfl, rfl, rfl⟩ := List.map_eq_append_iff.mp hmap
  exact ⟨before, after, rfl, hbefore, hafter⟩

/-- Lines of entries pass where every ended line does. -/
theorem sublist_filter_lines {lines : List Line} (h : (kept.map Entry.line).Sublist lines)
    {p : Line → Bool} (hp : ∀ body, p (.ended body) = true) :
    (kept.map Entry.line).Sublist (lines.filter p) := by
  have hself : (kept.map Entry.line).filter p = kept.map Entry.line := by
    refine List.filter_eq_self.mpr fun l hl => ?_
    obtain ⟨e, -, rfl⟩ := List.mem_map.mp hl
    exact hp e.body
  rw [← hself]
  exact h.filter p

theorem prepare_getD {event : PyObject} {eventId : Option PyStr} {token i : PyStr} {line : Bytes}
    (h : prepare I event eventId token = .ok (i, line)) :
    i = eventId.getD token ∧ encodeRecord I event i = .ok line := by
  simp only [Spool.prepare, bind_eq_ok, pure_eq_ok, Prod.mk.injEq] at h
  obtain ⟨j, hj, _, hline, rfl, rfl⟩ := h
  refine ⟨?_, hline⟩
  cases eventId with
  | none => exact (Except.ok.inj hj).symm
  | some i =>
    simp only [chooseId, validateEventId] at hj
    split_ifs at hj
    exact (Except.ok.inj hj).symm

theorem accepts_cases {event : PyObject} {i : PyStr} {s : Spool}
    {result : Except PyError Bool × Spool} {new : List (PyObject × PyStr)}
    (h : Shared.accepts event i s result = new) : new = [] ∨ new = [(event, i)] := by
  subst h
  unfold Shared.accepts
  split
  · split_ifs
    · exact Or.inl rfl
    · exact Or.inr rfl
  · exact Or.inl rfl

theorem eq_of_mem_accepts {event : PyObject} {i : PyStr} {s : Spool}
    {result : Except PyError Bool × Spool} {e : PyObject × PyStr}
    (h : e ∈ Shared.accepts event i s result) : e = (event, i) := by
  rcases accepts_cases (rfl : Shared.accepts event i s result = _) with hnil | hone
  · rw [hnil] at h
    cases h
  · rw [hone] at h
    exact List.mem_singleton.mp h

/-- A call that adds bytes to the file, or leaves it, moves no record. -/
theorem Places.same (h : Places I w kept sent evicted) {w' : Shared}
    (haccepted : w'.accepted = w.accepted)
    (hlines : (kept.map Entry.line).Sublist (splitLines w'.content))
    (hdelivered : w.delivered.Sublist w'.delivered) (hcounted : w.counted.Sublist w'.counted) :
    Places I w' kept sent evicted where
  accepted := haccepted ▸ h.accepted
  records := h.records
  lines := hlines
  delivered := h.delivered.trans hdelivered
  counted := h.counted.trans hcounted

/-- The records on evicted lines are counted, and the others stay before the new line. -/
theorem Places.write (h : Places I w kept sent evicted) (w' : Shared) {n p : Nat} {line : Line}
    (haccepted : w'.accepted = w.accepted) (hdelivered : w'.delivered = w.delivered)
    (hcontent : splitLines w'.content =
      ((splitLines w.content).drop n).filter (fun l => l.ending ≠ []) ++ [line])
    (hcounted : w'.counted =
      w.counted ++ ((bodies w.content).take n).map fun body => (p, some body)) :
    ∃ stay gone, Places I w' stay sent (evicted ++ gone) ∧
      (stay.map Entry.line ++ [line]).Sublist (splitLines w'.content) := by
  obtain ⟨before, after, rfl, hbefore, hafter⟩ := sublist_take_drop h.lines n
  have hperm : (after ++ sent.map Prod.snd ++
      (evicted ++ before.map fun e => (p, e)).map Prod.snd).Perm
      (before ++ after ++ sent.map Prod.snd ++ evicted.map Prod.snd) := by
    have hself : (before.map fun e => (p, e)).map Prod.snd = before := by simp
    rw [List.map_append, hself]
    simpa only [List.append_assoc] using (List.perm_append_comm :
      (after ++ sent.map Prod.snd ++ evicted.map Prod.snd ++ before).Perm _)
  have hstay : (after.map Entry.line ++ [line]).Sublist (splitLines w'.content) := by
    rw [hcontent]
    exact (sublist_filter_lines hafter fun _ => rfl).append_right [line]
  refine ⟨after, before.map fun e => (p, e), ⟨?_, ?_, ?_, ?_, ?_⟩, hstay⟩
  · rw [haccepted]
    exact (hperm.map _).trans h.accepted
  · exact fun e he => h.records e (hperm.mem_iff.mp he)
  · exact (List.sublist_append_left _ _).trans hstay
  · rw [hdelivered]
    exact h.delivered
  · have hbodies : (before.map Entry.body).Sublist ((bodies w.content).take n) := by
      have hmap := hbefore.map Line.body
      rwa [List.map_map, List.map_take] at hmap
    have hentries := hbodies.map fun body => (p, some body)
    rw [hcounted, List.map_append]
    refine h.counted.append ?_
    rw [List.map_map] at hentries ⊢
    exact hentries

/-- An `append` leaves the file and accepts nothing, or it counts the lines it evicts and puts
the line of the event behind the others. -/
theorem Shared.append_cases (I : Interpreter) (maxBytes : Nat) (w : Shared) (p : Nat)
    (event : PyObject) (eventId : Option PyStr) (token : PyStr) :
    (Shared.accepts event (eventId.getD token) (w.view p)
        ((w.view p).append I maxBytes event eventId token) = [] ∧
      (w.append I maxBytes p event eventId token).content = w.content) ∨
    ∃ body n, encodeRecord I event (eventId.getD token) = .ok (body ++ [0x0A]) ∧
      splitLines (w.append I maxBytes p event eventId token).content =
        ((splitLines w.content).drop n).filter (fun l => l.ending ≠ []) ++
          [Line.ended (unended (leftover maxBytes w.content (body.length + 1)) ++ body)] ∧
      (w.append I maxBytes p event eventId token).counted =
        w.counted ++ ((bodies w.content).take n).map fun body => (p, some body) := by
  have hcases := Spool.append_cases I maxBytes event eventId token (w.view p)
  unfold Shared.append
  cases hcall : (w.view p).append I maxBytes event eventId token with
  | mk result s' =>
    rw [hcall] at hcases
    cases hcases with
    | invalid | oversize | overfull => exact Or.inl ⟨rfl, rfl⟩
    | @found _ _ existing =>
      left
      cases compareEvents I existing event with
      | error => exact ⟨rfl, rfl⟩
      | ok => exact ⟨if_pos rfl, rfl⟩
    | @written i line _ n hprepare _ hwrites =>
      right
      obtain ⟨body, rfl, hunbroken, hne⟩ := prepare_line hprepare
      obtain ⟨hid, hline⟩ := prepare_getD hprepare
      have hcount : s'.dropped - (w.view p).dropped = n := by
        rw [hwrites.dropped, Nat.add_sub_cancel_left]
      refine ⟨body, n, hid ▸ hline, hwrites.lines hunbroken hne, ?_⟩
      dsimp only
      rw [Shared.drops, hcount, List.map_map]
      rfl

/-- An `append` keeps the records, or counts the lines it evicts. -/
theorem Places.append (h : Places I w kept sent evicted) (p : Nat) (event : PyObject)
    (eventId : Option PyStr) (token : PyStr) :
    ∃ stay gone, Places I (w.append I maxBytes p event eventId token) stay sent
      (evicted ++ gone) := by
  rcases Shared.append_cases I maxBytes w p event eventId token with
    ⟨-, hcontent⟩ | ⟨body, n, -, hlines, hcounted⟩
  · refine ⟨kept, [], ?_⟩
    rw [List.append_nil]
    exact h.same rfl (hcontent ▸ h.lines) (.refl _) (List.sublist_append_left _ _)
  · obtain ⟨stay, gone, hplaces, -⟩ :=
      h.write (w.append I maxBytes p event eventId token) rfl rfl hlines hcounted
    exact ⟨stay, gone, hplaces⟩

/-- An accepted record stands on a line with its end, if it can be read there. -/
theorem Places.accept (hI : I.Lawful) (h : Places I w kept sent evicted) {p : Nat}
    {event : PyObject} {eventId : Option PyStr} {token : PyStr} (hevent : event.distinct = true)
    (hlegible : Legible I maxBytes w (w.appended I maxBytes p event eventId token)) :
    Accounted I (w.appended I maxBytes p event eventId token) := by
  rcases accepts_cases (rfl : Shared.accepts event (eventId.getD token) (w.view p)
    ((w.view p).append I maxBytes event eventId token) = _) with hnone | hnew
  · obtain ⟨stay, gone, hplaces⟩ := h.append (I := I) p event eventId token
    unfold Shared.appended
    rw [hnone]
    exact ⟨stay, sent, evicted ++ gone, hplaces⟩
  · rcases Shared.append_cases I maxBytes w p event eventId token with
      ⟨hnone, -⟩ | ⟨body, n, hencode, hlines, hcounted⟩
    · rw [hnone] at hnew
      cases hnew
    · obtain ⟨stay, gone, hplaces, hstay⟩ :=
        h.write (w.append I maxBytes p event eventId token) rfl rfl hlines hcounted
      unfold Shared.appended at hlegible ⊢
      rw [hnew] at hlegible ⊢
      obtain ⟨hreadable, hseparate⟩ := hlegible _ rfl
      obtain ⟨v, body', hv, -, hbody, hdecode⟩ := encodeRecord_reads hI hevent hencode
      obtain rfl := List.append_cancel_right hbody
      let entry : Entry := ⟨event, eventId.getD token,
        unended (leftover maxBytes w.content (body.length + 1)) ++ body,
        ⟨some (eventId.getD token), v, true⟩⟩
      have hperm : (stay ++ [entry] ++ sent.map Prod.snd ++ (evicted ++ gone).map Prod.snd).Perm
          (entry :: (stay ++ sent.map Prod.snd ++ (evicted ++ gone).map Prod.snd)) := by
        simp only [List.append_assoc, List.singleton_append]
        exact List.perm_middle
      refine ⟨stay ++ [entry], sent, evicted ++ gone,
        ⟨?_, ?_, ?_, hplaces.delivered, hplaces.counted⟩⟩
      · exact (hperm.map Entry.key).trans (hplaces.accepted.cons _)
      · intro e he
        rcases List.mem_cons.mp (hperm.mem_iff.mp he) with rfl | he
        · exact ⟨(hseparate body hencode).trans (hdecode hreadable), rfl, _, hv⟩
        · exact hplaces.records e he
      · rw [List.map_append]
        exact hstay

/-- What a flush does: nothing, or the loop over all lines. -/
theorem flush_cases (I : Interpreter) (maxBytes : Nat) (s : Spool) (sink : Nat → Bool)
    (maxEvents : Option Int) (includeRecord : Bool) :
    (∃ r, s.flush I maxBytes sink maxEvents includeRecord = (r, s, [])) ∨
    ∃ st stop k, Delivers I sink maxEvents includeRecord (bodies s.content) ⟨[], 0, s.corrupt, []⟩
        st stop k ∧
      s.flush I maxBytes sink maxEvents includeRecord = (.ok st.sent,
        { s with content := st.remaining.flatMap (· ++ [0x0A]), corrupt := st.corrupt },
        st.calls) := by
  by_cases hneg : maxEvents.any (fun m : Int => m < 0) = true
  · left
    rw [Spool.flush, if_pos hneg]
    exact ⟨_, rfl⟩
  · rcases Nat.lt_or_ge maxBytes s.content.length with hsize | hsize
    · left
      obtain ⟨e, he⟩ := read_error hsize
      rw [Spool.flush, if_neg hneg, he]
      exact ⟨_, rfl⟩
    · rw [Spool.flush, if_neg hneg, read_ok hsize]
      dsimp only
      by_cases hnil : s.content = []
      · left
        rw [if_pos hnil]
        exact ⟨_, rfl⟩
      · right
        obtain ⟨stop, k, h⟩ := flushLoop_delivers I sink maxEvents includeRecord
          (bodies s.content) ⟨[], 0, s.corrupt, []⟩ rfl rfl (budget_nonneg hneg)
        rw [if_neg hnil]
        exact ⟨_, stop, k, h, rfl⟩

/-- The calls of the loop for the records it has passed have returned. -/
theorem Delivers.sublist_returned {sink : Nat → Bool} {maxEvents : Option Int}
    {includeRecord : Bool} {lines : List Bytes} {corrupt : Nat} {st : Flush} {stop k : Nat}
    (h : Delivers I sink maxEvents includeRecord lines ⟨[], 0, corrupt, []⟩ st stop k) :
    ((recordsOf I (lines.take stop)).map (delivery includeRecord)).Sublist
      (Shared.returned sink st.calls) := by
  have hk : k ≤ st.calls.length := by
    rcases h.calls_eq.2 with ⟨hlen, -⟩ | ⟨hlen, -⟩ <;> omega
  have hpassed : (recordsOf I (lines.take stop)).map (delivery includeRecord) =
      (st.calls.zipIdx.take k).map Prod.fst := by
    rw [h.records, List.map_take, List.map_take, List.zipIdx_map_fst, h.calls_eq.1, ← List.map_take,
      ← List.map_take, List.take_take, min_eq_left hk]
  have hreturned : ∀ call ∈ st.calls.zipIdx.take k, sink call.2 = true := by
    intro call hcall
    obtain ⟨j, hget⟩ := List.mem_iff_getElem?.mp hcall
    rw [List.getElem?_take] at hget
    split_ifs at hget with hjk
    rw [List.getElem?_zipIdx] at hget
    obtain ⟨_, -, rfl⟩ := Option.map_eq_some_iff.mp hget
    simpa using h.returned j hjk
  rw [hpassed, Shared.returned, ← List.filter_eq_self.mpr hreturned]
  exact ((List.take_sublist _ _).filter _).map _

/-- A flush passes a record to a call that returns, or keeps its line. -/
theorem Places.flush (h : Places I w kept sent evicted) (p : Nat) (sink : Nat → Bool)
    (maxEvents : Option Int) (includeRecord : Bool) :
    ∃ stay gone, Places I (w.flush I maxBytes p sink maxEvents includeRecord) stay (sent ++ gone)
      evicted := by
  unfold Shared.flush
  rcases flush_cases I maxBytes (w.view p) sink maxEvents includeRecord with
    ⟨result, hflush⟩ | ⟨st, stop, k, hloop, hflush⟩
  · rw [hflush]
    refine ⟨kept, [], ?_⟩
    rw [List.append_nil]
    exact h.same rfl h.lines (List.sublist_append_left _ _) (.refl _)
  · rw [hflush]
    obtain ⟨before, after, rfl, hbefore, hafter⟩ := sublist_take_drop h.lines stop
    have hperm : (after ++ (sent ++ before.map fun e => (includeRecord, e)).map Prod.snd ++
        evicted.map Prod.snd).Perm
        (before ++ after ++ sent.map Prod.snd ++ evicted.map Prod.snd) := by
      have hself : (before.map fun e => (includeRecord, e)).map Prod.snd = before := by simp
      rw [List.map_append, hself]
      refine List.Perm.append_right _ ?_
      simpa only [List.append_assoc] using (List.perm_append_comm :
        (after ++ sent.map Prod.snd ++ before).Perm _)
    have hrecords : before.map Entry.record = recordsOf I (before.map Entry.body) := by
      rw [recordsOf, List.filterMap_map]
      refine (List.filterMap_eq_map_iff_forall_eq_some.mpr fun e he => ?_).symm
      have hdecoded := (h.records e (by simp [he])).decoded
      rw [Function.comp, record?, hdecoded]
    have hsent : (before.map Entry.body).Sublist ((bodies w.content).take stop) := by
      have hmap := hbefore.map Line.body
      rwa [List.map_map, List.map_take] at hmap
    refine ⟨after, before.map fun e => (includeRecord, e), ⟨?_, ?_, ?_, ?_, h.counted⟩⟩
    · exact (hperm.map _).trans h.accepted
    · exact fun e he => h.records e (hperm.mem_iff.mp he)
    · show (after.map Entry.line).Sublist (splitLines (st.remaining.flatMap (· ++ [0x0A])))
      rw [hloop.remaining, splitLines_ended_lines fun raw hraw =>
        unbroken_bodies (List.mem_of_mem_drop hraw)]
      have hmap := hafter.map (Line.ended ∘ Line.body)
      rw [List.map_map] at hmap
      show (after.map Entry.line).Sublist (((bodies w.content).drop stop).map Line.ended)
      rw [bodies, ← List.map_drop, List.map_map]
      exact hmap
    · rw [List.map_append]
      refine h.delivered.append ?_
      have hdelivered := ((hsent.filterMap (record? I)).map (delivery includeRecord)).trans
        hloop.sublist_returned
      change ((recordsOf I (before.map Entry.body)).map (delivery includeRecord)).Sublist _
        at hdelivered
      rw [← hrecords, List.map_map] at hdelivered
      rw [List.map_map]
      exact hdelivered

/-- Every step leaves the records accounted for. -/
theorem Accounted.step (hI : I.Lawful) {w' : Shared} {p : Nat} (h : Accounted I w)
    (hstep : Shared.Step I maxBytes w p w') (hlegible : Legible I maxBytes w w') :
    Accounted I w' := by
  obtain ⟨kept, sent, evicted, h⟩ := h
  cases hstep with
  | append hevent => exact h.accept hI hevent hlegible
  | flush sink maxEvents includeRecord =>
    obtain ⟨stay, gone, hplaces⟩ := h.flush p sink maxEvents includeRecord
    exact ⟨_, _, _, hplaces⟩
  | crash => exact ⟨kept, sent, evicted, h.same rfl h.lines (.refl _) (.refl _)⟩
  | appendCrash event eventId token =>
    obtain ⟨stay, gone, hplaces⟩ := h.append p event eventId token
    exact ⟨_, _, _, hplaces.same rfl hplaces.lines (.refl _) (.refl _)⟩
  | @appendTorn _ _ _ line n hline =>
    have hlines := (sublist_filter_lines (p := fun l => l.ending = [0x0A]) h.lines
      fun _ => rfl).trans (splitLines_sublist w.content (line.take n))
    exact ⟨kept, sent, evicted, h.same rfl hlines (.refl _) (.refl _)⟩
  | flushingCrash sink maxEvents includeRecord made =>
    exact ⟨kept, sent, evicted, h.same rfl h.lines (List.sublist_append_left _ _) (.refl _)⟩
  | flushCrash sink maxEvents includeRecord =>
    obtain ⟨stay, gone, hplaces⟩ := h.flush p sink maxEvents includeRecord
    exact ⟨_, _, _, hplaces.same rfl hplaces.lines (.refl _) (.refl _)⟩

/-! ## The counters -/

/-- `append` counts what it drops. -/
theorem length_drops (I : Interpreter) (maxBytes : Nat) (s : Spool) (event : PyObject)
    (eventId : Option PyStr) (token : PyStr) :
    (s.append I maxBytes event eventId token).2.dropped =
      s.dropped + (Shared.drops s (s.append I maxBytes event eventId token)).length := by
  have hcases := append_cases I maxBytes event eventId token s
  cases hcall : s.append I maxBytes event eventId token with
  | mk result s' =>
    rw [hcall] at hcases
    cases hcases with
    | invalid | oversize | overfull => rfl
    | @found _ _ existing =>
      cases compareEvents I existing event with
      | error => rfl
      | ok => simp [Shared.drops, Except.map]
    | @written _ _ _ n _ _ hwrites =>
      have hle : n ≤ (bodies s.content).length := by
        rw [bodies, List.length_map]
        exact hwrites.dropped_le
      simp only [Shared.drops, hwrites.dropped, Nat.add_sub_cancel_left, List.length_map,
        List.length_take]
      omega

theorem dropped_flush (I : Interpreter) (maxBytes : Nat) (s : Spool) (sink : Nat → Bool)
    (maxEvents : Option Int) (includeRecord : Bool) :
    (s.flush I maxBytes sink maxEvents includeRecord).2.1.dropped = s.dropped := by
  rcases flush_cases I maxBytes s sink maxEvents includeRecord with
    ⟨r, hflush⟩ | ⟨st, stop, k, -, hflush⟩
  · rw [hflush]
  · rw [hflush]

theorem Shared.Ledger.append {w : Shared} (h : w.Ledger) (p : Nat) (event : PyObject)
    (eventId : Option PyStr) (token : PyStr) :
    (w.append I maxBytes p event eventId token).Ledger := by
  intro q
  have hq := h q
  have hlen := length_drops I maxBytes (w.view p) event eventId token
  simp only [Shared.append, Shared.put, List.countP_append, List.countP_map]
  generalize Shared.drops (w.view p) _ = dropped at hlen ⊢
  by_cases hqp : q = p
  · subst hqp
    rw [Function.update_self, hlen, ← hq, List.countP_eq_length.mpr (by simp)]
    rfl
  · have hothers : dropped.countP ((fun entry : Nat × Option Bytes => decide (entry.1 = q)) ∘
        fun body => (p, body)) = 0 := List.countP_eq_zero.mpr (by simpa using fun _ _ => Ne.symm hqp)
    rw [Function.update_of_ne hqp, hq, hothers, Nat.add_zero]

theorem Shared.Ledger.flush {w : Shared} (h : w.Ledger) (p : Nat) (sink : Nat → Bool)
    (maxEvents : Option Int) (includeRecord : Bool) :
    (w.flush I maxBytes p sink maxEvents includeRecord).Ledger := by
  intro q
  have hdropped := dropped_flush I maxBytes (w.view p) sink maxEvents
    includeRecord
  show (Function.update w.counters p _ q).dropped = _
  by_cases hqp : q = p
  · subst hqp
    rw [Function.update_self]
    exact hdropped.trans (h q)
  · rw [Function.update_of_ne hqp]
    exact h q

theorem Shared.Step.ledger {w w' : Shared} {p : Nat} (hstep : Shared.Step I maxBytes w p w')
    (h : w.Ledger) : w'.Ledger := by
  cases hstep with
  | append hevent => exact h.append p _ _ _
  | flush sink maxEvents includeRecord => exact h.flush p sink maxEvents includeRecord
  | crash | appendTorn | flushingCrash => exact h
  | appendCrash event eventId token => exact h.append p event eventId token
  | flushCrash sink maxEvents includeRecord => exact h.flush p sink maxEvents includeRecord

/-! ## Runs -/

/-- In every run in which the events are accepted where their records can be read, every
accepted event is accounted for, and the counters tell what was evicted. -/
theorem accepted_accounted (hI : I.Lawful) {w : Shared}
    (h : ((sharedSystem I maxBytes).restrict (Legible I maxBytes)).Reachable w) :
    Accounted I w ∧ w.Ledger := by
  apply System.invariant (fun w => Accounted I w ∧ w.Ledger) ?_ ?_ h
  · rintro w ⟨-, hw⟩
    rw [hw]
    exact ⟨⟨[], [], [], ⟨.nil, List.forall_mem_nil _, List.nil_sublist _, .slnil, .slnil⟩⟩,
      fun _ => rfl⟩
  · rintro w w' ⟨haccounted, hledger⟩ ⟨⟨p, -, hstep⟩, hlegible⟩
    exact ⟨haccounted.step hI hstep hlegible, hstep.ledger hledger⟩

/-! ## Samples -/

def emptyShared : Shared := ⟨[], fun _ => ⟨0, 0⟩, [], [], [], []⟩

/-- Process 0 appends the event `"a"`. -/
def acceptedShared : Shared :=
  emptyShared.appended Sample.interpreter 1024 0 (.str (py "a")) none sampleToken

theorem accepted_accounted_sample : acceptedShared.accepted ≠ [] ∧
    Accounted Sample.interpreter acceptedShared ∧ acceptedShared.Ledger := by
  have hempty : ((sharedSystem Sample.interpreter 1024).restrict
      (Legible Sample.interpreter 1024)).Reachable emptyShared := .initial ⟨rfl, rfl⟩
  have hlegible : Legible Sample.interpreter 1024 emptyShared acceptedShared := by
    intro e he
    obtain rfl : e = (.str (py "a"), sampleToken) := by
      have hmem : e ∈ acceptedShared.accepted := he ▸ List.mem_cons_self
      rcases List.mem_append.mp hmem with hmem | hmem
      · exact eq_of_mem_accepts hmem
      · cases hmem
    refine ⟨fun data hdata => ?_, separate_of_terminated (s := emptyShared.view 0) (Or.inl rfl)⟩
    obtain ⟨m, w, -, hw, rfl⟩ := written_record.mp hdata
    obtain rfl := Except.ok.inj hw
    exact Json.readDepth_flat Sample.interpreter rfl
  have hreach : ((sharedSystem Sample.interpreter 1024).restrict
      (Legible Sample.interpreter 1024)).Reachable acceptedShared :=
    .step hempty ⟨⟨0, List.not_mem_nil, .append rfl⟩, hlegible⟩
  refine ⟨fun hnil => ?_, accepted_accounted Sample.interpreter_lawful hreach⟩
  have hone : acceptedShared.accepted.length = 1 := by rfl
  rw [hnil] at hone
  cases hone

/-- The line of the event `"a"`. -/
def sampleLine : Bytes :=
  (Spool.append Sample.interpreter 1024 (.str (py "a")) none sampleToken ⟨[], 0, 0⟩).2.content

/-- Process 0 has crashed in an `append` that had written one byte. -/
def tornShared : Shared := { emptyShared with content := sampleLine.take 1 }.crash 0

/-- Then process 1 appends the event `"a"`. -/
def lostShared : Shared :=
  tornShared.appended Sample.interpreter 1024 1 (.str (py "a")) none sampleToken

theorem lostShared_reachable : (sharedSystem Sample.interpreter 1024).Reachable lostShared := by
  have hempty : (sharedSystem Sample.interpreter 1024).Reachable emptyShared :=
    .initial ⟨rfl, rfl⟩
  have hline : ((emptyShared.view 0).append Sample.interpreter 1024 (.str (py "a")) none
      sampleToken).2.content = emptyShared.content ++ sampleLine := rfl
  have htorn : (sharedSystem Sample.interpreter 1024).Reachable tornShared :=
    .step hempty ⟨0, List.not_mem_nil, .appendTorn (.str (py "a")) none sampleToken 1 hline⟩
  exact .step htorn ⟨1, by decide, .append rfl⟩

/-- The event is accepted, and its record is neither in the spool nor delivered nor
evicted: the torn line took it along. -/
theorem torn_line_loses_event : (sharedSystem Sample.interpreter 1024).Reachable lostShared ∧
    (∃ e ∈ lostShared.accepted, ¬Traced Sample.interpreter lostShared e.1 e.2) ∧
      ¬Accounted Sample.interpreter lostShared := by
  have hlines : ∀ raw ∈ bodies lostShared.content,
      (decodeRecord Sample.interpreter raw).isOk = false := by decide +kernel
  have hcalls : lostShared.delivered = [] ∧ lostShared.counted = [] := by
    constructor
    · rfl
    · exact List.eq_nil_of_length_eq_zero (by rfl)
  have haccepted : 0 < lostShared.accepted.length := by decide
  obtain ⟨e, he⟩ := List.exists_mem_of_length_pos haccepted
  have hlost : ¬Traced Sample.interpreter lostShared e.1 e.2 := by
    rintro ⟨body, r, hrecord, hline | ⟨_, hdelivered⟩ | ⟨p, hcounted⟩⟩
    · have hok := hlines body hline
      rw [hrecord.decoded] at hok
      cases hok
    · rw [hcalls.1] at hdelivered
      cases hdelivered
    · rw [hcalls.2] at hcounted
      cases hcounted
  exact ⟨lostShared_reachable, ⟨e, he, hlost⟩, fun h => hlost (h.traced he)⟩

end EdgeFort.Telemetry
