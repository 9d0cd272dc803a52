/-
What one call of `append` does.

A call raises, refuses, finds the record or writes it; only the last changes the
file.
-/
import EdgeFort.Telemetry.Spool

namespace EdgeFort.Telemetry

open Effect

variable {I : Interpreter} {maxBytes : Nat} {s : Spool}

/-! ## The line of an event -/

/-- A line is the canonical text of its record, and a line break after it. -/
theorem encodeRecord_eq_ok {event : PyObject} {eventId : PyStr} {line : Bytes} :
    encodeRecord I event eventId = .ok line ↔ isEventId eventId = true ∧
      ∃ encoded, (record event eventId).canonicalBytes I = .ok encoded ∧
        line = encoded ++ [0x0A] := by
  have hvalid : (∃ i, validateEventId (.str eventId) = .ok i) ↔ isEventId eventId = true := by
    unfold validateEventId
    dsimp only
    split_ifs with h
    · simp [h]
    · simp [h]
  unfold encodeRecord
  simp only [bind_eq_ok, pure_eq_ok]
  constructor
  · rintro ⟨i, hi, encoded, hencoded, rfl⟩
    exact ⟨hvalid.mp ⟨i, hi⟩, encoded, hencoded, rfl⟩
  · rintro ⟨hi, encoded, hencoded, rfl⟩
    obtain ⟨i, hi'⟩ := hvalid.mpr hi
    exact ⟨i, hi', encoded, hencoded, rfl⟩

theorem unbroken_canonicalBytes {v : PyObject} {b : Bytes} (h : v.canonicalBytes I = .ok b) :
    Unbroken b ∧ b ≠ [] := by
  obtain ⟨w, -, hw, hb⟩ := PyObject.canonicalBytes_eq_ok.mp h
  constructor
  · exact unbroken_utf8Encode hb (Json.not_control_of_mem_render
      (p := utf8Encodable) (Json.stringsAll_of_encodable (fun _ hs => hs) w hw))
  · rintro rfl
    obtain ⟨c, t, hrender, -⟩ : Json.Starts I false w :=
      Json.starts_of_readable (Json.readable_of_encodable hw)
    have hnil : [] = Json.render I false w := Except.ok.inj (utf8Decode_encode hb)
    rw [hrender] at hnil
    cases hnil

/-- A prepared line is a body without line breaks, which is not empty, and `\n`. -/
theorem Spool.prepare_line {event : PyObject} {eventId : Option PyStr} {token i : PyStr}
    {line : Bytes} (h : Spool.prepare I event eventId token = .ok (i, line)) :
    ∃ body, line = body ++ [0x0A] ∧ Unbroken body ∧ body ≠ [] := by
  simp only [Spool.prepare, bind_eq_ok, pure_eq_ok, Prod.mk.injEq] at h
  obtain ⟨_, -, _, hline, -, rfl⟩ := h
  obtain ⟨-, encoded, hencoded, rfl⟩ := encodeRecord_eq_ok.mp hline
  exact ⟨encoded, rfl, unbroken_canonicalBytes hencoded⟩

namespace Spool

/-! ## Making room -/

theorem length_joinLines (lines : List Line) :
    (joinLines lines).length = (lines.map fun l => l.text.length).sum := by
  rw [joinLines, List.length_flatMap]

/-- The loop drops as few lines as make room. -/
theorem dropOldest_spec {added : Nat} (hadded : added ≤ maxBytes) (lines : List Line) :
    ∃ n ≤ lines.length, dropOldest maxBytes added lines
        (lines.map fun l => l.text.length).sum = (n, lines.drop n) ∧
      (joinLines (lines.drop n)).length + added ≤ maxBytes ∧
      ∀ m < n, maxBytes < (joinLines (lines.drop m)).length + added := by
  induction lines with
  | nil =>
    refine ⟨0, le_refl _, rfl, ?_, fun m hm => absurd hm (Nat.not_lt_zero m)⟩
    simpa [joinLines] using hadded
  | cons l lines ih =>
    obtain ⟨n, hn, hdrop, hfits, hleast⟩ := ih
    have hsum : ((l :: lines).map fun l => l.text.length).sum - l.text.length =
        (lines.map fun l => l.text.length).sum := by
      rw [List.map_cons, List.sum_cons, Nat.add_sub_cancel_left]
    have hlen := length_joinLines (l :: lines)
    by_cases hfull : maxBytes < ((l :: lines).map fun l => l.text.length).sum + added
    · refine ⟨n + 1, Nat.succ_le_succ hn, ?_, hfits, fun m hm => ?_⟩
      · rw [dropOldest, if_pos hfull, hsum, hdrop]
        rfl
      · cases m with
        | zero =>
          rw [List.drop_zero, hlen]
          exact hfull
        | succ m => exact hleast m (Nat.lt_of_succ_lt_succ hm)
    · refine ⟨0, Nat.zero_le _, ?_, ?_, fun m hm => absurd hm (Nat.not_lt_zero m)⟩
      · rw [dropOldest, if_neg hfull]
        rfl
      · rw [List.drop_zero, hlen]
        exact Nat.le_of_not_lt hfull

/-- What is left of the file before a line, the oldest lines having made room for it. -/
def leftover (maxBytes : Nat) (content : Bytes) (added : Nat) : Bytes :=
  if maxBytes < content.length + added then
    joinLines (dropOldest maxBytes added (splitLines content)
      ((splitLines content).map fun l => l.text.length).sum).2
  else content

/-- What a write does: the oldest lines go, as few as make room, and the line follows
the others. -/
structure Writes (maxBytes : Nat) (s s' : Spool) (line : Bytes) (n : Nat) : Prop where
  dropped_le : n ≤ (splitLines s.content).length
  content : s'.content = joinLines ((splitLines s.content).drop n) ++ line
  left : joinLines ((splitLines s.content).drop n) = leftover maxBytes s.content line.length
  fits : s'.content.length ≤ maxBytes
  least : ∀ m < n, maxBytes < (joinLines ((splitLines s.content).drop m)).length + line.length
  dropped : s'.dropped = s.dropped + n
  corrupt : s'.corrupt = s.corrupt

theorem enqueue_writes {line : Bytes} (hline : line.length ≤ maxBytes) :
    ∃ n, Writes maxBytes s (s.enqueue maxBytes s.content line) line n := by
  by_cases hfull : maxBytes < s.content.length + line.length
  · obtain ⟨n, hn, hdrop, hfits, hleast⟩ := dropOldest_spec hline (splitLines s.content)
    rw [enqueue, if_pos hfull]
    dsimp only
    rw [hdrop]
    refine ⟨n, hn, rfl, ?_, ?_, hleast, rfl, rfl⟩
    · rw [leftover, if_pos hfull, hdrop]
    · rwa [List.length_append]
  · rw [enqueue, if_neg hfull]
    refine ⟨0, Nat.zero_le _, ?_, ?_, ?_, fun m hm => absurd hm (Nat.not_lt_zero m), rfl, rfl⟩
    · rw [List.drop_zero, joinLines_splitLines]
    · rw [List.drop_zero, joinLines_splitLines, leftover, if_neg hfull]
    · rw [List.length_append]
      exact Nat.le_of_not_lt hfull

theorem exists_leftover (maxBytes : Nat) (content : Bytes) (added : Nat) :
    ∃ n, leftover maxBytes content added = joinLines ((splitLines content).drop n) := by
  have hdrop : ∀ (lines : List Line) (total : Nat),
      ∃ n, (dropOldest maxBytes added lines total).2 = lines.drop n := by
    intro lines
    induction lines with
    | nil => exact fun _ => ⟨0, rfl⟩
    | cons l lines ih =>
      intro total
      rw [dropOldest]
      split_ifs
      · obtain ⟨n, hn⟩ := ih (total - l.text.length)
        exact ⟨n + 1, hn⟩
      · exact ⟨0, rfl⟩
  unfold leftover
  split_ifs
  · obtain ⟨n, hn⟩ := hdrop (splitLines content) ((splitLines content).map fun l => l.text.length).sum
    exact ⟨n, by rw [hn]⟩
  · exact ⟨0, by rw [List.drop_zero, joinLines_splitLines]⟩

/-- A line that is written is put behind what follows the last line break. -/
theorem Writes.lines {s' : Spool} {body : Bytes} {n : Nat}
    (h : Writes maxBytes s s' (body ++ [0x0A]) n) (hbody : Unbroken body) (hne : body ≠ []) :
    splitLines s'.content = ((splitLines s.content).drop n).filter (fun l => l.ending ≠ []) ++
      [Line.ended (unended (leftover maxBytes s.content (body.length + 1)) ++ body)] := by
  have hleft := h.left
  rw [List.length_append, List.length_singleton] at hleft
  rw [h.content, splitLines_append_ended _ hbody hne, hleft, endedLines, ← hleft,
    splitLines_joinLines_drop]

/-! ## The cases of a call -/

/-- The outcomes of a call, with what leads to each. -/
inductive Appends (I : Interpreter) (maxBytes : Nat) (event : PyObject) (eventId : Option PyStr)
    (token : PyStr) (s : Spool) : Except PyError Bool × Spool → Prop
  | invalid {e : PyError} : prepare I event eventId token = .error e →
      Appends I maxBytes event eventId token s (.error e, s)
  | oversize {i : PyStr} {line : Bytes} : prepare I event eventId token = .ok (i, line) →
      maxBytes < line.length →
      Appends I maxBytes event eventId token s (.ok false, { s with dropped := s.dropped + 1 })
  | overfull {e : PyError} : maxBytes < s.content.length →
      Appends I maxBytes event eventId token s (.error e, s)
  | found {i : PyStr} {line : Bytes} {existing : Json} :
      prepare I event eventId token = .ok (i, line) → line.length ≤ maxBytes →
      s.content.length ≤ maxBytes → eventId.isSome = true →
      findEvent I i (bodies s.content) = some existing →
      Appends I maxBytes event eventId token s
        ((compareEvents I existing event).map fun _ => true, s)
  | written {i : PyStr} {line : Bytes} {s' : Spool} {n : Nat} :
      prepare I event eventId token = .ok (i, line) →
      (eventId.isSome = true → findEvent I i (bodies s.content) = none) →
      Writes maxBytes s s' line n → Appends I maxBytes event eventId token s (.ok true, s')

theorem read_ok (h : s.content.length ≤ maxBytes) : s.read maxBytes = .ok s.content := by
  have htake : s.content.take (maxBytes + 1) = s.content :=
    List.take_of_length_le (Nat.le_succ_of_le h)
  rw [read, htake, raiseIf_neg (Nat.not_lt.mpr h)]
  rfl

theorem read_error (h : maxBytes < s.content.length) : ∃ e, s.read maxBytes = .error e := by
  have hlen : maxBytes < (s.content.take (maxBytes + 1)).length := by
    rw [List.length_take]
    omega
  rw [read, raiseIf_pos hlen]
  exact ⟨_, rfl⟩

theorem append_found {event : PyObject} {eventId : Option PyStr} {token i : PyStr} {line : Bytes}
    {existing : Json} (hprepare : prepare I event eventId token = .ok (i, line))
    (hline : line.length ≤ maxBytes) (hsize : s.content.length ≤ maxBytes)
    (hgiven : eventId.isSome = true)
    (hfind : findEvent I i (bodies s.content) = some existing) :
    s.append I maxBytes event eventId token =
      ((compareEvents I existing event).map fun _ => true, s) := by
  rw [append, hprepare]
  dsimp only
  rw [if_neg (Nat.not_lt.mpr hline), read_ok hsize]
  dsimp only
  rw [hgiven, if_pos rfl, hfind]
  dsimp only
  cases compareEvents I existing event <;> rfl

/-- Every call has one of the outcomes. -/
theorem append_cases (I : Interpreter) (maxBytes : Nat) (event : PyObject) (eventId : Option PyStr)
    (token : PyStr) (s : Spool) :
    Appends I maxBytes event eventId token s (s.append I maxBytes event eventId token) := by
  cases hprepare : prepare I event eventId token with
  | error e =>
    rw [append, hprepare]
    exact .invalid hprepare
  | ok r =>
    obtain ⟨i, line⟩ := r
    by_cases hline : maxBytes < line.length
    · rw [append, hprepare]
      dsimp only
      rw [if_pos hline]
      exact .oversize hprepare hline
    · rcases Nat.lt_or_ge maxBytes s.content.length with hsize | hsize
      · obtain ⟨e, he⟩ := read_error hsize
        rw [append, hprepare]
        dsimp only
        rw [if_neg hline, he]
        exact .overfull hsize
      · have hwrites := enqueue_writes (s := s) (Nat.le_of_not_lt hline)
        obtain ⟨n, hwrites⟩ := hwrites
        by_cases hgiven : eventId.isSome = true
        · cases hfind : findEvent I i (bodies s.content) with
          | some existing =>
            rw [append_found hprepare (Nat.le_of_not_lt hline) hsize hgiven hfind]
            exact .found hprepare (Nat.le_of_not_lt hline) hsize hgiven hfind
          | none =>
            rw [append, hprepare]
            dsimp only
            rw [if_neg hline, read_ok hsize]
            dsimp only
            rw [if_pos hgiven, hfind]
            exact .written hprepare (fun _ => hfind) hwrites
        · rw [append, hprepare]
          dsimp only
          rw [if_neg hline, read_ok hsize]
          dsimp only
          rw [if_neg hgiven]
          exact .written hprepare (fun h => absurd h hgiven) hwrites

end Spool

end EdgeFort.Telemetry
