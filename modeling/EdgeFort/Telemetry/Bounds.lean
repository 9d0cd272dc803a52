/-
The spool stays within its bound, and evicts no more than it must.

A flush may write one byte more than it read, where the last line had no end.  A line
is only ever left without its end by a crash, which leaves a byte of it out.
-/
import EdgeFort.Effect.System
import EdgeFort.Telemetry.Flush

namespace EdgeFort.Telemetry

open Effect Spool

variable {I : Interpreter} {maxBytes : Nat} {s t : Spool}

/-! ## Runs -/

/-- A call that returns, or a crash.  The next process opens the file that a crash
left: as it was before the call or after it, or with a part of the line that `append`
was adding. -/
inductive Spool.Step (I : Interpreter) (maxBytes : Nat) : Spool → Spool → Prop
  | append (s : Spool) (event : PyObject) (eventId : Option PyStr) (token : PyStr) :
      Step I maxBytes s (s.append I maxBytes event eventId token).2
  | flush (s : Spool) (sink : Nat → Bool) (maxEvents : Option Int) (includeRecord : Bool) :
      Step I maxBytes s (s.flush I maxBytes sink maxEvents includeRecord).2.1
  | crash (s : Spool) : Step I maxBytes s ⟨s.content, 0, 0⟩
  | tornAppend {s : Spool} {event : PyObject} {eventId : Option PyStr} {token : PyStr}
      {line : Bytes} (n : Nat) :
      (s.append I maxBytes event eventId token).2.content = s.content ++ line →
      Step I maxBytes s ⟨s.content ++ line.take n, 0, 0⟩

/-- Processes that use one spool in turn, at first an empty one. -/
def spoolSystem (I : Interpreter) (maxBytes : Nat) : System Spool where
  initial s := Spool.opened maxBytes [] = .ok s
  step := Spool.Step I maxBytes

/-! ## The bound -/

/-- The bytes of a file whose last line has its end. -/
def endedLength (b : Bytes) : Nat := b.length + (if Terminated b then 0 else 1)

theorem endedLength_terminated {b : Bytes} (h : Terminated b) : endedLength b = b.length := by
  rw [endedLength, if_pos h, Nat.add_zero]

theorem endedLength_le (b : Bytes) : b.length ≤ endedLength b ∧ endedLength b ≤ b.length + 1 := by
  unfold endedLength
  split_ifs <;> omega

/-- There is room for the end of the last line. -/
def Spool.Room (maxBytes : Nat) (s : Spool) : Prop := endedLength s.content ≤ maxBytes

theorem Spool.Writes.room {s' : Spool} {line body : Bytes} {n : Nat}
    (h : Writes maxBytes s s' line n) (hline : line = body ++ [0x0A]) : s'.Room maxBytes := by
  have hterm : Terminated s'.content := by
    rw [h.content, hline]
    exact terminated_append_ended _ body
  rw [Spool.Room, endedLength_terminated hterm]
  exact h.fits

theorem Spool.Room.append (h : s.Room maxBytes) (event : PyObject) (eventId : Option PyStr)
    (token : PyStr) : (s.append I maxBytes event eventId token).2.Room maxBytes := by
  cases hcall : s.append I maxBytes event eventId token with
  | mk r s' =>
    have hcases := append_cases I maxBytes event eventId token s
    rw [hcall] at hcases
    cases hcases with
    | invalid | oversize | overfull | found => exact h
    | written hprepare _ hwrites =>
      obtain ⟨body, hline, -⟩ := prepare_line hprepare
      exact hwrites.room hline

/-- Some lines, each with its end, take no more bytes than all of them. -/
theorem length_drop_ended (lines : List Bytes) (n : Nat) :
    ((lines.drop n).flatMap (· ++ [0x0A])).length ≤ (lines.flatMap (· ++ [0x0A])).length := by
  conv_rhs => rw [← List.take_append_drop n lines]
  rw [List.flatMap_append, List.length_append]
  exact Nat.le_add_left _ _

theorem length_ended_bodies (b : Bytes) :
    ((bodies b).flatMap (· ++ [0x0A])).length ≤ endedLength b := by
  by_cases h : Terminated b
  · rw [endedLength_terminated h]
    exact length_ended_terminated h
  · rw [endedLength, if_neg h]
    exact length_ended b

theorem terminated_ended (lines : List Bytes) : Terminated (lines.flatMap (· ++ [0x0A])) := by
  rcases List.eq_nil_or_concat lines with rfl | ⟨lines, body, rfl⟩
  · exact Or.inl rfl
  · rw [List.concat_eq_append, List.flatMap_append, List.flatMap_singleton]
    exact terminated_append_ended _ body

theorem budget_nonneg {maxEvents : Option Int}
    (h : ¬maxEvents.any (fun m : Int => m < 0) = true) (m : Int) (hm : maxEvents = some m) :
    ((0 : Nat) : Int) ≤ m := by
  rw [hm, Option.any_some, decide_eq_true_eq] at h
  omega

theorem Spool.Room.flush (h : s.Room maxBytes) (sink : Nat → Bool) (maxEvents : Option Int)
    (includeRecord : Bool) :
    (s.flush I maxBytes sink maxEvents includeRecord).2.1.Room maxBytes := by
  have hsize : s.content.length ≤ maxBytes := le_trans (endedLength_le s.content).1 h
  rw [Spool.flush]
  split_ifs with hneg
  · exact h
  · rw [read_ok hsize]
    dsimp only
    split_ifs with hnil
    · exact h
    · obtain ⟨stop, k, hloop⟩ := flushLoop_delivers I sink maxEvents includeRecord
        (bodies s.content) ⟨[], 0, s.corrupt, []⟩ rfl rfl (budget_nonneg hneg)
      dsimp only [Spool.Room]
      rw [hloop.remaining, endedLength_terminated (terminated_ended _)]
      exact (length_drop_ended _ stop).trans ((length_ended_bodies s.content).trans h)

theorem Spool.Room.step (h : s.Room maxBytes) (hstep : Spool.Step I maxBytes s t) :
    t.Room maxBytes := by
  cases hstep with
  | append event eventId token => exact h.append event eventId token
  | flush sink maxEvents includeRecord => exact h.flush sink maxEvents includeRecord
  | crash => exact h
  | @tornAppend event eventId token line n hline =>
    have hroom : endedLength (s.append I maxBytes event eventId token).2.content ≤ maxBytes :=
      h.append event eventId token
    rw [hline] at hroom
    by_cases hn : line.length ≤ n
    · -- the whole line was written
      rw [List.take_of_length_le hn]
      exact hroom
    · -- the byte that is missing is room for the end
      have hle := (endedLength_le (s.content ++ line)).1
      have htorn := (endedLength_le (s.content ++ line.take n)).2
      rw [List.length_append] at hle
      rw [List.length_append, List.length_take] at htorn
      show endedLength (s.content ++ line.take n) ≤ maxBytes
      omega

theorem opened_eq_ok {content : Bytes} :
    Spool.opened maxBytes content = .ok s ↔ 1024 ≤ maxBytes ∧ s = ⟨content, 0, 0⟩ := by
  simp only [Spool.opened, bind_eq_ok, raiseIf_eq_ok, exists_const, pure_eq_ok, Nat.not_lt]
  exact and_congr_right fun _ => eq_comm

theorem room_of_reachable (h : (spoolSystem I maxBytes).Reachable s) : s.Room maxBytes := by
  apply System.invariant (Spool.Room maxBytes) ?_ ?_ h
  · intro s hs
    obtain ⟨-, rfl⟩ := opened_eq_ok.mp hs
    exact Nat.zero_le _
  · intro s t hs hstep
    exact hs.step hstep

/-! ## What an append evicts -/

/-- A call puts its line after the existing ones, of which the first `n` go, as few as
make room. -/
structure Evicts (maxBytes : Nat) (s s' : Spool) (body : Bytes) (n : Nat) : Prop where
  le : n ≤ (splitLines s.content).length
  lines : splitLines s'.content = (splitLines s.content).drop n ++ [Line.ended body]
  content : s'.content = joinLines ((splitLines s.content).drop n) ++ (Line.ended body).text
  fits : (joinLines ((splitLines s.content).drop n)).length + (Line.ended body).text.length ≤
    maxBytes
  least : ∀ m < n, maxBytes <
    (joinLines ((splitLines s.content).drop m)).length + (Line.ended body).text.length
  dropped : s'.dropped = s.dropped + n

/-- The lines from some line on end the bytes. -/
theorem terminated_drop (h : Terminated s.content) (n : Nat) :
    Terminated (joinLines ((splitLines s.content).drop n)) := by
  have hsplit : joinLines ((splitLines s.content).take n) ++
      joinLines ((splitLines s.content).drop n) = s.content := by
    rw [joinLines, joinLines, ← List.flatMap_append, List.take_append_drop]
    exact joinLines_splitLines s.content
  rw [← hsplit] at h
  exact h.of_append

theorem Spool.Writes.evicts {s' : Spool} {body : Bytes} {n : Nat} (hs : Terminated s.content)
    (hbody : Unbroken body) (h : Writes maxBytes s s' (body ++ [0x0A]) n) :
    Evicts maxBytes s s' body n := by
  constructor
  · exact h.dropped_le
  · rw [h.content, splitLines_append (terminated_drop hs n), splitLines_joinLines_drop,
      splitLines_ended hbody]
    rfl
  · exact h.content
  · have hfits := h.fits
    rw [h.content, List.length_append] at hfits
    exact hfits
  · exact h.least
  · exact h.dropped

/-- In every run the file stays within the bound.  An append that adds a record to
lines that all have their ends leaves the longest end of them that has room. -/
theorem spool_bounded (I : Interpreter) (maxBytes : Nat) :
    (∀ s, (spoolSystem I maxBytes).Reachable s → s.content.length ≤ maxBytes) ∧
    ∀ s s' event eventId token, Terminated s.content →
      Spool.append I maxBytes event eventId token s = (.ok true, s') → s' ≠ s →
        ∃ i body n, prepare I event eventId token = .ok (i, (Line.ended body).text) ∧
          Evicts maxBytes s s' body n := by
  constructor
  · intro s h
    exact (endedLength_le s.content).1.trans (room_of_reachable h)
  · intro s s' event eventId token hs hcall hne
    have hcases := append_cases I maxBytes event eventId token s
    rw [hcall] at hcases
    generalize hr : (Except.ok true : Except PyError Bool) = r at hcases
    cases hcases with
    | invalid => cases hr
    | oversize => cases hr
    | overfull => cases hr
    | found => exact absurd rfl hne
    | @written i line _ n hprepare _ hwrites =>
      obtain ⟨body, rfl, hbody, -⟩ := prepare_line hprepare
      exact ⟨i, body, n, hprepare, hwrites.evicts hs hbody⟩

/-- An event that fills most of the smallest spool. -/
def longEvent : PyObject := .str (List.replicate 900 (chr 0x61))

def sampleToken : PyStr := List.replicate 32 (chr 0x30)

def longSpool : Spool :=
  (Spool.append Sample.interpreter 1024 longEvent none sampleToken ⟨[], 0, 0⟩).2

theorem spool_bounded_sample : longSpool.content.length ≤ 1024 ∧
    ∃ i body n, prepare Sample.interpreter longEvent none sampleToken =
        .ok (i, (Line.ended body).text) ∧
      Evicts 1024 longSpool { longSpool with dropped := 1 } body n := by
  constructor
  · apply (spool_bounded Sample.interpreter 1024).1
    exact .step (.initial (opened_eq_ok.mpr ⟨le_refl _, rfl⟩)) (.append _ longEvent none sampleToken)
  · apply (spool_bounded Sample.interpreter 1024).2
    · decide +kernel
    · exact (show Spool.append Sample.interpreter 1024 longEvent none sampleToken longSpool =
        (.ok true, { longSpool with dropped := 1 }) by decide +kernel)
    · decide +kernel

end EdgeFort.Telemetry
