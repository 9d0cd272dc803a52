/-
A flush delivers the first records of a spool and keeps the others.
-/
import EdgeFort.Telemetry.Append

namespace EdgeFort.Telemetry

open Effect

variable (I : Interpreter)

/-- The record of a line, if it has one. -/
def record? (raw : Bytes) : Option Record :=
  match decodeRecord I raw with
  | .ok r => some r
  | .error _ => none

/-- The records of some lines. -/
def recordsOf (lines : List Bytes) : List Record := lines.filterMap (record? I)

/-- The records of a spool, the oldest first. -/
def Spool.records (s : Spool) : List Record := recordsOf I (bodies s.content)

/-- Lines that have no record. -/
def undecodable (lines : List Bytes) : Nat := lines.countP fun raw => (record? I raw).isNone

variable {I} {sink : Nat → Bool} {maxEvents : Option Int} {includeRecord : Bool}

open Spool

theorem recordsOf_error {raw : Bytes} {e : PyError} (h : decodeRecord I raw = .error e)
    (lines : List Bytes) : recordsOf I (raw :: lines) = recordsOf I lines ∧
      undecodable I (raw :: lines) = undecodable I lines + 1 := by
  have hnone : record? I raw = none := by rw [record?, h]
  constructor
  · rw [recordsOf, List.filterMap_cons_none hnone]
    rfl
  · rw [undecodable, List.countP_cons_of_pos (by rw [hnone]; rfl)]
    rfl

theorem recordsOf_ok {raw : Bytes} {r : Record} (h : decodeRecord I raw = .ok r)
    (lines : List Bytes) : recordsOf I (raw :: lines) = r :: recordsOf I lines ∧
      undecodable I (raw :: lines) = undecodable I lines := by
  have hsome : record? I raw = some r := by rw [record?, h]
  constructor
  · rw [recordsOf, List.filterMap_cons_some hsome]
    rfl
  · rw [undecodable, List.countP_cons_of_neg (by rw [hsome]; exact Bool.false_ne_true)]
    rfl

theorem recordsOf_append (lines lines' : List Bytes) :
    recordsOf I (lines ++ lines') = recordsOf I lines ++ recordsOf I lines' :=
  List.filterMap_append

/-! ## The loop -/

/-- What the loop makes of some lines: it goes through the first `stop` of them, which
have `k` records. -/
structure Delivers (I : Interpreter) (sink : Nat → Bool) (maxEvents : Option Int)
    (includeRecord : Bool) (lines : List Bytes) (st st' : Flush) (stop k : Nat) : Prop where
  stop_le : stop ≤ lines.length
  remaining : st'.remaining = lines.drop stop
  corrupt : st'.corrupt = st.corrupt + undecodable I (lines.take stop)
  sent : st'.sent = st.sent + k
  records : recordsOf I (lines.take stop) = (recordsOf I lines).take k
  count : k ≤ (recordsOf I lines).length
  returned : ∀ j < k, sink (st.sent + j) = true
  budget : ∀ m, maxEvents = some m → (st'.sent : Int) ≤ m
  ends : (stop = lines.length ∨ maxEvents = some (st'.sent : Int)) ∧
      st'.calls = st.calls ++ ((recordsOf I lines).take k).map (delivery includeRecord) ∨
    k < (recordsOf I lines).length ∧ sink (st.sent + k) = false ∧
      st'.calls = st.calls ++ ((recordsOf I lines).take (k + 1)).map (delivery includeRecord)

/-- The loop stops before the first line. -/
theorem Delivers.halt {lines : List Bytes} {st st' : Flush} (hremaining : st'.remaining = lines)
    (hcorrupt : st'.corrupt = st.corrupt) (hsent : st'.sent = st.sent)
    (hbudget : ∀ m, maxEvents = some m → (st.sent : Int) ≤ m)
    (hends : (0 = lines.length ∨ maxEvents = some (st.sent : Int)) ∧ st'.calls = st.calls ∨
      0 < (recordsOf I lines).length ∧ sink st.sent = false ∧
        st'.calls = st.calls ++ ((recordsOf I lines).take 1).map (delivery includeRecord)) :
    Delivers I sink maxEvents includeRecord lines st st' 0 0 where
  stop_le := Nat.zero_le _
  remaining := hremaining
  corrupt := hcorrupt
  sent := hsent
  records := rfl
  count := Nat.zero_le _
  returned j hj := absurd hj (Nat.not_lt_zero j)
  budget m hm := hsent ▸ hbudget m hm
  ends := by
    rw [hsent]
    simpa using hends

/-- A line without a record is counted and left out. -/
theorem Delivers.skip {raw : Bytes} {e : PyError} {lines : List Bytes} {st st' : Flush}
    {stop k : Nat} (hdec : decodeRecord I raw = .error e)
    (h : Delivers I sink maxEvents includeRecord lines { st with corrupt := st.corrupt + 1 } st'
      stop k) :
    Delivers I sink maxEvents includeRecord (raw :: lines) st st' (stop + 1) k := by
  obtain ⟨hrecords, -⟩ := recordsOf_error hdec lines
  obtain ⟨htake, hcount⟩ := recordsOf_error hdec (lines.take stop)
  constructor
  · exact Nat.succ_le_succ h.stop_le
  · exact h.remaining
  · have hcorrupt := h.corrupt
    rw [List.take_succ_cons, hcount]
    dsimp only at hcorrupt ⊢
    omega
  · exact h.sent
  · rw [List.take_succ_cons, htake, hrecords]
    exact h.records
  · rw [hrecords]
    exact h.count
  · exact h.returned
  · exact h.budget
  · rw [hrecords, List.length_cons, Nat.add_right_cancel_iff]
    exact h.ends

/-- A record is delivered, and the loop goes on. -/
theorem Delivers.send {raw : Bytes} {r : Record} {lines : List Bytes} {st st' : Flush}
    {stop k : Nat} (hdec : decodeRecord I raw = .ok r) (hsink : sink st.sent = true)
    (h : Delivers I sink maxEvents includeRecord lines
      { st with calls := st.calls ++ [delivery includeRecord r], sent := st.sent + 1 } st'
      stop k) :
    Delivers I sink maxEvents includeRecord (raw :: lines) st st' (stop + 1) (k + 1) := by
  obtain ⟨hrecords, -⟩ := recordsOf_ok hdec lines
  obtain ⟨htake, hcount⟩ := recordsOf_ok hdec (lines.take stop)
  constructor
  · exact Nat.succ_le_succ h.stop_le
  · exact h.remaining
  · rw [List.take_succ_cons, hcount]
    exact h.corrupt
  · have hsent := h.sent
    dsimp only at hsent ⊢
    omega
  · rw [List.take_succ_cons, htake, hrecords, List.take_succ_cons, h.records]
  · rw [hrecords]
    exact Nat.succ_le_succ h.count
  · intro j hj
    cases j with
    | zero => exact hsink
    | succ j =>
      have hreturned := h.returned j (by omega)
      rwa [Nat.add_right_comm] at hreturned
  · exact h.budget
  · have hends := h.ends
    rw [List.append_assoc, List.append_assoc, Nat.add_right_comm] at hends
    rw [hrecords, List.length_cons, List.length_cons, Nat.add_right_cancel_iff,
      Nat.add_lt_add_iff_right]
    exact hends

theorem flushLoop_delivers (I : Interpreter) (sink : Nat → Bool) (maxEvents : Option Int)
    (includeRecord : Bool) (lines : List Bytes) (st : Flush) (hremaining : st.remaining = [])
    (hcalls : st.calls.length = st.sent) (hbudget : ∀ m, maxEvents = some m → (st.sent : Int) ≤ m) :
    ∃ stop k, Delivers I sink maxEvents includeRecord lines st
      (flushLoop I sink maxEvents includeRecord lines st) stop k := by
  induction lines generalizing st with
  | nil => exact ⟨0, 0, .halt hremaining rfl rfl hbudget (Or.inl ⟨Or.inl rfl, rfl⟩)⟩
  | cons raw lines ih =>
    have hrest : st.remaining ++ raw :: lines = raw :: lines := by
      rw [hremaining]
      rfl
    rw [flushLoop]
    by_cases hfull : maxEvents.any (fun m : Int => m ≤ st.sent) = true
    · -- the budget is used up
      rw [if_pos hfull]
      obtain ⟨m, hm, hle⟩ : ∃ m, maxEvents = some m ∧ m ≤ (st.sent : Int) := by
        cases maxEvents with
        | none => cases hfull
        | some m => exact ⟨m, rfl, by simpa using hfull⟩
      have hsent : maxEvents = some (st.sent : Int) := by
        rw [hm, le_antisymm hle (hbudget m hm)]
      exact ⟨0, 0, .halt hrest rfl rfl hbudget (Or.inl ⟨Or.inr hsent, rfl⟩)⟩
    · rw [if_neg hfull]
      cases hdec : decodeRecord I raw with
      | error e =>
        obtain ⟨stop, k, h⟩ := ih { st with corrupt := st.corrupt + 1 } hremaining hcalls hbudget
        exact ⟨stop + 1, k, h.skip hdec⟩
      | ok r =>
        dsimp only
        by_cases hsink : sink st.calls.length = true
        · rw [if_pos hsink]
          have hbudget' : ∀ m, maxEvents = some m → ((st.sent + 1 : Nat) : Int) ≤ m := by
            intro m hm
            rw [hm] at hfull
            simp only [Option.any_some, decide_eq_true_eq, not_le] at hfull
            omega
          obtain ⟨stop, k, h⟩ := ih { st with
            calls := st.calls ++ [delivery includeRecord r], sent := st.sent + 1 } hremaining
            (by simp [hcalls]) hbudget'
          exact ⟨stop + 1, k + 1, h.send hdec (hcalls ▸ hsink)⟩
        · -- the sink has failed: the record stays
          rw [if_neg hsink]
          have hsink' : sink st.sent = false := by rwa [hcalls, Bool.not_eq_true] at hsink
          obtain ⟨hrecords, -⟩ := recordsOf_ok hdec lines
          refine ⟨0, 0, .halt hrest rfl rfl hbudget (Or.inr ⟨?_, hsink', ?_⟩)⟩
          · rw [hrecords]
            exact Nat.succ_pos _
          · rw [hrecords]
            rfl

/-! ## The flush -/

/-- What a flush does to a spool: it goes through the first `stop` lines and returns
`n`.  Only the last call of the sink may fail. -/
structure Flushes (I : Interpreter) (sink : Nat → Bool) (maxEvents : Option Int)
    (includeRecord : Bool) (s s' : Spool) (n : Nat) (deliveries : List Json) (stop : Nat) :
    Prop where
  calls : deliveries = ((s.records I).take deliveries.length).map (delivery includeRecord)
  sent : n = (List.range deliveries.length).countP sink
  failure : ∀ j, j + 1 < deliveries.length → sink j = true
  records : s'.records I = (s.records I).drop n
  lines : bodies s'.content = (bodies s.content).drop stop
  delivered : recordsOf I ((bodies s.content).take stop) = (s.records I).take n
  corrupt : s'.corrupt = s.corrupt + undecodable I ((bodies s.content).take stop)
  dropped : s'.dropped = s.dropped
  stops : stop = (bodies s.content).length ∨ maxEvents = some (n : Int) ∨
    deliveries.length = n + 1

theorem countP_range {sink : Nat → Bool} {k : Nat} (h : ∀ j < k, sink j = true) :
    (List.range k).countP sink = k := by
  have hall : (List.range k).countP sink = (List.range k).length :=
    List.countP_eq_length.mpr fun j hj => h j (List.mem_range.mp hj)
  rw [hall, List.length_range]

theorem unbroken_bodies {b raw : Bytes} (h : raw ∈ bodies b) : Unbroken raw := by
  obtain ⟨l, hl, rfl⟩ := List.mem_map.mp h
  exact unbroken_body hl

theorem bodies_ended {lines : List Bytes} (h : ∀ raw ∈ lines, Unbroken raw) :
    bodies (lines.flatMap (· ++ [0x0A])) = lines := by
  rw [bodies, splitLines_ended_lines h, List.map_map]
  exact (List.map_congr_left fun _ _ => rfl).trans (List.map_id lines)

/-- The calls of a loop: `k` that returned, and one that failed, or none. -/
theorem Delivers.calls_eq {lines : List Bytes} {corrupt : Nat} {st : Flush} {stop k : Nat}
    (h : Delivers I sink maxEvents includeRecord lines ⟨[], 0, corrupt, []⟩ st stop k) :
    st.calls = ((recordsOf I lines).take st.calls.length).map (delivery includeRecord) ∧
      (st.calls.length = k ∧ (stop = lines.length ∨ maxEvents = some (k : Int)) ∨
        st.calls.length = k + 1 ∧ sink k = false) := by
  have hsent := h.sent
  have hcount := h.count
  have hends := h.ends
  rw [Nat.zero_add] at hsent
  rw [hsent, List.nil_append, List.nil_append, Nat.zero_add] at hends
  rcases hends with ⟨hstop, hcalls⟩ | ⟨hlt, hsink, hcalls⟩
  · have hlen : st.calls.length = k := by
      rw [hcalls, List.length_map, List.length_take]
      exact min_eq_left hcount
    rw [hlen]
    exact ⟨hcalls, Or.inl ⟨rfl, hstop⟩⟩
  · have hlen : st.calls.length = k + 1 := by
      rw [hcalls, List.length_map, List.length_take]
      exact min_eq_left hlt
    rw [hlen]
    exact ⟨hcalls, Or.inr ⟨rfl, hsink⟩⟩

/-- The loop over all lines of a spool. -/
theorem Delivers.flushes {s : Spool} {st : Flush} {stop k : Nat}
    (h : Delivers I sink maxEvents includeRecord (bodies s.content) ⟨[], 0, s.corrupt, []⟩ st
      stop k) :
    Flushes I sink maxEvents includeRecord s
      { s with content := st.remaining.flatMap (· ++ [0x0A]), corrupt := st.corrupt }
      st.sent st.calls stop := by
  have hsent : st.sent = k := h.sent.trans (Nat.zero_add k)
  have hreturned : ∀ j < k, sink j = true := by
    intro j hj
    have hj' := h.returned j hj
    rwa [Nat.zero_add] at hj'
  have hlines : bodies (st.remaining.flatMap (· ++ [0x0A])) = (bodies s.content).drop stop := by
    rw [h.remaining]
    exact bodies_ended fun raw hraw => unbroken_bodies (List.mem_of_mem_drop hraw)
  have hdrop : recordsOf I ((bodies s.content).drop stop) = (s.records I).drop k := by
    have hsplit : s.records I = recordsOf I ((bodies s.content).take stop) ++
        recordsOf I ((bodies s.content).drop stop) := by
      rw [← recordsOf_append, List.take_append_drop]
      rfl
    have hlen : (recordsOf I ((bodies s.content).take stop)).length = k := by
      rw [h.records, List.length_take]
      exact min_eq_left h.count
    rw [hsplit, List.drop_left' hlen]
  obtain ⟨hcalls, hlength⟩ := h.calls_eq
  rw [hsent]
  constructor
  · exact hcalls
  · rcases hlength with ⟨hlen, -⟩ | ⟨hlen, hsink⟩
    · rw [hlen, countP_range hreturned]
    · rw [hlen, List.range_succ, List.countP_append, countP_range hreturned]
      simp [hsink]
  · intro j hj
    apply hreturned
    omega
  · rw [Spool.records, hlines, hdrop]
  · exact hlines
  · exact h.records
  · exact h.corrupt
  · rfl
  · rcases hlength with ⟨-, hstop | hbudget⟩ | ⟨hlen, -⟩
    · exact Or.inl hstop
    · exact Or.inr (Or.inl hbudget)
    · exact Or.inr (Or.inr hlen)

/-- A flush delivers the first records in order, keeps the others, and counts the lines
without a record that it passes.  A negative budget changes nothing. -/
theorem flush_delivers {maxBytes : Nat} {s : Spool} (hsize : s.content.length ≤ maxBytes)
    (sink : Nat → Bool) (maxEvents : Option Int) (includeRecord : Bool) :
    ((∃ m, maxEvents = some m ∧ m < 0) →
      ∃ e, Spool.flush I maxBytes sink maxEvents includeRecord s = (.error e, s, []) ∧
        e.cls = .valueError) ∧
    ((∀ m, maxEvents = some m → 0 ≤ m) → ∃ s' n deliveries stop,
      Spool.flush I maxBytes sink maxEvents includeRecord s = (.ok n, s', deliveries) ∧
        Flushes I sink maxEvents includeRecord s s' n deliveries stop) := by
  constructor
  · rintro ⟨m, rfl, hm⟩
    have hany : (some m).any (fun m : Int => m < 0) = true := by simpa using hm
    rw [Spool.flush, if_pos hany]
    exact ⟨_, rfl, rfl⟩
  · intro hpos
    have hany : ¬maxEvents.any (fun m : Int => m < 0) = true := by
      cases maxEvents with
      | none => exact Bool.false_ne_true
      | some m =>
        have hm := hpos m rfl
        simp only [Option.any_some, decide_eq_true_eq]
        omega
    obtain ⟨stop, k, h⟩ := flushLoop_delivers I sink maxEvents includeRecord (bodies s.content)
      ⟨[], 0, s.corrupt, []⟩ rfl rfl hpos
    rw [Spool.flush, if_neg hany, read_ok hsize]
    dsimp only
    by_cases hnil : s.content = []
    · obtain ⟨content, corrupt, dropped⟩ := s
      dsimp only at hnil
      subst hnil
      exact ⟨_, 0, [], stop, rfl, h.flushes⟩
    · rw [if_neg hnil]
      exact ⟨_, _, _, stop, rfl, h.flushes⟩

/-- A corrupt line, a blank one, two records without an envelope, the second one not
terminated. -/
def mixedSpool : Spool :=
  ⟨(py "\x7bbad\x7d\n\r\n\x7b\"a\":1\x7d\n[2]").map fun c => byte c.val, 0, 0⟩

theorem flush_delivers_sample : mixedSpool.content.length ≤ 1024 ∧ ∃ s' n deliveries stop,
    mixedSpool.flush Sample.interpreter 1024 (· == 0) (some 5) true = (.ok n, s', deliveries) ∧
      Flushes Sample.interpreter (· == 0) (some 5) true mixedSpool s' n deliveries stop := by
  have hsize : mixedSpool.content.length ≤ 1024 := by decide
  refine ⟨hsize, (flush_delivers hsize (· == 0) (some 5) true).2 ?_⟩
  rintro m ⟨⟩
  decide

/-- The second record fails and stays, as the line it was. -/
example : (mixedSpool.flush Sample.interpreter 1024 (· == 0) (some 5) true).2.1 =
    ⟨(py "[2]\n").map fun c => byte c.val, 2, 0⟩ := by decide +kernel

end EdgeFort.Telemetry
