/-
Conservation and order of the inference queue over whole runs.

A run is any sequence of sections under the queue's lock.  Its ledger records
where every accepted item has gone; the queue's own counters are then read off
the ledger.
-/
import Mathlib.Data.List.Nodup
import EdgeFort.Effect.Except
import EdgeFort.Runtime.Queue

namespace EdgeFort
namespace Runtime

open BoundedInferenceQueue

/-! ## Runs -/

/-- Where the accepted items have gone.  An item is kept with the clock value of
the pop that returned it; `refused` counts the pushes that `DROP_NEWEST` turned
down. -/
structure Ledger (π : Type) where
  accepted : List (WorkItem π)
  returned : List (WorkItem π × PyFloat)
  reported : List (WorkItem π)
  evicted : List (WorkItem π)
  drained : List (WorkItem π)
  refused : Nat

/-- `calls` are the pops that have started and not returned. -/
structure QueueRun (π : Type) where
  queue : BoundedInferenceQueue π
  calls : List (PopCall π)
  ledger : Ledger π

inductive QueueCall (π : Type) where
  | push (now : PyFloat) (payload : π) (deadlineS : Option PyNum)
  | startPop (now : PyFloat) (waitS : PyNum)
  /-- one round of the pop at this position -/
  | popRound (i : Nat) (now : PyFloat)
  | expirePayload (payload : π)
  | drain

variable {π : Type} [DecidableEq π]

namespace QueueRun

def start (capacity : Nat) (policy : OverflowPolicy) (h : 1 ≤ capacity) : QueueRun π where
  queue := .empty capacity policy h
  calls := []
  ledger := ⟨[], [], [], [], [], 0⟩

/-- The items that pops still under way have found expired. -/
def held (R : QueueRun π) : List (WorkItem π) := R.calls.flatMap PopCall.expiredItems

def push (R : QueueRun π) (now : PyFloat) (payload : π) (deadlineS : Option PyNum) :
    QueueRun π :=
  match R.queue.pushWithEvicted now payload deadlineS with
  | (.ok (true, evicted), Q) =>
    { R with
      queue := Q
      ledger := { R.ledger with
        accepted := R.ledger.accepted ++ Q.items.getLast?.toList
        evicted := R.ledger.evicted ++ evicted.toList } }
  | (.ok (false, _), Q) =>
    { R with queue := Q, ledger := { R.ledger with refused := R.ledger.refused + 1 } }
  | (.error _, Q) => { R with queue := Q }

def popRound (R : QueueRun π) (i : Nat) (now : PyFloat) : QueueRun π :=
  match R.calls[i]? with
  | none => R
  | some call =>
    match R.queue.popRound call now with
    | (.waits call', Q) => { R with queue := Q, calls := R.calls.set i call' }
    | (.returned item expiredItems, Q) =>
      { queue := Q
        calls := R.calls.eraseIdx i
        ledger := { R.ledger with
          returned := R.ledger.returned ++ item.toList.map fun item => (item, now)
          reported := R.ledger.reported ++ expiredItems } }

def startPop (R : QueueRun π) (now : PyFloat) (waitS : PyNum) : QueueRun π :=
  match BoundedInferenceQueue.startPop now waitS with
  | .ok call => { R with calls := call :: R.calls }
  | .error _ => R

def step (R : QueueRun π) : QueueCall π → QueueRun π
  | .push now payload deadlineS => R.push now payload deadlineS
  | .startPop now waitS => R.startPop now waitS
  | .popRound i now => R.popRound i now
  | .expirePayload payload =>
    { R with
      queue := (R.queue.expirePayload payload).2
      ledger := { R.ledger with
        reported := R.ledger.reported ++ (R.queue.expirePayload payload).1.toList } }
  | .drain =>
    { R with
      queue := R.queue.drain.2
      ledger := { R.ledger with drained := R.ledger.drained ++ R.queue.drain.1 } }

/-- The state after a sequence of sections. -/
def after (R : QueueRun π) (calls : List (QueueCall π)) : QueueRun π := calls.foldl step R

end QueueRun

/-! ## The ledger -/

variable {Q : BoundedInferenceQueue π} {R : QueueRun π} {now : PyFloat} {payload : π}

/-- The ledger accounts for every accepted item, and the counters for the ledger. -/
structure Accounted (capacity : Nat) (policy : OverflowPolicy) (R : QueueRun π) : Prop where
  sameCapacity : R.queue.capacity = capacity
  samePolicy : R.queue.policy = policy
  tickets : R.ledger.accepted.map WorkItem.ticket = List.range R.queue.accepted
  /-- what has been returned, then what is queued, in the order of acceptance -/
  inOrder : (R.ledger.returned.map Prod.fst ++ R.queue.items).Sublist R.ledger.accepted
  places : (R.queue.items ++ R.ledger.returned.map Prod.fst ++ (R.ledger.reported ++ R.held) ++
    R.ledger.evicted ++ R.ledger.drained).Perm R.ledger.accepted
  expired : R.queue.expired = R.ledger.reported.length + R.held.length
  dropped : R.queue.dropped = R.ledger.evicted.length + R.ledger.refused
  refused : policy = .dropNewest ∨ R.ledger.refused = 0
  fresh : ∀ x ∈ R.ledger.returned, x.1.pastDeadline x.2 = false

variable {capacity : Nat} {policy : OverflowPolicy}

omit [DecidableEq π] in
theorem accounted_start (h : 1 ≤ capacity) :
    Accounted capacity policy (QueueRun.start (π := π) capacity policy h) where
  sameCapacity := rfl
  samePolicy := rfl
  tickets := rfl
  inOrder := .slnil
  places := .nil
  expired := rfl
  dropped := rfl
  refused := Or.inr rfl
  fresh _ hx := absurd hx List.not_mem_nil

theorem Accounted.push (h : Accounted capacity policy R) (deadlineS : Option PyNum) :
    Accounted capacity policy (R.push now payload deadlineS) := by
  rcases pushWithEvicted_cases R.queue now payload deadlineS with
    ⟨e, hq⟩ | ⟨hp, hq⟩ | ⟨d, n, evicted, hlt, hn, hev, hq⟩
  · rw [QueueRun.push, hq]
    exact h
  · rw [QueueRun.push, hq]
    refine { h with dropped := ?_, refused := Or.inl (h.samePolicy.symm.trans hp) }
    show R.queue.dropped + 1 = R.ledger.evicted.length + (R.ledger.refused + 1)
    rw [h.dropped, Nat.add_assoc]
  · rw [QueueRun.push, hq]
    have hlast : (R.queue.enqueue n (R.queue.newItem now payload d) hlt).items.getLast?.toList =
        [R.queue.newItem now payload d] := by
      simp [enqueue]
    have hsplit : R.queue.items.take n ++ R.queue.items.drop n = R.queue.items :=
      List.take_append_drop n _
    dsimp only
    rw [hlast, hev]
    refine { h with tickets := ?_, inOrder := ?_, places := ?_, dropped := ?_ }
    · rw [List.map_append, h.tickets]
      exact (List.range_succ).symm
    · show (_ ++ (R.queue.items.drop n ++ [_])).Sublist _
      rw [← List.append_assoc]
      refine List.Sublist.append (List.Sublist.trans ?_ h.inOrder) (List.Sublist.refl _)
      exact (List.Sublist.refl _).append (List.drop_sublist n _)
    · refine List.perm_iff_count.mpr fun x => ?_
      have hx := h.places.count_eq x
      rw [← hsplit] at hx
      simp only [enqueue, QueueRun.held, List.count_append] at hx ⊢
      omega
    · show R.queue.dropped + n = (R.ledger.evicted ++ R.queue.items.take n).length + R.ledger.refused
      rw [h.dropped, List.length_append, List.length_take]
      omega

omit [DecidableEq π] in
/-- The pops under way, with the one at position `i` replaced or gone. -/
theorem calls_split {calls : List (PopCall π)} {i : Nat} {call : PopCall π}
    (h : calls[i]? = some call) :
    ∃ l₁ l₂, calls = l₁ ++ call :: l₂ ∧ calls.eraseIdx i = l₁ ++ l₂ ∧
      ∀ c, calls.set i c = l₁ ++ c :: l₂ := by
  obtain ⟨hi, hget⟩ := List.getElem?_eq_some_iff.mp h
  refine ⟨calls.take i, calls.drop (i + 1), ?_, List.eraseIdx_eq_take_drop_succ _ _, fun c => ?_⟩
  · rw [← hget, ← List.drop_eq_getElem_cons hi, List.take_append_drop]
  · rw [List.set_eq_take_append_cons_drop, if_pos hi]

theorem Accounted.popRound (h : Accounted capacity policy R) (i : Nat) (now : PyFloat) :
    Accounted capacity policy (R.popRound i now) := by
  unfold QueueRun.popRound
  cases hcall : R.calls[i]? with
  | none => exact h
  | some call =>
    obtain ⟨l₁, l₂, hcalls, herase, hset⟩ := calls_split hcall
    rw [hcalls] at herase
    simp only [hcalls] at hset
    obtain ⟨item, rest, hle, hrest, hQ, hres⟩ := popRound_cases R.queue call now
    have hsplit : R.queue.expiredFront now ++ (item.toList ++ rest) = R.queue.items := by
      rw [hrest]
      exact expiredFront_append R.queue now
    have hplaces := h.places
    have horder := h.inOrder
    have hexpired := h.expired
    have hfresh : ∀ x ∈ item.toList.map fun item => (item, now), x.1.pastDeadline x.2 = false := by
      intro x hx
      cases item with
      | none => exact absurd hx List.not_mem_nil
      | some item =>
        rw [Option.toList_some, List.map_singleton, List.mem_singleton] at hx
        rw [hx]
        exact afterFront_fresh hrest.symm
    have hfst : (item.toList.map fun item => (item, now)).map Prod.fst = item.toList := by
      cases item <;> rfl
    rw [← hsplit] at horder
    have hsub : (R.ledger.returned.map Prod.fst ++ (item.toList ++ rest)).Sublist
        R.ledger.accepted := by
      refine List.Sublist.trans ?_ horder
      exact (List.Sublist.refl _).append (List.sublist_append_right _ _)
    rcases hres with hres | ⟨hnone, hres⟩
    · dsimp only
      rw [show R.queue.popRound call now = (_, _) from Prod.ext hres hQ]
      refine { h with inOrder := ?_, places := ?_, expired := ?_, fresh := ?_ }
      · show ((R.ledger.returned ++ _).map Prod.fst ++ rest).Sublist _
        rw [List.map_append, hfst, List.append_assoc]
        exact hsub
      · refine List.perm_iff_count.mpr fun x => ?_
        have hx := hplaces.count_eq x
        rw [← hsplit] at hx
        simp only [QueueRun.held, hcalls, herase, List.map_append, hfst,
          List.flatMap_append, List.flatMap_cons, List.count_append] at hx ⊢
        omega
      · simp only [QueueRun.held, hcalls, herase, List.flatMap_append,
          List.flatMap_cons, List.length_append] at hexpired ⊢
        omega
      · intro x hx
        rcases List.mem_append.mp hx with hx | hx
        · exact h.fresh x hx
        · exact hfresh x hx
    · dsimp only
      rw [show R.queue.popRound call now = (_, _) from Prod.ext hres hQ]
      subst hnone
      refine { h with inOrder := hsub, places := ?_, expired := ?_ }
      · refine List.perm_iff_count.mpr fun x => ?_
        have hx := hplaces.count_eq x
        rw [← hsplit] at hx
        simp only [QueueRun.held, hcalls, hset, Option.toList_none, List.nil_append,
          List.flatMap_append, List.flatMap_cons, List.count_append] at hx ⊢
        omega
      · simp only [QueueRun.held, hcalls, hset, List.flatMap_append,
          List.flatMap_cons, List.length_append] at hexpired ⊢
        omega

theorem Accounted.expirePayload (h : Accounted capacity policy R) (payload : π) :
    Accounted capacity policy (R.step (.expirePayload payload)) := by
  rcases expirePayload_cases R.queue payload with hq | ⟨l₁, item, l₂, hle, hitems, _, hq⟩
  · simp only [QueueRun.step, hq]
    refine { h with places := ?_, expired := ?_ }
    · simpa using h.places
    · simpa using h.expired
  · simp only [QueueRun.step, hq]
    have horder := h.inOrder
    rw [hitems] at horder
    refine { h with inOrder := ?_, places := ?_, expired := ?_ }
    · refine List.Sublist.trans ?_ horder
      refine (List.Sublist.refl _).append ((List.Sublist.refl _).append ?_)
      exact List.sublist_cons_self item l₂
    · refine List.perm_iff_count.mpr fun x => ?_
      have hx := h.places.count_eq x
      rw [hitems] at hx
      simp only [QueueRun.held, Option.toList_some, List.count_append, List.count_cons,
        List.count_nil] at hx ⊢
      omega
    · have hexpired := h.expired
      simp only [QueueRun.held, Option.toList_some, List.length_append,
        List.length_singleton] at hexpired ⊢
      omega

theorem Accounted.drain (h : Accounted capacity policy R) :
    Accounted capacity policy (R.step .drain) := by
  refine { h with inOrder := ?_, places := ?_ }
  · show (R.ledger.returned.map Prod.fst ++ []).Sublist _
    rw [List.append_nil]
    exact (List.sublist_append_left _ _).trans h.inOrder
  · refine List.perm_iff_count.mpr fun x => ?_
    have hx := h.places.count_eq x
    simp only [QueueRun.step, QueueRun.held, BoundedInferenceQueue.drain, List.count_append,
      List.count_nil] at hx ⊢
    omega

omit [DecidableEq π] in
theorem Accounted.startPop (h : Accounted capacity policy R) (now : PyFloat) (waitS : PyNum) :
    Accounted capacity policy (R.startPop now waitS) := by
  unfold QueueRun.startPop
  cases hs : BoundedInferenceQueue.startPop now waitS with
  | error e => exact h
  | ok call =>
    have hempty : call.expiredItems = [] := by
      simp only [BoundedInferenceQueue.startPop, Effect.bind_eq_ok, Effect.pure_eq_ok] at hs
      obtain ⟨s, _, rfl⟩ := hs
      rfl
    refine { h with places := ?_, expired := ?_ }
    · simpa [QueueRun.held, hempty] using h.places
    · simpa [QueueRun.held, hempty] using h.expired

theorem Accounted.step (h : Accounted capacity policy R) (call : QueueCall π) :
    Accounted capacity policy (R.step call) := by
  cases call with
  | push now payload deadlineS => exact h.push deadlineS
  | startPop now waitS => exact h.startPop now waitS
  | popRound i now => exact h.popRound i now
  | expirePayload payload => exact h.expirePayload payload
  | drain => exact h.drain

theorem Accounted.after (h : Accounted capacity policy R) (calls : List (QueueCall π)) :
    Accounted capacity policy (R.after calls) := by
  induction calls generalizing R with
  | nil => exact h
  | cons call calls ih => exact ih (h.step call)

/-! ## The theorem -/

/-- After any run, the items accepted are, each exactly once, queued, returned by
a pop, found expired, evicted or drained, and the counters say how many. -/
theorem queue_conservation {π : Type} [DecidableEq π] (capacity : Nat) (policy : OverflowPolicy)
    (h : 1 ≤ capacity) (calls : List (QueueCall π)) :
    let R := (QueueRun.start capacity policy h).after calls
    R.queue.items.length ≤ capacity ∧
      R.ledger.accepted.Nodup ∧
      (R.queue.items ++ R.ledger.returned.map Prod.fst ++ (R.ledger.reported ++ R.held) ++
        R.ledger.evicted ++ R.ledger.drained).Perm R.ledger.accepted ∧
      (R.ledger.returned.map Prod.fst ++ R.queue.items).Sublist R.ledger.accepted ∧
      (∀ x ∈ R.ledger.returned, ∀ d, x.1.deadlineMonotonic = some d →
        (PyNum.float d).le (.float x.2) = false) ∧
      R.queue.accepted = R.queue.items.length + R.ledger.returned.length + R.queue.expired +
        R.ledger.evicted.length + R.ledger.drained.length ∧
      R.queue.expired = (R.ledger.reported ++ R.held).length ∧
      R.queue.dropped = R.ledger.evicted.length + R.ledger.refused ∧
      (policy = .dropNewest ∨ R.ledger.refused = 0) := by
  intro R
  have hR : Accounted capacity policy R := (accounted_start h).after calls
  refine ⟨?_, ?_, hR.places, hR.inOrder, ?_, ?_, ?_, hR.dropped, hR.refused⟩
  · exact hR.sameCapacity ▸ R.queue.bounded
  · refine List.Nodup.of_map WorkItem.ticket ?_
    rw [hR.tickets]
    exact List.nodup_range
  · intro x hx d hd
    have hfresh := hR.fresh x hx
    rw [WorkItem.pastDeadline, hd] at hfresh
    exact hfresh
  · have hcount := hR.places.length_eq
    have htickets := congrArg List.length hR.tickets
    rw [List.length_map, List.length_range] at htickets
    have hexpired := hR.expired
    simp only [List.length_append, List.length_map] at hcount
    omega
  · rw [hR.expired, List.length_append]

/-- A queue of two under `DROP_OLDEST` takes three items; the second has expired
by the time it is popped. -/
def sampleCalls : List (QueueCall Nat) :=
  [.push (.finite 0) 0 none, .push (.finite 0) 1 (some (.int 1)), .push (.finite 0) 2 none,
    .startPop (.finite 2) (.int 0), .popRound 0 (.finite 2)]

theorem queue_conservation_sample :
    ((QueueRun.start 2 .dropOldest (by decide)).after sampleCalls).ledger.accepted.Nodup :=
  (queue_conservation 2 .dropOldest (by decide) sampleCalls).2.1

example :
    let R := (QueueRun.start 2 .dropOldest (by decide)).after sampleCalls
    R.ledger.evicted.map WorkItem.payload = [0] ∧ R.ledger.reported.map WorkItem.payload = [1] ∧
      R.ledger.returned.map (·.1.payload) = [2] := by
  decide +kernel

end Runtime
end EdgeFort
