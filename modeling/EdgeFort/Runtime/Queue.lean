/-
`BoundedInferenceQueue` (`runtime.py`).

Every operation is a section under the queue's lock, so one function each.  A
`pop_with_expired` that waits gives the lock up between its rounds and keeps the
items it has found expired so far.
-/
import EdgeFort.Python.Value

namespace EdgeFort
namespace Runtime

inductive OverflowPolicy where
  | dropOldest
  | dropNewest
  | reject
  deriving DecidableEq, Repr

/-- `ticket` is read by no operation: it tells the items apart, as Python's
object identity does. -/
structure WorkItem (π : Type) where
  payload : π
  enqueuedMonotonic : PyFloat
  deadlineMonotonic : Option PyFloat
  ticket : Nat
  deriving DecidableEq, Repr

structure BoundedInferenceQueue (π : Type) where
  capacity : Nat
  policy : OverflowPolicy
  items : List (WorkItem π)
  dropped : Nat
  expired : Nat
  accepted : Nat
  capacity_pos : 1 ≤ capacity
  bounded : items.length ≤ capacity

/-- A call of `pop_with_expired` that has started. -/
structure PopCall (π : Type) where
  finish : PyFloat
  expiredItems : List (WorkItem π)

/-- How one round of `pop_with_expired` ends. -/
inductive Popped (π : Type) where
  | returned (item : Option (WorkItem π)) (expiredItems : List (WorkItem π))
  | waits (call : PopCall π)

variable {π : Type}

/-- `item.deadline_monotonic is not None and item.deadline_monotonic <= now` -/
def WorkItem.pastDeadline (item : WorkItem π) (now : PyFloat) : Bool :=
  match item.deadlineMonotonic with
  | none => false
  | some d => (PyNum.float d).le (.float now)

namespace BoundedInferenceQueue

def empty (capacity : Nat) (policy : OverflowPolicy) (h : 1 ≤ capacity) :
    BoundedInferenceQueue π where
  capacity := capacity
  policy := policy
  items := []
  dropped := 0
  expired := 0
  accepted := 0
  capacity_pos := h
  bounded := Nat.zero_le capacity

/-- The check on both durations: `math.isfinite(d)`, then its sign. -/
def finiteDuration (d : PyNum) (message : PyStr) : Except PyError PyFloat :=
  match d.toFloat? with
  | none => .error (raise .overflowError "int too large to convert to float")
  | some s => do
    raiseIf (s.isfinite = false ∨ d.lt (.int 0)) (raise .valueError message)
    return s

/-- `_deadline` -/
def deadline (now : PyFloat) : Option PyNum → Except PyError (Option PyFloat)
  | none => .ok none
  | some d => do
    let s ← finiteDuration d "deadline_s must be finite and >= 0"
    return some (now.add s)

def newItem (Q : BoundedInferenceQueue π) (now : PyFloat) (payload : π)
    (deadlineMonotonic : Option PyFloat) : WorkItem π :=
  ⟨payload, now, deadlineMonotonic, Q.accepted⟩

/-- `self._q.append(item)` after `self._q.popleft()`, where `n` items are left out. -/
def enqueue (Q : BoundedInferenceQueue π) (n : Nat) (item : WorkItem π)
    (h : Q.items.length - n < Q.capacity) : BoundedInferenceQueue π :=
  { Q with
    items := Q.items.drop n ++ [item]
    dropped := Q.dropped + n
    accepted := Q.accepted + 1
    bounded := by
      rw [List.length_append, List.length_drop, List.length_singleton]
      omega }

/-- The section of `push_with_evicted` under the lock. -/
def admission (Q : BoundedInferenceQueue π) (item : WorkItem π) :
    Except PyError (Bool × Option (WorkItem π)) × BoundedInferenceQueue π :=
  if h : Q.items.length < Q.capacity then
    (.ok (true, none), Q.enqueue 0 item h)
  else
    match Q.policy with
    | .reject => (.error (raise .queueFull "inference queue full"), Q)
    | .dropNewest => (.ok (false, none), { Q with dropped := Q.dropped + 1 })
    | .dropOldest =>
      (.ok (true, Q.items.head?), Q.enqueue 1 item (by
        have := Q.capacity_pos
        have := Q.bounded
        omega))

/-- `push_with_evicted` -/
def pushWithEvicted (Q : BoundedInferenceQueue π) (now : PyFloat) (payload : π)
    (deadlineS : Option PyNum) :
    Except PyError (Bool × Option (WorkItem π)) × BoundedInferenceQueue π :=
  match deadline now deadlineS with
  | .error e => (.error e, Q)
  | .ok d => Q.admission (Q.newItem now payload d)

/-- The items past their deadline at the front of the queue. -/
def expiredFront (Q : BoundedInferenceQueue π) (now : PyFloat) : List (WorkItem π) :=
  Q.items.takeWhile fun item => item.pastDeadline now

/-- What is left once they have been popped. -/
def afterFront (Q : BoundedInferenceQueue π) (now : PyFloat) : List (WorkItem π) :=
  Q.items.dropWhile fun item => item.pastDeadline now

/-- The start of `pop_with_expired`. -/
def startPop (now : PyFloat) (waitS : PyNum) : Except PyError (PopCall π) := do
  let s ← finiteDuration waitS "wait_s must be finite and >= 0"
  return ⟨now.add s, []⟩

/-- The queue once `n` expired items have been counted and `rest` is left of it. -/
def afterScan (Q : BoundedInferenceQueue π) (n : Nat) (rest : List (WorkItem π))
    (h : rest.length ≤ Q.items.length) : BoundedInferenceQueue π :=
  { Q with
    items := rest
    expired := Q.expired + n
    bounded := Nat.le_trans h Q.bounded }

/-- A round of `pop_with_expired`: the loop over the queue, then `return` or
`self._cv.wait`. -/
def popRound (Q : BoundedInferenceQueue π) (call : PopCall π) (now : PyFloat) :
    Popped π × BoundedInferenceQueue π :=
  let front := Q.expiredFront now
  let expiredItems := call.expiredItems ++ front
  match h : Q.afterFront now with
  | item :: rest =>
    (.returned (some item) expiredItems, Q.afterScan front.length rest (by
      have hle : (Q.afterFront now).length ≤ Q.items.length := (List.dropWhile_sublist _).length_le
      rw [h, List.length_cons] at hle
      omega))
  | [] =>
    let Q' := Q.afterScan front.length [] (Nat.zero_le _)
    if (PyNum.float (call.finish.sub now)).le (.int 0) then (.returned none expiredItems, Q')
    else (.waits ⟨call.finish, expiredItems⟩, Q')

/-- `expire_payload`, with the item it removes. -/
def expirePayload [DecidableEq π] (Q : BoundedInferenceQueue π) (payload : π) :
    Option (WorkItem π) × BoundedInferenceQueue π :=
  match Q.items.find? fun item => item.payload = payload with
  | none => (none, Q)
  | some item => (some item,
      { Q with
        items := Q.items.eraseP fun item => item.payload = payload
        expired := Q.expired + 1
        bounded := Nat.le_trans List.length_eraseP_le Q.bounded })

def drain (Q : BoundedInferenceQueue π) : List (WorkItem π) × BoundedInferenceQueue π :=
  (Q.items, { Q with items := [], bounded := Nat.zero_le _ })

end BoundedInferenceQueue

/-! ## What a section does -/

open BoundedInferenceQueue

variable {Q : BoundedInferenceQueue π} {now : PyFloat}

/-- An item is refused, or appended once `n` items have been evicted. -/
theorem admission_cases (Q : BoundedInferenceQueue π) (item : WorkItem π) :
    (∃ e, Q.admission item = (.error e, Q)) ∨
    (Q.policy = .dropNewest ∧
      Q.admission item = (.ok (false, none), { Q with dropped := Q.dropped + 1 })) ∨
    ∃ n evicted h, n ≤ Q.items.length ∧ evicted.toList = Q.items.take n ∧
      Q.admission item = (.ok (true, evicted), Q.enqueue n item h) := by
  by_cases hlt : Q.items.length < Q.capacity
  · right; right
    refine ⟨0, none, hlt, Nat.zero_le _, rfl, ?_⟩
    rw [admission, dif_pos hlt]
  · have hpos := Q.capacity_pos
    have hle := Q.bounded
    cases hp : Q.policy with
    | reject =>
      left
      exact ⟨_, by rw [admission, dif_neg hlt, hp]⟩
    | dropNewest =>
      right; left
      exact ⟨rfl, by rw [admission, dif_neg hlt, hp]⟩
    | dropOldest =>
      right; right
      obtain ⟨oldest, rest, hitems⟩ : ∃ oldest rest, Q.items = oldest :: rest :=
        List.exists_cons_of_length_pos (by omega)
      refine ⟨1, some oldest, by omega, by omega, ?_, ?_⟩
      · rw [hitems]
        rfl
      · rw [admission, dif_neg hlt, hp]
        simp only [hitems, List.head?_cons]

/-- A push raises, is turned down, or appends its item. -/
theorem pushWithEvicted_cases (Q : BoundedInferenceQueue π) (now : PyFloat) (payload : π)
    (deadlineS : Option PyNum) :
    (∃ e, Q.pushWithEvicted now payload deadlineS = (.error e, Q)) ∨
    (Q.policy = .dropNewest ∧ Q.pushWithEvicted now payload deadlineS =
      (.ok (false, none), { Q with dropped := Q.dropped + 1 })) ∨
    ∃ d n evicted h, n ≤ Q.items.length ∧ evicted.toList = Q.items.take n ∧
      Q.pushWithEvicted now payload deadlineS =
        (.ok (true, evicted), Q.enqueue n (Q.newItem now payload d) h) := by
  unfold pushWithEvicted
  cases deadline now deadlineS with
  | error e => exact Or.inl ⟨e, rfl⟩
  | ok d =>
    rcases admission_cases Q (Q.newItem now payload d) with h | h | ⟨n, evicted, h⟩
    · exact Or.inl h
    · exact Or.inr (Or.inl h)
    · exact Or.inr (Or.inr ⟨d, n, evicted, h⟩)

/-- A round pops the expired items at the front, and returns the item after them
if there is one. -/
theorem popRound_cases (Q : BoundedInferenceQueue π) (call : PopCall π) (now : PyFloat) :
    ∃ item rest h, item.toList ++ rest = Q.afterFront now ∧
      (Q.popRound call now).2 = Q.afterScan (Q.expiredFront now).length rest h ∧
      ((Q.popRound call now).1 = .returned item (call.expiredItems ++ Q.expiredFront now) ∨
        item = none ∧ (Q.popRound call now).1 =
          .waits ⟨call.finish, call.expiredItems ++ Q.expiredFront now⟩) := by
  unfold popRound
  split
  · rename_i item rest heq
    have hlen : rest.length ≤ Q.items.length := by
      have hle : (Q.afterFront now).length ≤ Q.items.length := (List.dropWhile_sublist _).length_le
      rw [heq, List.length_cons] at hle
      omega
    exact ⟨some item, rest, hlen, heq.symm, rfl, Or.inl rfl⟩
  · rename_i heq
    refine ⟨none, [], Nat.zero_le _, heq.symm, ?_, ?_⟩
    · dsimp only
      split_ifs <;> rfl
    · dsimp only
      split_ifs
      · exact Or.inl rfl
      · exact Or.inr ⟨rfl, rfl⟩

theorem expiredFront_append (Q : BoundedInferenceQueue π) (now : PyFloat) :
    Q.expiredFront now ++ Q.afterFront now = Q.items :=
  List.takeWhile_append_dropWhile

/-- The item a pop returns is not past its deadline. -/
theorem afterFront_fresh {item : WorkItem π} {rest : List (WorkItem π)}
    (h : Q.afterFront now = item :: rest) : item.pastDeadline now = false := by
  have hne : Q.items.dropWhile (fun item => item.pastDeadline now) ≠ [] := by
    intro hnil
    exact List.cons_ne_nil item rest (h.symm.trans hnil)
  have hhead := List.head_dropWhile_not (fun item : WorkItem π => item.pastDeadline now) hne
  have heq : (Q.items.dropWhile fun item => item.pastDeadline now) = item :: rest := h
  simpa [heq] using hhead

/-- `expire_payload` removes at most one item. -/
theorem expirePayload_cases [DecidableEq π] (Q : BoundedInferenceQueue π) (payload : π) :
    Q.expirePayload payload = (none, Q) ∨
      ∃ l₁ item l₂ h, Q.items = l₁ ++ item :: l₂ ∧ item.payload = payload ∧
        Q.expirePayload payload =
          (some item, { Q with items := l₁ ++ l₂, expired := Q.expired + 1, bounded := h }) := by
  unfold expirePayload
  split
  · exact Or.inl rfl
  · rename_i item heq
    obtain ⟨hp, l₁, l₂, hitems, hbefore⟩ := List.find?_eq_some_iff_append.mp heq
    have herase : (Q.items.eraseP fun item => item.payload = payload) = l₁ ++ l₂ := by
      rw [hitems, List.eraseP_append_right _ (fun b hb => by simpa using hbefore b hb),
        List.eraseP_cons_of_pos (by simpa using hp)]
    have hlen : (l₁ ++ l₂).length ≤ Q.capacity := by
      have hb := Q.bounded
      rw [hitems, List.length_append, List.length_cons] at hb
      rw [List.length_append]
      omega
    refine Or.inr ⟨l₁, item, l₂, hlen, hitems, by simpa using hp, ?_⟩
    simp only [herase]

/-- What a push that is accepted does to the payloads queued. -/
theorem pushWithEvicted_accepted {Q' : BoundedInferenceQueue π} {payload : π} {d : Option PyNum}
    {evicted : Option (WorkItem π)}
    (h : Q.pushWithEvicted now payload d = (.ok (true, evicted), Q')) :
    ∃ n, evicted.toList = Q.items.take n ∧
      Q'.items.map WorkItem.payload = (Q.items.drop n).map WorkItem.payload ++ [payload] := by
  rcases pushWithEvicted_cases Q now payload d with ⟨e, hq⟩ | ⟨_, hq⟩ | ⟨d', n, x, hlt, _, hx, hq⟩
  · rw [hq] at h
    cases h
  · rw [hq] at h
    cases h
  · rw [hq] at h
    cases h
    refine ⟨n, hx, ?_⟩
    show (Q.items.drop n ++ [_]).map WorkItem.payload = _
    rw [List.map_append]
    rfl

/-- A push that is not accepted leaves the items alone. -/
theorem pushWithEvicted_refused {Q' : BoundedInferenceQueue π} {payload : π} {d : Option PyNum}
    {r : Except PyError (Bool × Option (WorkItem π))} (hr : ∀ evicted, r ≠ .ok (true, evicted))
    (h : Q.pushWithEvicted now payload d = (r, Q')) :
    Q'.items = Q.items ∧ Q'.accepted = Q.accepted := by
  rcases pushWithEvicted_cases Q now payload d with ⟨e, hq⟩ | ⟨_, hq⟩ | ⟨d', n, x, hlt, _, hx, hq⟩
  · rw [hq] at h
    cases h
    exact ⟨rfl, rfl⟩
  · rw [hq] at h
    cases h
    exact ⟨rfl, rfl⟩
  · rw [hq] at h
    cases h
    exact absurd rfl (hr x)

theorem startPop_ok {waitS : PyNum} {call : PopCall π} (h : startPop now waitS = .ok call) :
    call.expiredItems = [] := by
  obtain ⟨s, _, hs⟩ := Effect.bind_eq_ok.mp h
  rw [← Effect.pure_eq_ok.mp hs]

/-- A round that waits keeps the end of the pop, and loses no item. -/
theorem popRound_waits {Q' : BoundedInferenceQueue π} {call call' : PopCall π}
    (h : Q.popRound call now = (.waits call', Q')) :
    call'.finish = call.finish ∧ call'.expiredItems = call.expiredItems ++ Q.expiredFront now ∧
      (Q'.items ++ call'.expiredItems).Perm (Q.items ++ call.expiredItems) := by
  classical
  obtain ⟨item, rest, hle, hrest, hQ, hres⟩ := popRound_cases Q call now
  rw [h] at hQ hres
  rcases hres with hres | ⟨hnone, hres⟩
  · cases hres
  · cases hres
    subst hnone
    have hitems : Q'.items = rest := congrArg items hQ
    refine ⟨rfl, rfl, ?_⟩
    rw [hitems, show rest = Q.afterFront now from hrest, ← expiredFront_append Q now]
    apply List.perm_iff_count.mpr
    intro x
    simp only [List.count_append]
    omega

/-- A round at the end of the wait returns. -/
theorem popRound_at_finish (Q : BoundedInferenceQueue π) (call : PopCall π)
    (hfinish : call.finish.isfinite = true) :
    ∃ item expiredItems Q', Q.popRound call call.finish = (.returned item expiredItems, Q') := by
  unfold popRound
  split
  · exact ⟨_, _, _, rfl⟩
  · refine ⟨none, _, _, if_pos ?_⟩
    rw [PyFloat.sub_self hfinish]
    rfl

/-- A round that returns hands out what it takes from the queue. -/
theorem popRound_returned {Q' : BoundedInferenceQueue π} {call : PopCall π}
    {item : Option (WorkItem π)} {expiredItems : List (WorkItem π)}
    (h : Q.popRound call now = (.returned item expiredItems, Q')) :
    expiredItems = call.expiredItems ++ Q.expiredFront now ∧
      (Q'.items ++ (expiredItems ++ item.toList)).Perm (Q.items ++ call.expiredItems) := by
  classical
  obtain ⟨item', rest, hle, hrest, hQ, hres⟩ := popRound_cases Q call now
  rw [h] at hQ hres
  rcases hres with hres | ⟨_, hres⟩
  · cases hres
    have hitems : Q'.items = rest := congrArg items hQ
    refine ⟨rfl, ?_⟩
    rw [hitems, ← expiredFront_append Q now, ← hrest]
    apply List.perm_iff_count.mpr
    intro x
    simp only [List.count_append]
    omega
  · cases hres

end Runtime
end EdgeFort
