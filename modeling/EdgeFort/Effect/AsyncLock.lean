/-
`asyncio.Lock`, as the tasks of one event loop use it.

A task that finds the lock taken waits on a future of its own.  Waking the task and
cancelling it both settle that future, and the task goes on later, when the loop
runs it; until then other tasks may run.
-/

namespace Effect

/-- The future of a task that waits in `acquire`.  `interrupted` is a future that was
settled before its task was cancelled: the task then finds the `CancelledError`
instead of the lock. -/
inductive Waiting where
  | pending
  | woken
  | interrupted
  | cancelled
  deriving DecidableEq, Repr

/-- `task.cancel()` -/
def Waiting.cancel : Waiting → Waiting
  | pending => cancelled
  | woken => interrupted
  | w => w

structure AsyncLock (ι : Type) where
  locked : Bool
  waiters : List (ι × Waiting)

namespace AsyncLock

variable {ι : Type}

section Operations

variable [DecidableEq ι] (L : AsyncLock ι) (i : ι)

def free : AsyncLock ι := ⟨false, []⟩

/-- Whether `acquire` returns at once. -/
def available : Bool := !L.locked && L.waiters.all fun w => w.2 = .cancelled

def take : AsyncLock ι := { L with locked := true }

/-- `acquire`, up to its `await`. -/
def wait : AsyncLock ι := { L with waiters := L.waiters ++ [(i, .pending)] }

/-- `_wake_up_first` -/
def wakeUpFirst : AsyncLock ι :=
  match L.waiters with
  | (j, .pending) :: rest => { L with waiters := (j, .woken) :: rest }
  | _ => L

def release : AsyncLock ι := { L with locked := false }.wakeUpFirst

def cancel : AsyncLock ι :=
  { L with waiters := L.waiters.map fun w => if w.1 = i then (w.1, w.2.cancel) else w }

def waiting : Option Waiting := L.waiters.lookup i

def remove : AsyncLock ι := { L with waiters := L.waiters.filter fun w => w.1 ≠ i }

/-- The rest of `acquire` for a task that was woken. -/
def claim : AsyncLock ι := (L.remove i).take

/-- The rest of `acquire` for a task that was cancelled. -/
def giveUp : AsyncLock ι :=
  if L.locked then L.remove i else (L.remove i).wakeUpFirst

end Operations

/-! ## Who waits, and how -/

variable {L : AsyncLock ι} {i : ι} {w : ι × Waiting}

theorem mem_remove [DecidableEq ι] : w ∈ (L.remove i).waiters ↔ w ∈ L.waiters ∧ w.1 ≠ i := by
  simp [remove]

/-- Waking a waiter leaves it a waiter, and leaves the others. -/
theorem mem_wakeUpFirst (h : w ∈ L.wakeUpFirst.waiters) :
    w ∈ L.waiters ∨ w.2 = .woken ∧ (w.1, .pending) ∈ L.waiters := by
  unfold wakeUpFirst at h
  split at h
  · rename_i j rest hw
    rcases List.mem_cons.mp h with rfl | h
    · exact Or.inr ⟨rfl, hw ▸ List.mem_cons_self⟩
    · exact Or.inl (hw ▸ List.mem_cons_of_mem _ h)
  · exact Or.inl h

theorem mem_release (h : w ∈ L.release.waiters) :
    w ∈ L.waiters ∨ w.2 = .woken ∧ (w.1, .pending) ∈ L.waiters :=
  @mem_wakeUpFirst ι { L with locked := false } w h

/-- Releasing the lock makes nobody a waiter. -/
theorem ne_of_mem_release (hi : ∀ w ∈ L.waiters, w.1 ≠ i) (h : w ∈ L.release.waiters) :
    w.1 ≠ i := by
  rcases mem_release h with hw | ⟨-, hw⟩
  · exact hi w hw
  · exact hi (w.1, .pending) hw

theorem mem_giveUp [DecidableEq ι] (h : w ∈ (L.giveUp i).waiters) :
    w.1 ≠ i ∧ (w ∈ L.waiters ∨ w.2 = .woken ∧ (w.1, .pending) ∈ L.waiters) := by
  unfold giveUp at h
  split at h
  · obtain ⟨hw, hne⟩ := mem_remove.mp h
    exact ⟨hne, Or.inl hw⟩
  · rcases mem_wakeUpFirst h with hw | ⟨hwoken, hw⟩
    · obtain ⟨hw, hne⟩ := mem_remove.mp hw
      exact ⟨hne, Or.inl hw⟩
    · obtain ⟨hw, hne⟩ := mem_remove.mp hw
      exact ⟨hne, Or.inr ⟨hwoken, hw⟩⟩

theorem mem_cancel [DecidableEq ι] (h : w ∈ (L.cancel i).waiters) :
    ∃ x, (w.1, x) ∈ L.waiters ∧ (w.1 ≠ i → x = w.2) := by
  simp only [cancel, List.mem_map] at h
  obtain ⟨v, hv, rfl⟩ := h
  by_cases hi : v.1 = i
  · rw [if_pos hi]
    exact ⟨v.2, hv, fun hne => absurd hi hne⟩
  · rw [if_neg hi]
    exact ⟨v.2, hv, fun _ => rfl⟩

theorem mem_of_waiting [DecidableEq ι] {x : Waiting} (h : L.waiting i = some x) : (i, x) ∈ L.waiters := by
  obtain ⟨l₁, l₂, hl, -⟩ := List.lookup_eq_some_iff.mp h
  rw [hl]
  simp

end AsyncLock

end Effect
