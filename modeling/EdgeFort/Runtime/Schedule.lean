/-
Runs of the executor that can be computed.

`advance` is the step a thread takes when nothing fails; a schedule says which
thread goes next, and at what time.
-/
import EdgeFort.Runtime.Sections

namespace EdgeFort
namespace Runtime

open Effect BoundedInferenceQueue

variable {Op : Type} {Res : Op → Type} {W ρ : Type}

namespace ExecState

variable (E : BoundedInferenceExecutor Op Res W ρ)

/-- `start`, `_enqueue`, `ensure_ready` and `close` wait for the state lock here. -/
def acquire (s : ExecState Op Res W ρ) (i : Tid) : Pc Op Res ρ → Option (ExecState Op Res W ρ)
  | .entering next =>
    if s.closed then some (s.goto i .idle)
    else if s.started then some (s.goto i next.pc)
    else some ({ s with started := true }.lock i |>.goto i (.starting E.startRunners next))
  | .arriving t sub =>
    if s.closed then some (s.goto i .idle) else some ((s.lock i).goto i (.pushing t sub))
  | .closing wait =>
    if s.closed then some (s.goto i (.closingRunners E.closeRunners wait))
    else some ({ s with closed := true }.lock i |>.goto i (.draining wait))
  | .checkingClosed => some (s.goto i (if s.closed then .exited else .looping))
  | _ => none

/-- One operation of a program, without a fault. -/
def operate {α : Type} (s : ExecState Op Res W ρ) (i : Tid) (o : Op)
    (k : Except PyError (Res o) → Prog Op Res PyError α) (c : Prog Op Res PyError α → Pc Op Res ρ) :
    ExecState Op Res W ρ :=
  { s with world := (E.sem.exec o s.world).2 }.goto i (c (k (E.sem.exec o s.world).1))

/-- The result of a push. -/
def pushed (s : ExecState Op Res W ρ) (i : Tid) (t : TaskId) (sub : Submission) :
    Except PyError (Bool × Option (WorkItem TaskId)) × BoundedInferenceQueue TaskId →
      ExecState Op Res W ρ
  | (.ok (true, none), Q) => { s with queue := Q }.record t .admitted |>.unlock.goto i (.waiting t sub)
  | (.ok (true, some item), Q) =>
    { s with queue := Q }.record t .admitted |>.goto i (.evicting t sub item.payload)
  | (_, Q) => { s with queue := Q }.unlock.goto i .idle

/-- The result of a round of a pop. -/
def popped (s : ExecState Op Res W ρ) (i : Tid) :
    Popped TaskId × BoundedInferenceQueue TaskId → ExecState Op Res W ρ
  | (.waits call, Q) => { s with queue := Q }.goto i (.popping call)
  | (.returned item expired, Q) => { s with queue := Q }.goto i
      (.reporting (expired.map WorkItem.payload) (item.map WorkItem.payload))

/-- The step of thread `i` at time `now`, when nothing fails.  A caller that is idle, or
waits for its task or for the workers, has no such step. -/
def advance (s : ExecState Op Res W ρ) (now : PyFloat) (i : Tid) : Option (ExecState Op Res W ρ) :=
  match s.pc i with
  | .starting (.op o k) next => some (s.operate E i o k fun p => .starting p next)
  | .starting (.pure ()) next => some ((s.spawnWorkers E.workers).unlock.goto i next.pc)
  | .pushing t sub => some (s.pushed i t sub (s.queue.pushWithEvicted now t sub.deadlineS))
  | .draining wait => some ({ s with queue := s.queue.drain.2, drained := true }.goto i
      (.finishing (s.queue.drain.1.map WorkItem.payload) wait))
  | .finishing (t :: rest) wait => some ((s.complete t .closed).goto i (.finishing rest wait))
  | .finishing [] wait => some (s.unlock.goto i (.closingRunners E.closeRunners wait))
  | .closingRunners (.op o k) wait => some (s.operate E i o k fun p => .closingRunners p wait)
  | .closingRunners (.pure ()) wait => some (s.goto i (.joining wait))
  | .looping =>
    match startPop now (.float (.round (1 / 10))) with
    | .ok call => if call.finish.isfinite then some (s.goto i (.popping call)) else none
    | .error _ => none
  | .popping call => some (s.popped i (s.queue.popRound call now))
  | .reporting (t :: rest) item => some ((s.complete t .expired).goto i (.reporting rest item))
  | .reporting [] none => some (s.goto i .checkingClosed)
  | .reporting [] (some t) => some (s.goto i (.beginning t))
  | .beginning t => some (if (s.tasks t).begin.1 then
      (s.setTask t (s.tasks t).begin.2).goto i (.executing t) else s.goto i .looping)
  | .executing t => some ((s.record t .invoked).goto i (.running t (E.predict i t)))
  | .running t (.op o k) => some (s.operate E i o k (.running t))
  | .running t (.pure a) => some (s.goto i (.completing t (.ok a)))
  | .running t (.throw e) => some (s.goto i (.completing t (.error e)))
  | .completing t r => some ((s.complete t (.ran r)).goto i .looping)
  | p => if s.stateLock = none then s.acquire E i p else none

end ExecState

variable {E : BoundedInferenceExecutor Op Res W ρ} {s s' : ExecState Op Res W ρ} {i : Tid}
  {now : PyFloat}

theorem acquire_step {p : Pc Op Res ρ} (hpc : s.pc i = p) (hfree : s.stateLock = none)
    (h : s.acquire E i p = some s') : ExecStep E i s s' := by
  have hopen : ∀ {b : Bool}, ¬b = true → b = false := Bool.eq_false_iff.mpr
  cases p with
  | entering next =>
    simp only [ExecState.acquire] at h
    split at h
    · cases h
      exact .startClosed hpc hfree ‹_›
    · split at h
      · cases h
        exact .alreadyStarted hpc hfree (hopen ‹_›) ‹_›
      · cases h
        exact .start hpc hfree (hopen ‹_›) (hopen ‹_›)
  | arriving t sub =>
    simp only [ExecState.acquire] at h
    split at h
    · cases h
      exact .enqueueClosed hpc hfree ‹_›
    · cases h
      exact .enqueue hpc hfree (hopen ‹_›)
  | closing wait =>
    simp only [ExecState.acquire] at h
    split at h
    · cases h
      exact .closeAgain hpc hfree ‹_›
    · cases h
      exact .close hpc hfree (hopen ‹_›)
  | checkingClosed =>
    simp only [ExecState.acquire] at h
    split at h
    · cases h
      exact .workerExits hpc hfree ‹_›
    · cases h
      exact .workerLoops hpc hfree (hopen ‹_›)
  | _ => cases h

theorem pushed_step {t : TaskId} {sub : Submission} (hpc : s.pc i = .pushing t sub) :
    ExecStep E i s (s.pushed i t sub (s.queue.pushWithEvicted now t sub.deadlineS)) := by
  cases hq : s.queue.pushWithEvicted now t sub.deadlineS with
  | mk r Q =>
    match r with
    | .ok (true, none) => exact .pushed hpc hq
    | .ok (true, some item) => exact .pushedEvicting hpc hq
    | .ok (false, x) => exact .pushRefused hpc hq
    | .error e => exact .pushRaised hpc hq

theorem popped_step {call : PopCall TaskId} (hpc : s.pc i = .popping call) :
    ExecStep E i s (s.popped i (s.queue.popRound call now)) := by
  cases hq : s.queue.popRound call now with
  | mk r Q =>
    cases r with
    | returned item expired => exact .popReturns hpc hq
    | waits call' => exact .popWaits hpc hq

/-- What `advance` does is a step of the executor. -/
theorem advance_step (h : s.advance E now i = some s') : ExecStep E i s s' := by
  unfold ExecState.advance at h
  split at h
  · rename_i hpc
    cases h
    exact .startRunner hpc (.op (Or.inl rfl))
  · rename_i hpc
    cases h
    exact .startDone hpc
  · rename_i hpc
    cases h
    exact pushed_step hpc
  · rename_i hpc
    cases h
    exact .drain hpc
  · rename_i hpc
    cases h
    exact .finish hpc
  · rename_i hpc
    cases h
    exact .finished hpc
  · rename_i hpc
    cases h
    exact .closeRunner hpc (.op (Or.inl rfl))
  · rename_i hpc
    cases h
    exact .closeRunnersDone hpc
  · rename_i hpc
    split at h
    · rename_i hcall
      split at h
      · rename_i hfinite
        cases h
        exact .popStart hpc hcall hfinite
      · cases h
    · cases h
  · rename_i hpc
    cases h
    exact popped_step hpc
  · rename_i hpc
    cases h
    exact .report hpc
  · rename_i hpc
    cases h
    exact .reportedNothing hpc
  · rename_i hpc
    cases h
    exact .reportedItem hpc
  · rename_i t hpc
    cases hb : (s.tasks t).begin with
    | mk b task =>
      rw [hb] at h
      cases b with
      | true =>
        cases h
        exact .begins hpc hb
      | false =>
        cases h
        exact .beginsTooLate hpc hb
  · rename_i hpc
    cases h
    exact .invoke hpc
  · rename_i hpc
    cases h
    exact .engineStep hpc (.op (Or.inl rfl))
  · rename_i a hpc
    cases h
    exact .engineAnswers (r := .ok a) hpc
  · rename_i e hpc
    cases h
    exact .engineAnswers (r := .error e) hpc
  · rename_i hpc
    cases h
    exact .completes hpc
  · split at h
    · exact acquire_step rfl ‹_› h
    · cases h

/-! ## Schedules -/

/-- What happens next: a call, or a step of a thread at a time. -/
inductive Move where
  | submit (i : Tid) (sub : Submission)
  | close (i : Tid) (wait : Bool)
  | go (i : Tid) (now : PyFloat)

def Move.tid : Move → Tid
  | submit i _ | close i _ | go i _ => i

/-- Whether the thread is between two calls. -/
def Pc.isIdle : Pc Op Res ρ → Bool
  | idle => true
  | _ => false

def ExecState.play (E : BoundedInferenceExecutor Op Res W ρ) (s : ExecState Op Res W ρ) :
    Move → Option (ExecState Op Res W ρ)
  | .submit i sub =>
    if (s.pc i).isIdle then some { s.goto i (.entering (.enqueue s.nextTask sub)) with
      nextTask := s.nextTask + 1 } else none
  | .close i wait => if (s.pc i).isIdle then some (s.goto i (.closing wait)) else none
  | .go i now => s.advance E now i

/-- The state after a schedule. -/
def ExecState.playAll (E : BoundedInferenceExecutor Op Res W ρ) (s : ExecState Op Res W ρ)
    (moves : List Move) : Option (ExecState Op Res W ρ) :=
  moves.foldlM (ExecState.play E) s

theorem Pc.eq_idle {p : Pc Op Res ρ} (h : p.isIdle = true) : p = .idle := by
  cases p with
  | idle => rfl
  | _ => cases h

theorem play_step {m : Move} (h : s.play E m = some s') : ExecStep E m.tid s s' := by
  cases m with
  | submit i sub =>
    simp only [ExecState.play] at h
    split at h
    · rename_i hp
      cases h
      exact .submit sub (Pc.eq_idle hp)
    · cases h
  | close i wait =>
    simp only [ExecState.play] at h
    split at h
    · rename_i hp
      cases h
      exact .callClose wait (Pc.eq_idle hp)
    · cases h
  | go i now => exact advance_step h

theorem playAll_reachable {worlds : W → Prop} (hs : (executor E worlds).Reachable s)
    (moves : List Move) (h : s.playAll E moves = some s') : (executor E worlds).Reachable s' := by
  induction moves generalizing s with
  | nil =>
    cases h
    exact hs
  | cons m moves ih =>
    obtain ⟨s₁, h₁, h₂⟩ := Option.bind_eq_some_iff.mp h
    exact ih (hs.step ⟨_, play_step h₁⟩) h₂

end Runtime
end EdgeFort
