/-
`BoundedInferenceExecutor` (`runtime.py`): callers, workers and closers as threads
that interleave between any two of their atomic steps.

A section under the state lock may have several steps, so the lock is part of the
state; the queue's lock and a task's lock each guard one step.  What the engine
and the child processes do is a program over operations the executor does not
look into.
-/
import Mathlib.Logic.Function.Basic
import EdgeFort.Effect.Program
import EdgeFort.Effect.System
import EdgeFort.Runtime.Queue

namespace EdgeFort
namespace Runtime

open Effect

/-! ## Tasks -/

abbrev TaskId := Nat

/-- What `done` was set for: the engine's answer, or the reason there is none. -/
inductive Outcome (ρ : Type) where
  | ran (answer : Except PyError ρ)
  | expired
  | dropped
  | closed
  | cancelled

/-- `outcome` stands for `done`, `result` and `error`. -/
structure InferenceTask (ρ : Type) where
  started : Bool
  outcome : Option (Outcome ρ)

namespace InferenceTask

variable {ρ : Type}

def new : InferenceTask ρ := ⟨false, none⟩

/-- The state after `begin`, which returns whether it has set `started`. -/
def begin (task : InferenceTask ρ) : Bool × InferenceTask ρ :=
  if task.outcome.isSome then (false, task) else (true, { task with started := true })

def complete (task : InferenceTask ρ) (o : Outcome ρ) : InferenceTask ρ :=
  if task.outcome.isSome then task else { task with outcome := some o }

/-- `expire_if_not_started` and `cancel_if_not_started`. -/
def settleIfNotStarted (task : InferenceTask ρ) (o : Outcome ρ) : Bool × InferenceTask ρ :=
  if task.outcome.isSome || task.started then (false, task)
  else (true, { task with outcome := some o })

end InferenceTask

/-! ## Threads -/

inductive Tid where
  | worker (index : Nat)
  | caller (index : Nat)
  deriving DecidableEq, Repr

/-- The arguments of `submit` and `submit_async`. -/
structure Submission where
  deadlineS : Option PyNum
  isAsync : Bool

/-- What a thread does once `start` has returned. -/
inductive AfterStart where
  | enqueue (t : TaskId) (sub : Submission)
  | checkReady
  | nothing

/-- Where a thread is.  A caller that is `idle` may make another call. -/
inductive Pc (Op : Type) (Res : Op → Type) (ρ : Type) where
  | idle
  /-- before the state lock is taken in `start` -/
  | entering (next : AfterStart)
  /-- in `start`, starting the runners -/
  | starting (rest : Prog Op Res PyError Unit) (next : AfterStart)
  /-- in `_enqueue`, before the state lock is taken -/
  | arriving (t : TaskId) (sub : Submission)
  | pushing (t : TaskId) (sub : Submission)
  /-- `evicted` is to be completed -/
  | evicting (t : TaskId) (sub : Submission) (evicted : TaskId)
  /-- waiting for `done`; the timer runs when there is a deadline -/
  | waiting (t : TaskId) (sub : Submission)
  /-- before `expire_payload(t)` -/
  | removing (t : TaskId)
  /-- in `ensure_ready`, before the state lock is taken -/
  | checkingReady
  | readying (rest : Prog Op Res PyError Unit)
  /-- before the state lock is taken in `close` -/
  | closing (wait : Bool)
  | draining (wait : Bool)
  /-- the drained tasks are to be completed -/
  | finishing (tasks : List TaskId) (wait : Bool)
  | closingRunners (rest : Prog Op Res PyError Unit) (wait : Bool)
  | joining (wait : Bool)
  /-- a worker before the thread is started -/
  | unborn
  | looping
  | popping (call : PopCall TaskId)
  /-- the expired tasks are to be completed -/
  | reporting (expired : List TaskId) (item : Option TaskId)
  /-- nothing was popped -/
  | checkingClosed
  | beginning (t : TaskId)
  | executing (t : TaskId)
  | running (t : TaskId) (rest : Prog Op Res PyError ρ)
  | completing (t : TaskId) (answer : Except PyError ρ)
  | exited

/-! ## The executor -/

/-- The configuration, and the parts of the executor that work on the engine and
the runners. -/
structure BoundedInferenceExecutor (Op : Type) (Res : Op → Type) (W ρ : Type) where
  sem : Sem Op Res PyError W
  capacity : Nat
  policy : OverflowPolicy
  capacity_pos : 1 ≤ capacity
  workers : Nat
  /-- the runners' part of `start`, with the handler that closes them again -/
  startRunners : Prog Op Res PyError Unit
  /-- `engine.predict`, or `_process_predict` of a worker, on the payload of a task -/
  predict : Tid → TaskId → Prog Op Res PyError ρ
  /-- the part of `ensure_ready` after the check of `_closed` -/
  makeReady : Prog Op Res PyError Unit
  /-- `runner.close()` for each runner -/
  closeRunners : Prog Op Res PyError Unit

/-- What happens to a task. -/
inductive TaskEvent (ρ : Type) where
  | admitted
  | invoked
  | settled (o : Outcome ρ)

/-- `history` (newest first), `drained` and `closeReturned` are read by no step:
what has happened to each task, whether `close` has drained the queue, and whether
a `close(wait=True)` has returned `True`. -/
structure ExecState (Op : Type) (Res : Op → Type) (W ρ : Type) where
  world : W
  queue : BoundedInferenceQueue TaskId
  started : Bool
  closed : Bool
  stateLock : Option Tid
  tasks : TaskId → InferenceTask ρ
  nextTask : TaskId
  pc : Tid → Pc Op Res ρ
  history : TaskId → List (TaskEvent ρ)
  drained : Bool
  closeReturned : Bool

namespace ExecState

variable {Op : Type} {Res : Op → Type} {W ρ : Type}

def goto (s : ExecState Op Res W ρ) (i : Tid) (p : Pc Op Res ρ) : ExecState Op Res W ρ :=
  { s with pc := Function.update s.pc i p }

def lock (s : ExecState Op Res W ρ) (i : Tid) : ExecState Op Res W ρ :=
  { s with stateLock := some i }

def unlock (s : ExecState Op Res W ρ) : ExecState Op Res W ρ :=
  { s with stateLock := none }

def setTask (s : ExecState Op Res W ρ) (t : TaskId) (task : InferenceTask ρ) :
    ExecState Op Res W ρ :=
  { s with tasks := Function.update s.tasks t task }

def record (s : ExecState Op Res W ρ) (t : TaskId) (e : TaskEvent ρ) :
    ExecState Op Res W ρ :=
  { s with history := Function.update s.history t (e :: s.history t) }

/-- `tasks[t].complete(...)` -/
def complete (s : ExecState Op Res W ρ) (t : TaskId) (o : Outcome ρ) :
    ExecState Op Res W ρ :=
  if (s.tasks t).outcome.isSome then s
  else (s.setTask t ((s.tasks t).complete o)).record t (.settled o)

/-- `start` has made the worker threads. -/
def spawnWorkers (s : ExecState Op Res W ρ) (workers : Nat) : ExecState Op Res W ρ :=
  { s with
    pc := fun i =>
      match i with
      | .worker n => if n < workers then .looping else s.pc i
      | .caller _ => s.pc i }

end ExecState

/-- Where a thread goes when `start` returns. -/
def AfterStart.pc {Op : Type} {Res : Op → Type} {ρ : Type} : AfterStart → Pc Op Res ρ
  | enqueue t sub => .arriving t sub
  | checkReady => .checkingReady
  | nothing => .idle

/-! ## Steps -/

section
variable {Op : Type} {Res : Op → Type} {W ρ : Type}

/-- The worker threads that were started have all returned. -/
def ExecState.joined (s : ExecState Op Res W ρ) : Prop :=
  ∀ n, s.pc (.worker n) = .unborn ∨ s.pc (.worker n) = .exited

open BoundedInferenceQueue

/-- One step of thread `i`.  A caller's step out of a call that returns or raises
leads to `idle`. -/
inductive ExecStep (E : BoundedInferenceExecutor Op Res W ρ) :
    Tid → ExecState Op Res W ρ → ExecState Op Res W ρ → Prop
  -- calls
  | submit {i s} (sub : Submission) : s.pc i = .idle →
      ExecStep E i s { s.goto i (.entering (.enqueue s.nextTask sub)) with
        nextTask := s.nextTask + 1 }
  | callStart {i s} : s.pc i = .idle → ExecStep E i s (s.goto i (.entering .nothing))
  | callReady {i s} : s.pc i = .idle → ExecStep E i s (s.goto i (.entering .checkReady))
  | callClose {i s} (wait : Bool) : s.pc i = .idle → ExecStep E i s (s.goto i (.closing wait))
  -- `start`
  | startClosed {i s next} : s.pc i = .entering next → s.stateLock = none → s.closed = true →
      ExecStep E i s (s.goto i .idle)
  | alreadyStarted {i s next} : s.pc i = .entering next → s.stateLock = none →
      s.closed = false → s.started = true → ExecStep E i s (s.goto i next.pc)
  | start {i s next} : s.pc i = .entering next → s.stateLock = none → s.closed = false →
      s.started = false →
      ExecStep E i s ({ s with started := true }.lock i |>.goto i (.starting E.startRunners next))
  | startRunner {i s p p' next w} : s.pc i = .starting p next →
      E.sem.Step (p, s.world) (p', w) →
      ExecStep E i s ({ s with world := w }.goto i (.starting p' next))
  | startDone {i s next} : s.pc i = .starting (.pure ()) next →
      ExecStep E i s ((s.spawnWorkers E.workers).unlock.goto i next.pc)
  | startFailed {i s e next} : s.pc i = .starting (.throw e) next →
      ExecStep E i s ({ s with started := false }.unlock.goto i .idle)
  -- `_enqueue`
  | enqueueClosed {i s t sub} : s.pc i = .arriving t sub → s.stateLock = none →
      s.closed = true → ExecStep E i s (s.goto i .idle)
  | enqueue {i s t sub} : s.pc i = .arriving t sub → s.stateLock = none → s.closed = false →
      ExecStep E i s ((s.lock i).goto i (.pushing t sub))
  | pushRaised {i s t sub now e Q} : s.pc i = .pushing t sub →
      s.queue.pushWithEvicted now t sub.deadlineS = (.error e, Q) →
      ExecStep E i s ({ s with queue := Q }.unlock.goto i .idle)
  | pushRefused {i s t sub now x Q} : s.pc i = .pushing t sub →
      s.queue.pushWithEvicted now t sub.deadlineS = (.ok (false, x), Q) →
      ExecStep E i s ({ s with queue := Q }.unlock.goto i .idle)
  | pushed {i s t sub now Q} : s.pc i = .pushing t sub →
      s.queue.pushWithEvicted now t sub.deadlineS = (.ok (true, none), Q) →
      ExecStep E i s ({ s with queue := Q }.record t .admitted |>.unlock.goto i (.waiting t sub))
  | pushedEvicting {i s t sub now item Q} : s.pc i = .pushing t sub →
      s.queue.pushWithEvicted now t sub.deadlineS = (.ok (true, some item), Q) →
      ExecStep E i s
        ({ s with queue := Q }.record t .admitted |>.goto i (.evicting t sub item.payload))
  | evict {i s t sub u} : s.pc i = .evicting t sub u →
      ExecStep E i s ((s.complete u .dropped).unlock.goto i (.waiting t sub))
  -- waiting for the outcome
  | answered {i s t sub} : s.pc i = .waiting t sub → (s.tasks t).outcome.isSome = true →
      ExecStep E i s (s.goto i .idle)
  | timerExpires {i s t sub task} : s.pc i = .waiting t sub → sub.deadlineS.isSome = true →
      (s.tasks t).settleIfNotStarted .expired = (true, task) →
      ExecStep E i s ((s.setTask t task).record t (.settled .expired) |>.goto i (.removing t))
  | timerTooLate {i s t sub task} : s.pc i = .waiting t sub → sub.deadlineS.isSome = true →
      (s.tasks t).settleIfNotStarted .expired = (false, task) →
      ExecStep E i s (s.goto i (.waiting t { sub with deadlineS := none }))
  | cancels {i s t sub task} : s.pc i = .waiting t sub → sub.isAsync = true →
      (s.tasks t).settleIfNotStarted .cancelled = (true, task) →
      ExecStep E i s ((s.setTask t task).record t (.settled .cancelled) |>.goto i (.removing t))
  | cancelsTooLate {i s t sub task} : s.pc i = .waiting t sub → sub.isAsync = true →
      (s.tasks t).settleIfNotStarted .cancelled = (false, task) →
      ExecStep E i s (s.goto i .idle)
  | remove {i s t} : s.pc i = .removing t →
      ExecStep E i s ({ s with queue := (s.queue.expirePayload t).2 }.goto i .idle)
  -- `ensure_ready`
  | readyClosed {i s} : s.pc i = .checkingReady → s.stateLock = none → s.closed = true →
      ExecStep E i s (s.goto i .idle)
  | ready {i s} : s.pc i = .checkingReady → s.stateLock = none → s.closed = false →
      ExecStep E i s (s.goto i (.readying E.makeReady))
  | readyStep {i s p p' w} : s.pc i = .readying p → E.sem.Step (p, s.world) (p', w) →
      ExecStep E i s ({ s with world := w }.goto i (.readying p'))
  | readyDone {i s r} : s.pc i = .readying (.ofExcept r) → ExecStep E i s (s.goto i .idle)
  -- `close`
  | closeAgain {i s wait} : s.pc i = .closing wait → s.stateLock = none → s.closed = true →
      ExecStep E i s (s.goto i (.closingRunners E.closeRunners wait))
  | close {i s wait} : s.pc i = .closing wait → s.stateLock = none → s.closed = false →
      ExecStep E i s ({ s with closed := true }.lock i |>.goto i (.draining wait))
  | drain {i s wait} : s.pc i = .draining wait →
      ExecStep E i s ({ s with queue := s.queue.drain.2, drained := true }.goto i
        (.finishing (s.queue.drain.1.map WorkItem.payload) wait))
  | finish {i s t rest wait} : s.pc i = .finishing (t :: rest) wait →
      ExecStep E i s ((s.complete t .closed).goto i (.finishing rest wait))
  | finished {i s wait} : s.pc i = .finishing [] wait →
      ExecStep E i s (s.unlock.goto i (.closingRunners E.closeRunners wait))
  | closeRunner {i s p p' w wait} : s.pc i = .closingRunners p wait →
      E.sem.Step (p, s.world) (p', w) →
      ExecStep E i s ({ s with world := w }.goto i (.closingRunners p' wait))
  | closeRunnersDone {i s wait} : s.pc i = .closingRunners (.pure ()) wait →
      ExecStep E i s (s.goto i (.joining wait))
  | closeRunnersFailed {i s e wait} : s.pc i = .closingRunners (.throw e) wait →
      ExecStep E i s (s.goto i .idle)
  | closeReturns {i s wait} : s.pc i = .joining wait → (wait = true → s.joined) →
      ExecStep E i s ({ s with closeReturned := s.closeReturned || wait }.goto i .idle)
  | joinTimeout {i s wait} : s.pc i = .joining wait → ExecStep E i s (s.goto i .idle)
  -- a worker; the clock is far from the largest float
  | popStart {i s now call} : s.pc i = .looping →
      startPop now (.float (.round (1 / 10))) = .ok call → call.finish.isfinite = true →
      ExecStep E i s (s.goto i (.popping call))
  | popWaits {i s call now call' Q} : s.pc i = .popping call →
      s.queue.popRound call now = (.waits call', Q) →
      ExecStep E i s ({ s with queue := Q }.goto i (.popping call'))
  | popReturns {i s call now item expired Q} : s.pc i = .popping call →
      s.queue.popRound call now = (.returned item expired, Q) →
      ExecStep E i s ({ s with queue := Q }.goto i
        (.reporting (expired.map WorkItem.payload) (item.map WorkItem.payload)))
  | report {i s t rest item} : s.pc i = .reporting (t :: rest) item →
      ExecStep E i s ((s.complete t .expired).goto i (.reporting rest item))
  | reportedNothing {i s} : s.pc i = .reporting [] none →
      ExecStep E i s (s.goto i .checkingClosed)
  | reportedItem {i s t} : s.pc i = .reporting [] (some t) →
      ExecStep E i s (s.goto i (.beginning t))
  | workerExits {i s} : s.pc i = .checkingClosed → s.stateLock = none → s.closed = true →
      ExecStep E i s (s.goto i .exited)
  | workerLoops {i s} : s.pc i = .checkingClosed → s.stateLock = none → s.closed = false →
      ExecStep E i s (s.goto i .looping)
  | begins {i s t task} : s.pc i = .beginning t → (s.tasks t).begin = (true, task) →
      ExecStep E i s ((s.setTask t task).goto i (.executing t))
  | beginsTooLate {i s t task} : s.pc i = .beginning t → (s.tasks t).begin = (false, task) →
      ExecStep E i s (s.goto i .looping)
  | invoke {i s t} : s.pc i = .executing t →
      ExecStep E i s ((s.record t .invoked).goto i (.running t (E.predict i t)))
  | engineStep {i s t p p' w} : s.pc i = .running t p → E.sem.Step (p, s.world) (p', w) →
      ExecStep E i s ({ s with world := w }.goto i (.running t p'))
  | engineAnswers {i s t r} : s.pc i = .running t (.ofExcept r) →
      ExecStep E i s (s.goto i (.completing t r))
  | completes {i s t r} : s.pc i = .completing t r →
      ExecStep E i s ((s.complete t (.ran r)).goto i .looping)

/-- The executor before `start`, on a world `w`. -/
def BoundedInferenceExecutor.fresh (E : BoundedInferenceExecutor Op Res W ρ) (w : W) :
    ExecState Op Res W ρ where
  world := w
  queue := .empty E.capacity E.policy E.capacity_pos
  started := false
  closed := false
  stateLock := none
  tasks _ := .new
  nextTask := 0
  pc
    | .worker _ => .unborn
    | .caller _ => .idle
  history _ := []
  drained := false
  closeReturned := false

def executor (E : BoundedInferenceExecutor Op Res W ρ) (worlds : W → Prop) :
    System (ExecState Op Res W ρ) where
  initial s := ∃ w, worlds w ∧ s = E.fresh w
  step s s' := ∃ i, ExecStep E i s s'

end

end Runtime
end EdgeFort
