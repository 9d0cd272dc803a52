/-
What is left of the children when `close` returns.

The loop of `close` aborts every runner, but a worker that has popped a task, or a
caller in `ensure_ready` that has passed the check of `_closed`, may still come to
`start` of a runner that has been aborted, which makes a child again.
-/
import EdgeFort.Effect.Frame
import EdgeFort.Runtime.Runner
import EdgeFort.Runtime.Schedule

namespace EdgeFort
namespace Runtime

open Effect

variable {ρ : Type}

/-! ## Programs of a runner -/

def RunnerOp.makesRunners : RunnerOp ρ → Bool
  | newRunners _ => true
  | _ => false

/-- The operation leaves the list of runners as long as it is. -/
def Ordinary (o : RunnerOp ρ) : Prop := o.makesRunners = false

namespace Runner

variable {α : Type}

theorem abortWith_ordinary (n : Nat) (closing : Bool) :
    (abortWith n closing : RunnerProg ρ Unit).All Ordinary := by
  refine .bind (.perform rfl) fun process => ?_
  cases process with
  | none => exact .pure ()
  | some pid => exact .perform rfl

theorem transportFailed_ordinary (n : Nat) (deadlineError : Bool) (closed : PyStr) (e : PyError) :
    (transportFailed n deadlineError closed e : RunnerProg ρ α).All Ordinary := by
  unfold transportFailed
  split
  · exact .bind (abortWith_ordinary n false) fun _ => .throw _
  · split
    · exact .bind (abortWith_ordinary n false) fun _ => .throw _
    · exact .throw _

theorem sendFrame_ordinary (n : Nat) (frame : Request) (deadlineError : Bool) :
    (sendFrame n frame deadlineError : RunnerProg ρ Unit).All Ordinary := by
  refine .bind (.perform rfl) fun ready => ?_
  cases ready with
  | true => exact .catch' (.perform rfl) (transportFailed_ordinary n _ _)
  | false => exact .bind (abortWith_ordinary n false) fun _ => .throw _

theorem receiveFrame_ordinary (n : Nat) (deadlineError : Bool) :
    (receiveFrame n deadlineError : RunnerProg ρ (Reply ρ)).All Ordinary := by
  refine .bind (.perform rfl) fun ready => ?_
  cases ready with
  | true => exact .catch' (.perform rfl) (transportFailed_ordinary n _ _)
  | false => exact .throw _

theorem start_ordinary (n : Nat) : (start n : RunnerProg ρ Unit).All Ordinary := by
  refine .bind (.perform rfl) fun check => ?_
  cases check with
  | alive => exact .pure ()
  | stale process =>
    refine .bind (.perform rfl) fun _ => .bind (.perform rfl) fun spawned => ?_
    cases spawned with
    | false => exact .pure ()
    | true =>
      refine .bind (receiveFrame_ordinary n _) fun frame => ?_
      cases frame with
      | ready => exact .pure ()
      | _ => exact .bind (abortWith_ordinary n false) fun _ => .throw _

theorem load_ordinary (n : Nat) (prepared : Int) :
    (load n prepared : RunnerProg ρ Unit).All Ordinary := by
  have hrejected : (sendModel.rejected n : RunnerProg ρ Unit).All Ordinary :=
    .bind (abortWith_ordinary n false) fun _ => .throw _
  refine .bind (start_ordinary n) fun _ => .bind (.perform rfl) fun g => ?_
  split
  · exact .pure ()
  · refine .bind (sendFrame_ordinary n _ _) fun _ => .bind (receiveFrame_ordinary n _) fun frame => ?_
    cases frame with
    | loaded g =>
      dsimp only
      split
      · exact .perform rfl
      · exact hrejected
    | loadError g code message =>
      dsimp only
      split
      · exact .throw _
      · exact hrejected
    | _ => exact hrejected

theorem execute_ordinary (n : Nat) (prepared : Int) :
    (execute n prepared : RunnerProg ρ ρ).All Ordinary := by
  have hinvalid : (execute.invalid n : RunnerProg ρ ρ).All Ordinary :=
    .bind (abortWith_ordinary n false) fun _ => .throw _
  refine .bind (load_ordinary n _) fun _ => .bind (.perform rfl) fun request => ?_
  refine .bind (sendFrame_ordinary n _ _) fun _ => .bind (receiveFrame_ordinary n _) fun frame => ?_
  cases frame with
  | result id logits =>
    dsimp only
    split
    · exact .pure _
    · exact hinvalid
  | error id code message =>
    dsimp only
    split
    · exact .throw _
    · exact hinvalid
  | _ => exact hinvalid

theorem sayClose_ordinary (n : Nat) : (close.sayClose n : RunnerProg ρ Unit).All Ordinary := by
  refine .bind (.perform rfl) fun ready => ?_
  cases ready with
  | true =>
    refine .catch' (.perform rfl) fun e => ?_
    split
    · exact .pure ()
    · exact .throw e
  | false => exact .pure ()

theorem close_ordinary (n : Nat) (closing : Bool) :
    (close n closing : RunnerProg ρ Unit).All Ordinary :=
  .bind (sayClose_ordinary n) fun _ => abortWith_ordinary n closing

/-- `close` of a runner does not return before it has aborted it. -/
theorem close_detaches (n : Nat) :
    (close n true : RunnerProg ρ Unit).Performs (RunnerOp.detach n true) :=
  .bind_right fun _ => .bind_left (.perform _)

end Runner

namespace Process

theorem forM_ordinary {f : Nat → RunnerProg ρ Unit} (hf : ∀ n, (f n).All Ordinary)
    (l : List Nat) : (l.forM f).All Ordinary := by
  induction l with
  | nil => exact .pure ()
  | cons n l ih => exact .bind (hf n) fun _ => ih

theorem predict_ordinary (index : Nat) (t : TaskId) :
    (predict index t : RunnerProg ρ ρ).All Ordinary :=
  .bind (.perform rfl) fun _ => .bind (Runner.execute_ordinary index _) fun _ => .perform rfl

theorem makeReady_ordinary (workers : Nat) :
    (makeReady workers : RunnerProg ρ Unit).All Ordinary := by
  refine .bind (forM_ordinary Runner.start_ordinary _) fun _ => .bind ?_ fun snapshot => ?_
  · refine .catch' (.bind (.perform rfl) fun _ => .pure _) fun e => ?_
    split
    · exact .pure _
    · exact .throw e
  · cases snapshot with
    | none => exact .pure ()
    | some g => exact forM_ordinary (fun n => Runner.load_ordinary n g) _

theorem closeRunners_ordinary (workers : Nat) :
    (closeRunners workers : RunnerProg ρ Unit).All Ordinary :=
  forM_ordinary (fun n => Runner.close_ordinary n true) _

theorem forM_performs {f : Nat → RunnerProg ρ Unit} {o : RunnerOp ρ} {n : Nat} {l : List Nat}
    (hn : n ∈ l) (hf : (f n).Performs o) : (l.forM f).Performs o := by
  induction l with
  | nil => exact absurd hn List.not_mem_nil
  | cons m l ih =>
    rcases List.mem_cons.mp hn with rfl | hn
    · exact .bind_left hf
    · exact .bind_right fun _ => ih hn

theorem closeRunners_detaches {workers n : Nat} (hn : n < workers) :
    (closeRunners workers : RunnerProg ρ Unit).Performs (RunnerOp.detach n true) :=
  forM_performs (List.mem_range.mpr hn) (Runner.close_detaches n)

end Process

/-! ## Runners that have been shut -/

/-- An operation neither gives a runner a child nor takes its `shut` back. -/
structure RunnerState.Keeps (r r' : RunnerState ρ) : Prop where
  shut : r.shut = true → r'.shut = true
  process : r'.process = r.process ∨ r'.process = none
  shutNow : r'.shut = true → r.shut = true ∨ r'.process = none

theorem RunnerState.Keeps.refl (r : RunnerState ρ) : r.Keeps r := ⟨id, Or.inl rfl, Or.inl⟩

namespace Children

variable {w w' : Children ρ} {n : Nat}

/-- Runner `n` has been shut, if it was ever made. -/
def ShutAt (w : Children ρ) (n : Nat) : Prop :=
  ∀ r : RunnerState ρ, w.runners[n]? = some r → r.shut = true

/-- No runner that has been shut has a child. -/
def Quiet (w : Children ρ) : Prop :=
  ∀ (n : Nat) (r : RunnerState ρ), w.runners[n]? = some r → r.shut = true → r.process = none

/-- No runner has been given a child. -/
structure Keeps (w w' : Children ρ) : Prop where
  length : w'.runners.length = w.runners.length
  runner : ∀ (n : Nat) (r' : RunnerState ρ), w'.runners[n]? = some r' →
    ∃ r : RunnerState ρ, w.runners[n]? = some r ∧ r.Keeps r'
  started : w'.started = w.started

theorem Keeps.refl (w : Children ρ) : w.Keeps w :=
  ⟨rfl, fun _ r' h => ⟨r', h, .refl r'⟩, rfl⟩

theorem Keeps.of_runners (h : w'.runners = w.runners) (hs : w'.started = w.started) :
    w.Keeps w' :=
  ⟨by rw [h], fun _ r' hr => ⟨r', h ▸ hr, .refl r'⟩, hs⟩

theorem Keeps.shutAt (h : w.Keeps w') (hw : w.ShutAt n) : w'.ShutAt n := by
  intro r' hr'
  obtain ⟨r, hr, hk⟩ := h.runner n r' hr'
  exact hk.shut (hw r hr)

theorem Keeps.quiet (h : w.Keeps w') (hw : w.Quiet) : w'.Quiet := by
  intro n r' hr' hshut
  obtain ⟨r, hr, hk⟩ := h.runner n r' hr'
  rcases hk.shutNow hshut with hold | hnone
  · rcases hk.process with heq | hnone
    · rw [heq]
      exact hw n r hr hold
    · exact hnone
  · exact hnone

theorem Keeps.set {r r' : RunnerState ρ} (hr : w.runners[n]? = some r) (hk : r.Keeps r')
    (hrunners : w'.runners = w.runners.set n r') (hs : w'.started = w.started) : w.Keeps w' := by
  refine ⟨by rw [hrunners, List.length_set], fun m x hx => ?_, hs⟩
  rw [hrunners] at hx
  by_cases hmn : m = n
  · subst hmn
    have hlt : m < w.runners.length := (List.getElem?_eq_some_iff.mp hr).1
    rw [List.getElem?_set_self hlt] at hx
    cases hx
    exact ⟨r, hr, hk⟩
  · rw [List.getElem?_set_ne (Ne.symm hmn)] at hx
    exact ⟨x, hx, .refl x⟩

theorem Keeps.onRunner {α : Type} {missing : α}
    {f : RunnerState ρ → Except PyError α × RunnerState ρ} (hf : ∀ r : RunnerState ρ, r.Keeps (f r).2) :
    w.Keeps (w.onRunner n missing f).2 := by
  unfold Children.onRunner
  split
  · exact .refl w
  · rename_i r hr
    exact .set hr (hf r) rfl rfl

variable [Inhabited ρ]

theorem keeps_exec {o : RunnerOp ρ} (ho : Ordinary o) (hspawn : ∀ n, o ≠ .spawn n)
    (w : Children ρ) : w.Keeps (exec o w).2 := by
  cases o with
  | newRunners count => cases ho
  | spawn n => exact absurd rfl (hspawn n)
  | reap | prepareIsolated | isolatedRuntimeSnapshot | engineComplete => exact .refl w
  | kill => exact .of_runners rfl rfl
  | startCheck n =>
    refine .onRunner fun r => ?_
    split
    · exact .refl r
    · exact ⟨id, Or.inr rfl, Or.inl⟩
  | detach n closing => exact .onRunner fun r => ⟨fun h => by simp [h], Or.inr rfl, fun _ => Or.inr rfl⟩
  | recv n =>
    refine .onRunner fun r => ?_
    split
    · exact .refl r
    · exact ⟨id, Or.inl rfl, Or.inl⟩
  | connected | usable | send | generation | setGeneration | nextRequest =>
    exact .onRunner fun r => ⟨id, Or.inl rfl, Or.inl⟩

/-- A child is started for runner `n`. -/
def Spawned (w w' : Children ρ) (n : Nat) : Prop :=
  ∃ r : RunnerState ρ, w.runners[n]? = some r ∧ w'.runners = w.runners.set n (r.spawned w.started)

omit [Inhabited ρ] in
theorem Spawned.shutAt {m : Nat} (h : w.Spawned w' n) (hw : w.ShutAt m) : w'.ShutAt m := by
  obtain ⟨r, hr, hrunners⟩ := h
  intro r' hr'
  rw [hrunners] at hr'
  by_cases hmn : m = n
  · subst hmn
    rw [List.getElem?_set_self (List.getElem?_eq_some_iff.mp hr).1] at hr'
    cases hr'
    exact hw r hr
  · rw [List.getElem?_set_ne (Ne.symm hmn)] at hr'
    exact hw r' hr'

omit [Inhabited ρ] in
theorem Spawned.quiet (h : w.Spawned w' n) (hw : w.Quiet)
    (hopen : ∀ r : RunnerState ρ, w.runners[n]? = some r → r.shut = false) : w'.Quiet := by
  obtain ⟨r, hr, hrunners⟩ := h
  intro m r' hr' hshut
  rw [hrunners] at hr'
  by_cases hmn : m = n
  · subst hmn
    rw [List.getElem?_set_self (List.getElem?_eq_some_iff.mp hr).1] at hr'
    cases hr'
    exact absurd (hshut.symm.trans (hopen r hr)) Bool.noConfusion
  · rw [List.getElem?_set_ne (Ne.symm hmn)] at hr'
    exact hw m r' hr' hshut

theorem exec_cases {o : RunnerOp ρ} (ho : Ordinary o) (w : Children ρ) :
    w.Keeps (exec o w).2 ∨ ∃ n, o = .spawn n ∧ w.Spawned (exec o w).2 n := by
  by_cases hspawn : ∃ n, o = .spawn n
  · obtain ⟨n, rfl⟩ := hspawn
    show w.Keeps (w.spawn n).2 ∨ ∃ m, RunnerOp.spawn n = .spawn m ∧ w.Spawned (w.spawn n).2 m
    unfold Children.spawn
    split
    · exact Or.inl (.refl w)
    · rename_i r hr
      split
      · exact Or.inl (.refl w)
      · exact Or.inr ⟨n, rfl, r, hr, rfl⟩
  · exact Or.inl (keeps_exec ho (fun n h => hspawn ⟨n, h⟩) w)

/-- Whatever the environment does, only `spawn` gives a runner a child. -/
theorem outcome_cases {o : RunnerOp ρ} {x : Except PyError (RunnerRes ρ o) × Children ρ}
    (ho : Ordinary o) (hx : (sem (ρ := ρ)).Outcome o w x) :
    w.Keeps x.2 ∨ ∃ n, o = .spawn n ∧ w.Spawned x.2 n := by
  rcases hx with rfl | ⟨w', ⟨alive, _, rfl⟩, rfl | hfault⟩
  · exact exec_cases ho w
  · -- what has died is no part of the runners
    rcases exec_cases ho { w with alive := alive } with h | ⟨n, hn, r, hr⟩
    · exact Or.inl ⟨h.length, h.runner, h.started⟩
    · exact Or.inr ⟨n, hn, r, hr⟩
  · left
    obtain ⟨r, w₂⟩ := x
    have hw₂ : w₂ = { w with alive := alive } := by
      cases o with
      | detach => exact hfault.elim
      | recv | prepareIsolated | isolatedRuntimeSnapshot | engineComplete => exact hfault
      | _ => exact hfault.2
    rw [hw₂]
    exact .of_runners rfl rfl

theorem outcome_shutAt {o : RunnerOp ρ} {x : Except PyError (RunnerRes ρ o) × Children ρ}
    (ho : Ordinary o) (hx : (sem (ρ := ρ)).Outcome o w x) (hw : w.ShutAt n) : x.2.ShutAt n := by
  rcases outcome_cases ho hx with h | ⟨_, _, h⟩
  · exact h.shutAt hw
  · exact h.shutAt hw

/-- `_detach` in the executor's `close` shuts the runner. -/
theorem outcome_detach {x : Except PyError (RunnerRes ρ (.detach n true)) × Children ρ}
    (hx : (sem (ρ := ρ)).Outcome (.detach n true) w x) : x.2.ShutAt n := by
  have hexec : ∀ w : Children ρ, (exec (.detach n true) w).2.ShutAt n := by
    intro w r hr
    simp only [exec, onRunner] at hr
    split at hr
    · rename_i hnone
      rw [hnone] at hr
      cases hr
    · rename_i r₀ hr₀
      rw [List.getElem?_set_self (List.getElem?_eq_some_iff.mp hr₀).1] at hr
      cases hr
      exact Bool.or_true _
  rcases hx with rfl | ⟨w', _, rfl | hfault⟩
  · exact hexec w
  · exact hexec w'
  · exact hfault.elim

/-- A new list of runners is no longer than the number of workers. -/
def Sized (workers : Nat) : RunnerOp ρ → Prop
  | .newRunners count => count ≤ workers
  | _ => True

omit [Inhabited ρ] in
theorem sized_of_ordinary {o : RunnerOp ρ} (h : Ordinary o) (workers : Nat) : Sized workers o := by
  cases o with
  | newRunners count => cases h
  | _ => trivial

theorem outcome_newRunners {count : Nat}
    {x : Except PyError (RunnerRes ρ (.newRunners count)) × Children ρ}
    (hx : (sem (ρ := ρ)).Outcome (.newRunners count) w x) :
    x.2.runners = List.replicate count .new ∨ x.2.runners = w.runners := by
  rcases hx with rfl | ⟨w', ⟨alive, _, rfl⟩, rfl | ⟨_, hw⟩⟩
  · exact Or.inl rfl
  · exact Or.inl rfl
  · right
    obtain ⟨r, w₂⟩ := x
    rw [show w₂ = _ from hw]

/-- What an operation leaves of the runners, when it spawns for none that has been shut. -/
theorem outcome_quiet {workers : Nat} {o : RunnerOp ρ}
    {x : Except PyError (RunnerRes ρ o) × Children ρ} (ho : Sized workers o)
    (hx : (sem (ρ := ρ)).Outcome o w x) (hsize : w.runners.length ≤ workers) (hquiet : w.Quiet)
    (hopen : ∀ n, o = .spawn n → ∀ r : RunnerState ρ, w.runners[n]? = some r → r.shut = false) :
    x.2.runners.length ≤ workers ∧ x.2.Quiet := by
  by_cases hord : Ordinary o
  · rcases outcome_cases hord hx with h | ⟨n, hn, h⟩
    · exact ⟨h.length ▸ hsize, h.quiet hquiet⟩
    · refine ⟨?_, h.quiet hquiet (hopen n hn)⟩
      obtain ⟨r, _, hrunners⟩ := h
      rw [hrunners, List.length_set]
      exact hsize
  · cases o with
    | newRunners count =>
      rcases outcome_newRunners hx with hrunners | hrunners
      · refine ⟨?_, fun n r hr hshut => ?_⟩
        · rw [hrunners, List.length_replicate]
          exact ho
        · rw [hrunners] at hr
          rw [List.eq_of_mem_replicate (List.mem_of_getElem? hr)] at hshut
          cases hshut
      · unfold Quiet
        rw [hrunners]
        exact ⟨hsize, hquiet⟩
    | _ => exact absurd rfl hord

end Children

/-! ## Threads -/

variable [Inhabited ρ] {workers capacity : Nat} {policy : OverflowPolicy} {hcap : 1 ≤ capacity}

/-- The state of the executor in process mode. -/
abbrev ProcessState (ρ : Type) := ExecState (RunnerOp ρ) (RunnerRes ρ) (Children ρ) ρ

/-- The operation a thread is about to perform. -/
def Pc.nextOp : Pc (RunnerOp ρ) (RunnerRes ρ) ρ → Option (RunnerOp ρ)
  | starting (.op o _) _ | readying (.op o _) | running _ (.op o _)
  | closingRunners (.op o _) _ => some o
  | _ => none

/-- What has been shut where a thread is, when `closed` is set and the runners that
are `shut` have been shut. -/
def Pc.shuts (workers : Nat) (closed : Prop) (shut : Nat → Prop) :
    Pc (RunnerOp ρ) (RunnerRes ρ) ρ → Prop
  | closingRunners p _ => closed ∧ p.All Ordinary ∧
      ∀ n < workers, shut n ∨ p.Performs (RunnerOp.detach n true)
  | joining _ => closed ∧ ∀ n < workers, shut n
  | starting p _ => p.All (Children.Sized workers)
  | running _ p => p.All Ordinary
  | readying p => p.All Ordinary
  | _ => True

omit [Inhabited ρ] in
theorem Pc.shuts_mono {p : Pc (RunnerOp ρ) (RunnerRes ρ) ρ} {closed closed' : Prop}
    {shut shut' : Nat → Prop} (h : p.shuts workers closed shut) (hclosed : closed → closed')
    (hshut : closed → ∀ n, shut n → shut' n) : p.shuts workers closed' shut' := by
  cases p with
  | closingRunners p wait =>
    obtain ⟨hc, hall, hn⟩ := h
    exact ⟨hclosed hc, hall, fun n hlt => (hn n hlt).imp_left (hshut hc n)⟩
  | joining wait => exact ⟨hclosed h.1, fun n hlt => hshut h.1 n (h.2 n hlt)⟩
  | starting | running | readying => exact h
  | _ => trivial

/-- The invariant of the shutdown. -/
structure Shuts (workers : Nat) (s : ProcessState ρ) : Prop where
  size : s.world.runners.length ≤ workers
  quiet : s.world.Quiet
  threads : ∀ i, (s.pc i).shuts workers (s.closed = true) s.world.ShutAt
  returned : s.closeReturned = true → s.closed = true ∧ ∀ n < workers, s.world.ShutAt n

omit [Inhabited ρ] in
theorem Process.startRunners_sized (workers : Nat) :
    (startRunners workers : RunnerProg ρ Unit).All (Children.Sized workers) := by
  have hordinary : ∀ {p : RunnerProg ρ Unit}, p.All Ordinary → p.All (Children.Sized workers) :=
    fun h => h.mono fun _ ho => Children.sized_of_ordinary ho workers
  refine .bind (.perform (Nat.le_refl workers)) fun _ => .catch' ?_ fun e => ?_
  · exact hordinary (forM_ordinary Runner.start_ordinary _)
  · refine .bind (hordinary (forM_ordinary (fun n => Runner.close_ordinary n false) _)) fun _ => ?_
    exact .bind (.perform (Nat.zero_le workers)) fun _ => .throw e

namespace Shuts

variable {s s' : ProcessState ρ} {i : Tid} {p : Pc (RunnerOp ρ) (RunnerRes ρ) ρ}

omit [Inhabited ρ] in
/-- A step that leaves the children alone. -/
theorem move (h : Shuts workers s) (hworld : s'.world = s.world)
    (hothers : ∀ j, j ≠ i → s'.pc j = s.pc j ∨ s'.pc j = .looping)
    (hclosed : s.closed = true → s'.closed = true)
    (hself : (s'.pc i).shuts workers (s'.closed = true) s.world.ShutAt)
    (hreturned : s'.closeReturned = true →
      s.closeReturned = true ∨ s'.closed = true ∧ ∀ n < workers, s.world.ShutAt n) :
    Shuts workers s' := by
  constructor
  · rw [hworld]
    exact h.size
  · rw [hworld]
    exact h.quiet
  · intro j
    rw [hworld]
    by_cases hji : j = i
    · rw [hji]
      exact hself
    · rcases hothers j hji with heq | heq
      · rw [heq]
        exact Pc.shuts_mono (h.threads j) hclosed fun _ _ => id
      · rw [heq]
        trivial
  · intro hr
    rw [hworld]
    rcases hreturned hr with hold | hnew
    · exact ⟨hclosed (h.returned hold).1, (h.returned hold).2⟩
    · exact hnew

/-- An operation of thread `i` on the children. -/
theorem operate (h : Shuts workers s) {o : RunnerOp ρ}
    {x : Except PyError (RunnerRes ρ o) × Children ρ} (ho : Children.Sized workers o)
    (hx : (Children.sem (ρ := ρ)).Outcome o s.world x)
    (hopen : ∀ n, o = .spawn n → ∀ r : RunnerState ρ, s.world.runners[n]? = some r → r.shut = false)
    (hord : s.closed = true → Ordinary o)
    (hself : (∀ n, s.closed = true → s.world.ShutAt n → x.2.ShutAt n) →
      p.shuts workers (s.closed = true) x.2.ShutAt) :
    Shuts workers ({ s with world := x.2 }.goto i p) := by
  have hshut : s.closed = true → ∀ n, s.world.ShutAt n → x.2.ShutAt n :=
    fun hc n hn => Children.outcome_shutAt (hord hc) hx hn
  obtain ⟨hsize, hquiet⟩ := Children.outcome_quiet ho hx h.size h.quiet hopen
  refine ⟨hsize, hquiet, fun j => ?_, fun hr => ?_⟩
  · by_cases hji : j = i
    · subst hji
      rw [ExecState.goto_pc]
      exact hself fun n hc hn => hshut hc n hn
    · rw [ExecState.goto_pc_of_ne _ hji]
      exact Pc.shuts_mono (h.threads j) id hshut
  · obtain ⟨hc, hn⟩ := h.returned hr
    exact ⟨hc, fun n hlt => hshut hc n (hn n hlt)⟩

variable (hcap : 1 ≤ capacity)

/-- The executor's step, where no child is spawned for a runner that has been shut. -/
theorem step (h : Shuts workers s) (hg : Guarded s)
    (hs : ExecStep (processExecutor ρ capacity policy hcap workers) i s s')
    (hopen : ∀ n, (s.pc i).nextOp = some (.spawn n) →
      ∀ r : RunnerState ρ, s.world.runners[n]? = some r → r.shut = false) : Shuts workers s' := by
  have hthread := h.threads i
  cases hs with
  | @startRunner p p' next w hpc hstep =>
    rw [hpc] at hthread hopen
    have hstarting := (hg.starting i (by rw [hpc]; rfl)).2
    cases hstep with
    | op hx =>
      refine h.operate hthread.1 hx (fun n hn => hopen n (congrArg some hn)) (fun hc => ?_)
        fun _ => hthread.2 _
      rw [hstarting] at hc
      cases hc
  | readyStep hpc hstep | engineStep hpc hstep =>
    rw [hpc] at hthread hopen
    cases hstep with
    | op hx =>
      exact h.operate (Children.sized_of_ordinary hthread.1 workers) hx
        (fun n hn => hopen n (congrArg some hn)) (fun _ => hthread.1) fun _ => hthread.2 _
  | closeRunner hpc hstep =>
    rw [hpc] at hthread hopen
    obtain ⟨hc, hall, hn⟩ := hthread
    cases hstep with
    | @op o k _ x hx =>
      refine h.operate (Children.sized_of_ordinary hall.1 workers) hx
        (fun n hn => hopen n (congrArg some hn)) (fun _ => hall.1) fun hshut => ?_
      refine ⟨hc, hall.2 _, fun n hlt => ?_⟩
      rcases hn n hlt with hdone | hdetach | hlater
      · exact Or.inl (hshut n hc hdone)
      · subst hdetach
        exact Or.inl (Children.outcome_detach hx)
      · exact Or.inr (hlater x.1)
  | @startDone next hpc =>
    refine h.move (i := i) rfl (fun j hji => ?_) id ?_ Or.inl
    · rw [ExecState.goto_pc_of_ne _ hji]
      match j with
      | .caller n => exact Or.inl rfl
      | .worker n =>
        by_cases hn : n < workers
        · exact Or.inr (if_pos hn)
        · exact Or.inl (if_neg hn)
    · rw [ExecState.goto_pc]
      cases next <;> trivial
  | @alreadyStarted next =>
    refine h.move rfl (fun j hji => Or.inl (ExecState.goto_pc_of_ne _ hji)) id ?_ Or.inl
    rw [ExecState.goto_pc]
    cases next <;> trivial
  | start =>
    refine h.move rfl (fun j hji => Or.inl (ExecState.goto_pc_of_ne _ hji)) id ?_ Or.inl
    rw [ExecState.goto_pc]
    exact Process.startRunners_sized workers
  | ready =>
    refine h.move rfl (fun j hji => Or.inl (ExecState.goto_pc_of_ne _ hji)) id ?_ Or.inl
    rw [ExecState.goto_pc]
    exact Process.makeReady_ordinary workers
  | @invoke t =>
    refine h.move rfl (fun j hji => Or.inl (ExecState.goto_pc_of_ne _ hji)) id ?_ Or.inl
    rw [ExecState.goto_pc]
    match i with
    | .worker n => exact Process.predict_ordinary n t
    | .caller _ => trivial
  | close =>
    refine h.move rfl (fun j hji => Or.inl (ExecState.goto_pc_of_ne _ hji)) (fun _ => rfl) ?_ Or.inl
    rw [ExecState.goto_pc]
    trivial
  | closeAgain _ _ hc =>
    refine h.move rfl (fun j hji => Or.inl (ExecState.goto_pc_of_ne _ hji)) id ?_ Or.inl
    rw [ExecState.goto_pc]
    exact ⟨hc, Process.closeRunners_ordinary workers,
      fun n hn => Or.inr (Process.closeRunners_detaches hn)⟩
  | finished hpc =>
    have hc := hg.closing i (by rw [hpc]; rfl)
    refine h.move rfl (fun j hji => Or.inl (ExecState.goto_pc_of_ne _ hji)) id ?_ Or.inl
    rw [ExecState.goto_pc]
    exact ⟨hc, Process.closeRunners_ordinary workers,
      fun n hn => Or.inr (Process.closeRunners_detaches hn)⟩
  | closeRunnersDone hpc =>
    rw [hpc] at hthread
    refine h.move rfl (fun j hji => Or.inl (ExecState.goto_pc_of_ne _ hji)) id ?_ Or.inl
    rw [ExecState.goto_pc]
    exact ⟨hthread.1, fun n hn => (hthread.2.2 n hn).resolve_right id⟩
  | closeReturns hpc =>
    rw [hpc] at hthread
    refine h.move rfl (fun j hji => Or.inl (ExecState.goto_pc_of_ne _ hji)) id ?_
      fun _ => Or.inr hthread
    rw [ExecState.goto_pc]
    trivial
  | evict | finish | report | completes =>
    refine h.move (i := i) (s.complete_world _ _) (fun j hji => Or.inl ?_)
      (s.complete_closed _ _).trans ?_ fun hr => Or.inl ((s.complete_closeReturned _ _).symm.trans hr)
    · rw [ExecState.goto_pc_of_ne _ hji]
      exact congrFun (s.complete_pc _ _) j
    · rw [ExecState.goto_pc]
      trivial
  | _ =>
    refine h.move rfl (fun j hji => Or.inl (ExecState.goto_pc_of_ne _ hji)) id ?_ Or.inl
    rw [ExecState.goto_pc]
    trivial

/-- Once `close` has returned, no step starts a child. -/
theorem step_started (h : Shuts workers s) (hg : Guarded s)
    (hs : ExecStep (processExecutor ρ capacity policy hcap workers) i s s')
    (hopen : ∀ n, (s.pc i).nextOp = some (.spawn n) →
      ∀ r : RunnerState ρ, s.world.runners[n]? = some r → r.shut = false)
    (hr : s.closeReturned = true) :
    s'.closeReturned = true ∧ s'.world.started = s.world.started := by
  have hthread := h.threads i
  obtain ⟨hc, hshut⟩ := h.returned hr
  have hkeeps : ∀ {o : RunnerOp ρ} {x : Except PyError (RunnerRes ρ o) × Children ρ}, Ordinary o →
      (Children.sem (ρ := ρ)).Outcome o s.world x →
      (∀ n, o = .spawn n → ∀ r : RunnerState ρ, s.world.runners[n]? = some r → r.shut = false) →
      x.2.started = s.world.started := by
    intro o x ho hx hopen
    rcases Children.outcome_cases ho hx with hkeep | ⟨n, hn, r, hr, _⟩
    · exact hkeep.started
    · have hlt : n < workers := Nat.lt_of_lt_of_le (List.getElem?_eq_some_iff.mp hr).1 h.size
      exact absurd ((hshut n hlt r hr).symm.trans (hopen n hn r hr)) Bool.noConfusion
  cases hs with
  | startRunner hpc =>
    have hopen' := (hg.starting i (by rw [hpc]; rfl)).2
    rw [hc] at hopen'
    cases hopen'
  | readyStep hpc hstep | engineStep hpc hstep =>
    rw [hpc] at hthread hopen
    cases hstep with
    | op hx => exact ⟨hr, hkeeps hthread.1 hx fun n hn => hopen n (congrArg some hn)⟩
  | closeRunner hpc hstep =>
    rw [hpc] at hthread hopen
    cases hstep with
    | op hx => exact ⟨hr, hkeeps hthread.2.1.1 hx fun n hn => hopen n (congrArg some hn)⟩
  | closeReturns => exact ⟨by simp [ExecState.goto, hr], rfl⟩
  | evict | finish | report | completes =>
    exact ⟨(s.complete_closeReturned _ _).trans hr, congrArg Children.started (s.complete_world _ _)⟩
  | _ => exact ⟨hr, rfl⟩

omit [Inhabited ρ] in
theorem noLive (h : Shuts workers s) (hr : s.closeReturned = true) :
    ∀ r ∈ s.world.runners, ¬r.ownsLive s.world.alive := by
  rintro r hmem ⟨pid, hpid, _⟩
  obtain ⟨n, hlt, hn⟩ := List.getElem_of_mem hmem
  have hget : s.world.runners[n]? = some r := List.getElem?_eq_some_iff.mpr ⟨hlt, hn⟩
  have hshut := (h.returned hr).2 n (Nat.lt_of_lt_of_le hlt h.size) r hget
  rw [h.quiet n r hget hshut] at hpid
  cases hpid

end Shuts

/-! ## The result -/

/-- The executor in process mode, with no runner made yet. -/
def processSystem (ρ : Type) [Inhabited ρ] (capacity : Nat) (policy : OverflowPolicy)
    (hcap : 1 ≤ capacity) (workers : Nat) : System (ProcessState ρ) :=
  executor (processExecutor ρ capacity policy hcap workers) (· = Children.fresh)

/-- A step that does not come to the section of `start` that spawns a child, for a
runner that the executor's `close` has aborted. -/
def SpawnsBeforeAbort (ρ : Type) [Inhabited ρ] (capacity : Nat) (policy : OverflowPolicy)
    (hcap : 1 ≤ capacity) (workers : Nat) (s s' : ProcessState ρ) : Prop :=
  ∃ i, ExecStep (processExecutor ρ capacity policy hcap workers) i s s' ∧
    ∀ n, (s.pc i).nextOp = some (.spawn n) →
      ∀ r : RunnerState ρ, s.world.runners[n]? = some r → r.shut = false

theorem shuts_reachable (hcap : 1 ≤ capacity) {s : ProcessState ρ}
    (h : ((processSystem ρ capacity policy hcap workers).restrict
      (SpawnsBeforeAbort ρ capacity policy hcap workers)).Reachable s) :
    Guarded s ∧ Shuts workers s := by
  apply System.invariant (fun s => Guarded s ∧ Shuts workers s) ?_ ?_ h
  · rintro s ⟨w, rfl, rfl⟩
    refine ⟨guarded_fresh _, Nat.zero_le _, fun n r hr => ?_, fun i => ?_, fun hr => ?_⟩
    · cases hr
    · match i with
      | .worker _ | .caller _ => trivial
    · cases hr
  · rintro s s' ⟨hg, hs⟩ ⟨_, i, hstep, hopen⟩
    exact ⟨hg.step hstep, hs.step hcap hg hstep hopen⟩

/-- In a run in which no child is spawned for a runner that `close` has aborted: once
`close` has returned `True`, no runner owns a live child and none is started. -/
theorem close_leaves_no_child (capacity : Nat) (policy : OverflowPolicy) (hcap : 1 ≤ capacity)
    (workers : Nat) {s : ProcessState ρ}
    (h : ((processSystem ρ capacity policy hcap workers).restrict
      (SpawnsBeforeAbort ρ capacity policy hcap workers)).Reachable s)
    (hr : s.closeReturned = true) :
    (∀ r ∈ s.world.runners, ¬r.ownsLive s.world.alive) ∧
      ∀ s', Relation.ReflTransGen ((processSystem ρ capacity policy hcap workers).restrict
          (SpawnsBeforeAbort ρ capacity policy hcap workers)).step s s' →
        s'.world.started = s.world.started ∧
          ∀ r ∈ s'.world.runners, ¬r.ownsLive s'.world.alive := by
  refine ⟨(shuts_reachable hcap h).2.noLive hr, fun s' hs' => ?_⟩
  suffices hall : ((processSystem ρ capacity policy hcap workers).restrict
      (SpawnsBeforeAbort ρ capacity policy hcap workers)).Reachable s' ∧
      s'.closeReturned = true ∧ s'.world.started = s.world.started from
    ⟨hall.2.2, (shuts_reachable hcap hall.1).2.noLive hall.2.1⟩
  induction hs' with
  | refl => exact ⟨h, hr, rfl⟩
  | tail _ hstep ih =>
    obtain ⟨hreach, hr₁, hstarted⟩ := ih
    obtain ⟨hg, hshuts⟩ := shuts_reachable hcap hreach
    obtain ⟨i, hs, hopen⟩ := hstep.2
    obtain ⟨hr₂, hsame⟩ := hshuts.step_started hcap hg hs hopen hr₁
    exact ⟨hreach.step hstep, hr₂, hsame.trans hstarted⟩

/-! ## Runs of one worker -/

/-- One worker; the engine answers 0. -/
def oneWorker : BoundedInferenceExecutor (RunnerOp Nat) (RunnerRes Nat) (Children Nat) Nat :=
  processExecutor Nat 1 .reject Nat.one_pos 1

/-- Thread `i` takes `n` steps at time `t`. -/
def steps (n : Nat) (i : Tid) (t : Rat) : List Move := List.replicate n (.go i (.finite t))

/-- The worker has exited and the caller joins it. -/
def joinsWorker (s : ProcessState Nat) : Bool :=
  (s.pc (.worker 0) matches .exited) && (s.pc (.caller 1) matches .joining true)

theorem joinsWorker_pcs {s : ProcessState Nat} (h : joinsWorker s = true) :
    s.pc (.worker 0) = .exited ∧ s.pc (.caller 1) = .joining true := by
  simp only [joinsWorker, Bool.and_eq_true] at h
  obtain ⟨hexited, hjoining⟩ := h
  constructor
  · cases hpc : s.pc (.worker 0) with
    | exited => rfl
    | _ =>
      rw [hpc] at hexited
      cases hexited
  · cases hpc : s.pc (.caller 1) with
    | joining wait =>
      rw [hpc] at hjoining
      cases wait with
      | true => rfl
      | false => cases hjoining
    | _ =>
      rw [hpc] at hjoining
      cases hjoining

theorem joinsWorker_returns {s : ProcessState Nat} (h : joinsWorker s = true)
    (hunborn : ∀ n, s.pc (.worker (n + 1)) = .unborn) :
    ExecStep oneWorker (.caller 1) s ({ s with closeReturned := true }.goto (.caller 1) .idle) := by
  obtain ⟨hworker, hcaller⟩ := joinsWorker_pcs h
  have hjoined : s.joined := by
    intro n
    cases n with
    | zero => exact Or.inr hworker
    | succ n => exact Or.inl (hunborn n)
  have hstep := ExecStep.closeReturns (E := oneWorker) hcaller fun _ => hjoined
  rwa [Bool.or_true] at hstep

/-- The move spawns no child for a runner that has been shut. -/
def opens (s : ProcessState Nat) (m : Move) : Bool :=
  match (s.pc m.tid).nextOp with
  | some (.spawn n) => s.world.runners[n]?.all fun r => !r.shut
  | _ => true

/-- `play`, for moves that are allowed. -/
def playOpen (s : ProcessState Nat) (m : Move) : Option (ProcessState Nat) :=
  if opens s m then s.play oneWorker m else none

/-- A request is submitted and popped; then `close` aborts the runner; then the worker
runs the request, and exits. -/
def respawnSchedule : List Move :=
  .submit (.caller 0) ⟨none, false⟩ :: steps 10 (.caller 0) 0 ++ steps 3 (.worker 0) 0 ++
    .close (.caller 1) true :: steps 8 (.caller 1) 0 ++ steps 24 (.worker 0) 0 ++
    steps 3 (.worker 0) 1

/-- The worker is joined, and the runner owns a live child. -/
def respawned (s : ProcessState Nat) : Bool :=
  joinsWorker s && s.world.runners.any fun r => r.usable s.world.alive

theorem respawn_plays : ((oneWorker.fresh Children.fresh).playAll oneWorker respawnSchedule).any
    respawned = true := by
  decide +kernel

/-- `close` returns `True` and leaves a live child behind. -/
theorem close_leaves_child : ∃ s : ProcessState Nat,
    (processSystem Nat 1 .reject Nat.one_pos 1).Reachable s ∧ s.closeReturned = true ∧
      ∃ r ∈ s.world.runners, r.ownsLive s.world.alive := by
  obtain ⟨s, hplay, hs⟩ := (Option.any_eq_true _ _).mp respawn_plays
  have hreach : (processSystem Nat 1 .reject Nat.one_pos 1).Reachable s :=
    playAll_reachable (.initial ⟨_, rfl, rfl⟩) respawnSchedule hplay
  simp only [respawned, Bool.and_eq_true, List.any_eq_true] at hs
  obtain ⟨hjoins, r, hr, husable⟩ := hs
  have hstep := joinsWorker_returns hjoins fun n => unborn_above hreach (Nat.le_add_left 1 n)
  refine ⟨_, hreach.step ⟨_, hstep⟩, rfl, r, hr, ?_⟩
  simp only [RunnerState.usable, Bool.and_eq_true, Option.any_eq_true] at husable
  obtain ⟨_, pid, hpid, halive⟩ := husable
  exact ⟨pid, hpid, List.contains_iff_mem.mp halive⟩

theorem playOpen_reachable {s s' : ProcessState Nat} (moves : List Move)
    (hs : ((processSystem Nat 1 .reject Nat.one_pos 1).restrict
      (SpawnsBeforeAbort Nat 1 .reject Nat.one_pos 1)).Reachable s)
    (h : moves.foldlM playOpen s = some s') :
    ((processSystem Nat 1 .reject Nat.one_pos 1).restrict
      (SpawnsBeforeAbort Nat 1 .reject Nat.one_pos 1)).Reachable s' := by
  induction moves generalizing s with
  | nil =>
    cases h
    exact hs
  | cons m moves ih =>
    obtain ⟨s₁, h₁, h₂⟩ := Option.bind_eq_some_iff.mp h
    unfold playOpen at h₁
    split at h₁
    · rename_i hopens
      have hstep := play_step h₁
      refine ih (hs.step ⟨⟨_, hstep⟩, _, hstep, fun n hn r hr => ?_⟩) h₂
      simpa [opens, hn, hr] using hopens
    · cases h₁

/-- The request is run before `close` is called. -/
def quietSchedule : List Move :=
  .submit (.caller 0) ⟨none, false⟩ :: steps 10 (.caller 0) 0 ++ steps 22 (.worker 0) 0 ++
    .close (.caller 1) true :: steps 8 (.caller 1) 0 ++ steps 3 (.worker 0) 1

theorem quiet_plays : (quietSchedule.foldlM playOpen (oneWorker.fresh Children.fresh)).any
    (fun s => joinsWorker s && s.world.started = 1) = true := by
  decide +kernel

theorem close_leaves_no_child_quiet : ∃ s : ProcessState Nat, s.world.started = 1 ∧
    s.closeReturned = true ∧ ∀ r ∈ s.world.runners, ¬r.ownsLive s.world.alive := by
  obtain ⟨s, hplay, hs⟩ := (Option.any_eq_true _ _).mp quiet_plays
  simp only [Bool.and_eq_true, decide_eq_true_eq] at hs
  obtain ⟨hjoins, hstarted⟩ := hs
  have hreach := playOpen_reachable quietSchedule (.initial ⟨_, rfl, rfl⟩) hplay
  have hstep := joinsWorker_returns hjoins fun n =>
    unborn_above hreach.of_restrict (Nat.le_add_left 1 n)
  have hreturned := hreach.step ⟨⟨_, hstep⟩, _, hstep, fun n hn => ?_⟩
  · have hnone := close_leaves_no_child 1 .reject Nat.one_pos 1 hreturned rfl
    exact ⟨{ s with closeReturned := true }.goto (.caller 1) .idle, hstarted, rfl, hnone.1⟩
  · rw [(joinsWorker_pcs hjoins).2] at hn
    cases hn

end Runtime
end EdgeFort
