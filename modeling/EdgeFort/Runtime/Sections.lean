/-
The sections under the executor's state lock.

At most one thread is in a section.  What a section has found out about `_closed`
and about the worker threads holds until it ends.
-/
import EdgeFort.Runtime.Executor

namespace EdgeFort
namespace Runtime

open Effect

variable {Op : Type} {Res : Op → Type} {W ρ : Type}

/-- A section under the state lock that has more than one step. -/
inductive Guard where
  | starting
  | admitting
  | closing
  deriving DecidableEq

def Pc.inside : Pc Op Res ρ → Option Guard
  | starting _ _ => some .starting
  | pushing _ _ | evicting _ _ _ => some .admitting
  | draining _ | finishing _ _ => some .closing
  | _ => none

@[simp] theorem AfterStart.inside_pc (next : AfterStart) :
    (next.pc : Pc Op Res ρ).inside = none := by
  cases next <;> rfl

namespace ExecState

variable (s : ExecState Op Res W ρ) (t : TaskId) (o : Outcome ρ)

/-- Completing a task changes the task and its history only. -/
theorem complete_eq : ∃ tasks history,
    s.complete t o = { s with tasks := tasks, history := history } := by
  unfold complete
  split
  · exact ⟨_, _, rfl⟩
  · exact ⟨_, _, rfl⟩

@[simp] theorem goto_pc {i : Tid} {p : Pc Op Res ρ} : (s.goto i p).pc i = p := by
  simp [goto]

theorem goto_pc_of_ne {i j : Tid} {p : Pc Op Res ρ} (h : j ≠ i) : (s.goto i p).pc j = s.pc j := by
  simp [goto, h]

@[simp] theorem complete_pc : (s.complete t o).pc = s.pc := by
  obtain ⟨_, _, h⟩ := s.complete_eq t o
  rw [h]

/-- A thread goes on after it has completed a task. -/
theorem goto_complete_pc {i : Tid} {p : Pc Op Res ρ} :
    ((s.complete t o).goto i p).pc = Function.update s.pc i p := by
  simp [goto]

@[simp] theorem complete_stateLock : (s.complete t o).stateLock = s.stateLock := by
  obtain ⟨_, _, h⟩ := s.complete_eq t o
  rw [h]

@[simp] theorem complete_closed : (s.complete t o).closed = s.closed := by
  obtain ⟨_, _, h⟩ := s.complete_eq t o
  rw [h]

@[simp] theorem complete_started : (s.complete t o).started = s.started := by
  obtain ⟨_, _, h⟩ := s.complete_eq t o
  rw [h]

@[simp] theorem complete_drained : (s.complete t o).drained = s.drained := by
  obtain ⟨_, _, h⟩ := s.complete_eq t o
  rw [h]

@[simp] theorem complete_world : (s.complete t o).world = s.world := by
  obtain ⟨_, _, h⟩ := s.complete_eq t o
  rw [h]

@[simp] theorem complete_closeReturned : (s.complete t o).closeReturned = s.closeReturned := by
  obtain ⟨_, _, h⟩ := s.complete_eq t o
  rw [h]

@[simp] theorem complete_queue : (s.complete t o).queue = s.queue := by
  obtain ⟨_, _, h⟩ := s.complete_eq t o
  rw [h]

/-- Starting the workers leaves a thread where it is, or in its loop. -/
theorem spawnWorkers_pc (n : Nat) (j : Tid) :
    (s.spawnWorkers n).pc j = s.pc j ∨ ((s.spawnWorkers n).pc j).inside = none := by
  cases j with
  | caller m => exact Or.inl rfl
  | worker m =>
    by_cases hm : m < n
    · right
      show (if m < n then Pc.looping else s.pc (.worker m)).inside = none
      rw [if_pos hm]
      rfl
    · left
      exact if_neg hm

@[simp] theorem complete_nextTask : (s.complete t o).nextTask = s.nextTask := by
  obtain ⟨_, _, h⟩ := s.complete_eq t o
  rw [h]

end ExecState

/-- What the state lock guards. -/
structure Guarded (s : ExecState Op Res W ρ) : Prop where
  locked : ∀ i, (s.pc i).inside ≠ none → s.stateLock = some i
  starting : ∀ i, (s.pc i).inside = some .starting → s.started = true ∧ s.closed = false
  admitting : ∀ i, (s.pc i).inside = some .admitting → s.closed = false
  closing : ∀ i, (s.pc i).inside = some .closing → s.closed = true
  drained : s.drained = true → s.closed = true
  /-- no worker has been started before `start` has returned -/
  unborn : s.started = false ∨ (∃ i, (s.pc i).inside = some .starting) →
    ∀ n, s.pc (.worker n) = .unborn

namespace Guarded

variable {s s' : ExecState Op Res W ρ} {i : Tid} {p : Pc Op Res ρ}

theorem outside (h : Guarded s) (hfree : s.stateLock = none) (j : Tid) : (s.pc j).inside = none := by
  by_contra hne
  have hlock := h.locked j hne
  rw [hfree] at hlock
  cases hlock

theorem outside_of_ne (h : Guarded s) (hin : (s.pc i).inside ≠ none) {j : Tid} (hij : j ≠ i) :
    (s.pc j).inside = none := by
  by_contra hne
  have hlock := (h.locked i hin).symm.trans (h.locked j hne)
  exact hij (Option.some.inj hlock).symm

theorem unborn_update (h : ∀ n, s.pc (.worker n) = .unborn) (hpc : s.pc i ≠ .unborn)
    (hpc' : s'.pc = Function.update s.pc i p) (n : Nat) : s'.pc (.worker n) = .unborn := by
  have hne : Tid.worker n ≠ i := by
    intro heq
    exact hpc (heq ▸ h n)
  rw [hpc', Function.update_of_ne hne]
  exact h n

/-- A step that neither enters nor leaves a section. -/
theorem move (h : Guarded s) (hpc : s.pc i ≠ .unborn) (hpc' : s'.pc = Function.update s.pc i p)
    (hinside : p.inside = (s.pc i).inside) (hlock : s'.stateLock = s.stateLock)
    (hclosed : s'.closed = s.closed) (hstarted : s'.started = s.started)
    (hdrained : s'.drained = true → s.closed = true) : Guarded s' := by
  have hall : ∀ j, (s'.pc j).inside = (s.pc j).inside := by
    intro j
    rw [hpc']
    by_cases hji : j = i
    · subst hji
      rw [Function.update_self, hinside]
    · rw [Function.update_of_ne hji]
  constructor
  · intro j hj
    rw [hlock]
    exact h.locked j (hall j ▸ hj)
  · intro j hj
    rw [hstarted, hclosed]
    exact h.starting j (hall j ▸ hj)
  · intro j hj
    rw [hclosed]
    exact h.admitting j (hall j ▸ hj)
  · intro j hj
    rw [hclosed]
    exact h.closing j (hall j ▸ hj)
  · intro hd
    rw [hclosed]
    exact hdrained hd
  · intro hcond
    have hcond' : s.started = false ∨ ∃ j, (s.pc j).inside = some .starting := by
      simpa only [hstarted, hall] using hcond
    exact unborn_update (h.unborn hcond') hpc hpc'

theorem enter (h : Guarded s) (hfree : s.stateLock = none) (hpc : s.pc i ≠ .unborn)
    (hpc' : s'.pc = Function.update s.pc i p) (hlock : s'.stateLock = some i)
    (hstart : p.inside = some .starting → s'.started = true ∧ s'.closed = false)
    (hadmitting : p.inside = some .admitting → s'.closed = false)
    (hclose : p.inside = some .closing → s'.closed = true)
    (hdrained : s'.drained = true → s'.closed = true)
    (hunborn : s'.started = false ∨ p.inside = some .starting → s.started = false) : Guarded s' := by
  have honly : ∀ j g, (s'.pc j).inside = some g → j = i ∧ p.inside = some g := by
    intro j g hj
    rw [hpc'] at hj
    by_cases hji : j = i
    · subst hji
      rw [Function.update_self] at hj
      exact ⟨rfl, hj⟩
    · rw [Function.update_of_ne hji, h.outside hfree j] at hj
      cases hj
  constructor
  · intro j hj
    obtain ⟨g, hg⟩ := Option.ne_none_iff_exists'.mp hj
    rw [(honly j g hg).1]
    exact hlock
  · exact fun j hj => hstart (honly j _ hj).2
  · exact fun j hj => hadmitting (honly j _ hj).2
  · exact fun j hj => hclose (honly j _ hj).2
  · exact hdrained
  · intro hcond
    have hs : s.started = false := hunborn (hcond.imp_right fun ⟨j, hj⟩ => (honly j _ hj).2)
    exact unborn_update (h.unborn (Or.inl hs)) hpc hpc'

theorem leave (h : Guarded s) (hin : (s.pc i).inside ≠ none)
    (hothers : ∀ j, j ≠ i → s'.pc j = s.pc j ∨ (s'.pc j).inside = none)
    (hself : (s'.pc i).inside = none) (hdrained : s'.drained = true → s'.closed = true)
    (hunborn : s'.started = false → ∀ n, s'.pc (.worker n) = .unborn) : Guarded s' := by
  have hnone : ∀ j, (s'.pc j).inside = none := by
    intro j
    by_cases hji : j = i
    · rw [hji, hself]
    · rcases hothers j hji with heq | hout
      · rw [heq, h.outside_of_ne hin hji]
      · exact hout
  constructor
  · exact fun j hj => absurd (hnone j) hj
  · intro j hj
    rw [hnone j] at hj
    cases hj
  · intro j hj
    rw [hnone j] at hj
    cases hj
  · intro j hj
    rw [hnone j] at hj
    cases hj
  · exact hdrained
  · rintro (hs | ⟨j, hj⟩)
    · exact hunborn hs
    · rw [hnone j] at hj
      cases hj

/-- A thread leaves its section and goes on. -/
theorem leave_goto (h : Guarded s) (hin : (s.pc i).inside ≠ none) (hpc : s.pc i ≠ .unborn)
    (hpc' : s'.pc = Function.update s.pc i p) (hinside : p.inside = none)
    (hclosed : s'.closed = s.closed) (hdrained : s'.drained = s.drained)
    (hunborn : s'.started = false → ∀ n, s.pc (.worker n) = .unborn) : Guarded s' := by
  apply h.leave hin
  · intro j hji
    rw [hpc', Function.update_of_ne hji]
    exact Or.inl rfl
  · rw [hpc', Function.update_self, hinside]
  · rw [hclosed, hdrained]
    exact h.drained
  · intro hs
    exact unborn_update (hunborn hs) hpc hpc'

variable {E : BoundedInferenceExecutor Op Res W ρ}

theorem step (h : Guarded s) (hs : ExecStep E i s s') : Guarded s' := by
  have hin : ∀ {g}, (s.pc i).inside = some g → (s.pc i).inside ≠ none := by
    intro g hg
    rw [hg]
    exact Option.some_ne_none g
  cases hs with
  | start hpc hfree hopen hnot =>
    exact h.enter hfree (by simp [hpc]) rfl rfl (fun _ => ⟨rfl, hopen⟩) nofun nofun h.drained
      fun _ => hnot
  | enqueue hpc hfree hopen =>
    exact h.enter hfree (by simp [hpc]) rfl rfl nofun (fun _ => hopen) nofun h.drained
      (Or.rec id nofun)
  | close hpc hfree hopen =>
    exact h.enter hfree (by simp [hpc]) rfl rfl nofun nofun (fun _ => rfl) (fun _ => rfl)
      (Or.rec id nofun)
  | startDone hpc =>
    have hguard : (s.pc i).inside = some .starting := by rw [hpc]; rfl
    have hstarted := (h.starting i hguard).1
    apply h.leave (hin hguard)
    · intro j hji
      rw [ExecState.goto_pc_of_ne _ hji]
      exact s.spawnWorkers_pc E.workers j
    · rw [ExecState.goto_pc, AfterStart.inside_pc]
    · exact h.drained
    · intro hs
      exact absurd (hs.symm.trans hstarted) Bool.false_ne_true
  | startFailed hpc =>
    have hguard : (s.pc i).inside = some .starting := by rw [hpc]; rfl
    exact h.leave_goto (hin hguard) (by simp [hpc]) rfl rfl rfl rfl
      fun _ => h.unborn (Or.inr ⟨i, hguard⟩)
  | pushRaised hpc _ | pushRefused hpc _ | pushed hpc _ =>
    have hguard : (s.pc i).inside = some .admitting := by rw [hpc]; rfl
    exact h.leave_goto (hin hguard) (by simp [hpc]) rfl rfl rfl rfl fun hs => h.unborn (Or.inl hs)
  | evict hpc =>
    have hguard : (s.pc i).inside = some .admitting := by rw [hpc]; rfl
    refine h.leave_goto (hin hguard) (by simp [hpc]) (s.goto_complete_pc _ _) rfl
      (s.complete_closed _ _) (s.complete_drained _ _) fun hs => h.unborn (Or.inl ?_)
    exact (s.complete_started _ _).symm.trans hs
  | finished hpc =>
    have hguard : (s.pc i).inside = some .closing := by rw [hpc]; rfl
    exact h.leave_goto (hin hguard) (by simp [hpc]) rfl rfl rfl rfl fun hs => h.unborn (Or.inl hs)
  | drain hpc =>
    have hguard : (s.pc i).inside = some .closing := by rw [hpc]; rfl
    exact h.move (by simp [hpc]) rfl (by rw [hpc]; rfl) rfl rfl rfl fun _ => h.closing i hguard
  | alreadyStarted hpc =>
    exact h.move (by simp [hpc]) rfl (by rw [hpc, AfterStart.inside_pc]; rfl) rfl rfl rfl h.drained
  | finish hpc | report hpc | completes hpc =>
    refine h.move (by simp [hpc]) (s.goto_complete_pc _ _) (by rw [hpc]; rfl)
      (s.complete_stateLock _ _) (s.complete_closed _ _) (s.complete_started _ _) fun hd => ?_
    exact h.drained ((s.complete_drained _ _).symm.trans hd)
  | _ =>
    exact h.move (by simp [*]) rfl (by simp only [*]; rfl) rfl rfl rfl h.drained

end Guarded

variable {E : BoundedInferenceExecutor Op Res W ρ}

theorem guarded_fresh (w : W) : Guarded (E.fresh w) := by
  have houtside : ∀ j, ((E.fresh w).pc j).inside = none := by
    intro j
    match j with
    | .worker _ | .caller _ => rfl
  constructor
  · exact fun j hj => absurd (houtside j) hj
  · intro j hj
    rw [houtside] at hj
    cases hj
  · intro j hj
    rw [houtside] at hj
    cases hj
  · intro j hj
    rw [houtside] at hj
    cases hj
  · exact fun hd => absurd hd Bool.false_ne_true
  · exact fun _ n => rfl

/-! ## Workers that are not there -/

variable {s s' : ExecState Op Res W ρ} {i : Tid} {n : Nat}

/-- A thread that takes a step has been started. -/
theorem ExecStep.pc_ne_unborn (hs : ExecStep E i s s') : s.pc i ≠ .unborn := by
  intro h
  cases hs <;> simp_all

theorem step_unborn (hs : ExecStep E i s s') (hn : E.workers ≤ n)
    (h : s.pc (.worker n) = .unborn) : s'.pc (.worker n) = .unborn := by
  have hne : Tid.worker n ≠ i := by
    rintro rfl
    exact hs.pc_ne_unborn h
  cases hs with
  | startDone =>
    rw [ExecState.goto_pc_of_ne _ hne]
    exact (if_neg (Nat.not_lt.mpr hn)).trans h
  | evict | finish | report | completes =>
    rw [ExecState.goto_pc_of_ne _ hne]
    exact (congrFun (s.complete_pc _ _) _).trans h
  | _ =>
    rw [ExecState.goto_pc_of_ne _ hne]
    exact h

/-- A worker that the executor does not have is never started. -/
theorem unborn_above {worlds : W → Prop} (h : (executor E worlds).Reachable s)
    (hn : E.workers ≤ n) : s.pc (.worker n) = .unborn := by
  apply System.invariant (fun s => s.pc (.worker n) = .unborn) ?_ ?_ h
  · rintro s ⟨w, _, rfl⟩
    rfl
  · rintro s s' hs ⟨i, hstep⟩
    exact step_unborn hstep hn hs

end Runtime
end EdgeFort
