/-
Who holds a task, and how far it has come.

Every task has a stage.  A task that has been accepted and has no outcome is in
exactly one place: the queue, or the hands of one thread.  The stage says which
events the task has seen, so its history is read off it.
-/
import EdgeFort.Effect.Custody
import EdgeFort.Runtime.Sections

namespace EdgeFort
namespace Runtime

open Effect

variable {Op : Type} {Res : Op → Type} {W ρ : Type}

/-! ## Stages -/

def Outcome.isRan : Outcome ρ → Bool
  | ran _ => true
  | _ => false

/-- How far a task has come.  `settled` is the end of a task that has not begun. -/
inductive Stage (ρ : Type) where
  | new
  | waiting
  | settled (o : Outcome ρ) (h : o.isRan = false)
  | begun
  | invoked
  | ran (answer : Except PyError ρ)

namespace Stage

def task : Stage ρ → InferenceTask ρ
  | new | waiting => ⟨false, none⟩
  | settled o _ => ⟨false, some o⟩
  | begun | invoked => ⟨true, none⟩
  | ran r => ⟨true, some (.ran r)⟩

/-- The events up to here, newest first. -/
def history : Stage ρ → List (TaskEvent ρ)
  | new => []
  | waiting | begun => [.admitted]
  | settled o _ => [.settled o, .admitted]
  | invoked => [.invoked, .admitted]
  | ran r => [.settled (.ran r), .invoked, .admitted]

/-- Accepted, and without an outcome. -/
def live : Stage ρ → Bool
  | waiting | begun | invoked => true
  | _ => false

/-- The stages a task can come to: an outcome is the last one. -/
def le (σ σ' : Stage ρ) : Prop :=
  (σ ≠ new → σ' ≠ new) ∧ (σ.task.outcome.isSome = true → σ' = σ)

theorem le_refl (σ : Stage ρ) : σ.le σ := ⟨id, fun _ => rfl⟩

/-- A task without an outcome may come to any stage but the first. -/
theorem le_of_live {σ σ' : Stage ρ} (h : σ.task.outcome = none) (h' : σ' ≠ new) : σ.le σ' := by
  refine ⟨fun _ => h', fun hs => ?_⟩
  rw [h] at hs
  cases hs

end Stage

/-- How a thread holds the tasks it holds: before they are pushed, to complete them,
or to run them. -/
inductive Grip where
  | creating
  | holding
  | begun
  | invoked
  deriving DecidableEq

/-- The stages of a task that is held so.  One that is held to be completed may
have got an outcome from its caller. -/
def Grip.allows : Grip → Stage ρ → Prop
  | creating, .new => True
  | holding, .waiting => True
  | holding, .settled _ _ => True
  | begun, .begun => True
  | invoked, .invoked => True
  | _, _ => False

/-- The stage of a task that is held so and has no outcome. -/
def Grip.stage : Grip → Stage ρ
  | creating => .new
  | holding => .waiting
  | begun => .begun
  | invoked => .invoked

def AfterStart.tasks : AfterStart → List TaskId
  | enqueue t _ => [t]
  | checkReady | nothing => []

namespace Pc

/-- The tasks in a thread's hands. -/
def tasks : Pc Op Res ρ → List TaskId
  | entering next | starting _ next => next.tasks
  | arriving t _ | pushing t _ => [t]
  | evicting _ _ u => [u]
  | finishing ts _ => ts
  | popping call => call.expiredItems.map WorkItem.payload
  | reporting expired item => expired ++ item.toList
  | beginning t | executing t | running t _ | completing t _ => [t]
  | _ => []

def grip : Pc Op Res ρ → Grip
  | entering _ | starting _ _ | arriving _ _ | pushing _ _ => .creating
  | executing _ => .begun
  | running _ _ | completing _ _ => .invoked
  | _ => .holding

/-- What a thread relies on: its own task has been accepted, the task it takes out
of the queue has an outcome, and a pop ends at a finite time. -/
def relies (stage : TaskId → Stage ρ) : Pc Op Res ρ → Prop
  | evicting t _ _ | waiting t _ => stage t ≠ .new
  | removing t => (stage t).task.outcome.isSome = true
  | popping call => call.finish.isfinite = true
  | _ => True

end Pc

@[simp] theorem AfterStart.tasks_pc (next : AfterStart) :
    (next.pc : Pc Op Res ρ).tasks = next.tasks := by
  cases next <;> rfl

theorem AfterStart.grip_pc (next : AfterStart) (h : (next.pc : Pc Op Res ρ).tasks ≠ []) :
    (next.pc : Pc Op Res ρ).grip = .creating := by
  cases next with
  | enqueue t sub => rfl
  | checkReady | nothing => exact absurd rfl h

theorem AfterStart.relies_pc (next : AfterStart) (stage : TaskId → Stage ρ) :
    (next.pc : Pc Op Res ρ).relies stage := by
  cases next <;> trivial

/-! ## Custody -/

namespace ExecState

def queued (s : ExecState Op Res W ρ) : List TaskId := s.queue.items.map WorkItem.payload

/-- The tasks in each place: the queue, and the threads. -/
def held (s : ExecState Op Res W ρ) : Option Tid → List TaskId
  | none => s.queued
  | some i => (s.pc i).tasks

def grip (s : ExecState Op Res W ρ) : Option Tid → Grip
  | none => .holding
  | some i => (s.pc i).grip

end ExecState

structure Custody (s : ExecState Op Res W ρ) (stage : TaskId → Stage ρ) : Prop where
  tasks : ∀ t, s.tasks t = (stage t).task
  history : ∀ t, s.history t = (stage t).history
  exclusive : Exclusive s.held
  fits : ∀ place, ∀ t ∈ s.held place, (s.grip place).allows (stage t)
  kept : ∀ t, (stage t).live = true → ∃ place, t ∈ s.held place
  relied : ∀ i, (s.pc i).relies stage
  fresh : ∀ t, s.nextTask ≤ t → stage t = .new ∧ ∀ place, t ∉ s.held place

theorem Pc.relies_mono {p : Pc Op Res ρ} {stage stage' : TaskId → Stage ρ} (h : p.relies stage)
    (hle : ∀ t, (stage t).le (stage' t)) : p.relies stage' := by
  cases p with
  | evicting t sub u => exact (hle t).1 h
  | waiting t sub => exact (hle t).1 h
  | removing t =>
    have heq := (hle t).2 h
    rw [relies, heq]
    exact h
  | popping call => exact h
  | _ => trivial

theorem Grip.allows_waiting {g : Grip} (h : g.allows (Stage.waiting (ρ := ρ))) : g = .holding := by
  cases g with
  | holding => rfl
  | creating | begun | invoked => cases h

/-- A grip other than `holding` tells the stage. -/
theorem Grip.allows_of_ne {g : Grip} {σ : Stage ρ} (h : g.allows σ) (hg : g ≠ .holding) :
    σ = g.stage := by
  cases g with
  | holding => exact absurd rfl hg
  | creating | begun | invoked => cases σ <;> first | rfl | cases h

namespace Custody

variable {s s' : ExecState Op Res W ρ} {stage : TaskId → Stage ρ} {i : Tid}
variable {p : Pc Op Res ρ} {u : TaskId} {σ : Stage ρ}

/-! ### A step of one thread -/

theorem held_self (hpc : s'.pc = Function.update s.pc i p) : s'.held (some i) = p.tasks := by
  show (s'.pc i).tasks = _
  rw [hpc, Function.update_self]

theorem held_other (hpc : s'.pc = Function.update s.pc i p) {place : Option Tid}
    (hqueue : place ≠ none) (hself : place ≠ some i) : s'.held place = s.held place := by
  cases place with
  | none => exact absurd rfl hqueue
  | some j =>
    show (s'.pc j).tasks = (s.pc j).tasks
    rw [hpc, Function.update_of_ne fun hji => hself (congrArg some hji)]

/-- A step of thread `i` may bring `u` to `σ`: the task stays where it is, or is in the queue
or in the thread's hands, or its caller settles it. -/
def Brings (s : ExecState Op Res W ρ) (stage : TaskId → Stage ρ) (i : Tid) (u : TaskId)
    (σ : Stage ρ) : Prop :=
  σ = stage u ∨ u ∈ s.queued ++ (s.pc i).tasks ∨ stage u = .waiting ∧ ∃ o h, σ = .settled o h

/-- A task in other hands stays where it is, or has been settled. -/
theorem stage_other (h : Custody s stage) (hbrings : Brings s stage i u σ) {place : Option Tid}
    (hqueue : place ≠ none) (hself : place ≠ some i) {t : TaskId} (ht : t ∈ s.held place) :
    Function.update stage u σ t = stage t ∨
      stage t = .waiting ∧ ∃ o h, Function.update stage u σ t = .settled o h := by
  by_cases htu : t = u
  · subst htu
    rw [Function.update_self]
    rcases hbrings with heq | hmem | hsettled
    · exact Or.inl heq
    · rcases List.mem_append.mp hmem with hqueued | hown
      · exact absurd (h.exclusive.unique place none t ht hqueued) hqueue
      · exact absurd (h.exclusive.unique place (some i) t ht hown) hself
    · exact Or.inr hsettled
  · exact Or.inl (Function.update_of_ne htu σ stage)

/-- Other hands hold their tasks as before. -/
theorem fits_other (h : Custody s stage) (hbrings : Brings s stage i u σ) {place : Option Tid}
    (hqueue : place ≠ none) (hself : place ≠ some i) {t : TaskId} (ht : t ∈ s.held place) :
    (s.grip place).allows (Function.update stage u σ t) := by
  have hfits := h.fits place t ht
  rcases h.stage_other hbrings hqueue hself ht with heq | ⟨hwaiting, o, ho, heq⟩
  · rw [heq]
    exact hfits
  · rw [hwaiting] at hfits
    rw [heq, Grip.allows_waiting hfits]
    trivial

/-- A task that is live after the step, and neither queued nor in the thread's hands before it,
was live. -/
theorem live_other (hbrings : Brings s stage i u σ) {t : TaskId}
    (hout : t ∉ s.queued ++ (s.pc i).tasks) (ht : (Function.update stage u σ t).live = true) :
    (stage t).live = true := by
  by_cases htu : t = u
  · subst htu
    rw [Function.update_self] at ht
    rcases hbrings with heq | hmem | ⟨-, o, ho, heq⟩
    · rw [← heq]
      exact ht
    · exact absurd hmem hout
    · rw [heq] at ht
      cases ht
  · rwa [Function.update_of_ne htu] at ht

theorem kept_move (h : Custody s stage) (hpc : s'.pc = Function.update s.pc i p)
    (hbrings : Brings s stage i u σ)
    (hkept : ∀ t ∈ s.queued ++ (s.pc i).tasks,
      (Function.update stage u σ t).live = true → t ∈ s'.queued ++ p.tasks) {t : TaskId}
    (ht : (Function.update stage u σ t).live = true) : ∃ place, t ∈ s'.held place := by
  by_cases hmem : t ∈ s.queued ++ (s.pc i).tasks
  · rcases List.mem_append.mp (hkept t hmem ht) with hqueued | hown
    · exact ⟨none, hqueued⟩
    · exact ⟨some i, held_self hpc ▸ hown⟩
  · obtain ⟨place, hplace⟩ := h.kept t (live_other hbrings hmem ht)
    have hqueue : place ≠ none := by
      rintro rfl
      exact hmem (List.mem_append_left _ hplace)
    have hself : place ≠ some i := by
      rintro rfl
      exact hmem (List.mem_append_right _ hplace)
    exact ⟨place, (held_other hpc hqueue hself).symm ▸ hplace⟩

theorem fresh_move (h : Custody s stage) (hpc : s'.pc = Function.update s.pc i p)
    (hbrings : Brings s stage i u σ)
    (hsub : (s'.queued ++ p.tasks).Subperm (s.queued ++ (s.pc i).tasks)) {t : TaskId}
    (ht : s.nextTask ≤ t) :
    Function.update stage u σ t = .new ∧ ∀ place, t ∉ s'.held place := by
  obtain ⟨hnew, hnowhere⟩ := h.fresh t ht
  have hout : t ∉ s.queued ++ (s.pc i).tasks := fun hmem =>
    (List.mem_append.mp hmem).elim (hnowhere none) (hnowhere (some i))
  constructor
  · by_cases htu : t = u
    · subst htu
      rw [Function.update_self]
      rcases hbrings with heq | hmem | ⟨hwaiting, -⟩
      · exact heq.trans hnew
      · exact absurd hmem hout
      · rw [hwaiting] at hnew
        cases hnew
    · rw [Function.update_of_ne htu]
      exact hnew
  · intro place hplace
    by_cases hqueue : place = none
    · subst hqueue
      exact hout (hsub.subset (List.mem_append_left _ hplace))
    · by_cases hself : place = some i
      · subst hself
        rw [held_self hpc] at hplace
        exact hout (hsub.subset (List.mem_append_right _ hplace))
      · rw [held_other hpc hqueue hself] at hplace
        exact hnowhere place hplace

/-- Thread `i` goes to `p`, and the stage of task `u` becomes `σ`.  What it held and
what was queued may change places, or be let go of where no outcome is missing. -/
theorem move (h : Custody s stage) (hpc : s'.pc = Function.update s.pc i p)
    (hnext : s'.nextTask = s.nextTask)
    (htasks : s'.tasks = Function.update s.tasks u σ.task)
    (hhistory : s'.history = Function.update s.history u σ.history)
    (hle : (stage u).le σ) (hbrings : Brings s stage i u σ)
    (hsub : (s'.queued ++ p.tasks).Subperm (s.queued ++ (s.pc i).tasks))
    (hqueue : ∀ t ∈ s'.queued, Grip.holding.allows (Function.update stage u σ t))
    (hfits : ∀ t ∈ p.tasks, p.grip.allows (Function.update stage u σ t))
    (hkept : ∀ t ∈ s.queued ++ (s.pc i).tasks,
      (Function.update stage u σ t).live = true → t ∈ s'.queued ++ p.tasks)
    (hrelies : p.relies (Function.update stage u σ)) :
    Custody s' (Function.update stage u σ) where
  tasks t := by
    rw [htasks, funext h.tasks]
    exact (Function.apply_update (fun _ => Stage.task) stage u σ t).symm
  history t := by
    rw [hhistory, funext h.history]
    exact (Function.apply_update (fun _ => Stage.history) stage u σ t).symm
  exclusive := by
    apply h.exclusive.exchange (Option.some_ne_none i).symm
    · rw [held_self hpc]
      exact hsub
    · exact fun place hplace hself => held_other hpc hplace hself
  fits place t ht := by
    match place with
    | none => exact hqueue t ht
    | some j =>
      show (s'.pc j).grip.allows _
      by_cases hji : j = i
      · subst hji
        rw [held_self hpc] at ht
        rw [hpc, Function.update_self]
        exact hfits t ht
      · have hself : some j ≠ some i := fun heq => hji (Option.some.inj heq)
        rw [held_other hpc (Option.some_ne_none j) hself] at ht
        rw [hpc, Function.update_of_ne hji]
        exact h.fits_other hbrings (Option.some_ne_none j) hself ht
  kept _ := h.kept_move hpc hbrings hkept
  relied j := by
    by_cases hji : j = i
    · subst hji
      rw [hpc, Function.update_self]
      exact hrelies
    · rw [hpc, Function.update_of_ne hji]
      refine Pc.relies_mono (h.relied j) fun t => ?_
      by_cases htu : t = u
      · subst htu
        rw [Function.update_self]
        exact hle
      · rw [Function.update_of_ne htu]
        exact Stage.le_refl _
  fresh t ht := h.fresh_move hpc hbrings hsub (hnext ▸ ht)

/-! ### The ways a thread moves on -/

theorem allowed_own (h : Custody s stage) {t : TaskId} (ht : t ∈ (s.pc i).tasks) :
    (s.pc i).grip.allows (stage t) :=
  h.fits (some i) t ht

theorem allowed_queued (h : Custody s stage) {t : TaskId} (ht : t ∈ s.queued) :
    Grip.holding.allows (stage t) :=
  h.fits none t ht

/-- Nothing happens to a task: what the thread holds and what is queued may change
places, or be let go of. -/
theorem transfer (h : Custody s stage) (hpc : s'.pc = Function.update s.pc i p)
    (hnext : s'.nextTask = s.nextTask) (htasks : s'.tasks = s.tasks)
    (hhistory : s'.history = s.history)
    (hsub : (s'.queued ++ p.tasks).Subperm (s.queued ++ (s.pc i).tasks))
    (hqueue : ∀ t ∈ s'.queued, Grip.holding.allows (stage t))
    (hfits : ∀ t ∈ p.tasks, p.grip.allows (stage t))
    (hkept : ∀ t ∈ s.queued ++ (s.pc i).tasks, (stage t).live = true → t ∈ s'.queued ++ p.tasks)
    (hrelies : p.relies stage) : Custody s' stage := by
  have hsame : Function.update stage 0 (stage 0) = stage := Function.update_eq_self 0 stage
  have hmove : Custody s' (Function.update stage 0 (stage 0)) := by
    refine h.move hpc hnext ?_ ?_ (Stage.le_refl _) (Or.inl rfl) hsub ?_ ?_ ?_ ?_
    · rw [htasks, ← h.tasks 0, Function.update_eq_self]
    · rw [hhistory, ← h.history 0, Function.update_eq_self]
    all_goals rw [hsame]; assumption
  rw [hsame] at hmove
  exact hmove

/-- The thread goes on with the same tasks in hand. -/
theorem goto (h : Custody s stage) (hpc : s'.pc = Function.update s.pc i p)
    (hnext : s'.nextTask = s.nextTask) (htasks : s'.tasks = s.tasks)
    (hhistory : s'.history = s.history) (hqueue : s'.queue = s.queue)
    (hp : p.tasks = (s.pc i).tasks) (hgrip : p.tasks ≠ [] → p.grip = (s.pc i).grip)
    (hrelies : p.relies stage) : Custody s' stage := by
  have hq : s'.queued = s.queued := congrArg (fun Q => Q.items.map WorkItem.payload) hqueue
  refine h.transfer hpc hnext htasks hhistory ?_ ?_ ?_ ?_ hrelies
  · rw [hq, hp]
  · intro t ht
    exact h.allowed_queued (hq ▸ ht)
  · intro t ht
    rw [hgrip (List.ne_nil_of_mem ht)]
    exact h.allowed_own (hp ▸ ht)
  · intro t ht _
    rw [hq, hp]
    exact ht

/-- A call ends before its task has been pushed. -/
theorem abandon (h : Custody s stage) (hpc : s'.pc = Function.update s.pc i p)
    (hnext : s'.nextTask = s.nextTask) (htasks : s'.tasks = s.tasks)
    (hhistory : s'.history = s.history) (hq : s'.queued = s.queued)
    (hgrip : (s.pc i).grip = .creating) (hp : p.tasks = []) (hrelies : p.relies stage) :
    Custody s' stage := by
  refine h.transfer hpc hnext htasks hhistory ?_ ?_ ?_ ?_ hrelies
  · rw [hq, hp]
    exact (List.subperm_append_left _).mpr List.nil_subperm
  · intro t ht
    exact h.allowed_queued (hq ▸ ht)
  · intro t ht
    rw [hp] at ht
    exact absurd ht List.not_mem_nil
  · intro t ht hlive
    rw [hq]
    rcases List.mem_append.mp ht with hmem | hmem
    · exact List.mem_append_left _ hmem
    · have hfit := h.allowed_own hmem
      rw [hgrip] at hfit
      rw [Grip.allows_of_ne hfit nofun] at hlive
      cases hlive

/-- The one task in the thread's hands comes to its next stage. -/
theorem advance (h : Custody s stage) (hpc : s'.pc = Function.update s.pc i p)
    (hnext : s'.nextTask = s.nextTask) (hq : s'.queued = s.queued)
    (hown : (s.pc i).tasks = [u])
    (htasks : s'.tasks = Function.update s.tasks u σ.task)
    (hhistory : s'.history = Function.update s.history u σ.history) (hle : (stage u).le σ)
    (hp : p.tasks = [u] ∧ p.grip.allows σ ∨ p.tasks = [] ∧ σ.live = false)
    (hrelies : p.relies (Function.update stage u σ)) :
    Custody s' (Function.update stage u σ) := by
  have humem : u ∈ (s.pc i).tasks := hown ▸ List.mem_singleton_self u
  have hout : u ∉ s.queued := by
    intro hmem
    have := h.exclusive.unique none (some i) u hmem humem
    cases this
  refine h.move hpc hnext htasks hhistory hle (Or.inr (Or.inl (List.mem_append_right _ humem)))
    ?_ ?_ ?_ ?_ hrelies
  · rw [hq, hown]
    rcases hp with ⟨hp, _⟩ | ⟨hp, _⟩
    · rw [hp]
    · rw [hp]
      exact (List.subperm_append_left _).mpr List.nil_subperm
  · intro t ht
    rw [hq] at ht
    have htu : t ≠ u := by
      rintro rfl
      exact hout ht
    rw [Function.update_of_ne htu]
    exact h.allowed_queued ht
  · intro t ht
    rcases hp with ⟨hp, hfit⟩ | ⟨hp, _⟩
    · rw [hp, List.mem_singleton] at ht
      subst ht
      rw [Function.update_self]
      exact hfit
    · rw [hp] at ht
      exact absurd ht List.not_mem_nil
  · intro t ht hlive
    rw [hq]
    rcases List.mem_append.mp ht with hmem | hmem
    · exact List.mem_append_left _ hmem
    · rw [hown, List.mem_singleton] at hmem
      subst hmem
      rw [Function.update_self] at hlive
      rcases hp with ⟨hp, _⟩ | ⟨_, hdead⟩
      · rw [hp]
        exact List.mem_append_right _ (List.mem_singleton_self t)
      · rw [hdead] at hlive
        cases hlive

/-- A waiting task gets an outcome without being run; the thread lets go of it, if
it was held. -/
theorem settle (h : Custody s stage) (hpc : s'.pc = Function.update s.pc i p)
    (hnext : s'.nextTask = s.nextTask) (hq : s'.queued = s.queued) (hu : stage u = .waiting)
    {o : Outcome ρ} (ho : o.isRan = false)
    (htasks : s'.tasks = Function.update s.tasks u ⟨false, some o⟩)
    (hhistory : s'.history = Function.update s.history u (.settled o :: s.history u))
    (hown : (s.pc i).tasks = p.tasks ∨ (s.pc i).tasks = u :: p.tasks)
    (hgrip : p.tasks ≠ [] → p.grip = .holding ∧ (s.pc i).grip = .holding)
    (hrelies : p.relies (Function.update stage u (.settled o ho))) :
    Custody s' (Function.update stage u (.settled o ho)) := by
  have hall : ∀ t, Grip.holding.allows (stage t) →
      Grip.holding.allows (Function.update stage u (.settled o ho) t) := by
    intro t hfit
    by_cases htu : t = u
    · subst htu
      rw [Function.update_self]
      trivial
    · rw [Function.update_of_ne htu]
      exact hfit
  have hsubset : ∀ t ∈ p.tasks, t ∈ (s.pc i).tasks := by
    intro t ht
    rcases hown with heq | heq
    · exact heq ▸ ht
    · exact heq ▸ List.mem_cons_of_mem u ht
  refine h.move hpc hnext htasks ?_ ?_ (Or.inr (Or.inr ⟨hu, o, ho, rfl⟩)) ?_ ?_ ?_ ?_ hrelies
  · rw [hhistory, h.history u, hu]
    rfl
  · rw [hu]
    exact Stage.le_of_live rfl nofun
  · rw [hq]
    apply (List.subperm_append_left _).mpr
    rcases hown with heq | heq
    · rw [heq]
    · rw [heq]
      exact (List.sublist_cons_self u _).subperm
  · intro t ht
    exact hall t (h.allowed_queued (hq ▸ ht))
  · intro t ht
    obtain ⟨hg, hg'⟩ := hgrip (List.ne_nil_of_mem ht)
    rw [hg]
    apply hall
    rw [← hg']
    exact h.allowed_own (hsubset t ht)
  · intro t ht hlive
    rw [hq]
    rcases List.mem_append.mp ht with hmem | hmem
    · exact List.mem_append_left _ hmem
    · rcases hown with heq | heq
      · exact List.mem_append_right _ (heq ▸ hmem)
      · rw [heq] at hmem
        rcases List.mem_cons.mp hmem with rfl | hmem
        · rw [Function.update_self] at hlive
          cases hlive
        · exact List.mem_append_right _ hmem

end Custody

end Runtime
end EdgeFort
