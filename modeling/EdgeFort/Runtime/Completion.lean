/-
A thread that holds an accepted task completes it.

Nobody else can take the task from the thread, the thread is never stuck, and it has
only so many steps to take before the task has an outcome.  A pop that waits is the
exception: its rounds may repeat until the clock has come to the end of the wait.
-/
import EdgeFort.Runtime.TaskSteps

namespace EdgeFort
namespace Runtime

open Effect BoundedInferenceQueue

variable {Op : Type} {Res : Op → Type} {W ρ : Type}
variable {E : BoundedInferenceExecutor Op Res W ρ}
variable {s s' : ExecState Op Res W ρ} {i j : Tid} {t : TaskId}

/-! ## Outcomes stay -/

theorem ExecState.complete_tasks (s : ExecState Op Res W ρ) (u t : TaskId) (o : Outcome ρ) :
    (s.complete u o).tasks t = s.tasks t ∨
      t = u ∧ (s.tasks t).outcome = none ∧
        (s.complete u o).tasks t = { s.tasks t with outcome := some o } := by
  unfold complete
  by_cases hout : (s.tasks u).outcome.isSome = true
  · rw [if_pos hout]
    exact Or.inl rfl
  · rw [if_neg hout]
    by_cases htu : t = u
    · subst htu
      right
      refine ⟨rfl, by simpa using hout, ?_⟩
      show Function.update s.tasks t _ t = _
      rw [Function.update_self, InferenceTask.complete, if_neg hout]
    · left
      exact Function.update_of_ne htu _ _

theorem ExecState.complete_outcome (s : ExecState Op Res W ρ) (u : TaskId) (o : Outcome ρ) :
    ((s.complete u o).tasks u).outcome ≠ none := by
  unfold complete
  by_cases hout : (s.tasks u).outcome.isSome = true
  · rw [if_pos hout]
    exact Option.isSome_iff_ne_none.mp hout
  · rw [if_neg hout]
    show (Function.update s.tasks u _ u).outcome ≠ none
    rw [Function.update_self, InferenceTask.complete, if_neg hout]
    exact Option.some_ne_none o

theorem settleIfNotStarted_eq {task task' : InferenceTask ρ} {o : Outcome ρ}
    (h : task.settleIfNotStarted o = (true, task')) :
    task.outcome = none ∧ task.started = false ∧ task' = { task with outcome := some o } := by
  unfold InferenceTask.settleIfNotStarted at h
  split at h
  · cases h
  · rename_i hno
    cases h
    simpa using hno

theorem begin_eq {task task' : InferenceTask ρ} {b : Bool} (h : task.begin = (b, task')) :
    b = task.outcome.isNone ∧ task'.outcome = task.outcome ∧
      (task.started = true → task'.started = true) := by
  unfold InferenceTask.begin at h
  split at h
  · rename_i hsome
    cases h
    exact ⟨by simpa using hsome, rfl, id⟩
  · rename_i hnone
    cases h
    exact ⟨by simpa using hnone, rfl, fun _ => rfl⟩

/-- What one step does to a task: it begins, or gets its outcome. -/
theorem step_task (hs : ExecStep E i s s') (t : TaskId) :
    ((s.tasks t).started = true → (s'.tasks t).started = true) ∧
      ∀ o, (s.tasks t).outcome = some o → (s'.tasks t).outcome = some o := by
  have hupdate : ∀ {u task}, s'.tasks = Function.update s.tasks u task →
      ((s.tasks u).started = true → task.started = true) →
      (∀ o, (s.tasks u).outcome = some o → task.outcome = some o) →
      ((s.tasks t).started = true → (s'.tasks t).started = true) ∧
      ∀ o, (s.tasks t).outcome = some o → (s'.tasks t).outcome = some o := by
    intro u task heq hstarted hout
    rw [heq]
    by_cases htu : t = u
    · subst htu
      rw [Function.update_self]
      exact ⟨hstarted, hout⟩
    · rw [Function.update_of_ne htu]
      exact ⟨id, fun _ h => h⟩
  have hcomplete : ∀ {u o}, s'.tasks = (s.complete u o).tasks →
      ((s.tasks t).started = true → (s'.tasks t).started = true) ∧
      ∀ o, (s.tasks t).outcome = some o → (s'.tasks t).outcome = some o := by
    intro u o heq
    rw [heq]
    rcases s.complete_tasks u t o with h | ⟨_, hnone, h⟩
    · rw [h]
      exact ⟨id, fun _ h => h⟩
    · rw [h]
      refine ⟨id, fun o' ho' => ?_⟩
      rw [hnone] at ho'
      cases ho'
  cases hs with
  | timerExpires _ _ hset | cancels _ _ hset =>
    obtain ⟨hnone, _, rfl⟩ := settleIfNotStarted_eq hset
    refine hupdate rfl id fun o ho => ?_
    rw [hnone] at ho
    cases ho
  | begins _ hb =>
    obtain ⟨_, hout, hstarted⟩ := begin_eq hb
    exact hupdate rfl hstarted fun o ho => hout.trans ho
  | evict | finish | report | completes => exact hcomplete rfl
  | _ => exact ⟨id, fun _ h => h⟩

/-- `s'` comes after `s` in a run. -/
def Follows (E : BoundedInferenceExecutor Op Res W ρ) :
    ExecState Op Res W ρ → ExecState Op Res W ρ → Prop :=
  Relation.ReflTransGen fun s s' => ∃ i, ExecStep E i s s'

theorem Follows.outcome (h : Follows E s s') {o : Outcome ρ} (ho : (s.tasks t).outcome = some o) :
    (s'.tasks t).outcome = some o := by
  induction h with
  | refl => exact ho
  | tail _ hs ih =>
    obtain ⟨i, hs⟩ := hs
    exact (step_task hs t).2 o ih

theorem Follows.started (h : Follows E s s') (hs : (s.tasks t).started = true) :
    (s'.tasks t).started = true := by
  induction h with
  | refl => exact hs
  | tail _ hs ih =>
    obtain ⟨i, hs⟩ := hs
    exact (step_task hs t).1 ih

theorem Follows.pending (h : Follows E s s') (ho : (s'.tasks t).outcome = none) :
    (s.tasks t).outcome = none := by
  cases hs : (s.tasks t).outcome with
  | none => rfl
  | some o =>
    rw [h.outcome hs] at ho
    cases ho

/-! ## One step of the holder, or of another thread -/

/-- A step moves no thread but its own, unless it starts the workers. -/
theorem step_other (hg : Guarded s) (hs : ExecStep E j s s') (hij : i ≠ j) :
    s'.pc i = s.pc i ∨ s.pc i = .unborn := by
  cases hs with
  | startDone hpc =>
    rw [ExecState.goto_pc_of_ne _ hij]
    have hunborn := hg.unborn (Or.inr ⟨j, by rw [hpc]; rfl⟩)
    match i with
    | .caller n => exact Or.inl rfl
    | .worker n => exact Or.inr (hunborn n)
  | evict | finish | report | completes =>
    rw [ExecState.goto_pc_of_ne _ hij]
    left
    simp [ExecState.unlock]
  | _ =>
    left
    exact ExecState.goto_pc_of_ne _ hij

/-- Thread `i` has accepted task `t` in its hands. -/
def Holds (s : ExecState Op Res W ρ) (i : Tid) (t : TaskId) : Prop :=
  t ∈ (s.pc i).tasks ∧ (s.pc i).grip ≠ .creating

theorem Grip.holding_ne : Grip.holding ≠ .creating := Grip.noConfusion

theorem Grip.begun_ne : Grip.begun ≠ .creating := Grip.noConfusion

theorem Grip.invoked_ne : Grip.invoked ≠ .creating := Grip.noConfusion

/-- Where a thread that holds a task goes next. -/
inductive Pc.Next : Pc Op Res ρ → Pc Op Res ρ → Prop
  | popped {call expired item} : Next (.popping call) (.reporting expired item)
  | reported {u rest item} : Next (.reporting (u :: rest) item) (.reporting rest item)
  | item {u} : Next (.reporting [] (some u)) (.beginning u)
  | begun {u} : Next (.beginning u) (.executing u)
  | invoked {u p} : Next (.executing u) (.running u p)
  | engine {u o k r} : Next (.running u (.op o k)) (.running u (k r))
  | answered {u p r} : Next (.running u p) (.completing u r)
  | finished {u rest wait} : Next (.finishing (u :: rest) wait) (.finishing rest wait)

def Pc.isPopping : Pc Op Res ρ → Bool
  | popping _ => true
  | _ => false

/-- As long as the task has no outcome, the thread keeps it, and gets further or waits. -/
theorem step_holder (hs : ExecStep E i s s') (hheld : Holds s i t)
    (hout : (s'.tasks t).outcome = none) :
    Holds s' i t ∧ ((s.pc i).Next (s'.pc i) ∨
      (s.pc i).isPopping = true ∧ (s'.pc i).isPopping = true) := by
  obtain ⟨hmem, hgrip⟩ := hheld
  have hsettles : ∀ {u : TaskId} {o : Outcome ρ}, s'.tasks = (s.complete u o).tasks → t ≠ u := by
    rintro u o htasks rfl
    rw [htasks] at hout
    exact s.complete_outcome t o hout
  cases hs with
  | evict hpc =>
    rw [hpc] at hmem
    exact absurd (List.mem_singleton.mp hmem) (hsettles rfl)
  | finish hpc =>
    rw [hpc] at hmem
    rcases List.mem_cons.mp hmem with heq | hmem
    · exact absurd heq (hsettles rfl)
    · rw [hpc, Holds, ExecState.goto_pc]
      exact ⟨⟨hmem, Grip.holding_ne⟩, Or.inl .finished⟩
  | report hpc =>
    rw [hpc] at hmem
    rcases List.mem_cons.mp hmem with heq | hmem
    · exact absurd heq (hsettles rfl)
    · rw [hpc, Holds, ExecState.goto_pc]
      exact ⟨⟨hmem, Grip.holding_ne⟩, Or.inl .reported⟩
  | popWaits hpc hq =>
    obtain ⟨_, hexpired, _⟩ := popRound_waits hq
    rw [hpc] at hmem
    rw [hpc, Holds, ExecState.goto_pc]
    refine ⟨⟨?_, Grip.holding_ne⟩, Or.inr ⟨rfl, rfl⟩⟩
    rw [Pc.tasks, hexpired, List.map_append]
    exact List.mem_append_left _ hmem
  | popReturns hpc hq =>
    obtain ⟨hexpired, _⟩ := popRound_returned hq
    rw [hpc] at hmem
    rw [hpc, Holds, ExecState.goto_pc]
    refine ⟨⟨?_, Grip.holding_ne⟩, Or.inl .popped⟩
    rw [Pc.tasks, hexpired, List.map_append]
    exact List.mem_append_left _ (List.mem_append_left _ hmem)
  | reportedItem hpc =>
    rw [hpc] at hmem
    rw [hpc, Holds, ExecState.goto_pc]
    exact ⟨⟨hmem, Grip.holding_ne⟩, Or.inl .item⟩
  | begins hpc hb =>
    rw [hpc] at hmem
    rw [hpc, Holds, ExecState.goto_pc]
    exact ⟨⟨hmem, Grip.begun_ne⟩, Or.inl .begun⟩
  | @beginsTooLate u task hpc hb =>
    rw [hpc] at hmem
    rw [← List.mem_singleton.mp hmem] at hb
    have hnone := (begin_eq hb).1
    rw [show (s.tasks t).outcome = none from hout] at hnone
    cases hnone
  | invoke hpc =>
    rw [hpc] at hmem
    rw [hpc, Holds, ExecState.goto_pc]
    exact ⟨⟨hmem, Grip.invoked_ne⟩, Or.inl .invoked⟩
  | engineStep hpc hstep =>
    rw [hpc] at hmem
    rw [hpc, Holds, ExecState.goto_pc]
    cases hstep with
    | op _ => exact ⟨⟨hmem, Grip.invoked_ne⟩, Or.inl .engine⟩
  | engineAnswers hpc =>
    rw [hpc] at hmem
    rw [hpc, Holds, ExecState.goto_pc]
    exact ⟨⟨hmem, Grip.invoked_ne⟩, Or.inl .answered⟩
  | completes hpc =>
    rw [hpc] at hmem
    exact absurd (List.mem_singleton.mp hmem) (hsettles rfl)
  | _ =>
    simp [*, Pc.tasks, Pc.grip] at hmem hgrip

/-! ## The holder completes the task -/

/-- The invariants of the executor. -/
structure Sound (s : ExecState Op Res W ρ) : Prop where
  guarded : Guarded s
  custody : ∃ stage, Custody s stage

theorem Sound.step (h : Sound s) (hs : ExecStep E i s s') : Sound s' := by
  obtain ⟨stage, hc⟩ := h.custody
  exact ⟨h.guarded.step hs, hc.step h.guarded hs⟩

theorem Follows.sound (hf : Follows E s s') (h : Sound s) : Sound s' := by
  induction hf with
  | refl => exact h
  | tail _ hs ih =>
    obtain ⟨i, hs⟩ := hs
    exact ih.step hs

/-- A step of thread `i`, other than a round of a pop that waits. -/
def Progress (E : BoundedInferenceExecutor Op Res W ρ) (i : Tid) (s s' : ExecState Op Res W ρ) :
    Prop :=
  ExecStep E i s s' ∧ ¬((s.pc i).isPopping = true ∧ (s'.pc i).isPopping = true)

/-- Thread `i` has made progress, whatever the others have done, and `t` still has
no outcome. -/
def Delays (E : BoundedInferenceExecutor Op Res W ρ) (i : Tid) (t : TaskId)
    (s s' : ExecState Op Res W ρ) : Prop :=
  ∃ s₁ s₂, Follows E s s₁ ∧ Progress E i s₁ s₂ ∧ Follows E s₂ s' ∧ (s'.tasks t).outcome = none

/-- Thread `i` is the one that completes task `t`. -/
structure WillComplete (E : BoundedInferenceExecutor Op Res W ρ) (i : Tid) (t : TaskId)
    (s : ExecState Op Res W ρ) : Prop where
  keeps : ∀ s', Follows E s s' → (s'.tasks t).outcome = none → t ∈ (s'.pc i).tasks
  ready : ∀ s', Follows E s s' → (s'.tasks t).outcome = none → ∃ s'', Progress E i s' s''
  ends : Acc (fun s₂ s₁ => Delays E i t s₁ s₂) s

namespace Pc

theorem Next.isPopping {p p' : Pc Op Res ρ} (h : p.Next p') : p'.isPopping = false := by
  cases h <;> rfl

theorem acc_running (u : TaskId) (p : Prog Op Res PyError ρ) :
    Acc (fun p' p : Pc Op Res ρ => p.Next p') (.running u p) := by
  have hcompleting : ∀ r, Acc (fun p' p : Pc Op Res ρ => p.Next p') (.completing u r) :=
    fun r => ⟨_, fun p' h => by cases h⟩
  induction p with
  | pure a | throw e =>
    refine ⟨_, fun p' h => ?_⟩
    cases h with
    | answered => exact hcompleting _
  | op o k ih =>
    refine ⟨_, fun p' h => ?_⟩
    cases h with
    | engine => exact ih _
    | answered => exact hcompleting _

theorem acc_reporting (rest : List TaskId) (item : Option TaskId) :
    Acc (fun p' p : Pc Op Res ρ => p.Next p') (.reporting rest item) := by
  induction rest with
  | nil =>
    refine ⟨_, fun p' h => ?_⟩
    cases h with
    | item =>
      refine ⟨_, fun p' h => ?_⟩
      cases h with
      | begun =>
        refine ⟨_, fun p' h => ?_⟩
        cases h with
        | invoked => exact acc_running _ _
  | cons u rest ih =>
    refine ⟨_, fun p' h => ?_⟩
    cases h with
    | reported => exact ih

theorem acc_finishing (rest : List TaskId) (wait : Bool) :
    Acc (fun p' p : Pc Op Res ρ => p.Next p') (.finishing rest wait) := by
  induction rest with
  | nil => exact ⟨_, fun p' h => by cases h⟩
  | cons u rest ih =>
    refine ⟨_, fun p' h => ?_⟩
    cases h with
    | finished => exact ih

/-- A thread that holds a task has only so far to go. -/
theorem acc_next (p : Pc Op Res ρ) : Acc (fun p' p : Pc Op Res ρ => p.Next p') p := by
  refine ⟨_, fun p' h => ?_⟩
  cases h with
  | popped => exact acc_reporting _ _
  | reported => exact acc_reporting _ _
  | item =>
    exact (acc_reporting [] (some _)).inv .item
  | begun => exact ((acc_reporting [] (some _)).inv .item).inv .begun
  | invoked | engine => exact acc_running _ _
  | @answered u p r => exact (acc_running u p).inv .answered
  | finished => exact acc_finishing _ _

/-- `p'` is further on than `p`, and not in a pop. -/
def Below (p p' : Pc Op Res ρ) : Prop :=
  p'.isPopping = false ∧ (p.isPopping = true ∨ Relation.TransGen Next p p')

theorem Below.of_next {p p' : Pc Op Res ρ} (h : p.Next p') : p.Below p' :=
  ⟨h.isPopping, Or.inr (.single h)⟩

theorem Below.trans {p q r : Pc Op Res ρ} (h : p.Below q) (h' : q.Below r) : p.Below r := by
  refine ⟨h'.1, ?_⟩
  rcases h.2 with hp | hpq
  · exact Or.inl hp
  · rcases h'.2 with hq | hqr
    · rw [h.1] at hq
      cases hq
    · exact Or.inr (hpq.trans hqr)

theorem acc_below (p : Pc Op Res ρ) : Acc (fun p' p : Pc Op Res ρ => p.Below p') p := by
  have hout : ∀ q : Pc Op Res ρ, q.isPopping = false →
      Acc (fun p' p : Pc Op Res ρ => p.Below p') q := by
    intro q
    have hacc := (acc_next q).transGen
    induction hacc with
    | intro q _ ih =>
      intro hq
      refine ⟨_, fun r hr => ?_⟩
      rcases hr.2 with hpop | htrans
      · rw [hq] at hpop
        cases hpop
      · exact ih r (Relation.transGen_swap.mp htrans) hr.1
  exact ⟨_, fun r hr => hout r hr.1⟩

/-- `p'` is where `p` was, or still in the pop, or further on. -/
def After (p p' : Pc Op Res ρ) : Prop :=
  p' = p ∨ p.isPopping = true ∧ p'.isPopping = true ∨ p.Below p'

theorem After.trans_below {p q r : Pc Op Res ρ} (h : p.After q) (h' : q.Below r) : p.Below r := by
  rcases h with rfl | ⟨hp, _⟩ | h
  · exact h'
  · exact ⟨h'.1, Or.inl hp⟩
  · exact h.trans h'

theorem Below.trans_after {p q r : Pc Op Res ρ} (h : p.Below q) (h' : q.After r) : p.Below r := by
  rcases h' with rfl | ⟨hq, _⟩ | h'
  · exact h
  · rw [h.1] at hq
    cases hq
  · exact h.trans h'

theorem After.trans {p q r : Pc Op Res ρ} (h : p.After q) (h' : q.After r) : p.After r := by
  rcases h' with rfl | ⟨hq, hr⟩ | h'
  · exact h
  · rcases h with rfl | ⟨hp, _⟩ | h
    · exact Or.inr (Or.inl ⟨hq, hr⟩)
    · exact Or.inr (Or.inl ⟨hp, hr⟩)
    · rw [h.1] at hq
      cases hq
  · exact Or.inr (Or.inr (h.trans_below h'))

end Pc

/-- As long as the task has no outcome, its holder keeps it and only moves on. -/
theorem Follows.holds (hf : Follows E s s') (h : Sound s) (hheld : Holds s i t)
    (hout : (s'.tasks t).outcome = none) : Holds s' i t ∧ (s.pc i).After (s'.pc i) := by
  induction hf with
  | refl => exact ⟨hheld, Or.inl rfl⟩
  | @tail s₁ s₂ hf hs ih =>
    have hsound : Sound s₁ := Follows.sound hf h
    obtain ⟨j, hs⟩ := hs
    obtain ⟨hheld₁, hafter⟩ := ih (Follows.pending (.single ⟨j, hs⟩) hout)
    by_cases hij : i = j
    · subst hij
      obtain ⟨hheld₂, hnext | hpop⟩ := step_holder hs hheld₁ hout
      · exact ⟨hheld₂, hafter.trans (Or.inr (Or.inr (.of_next hnext)))⟩
      · exact ⟨hheld₂, hafter.trans (Or.inr (Or.inl hpop))⟩
    · rcases step_other hsound.guarded hs hij with heq | hunborn
      · rw [Holds, heq]
        exact ⟨hheld₁, hafter⟩
      · have hmem := hheld₁.1
        rw [hunborn] at hmem
        exact absurd hmem List.not_mem_nil

theorem Delays.below (h : Sound s) (hheld : Holds s i t) (hd : Delays E i t s s') :
    Sound s' ∧ Holds s' i t ∧ (s.pc i).Below (s'.pc i) := by
  obtain ⟨s₁, s₂, hf₁, ⟨hs, hnot⟩, hf₂, hout⟩ := hd
  have hout₂ := hf₂.pending hout
  have hout₁ := Follows.pending (.single ⟨i, hs⟩) hout₂
  have hsound₁ := hf₁.sound h
  have hsound₂ := hsound₁.step hs
  obtain ⟨hheld₁, hafter₁⟩ := hf₁.holds h hheld hout₁
  obtain ⟨hheld₂, hnext | hpop⟩ := step_holder hs hheld₁ hout₂
  · obtain ⟨hheld', hafter₂⟩ := hf₂.holds hsound₂ hheld₂ hout
    exact ⟨hf₂.sound hsound₂, hheld',
      (hafter₁.trans_below (.of_next hnext)).trans_after hafter₂⟩
  · exact absurd hpop hnot

/-- A thread that holds a task can always go on. -/
theorem Holds.ready (E : BoundedInferenceExecutor Op Res W ρ) (h : Sound s) (hheld : Holds s i t) :
    ∃ s', Progress E i s s' := by
  obtain ⟨hmem, hgrip⟩ := hheld
  have hprogress : ∀ {s'}, ExecStep E i s s' → (s.pc i).isPopping = false →
      ∃ s', Progress E i s s' := by
    intro s' hs hpop
    refine ⟨s', hs, fun hboth => ?_⟩
    rw [hpop] at hboth
    cases hboth.1
  cases hpc : s.pc i with
  | entering | starting | arriving | pushing =>
    rw [hpc] at hgrip
    exact absurd rfl hgrip
  | evicting u sub v => exact hprogress (.evict hpc) (by rw [hpc]; rfl)
  | finishing rest wait =>
    cases rest with
    | nil =>
      rw [hpc] at hmem
      exact absurd hmem List.not_mem_nil
    | cons u rest => exact hprogress (.finish hpc) (by rw [hpc]; rfl)
  | popping call =>
    obtain ⟨stage, hc⟩ := h.custody
    have hfinite : call.finish.isfinite = true := by
      have hrelied := hc.relied i
      rw [hpc] at hrelied
      exact hrelied
    obtain ⟨item, expired, Q, hq⟩ := popRound_at_finish s.queue call hfinite
    refine ⟨_, .popReturns hpc hq, fun hboth => ?_⟩
    rw [ExecState.goto_pc] at hboth
    cases hboth.2
  | reporting rest item =>
    match rest, item with
    | u :: rest, item => exact hprogress (.report hpc) (by rw [hpc]; rfl)
    | [], some u => exact hprogress (.reportedItem hpc) (by rw [hpc]; rfl)
    | [], none =>
      rw [hpc] at hmem
      exact absurd hmem List.not_mem_nil
  | beginning u =>
    cases hb : (s.tasks u).begin with
    | mk b task =>
      cases b with
      | true => exact hprogress (.begins hpc hb) (by rw [hpc]; rfl)
      | false => exact hprogress (.beginsTooLate hpc hb) (by rw [hpc]; rfl)
  | executing u => exact hprogress (.invoke hpc) (by rw [hpc]; rfl)
  | running u p =>
    cases p with
    | pure a => exact hprogress (.engineAnswers (r := .ok a) hpc) (by rw [hpc]; rfl)
    | throw e => exact hprogress (.engineAnswers (r := .error e) hpc) (by rw [hpc]; rfl)
    | op o k => exact hprogress (.engineStep hpc (.op (Or.inl rfl))) (by rw [hpc]; rfl)
  | completing u r => exact hprogress (.completes hpc) (by rw [hpc]; rfl)
  | _ =>
    rw [hpc] at hmem
    exact absurd hmem List.not_mem_nil

theorem Holds.ends (h : Sound s) (hheld : Holds s i t) :
    Acc (fun s₂ s₁ => Delays E i t s₁ s₂) s := by
  have hacc := Pc.acc_below (s.pc i)
  generalize hp : s.pc i = p at hacc
  induction hacc generalizing s with
  | intro p _ ih =>
    subst hp
    refine ⟨_, fun s' hd => ?_⟩
    obtain ⟨hsound, hheld', hbelow⟩ := hd.below h hheld
    exact ih _ hbelow hsound hheld' rfl

theorem Holds.willComplete (h : Sound s) (hheld : Holds s i t) : WillComplete E i t s where
  keeps _ hf hout := (hf.holds h hheld hout).1.1
  ready _ hf hout := (hf.holds h hheld hout).1.ready E (hf.sound h)
  ends := hheld.ends h

end Runtime
end EdgeFort
