/-
Every accepted task gets exactly one outcome, and none is lost.
-/
import EdgeFort.Runtime.Completion

namespace EdgeFort
namespace Runtime

open Effect BoundedInferenceQueue

variable {Op : Type} {Res : Op → Type} {W ρ : Type}
variable {E : BoundedInferenceExecutor Op Res W ρ}
variable {s s' : ExecState Op Res W ρ} {i : Tid} {t : TaskId}

/-! ## Reachable states -/

theorem sound_reachable {worlds : W → Prop} (h : (executor E worlds).Reachable s) : Sound s := by
  apply System.invariant Sound ?_ ?_ h
  · rintro s ⟨w, _, rfl⟩
    exact ⟨guarded_fresh w, _, Custody.fresh_start w⟩
  · rintro s s' hs ⟨i, hstep⟩
    exact hs.step hstep

/-! ## After the queue has been drained -/

theorem popRound_accepted (Q : BoundedInferenceQueue TaskId) (call : PopCall TaskId)
    (now : PyFloat) : (Q.popRound call now).2.accepted = Q.accepted := by
  obtain ⟨_, _, _, _, hQ, _⟩ := popRound_cases Q call now
  rw [hQ]
  rfl

theorem expirePayload_accepted (Q : BoundedInferenceQueue TaskId) (t : TaskId) :
    (Q.expirePayload t).2.accepted = Q.accepted := by
  rcases expirePayload_cases Q t with hq | ⟨_, _, _, _, _, _, hq⟩ <;> rw [hq]

/-- The queue counts no new item, and no task is newly admitted. -/
def AdmitsNothing (s s' : ExecState Op Res W ρ) : Prop :=
  s'.queue.accepted = s.queue.accepted ∧
    ∀ t, .admitted ∈ s'.history t → .admitted ∈ s.history t

theorem AdmitsNothing.of_event {u : TaskId} {e : TaskEvent ρ} (hq : s'.queue = s.queue)
    (hhistory : s'.history = Function.update s.history u (e :: s.history u))
    (he : e ≠ .admitted) : AdmitsNothing s s' := by
  refine ⟨by rw [hq], fun t ht => ?_⟩
  rw [hhistory] at ht
  by_cases htu : t = u
  · subst htu
    rw [Function.update_self] at ht
    exact (List.mem_cons.mp ht).resolve_left (Ne.symm he)
  · rwa [Function.update_of_ne htu] at ht

theorem AdmitsNothing.of_complete {u : TaskId} {o : Outcome ρ} (hq : s'.queue = s.queue)
    (hhistory : s'.history = (s.complete u o).history) : AdmitsNothing s s' := by
  unfold ExecState.complete at hhistory
  split at hhistory
  · exact ⟨by rw [hq], fun t ht => hhistory ▸ ht⟩
  · exact .of_event hq hhistory nofun

theorem step_drained (hg : Guarded s) (hs : ExecStep E i s s') (hd : s.drained = true) :
    s'.drained = true ∧ AdmitsNothing s s' := by
  have hpushing : ∀ {t sub}, s.pc i ≠ .pushing t sub := by
    intro t sub hpc
    have hopen := hg.admitting i (by rw [hpc]; rfl)
    rw [hg.drained hd] at hopen
    cases hopen
  cases hs with
  | pushRaised hpc | pushRefused hpc | pushed hpc | pushedEvicting hpc => exact absurd hpc hpushing
  | evict => exact ⟨(s.complete_drained _ _).trans hd, .of_complete (s.complete_queue _ _) rfl⟩
  | finish | report | completes =>
    exact ⟨(s.complete_drained _ _).trans hd, .of_complete (s.complete_queue _ _) rfl⟩
  | timerExpires | cancels | invoke => exact ⟨hd, .of_event rfl rfl nofun⟩
  | remove => exact ⟨hd, expirePayload_accepted s.queue _, fun _ => id⟩
  | drain => exact ⟨rfl, rfl, fun _ => id⟩
  | @popWaits call now _ Q _ hq | @popReturns call now _ _ Q _ hq =>
    have haccepted := popRound_accepted s.queue call now
    rw [hq] at haccepted
    exact ⟨hd, haccepted, fun _ => id⟩
  | _ => exact ⟨hd, rfl, fun _ => id⟩

theorem Follows.drained (hf : Follows E s s') (h : Sound s) (hd : s.drained = true) :
    s'.drained = true ∧ AdmitsNothing s s' := by
  induction hf with
  | refl => exact ⟨hd, rfl, fun _ => id⟩
  | @tail s₁ s₂ hf hs ih =>
    have hsound : Sound s₁ := Follows.sound hf h
    obtain ⟨i, hs⟩ := hs
    obtain ⟨hd₂, haccepted, hadmitted⟩ := step_drained hsound.guarded hs ih.1
    exact ⟨hd₂, haccepted.trans ih.2.1, fun t ht => ih.2.2 t (hadmitted t ht)⟩

/-! ## The law of tasks -/

def TaskEvent.outcome? : TaskEvent ρ → Option (Outcome ρ)
  | settled o => some o
  | _ => none

def TaskEvent.isInvoked : TaskEvent ρ → Bool
  | invoked => true
  | _ => false

/-- What holds of task `t` in state `s` and from there on. -/
structure TaskLaw (E : BoundedInferenceExecutor Op Res W ρ) (s : ExecState Op Res W ρ)
    (t : TaskId) : Prop where
  /-- the outcome has been set once, or not at all -/
  settledOnce : (s.history t).filterMap TaskEvent.outcome? = (s.tasks t).outcome.toList
  outcomeStays : ∀ s' o, Follows E s s' → (s.tasks t).outcome = some o →
    (s'.tasks t).outcome = some o
  invokedOnce : (s.history t).countP TaskEvent.isInvoked ≤ 1
  /-- the engine is not invoked for a task that has an outcome -/
  invokedFirst : ∀ later earlier, s.history t = later ++ .invoked :: earlier →
    earlier.filterMap TaskEvent.outcome? = []
  /-- the outcome of a task that has begun is the engine's -/
  begunIsRun : ∀ s' o, Follows E s s' → (s.tasks t).started = true →
    (s'.tasks t).outcome = some o → o.isRan = true
  /-- an accepted task without an outcome is in one place -/
  pending : .admitted ∈ s.history t → (s.tasks t).outcome = none →
    (t ∈ s.queued ∧ ∀ i, t ∉ (s.pc i).tasks) ∨
    (t ∉ s.queued ∧ ∃ i, t ∈ (s.pc i).tasks ∧ (∀ j, t ∈ (s.pc j).tasks → j = i) ∧
      WillComplete E i t s)

theorem Stage.live_of_admitted {σ : Stage ρ} (h : .admitted ∈ σ.history)
    (hout : σ.task.outcome = none) : σ.live = true := by
  cases σ with
  | new => exact absurd h List.not_mem_nil
  | waiting | begun | invoked => rfl
  | settled | ran => cases hout

theorem Stage.isRan_of_started {σ : Stage ρ} {o : Outcome ρ} (h : σ.task.started = true)
    (ho : σ.task.outcome = some o) : o.isRan = true := by
  cases σ with
  | new | waiting | settled => cases h
  | begun | invoked => cases ho
  | ran r =>
    cases ho
    rfl

theorem Stage.invoked_once {σ : Stage ρ} : σ.history.countP TaskEvent.isInvoked ≤ 1 := by
  cases σ with
  | new | waiting | settled | begun => exact Nat.zero_le 1
  | invoked | ran => exact Nat.le_refl 1

theorem Stage.invoked_first {σ : Stage ρ} {later earlier : List (TaskEvent ρ)}
    (h : σ.history = later ++ .invoked :: earlier) :
    earlier.filterMap TaskEvent.outcome? = [] := by
  have hsuffix : earlier = [.admitted] := by
    cases σ <;> simp [history, List.cons_eq_append_iff] at h <;> exact h.2
  rw [hsuffix]
  rfl

theorem Sound.taskLaw (E : BoundedInferenceExecutor Op Res W ρ) (h : Sound s) (t : TaskId) :
    TaskLaw E s t := by
  obtain ⟨stage, hc⟩ := h.custody
  constructor
  · rw [hc.history t, hc.tasks t]
    cases stage t <;> rfl
  · exact fun s' o hf => hf.outcome
  · rw [hc.history t]
    exact Stage.invoked_once
  · intro later earlier heq
    rw [hc.history t] at heq
    exact Stage.invoked_first heq
  · intro s' o hf hstarted hout
    obtain ⟨stage', hc'⟩ := (hf.sound h).custody
    have hstarted' := hf.started hstarted
    rw [hc'.tasks t] at hstarted' hout
    exact Stage.isRan_of_started hstarted' hout
  · intro hadmitted hout
    rw [hc.history t] at hadmitted
    rw [hc.tasks t] at hout
    have hlive := Stage.live_of_admitted hadmitted hout
    obtain ⟨place, hplace⟩ := hc.kept t hlive
    match place with
    | none =>
      left
      refine ⟨hplace, fun i hi => ?_⟩
      have := hc.exclusive.unique none (some i) t hplace hi
      cases this
    | some i =>
      right
      refine ⟨fun hq => ?_, i, hplace, fun j hj => ?_, ?_⟩
      · have := hc.exclusive.unique none (some i) t hq hplace
        cases this
      · exact Option.some.inj (hc.exclusive.unique (some j) (some i) t hj hplace)
      · refine Holds.willComplete h ⟨hplace, fun hgrip => ?_⟩
        have hst := hc.stage_own hplace (by rw [hgrip]; nofun)
        rw [hst, hgrip] at hlive
        cases hlive

/-- In every run: each task obeys the law, and nothing is admitted once `close` has
drained the queue. -/
theorem tasks_settle_once (E : BoundedInferenceExecutor Op Res W ρ) (worlds : W → Prop)
    {s : ExecState Op Res W ρ} (h : (executor E worlds).Reachable s) :
    (∀ t, TaskLaw E s t) ∧
      (s.drained = true → ∀ s', Follows E s s' → AdmitsNothing s s') :=
  ⟨(sound_reachable h).taskLaw E, fun hd _ hf => (hf.drained (sound_reachable h) hd).2⟩

/-- An engine that answers every task with its number. -/
def echoExecutor : BoundedInferenceExecutor Unit (fun _ => Unit) Unit Nat where
  sem := { exec := fun _ w => (.ok (), w), fault := fun _ _ _ => False }
  capacity := 1
  policy := .dropOldest
  capacity_pos := Nat.one_pos
  workers := 1
  startRunners := .pure ()
  predict _ t := .pure t
  makeReady := .pure ()
  closeRunners := .pure ()

/-- The second of two tasks evicts the first. -/
theorem echo_reachable : ∃ s, (executor echoExecutor fun _ => True).Reachable s ∧
    s.history 0 = [.admitted] ∧ s.queued = [1] := by
  have h₀ : (executor echoExecutor fun _ => True).Reachable (echoExecutor.fresh ()) :=
    .initial ⟨(), trivial, rfl⟩
  have h₁ := h₀.step ⟨.caller 0, .submit ⟨none, false⟩ rfl⟩
  have h₂ := h₁.step ⟨.caller 0, .start rfl rfl rfl rfl⟩
  have h₃ := h₂.step ⟨.caller 0, .startDone rfl⟩
  have h₄ := h₃.step ⟨.caller 0, .enqueue rfl rfl rfl⟩
  have h₅ := h₄.step ⟨.caller 0, .pushed rfl
    (show pushWithEvicted _ (.finite 0) _ _ = _ from rfl)⟩
  have h₆ := h₅.step ⟨.caller 1, .submit ⟨none, false⟩ rfl⟩
  have h₇ := h₆.step ⟨.caller 1, .alreadyStarted rfl rfl rfl rfl⟩
  have h₈ := h₇.step ⟨.caller 1, .enqueue rfl rfl rfl⟩
  have h₉ := h₈.step ⟨.caller 1, .pushedEvicting rfl
    (show pushWithEvicted _ (.finite 0) _ _ = _ from rfl)⟩
  exact ⟨_, h₉, rfl, rfl⟩

theorem tasks_settle_once_echo : ∃ s : ExecState Unit (fun _ => Unit) Unit Nat,
    s.history 0 = [.admitted] ∧ s.queued = [1] ∧ TaskLaw echoExecutor s 0 := by
  obtain ⟨s, h, hadmitted, hqueued⟩ := echo_reachable
  exact ⟨s, hadmitted, hqueued, (tasks_settle_once echoExecutor _ h).1 0⟩

end Runtime
end EdgeFort
