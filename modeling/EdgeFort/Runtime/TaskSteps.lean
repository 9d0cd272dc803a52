/-
Custody of the tasks is kept by every step of every thread.
-/
import EdgeFort.Runtime.TaskCustody

namespace EdgeFort
namespace Runtime

open Effect BoundedInferenceQueue

variable {Op : Type} {Res : Op → Type} {W ρ : Type}
variable {E : BoundedInferenceExecutor Op Res W ρ}

namespace Custody

variable {s s' : ExecState Op Res W ρ} {stage : TaskId → Stage ρ} {i : Tid}

theorem fresh_start (w : W) : Custody (E.fresh w) fun _ => .new where
  tasks _ := rfl
  history _ := rfl
  exclusive := by
    have hnil : ∀ place, (E.fresh w).held place = [] := by
      intro place
      match place with
      | none | some (.worker _) | some (.caller _) => rfl
    refine ⟨fun place => ?_, fun place _ t ht => ?_⟩
    · rw [hnil]
      exact List.nodup_nil
    · rw [hnil] at ht
      exact absurd ht List.not_mem_nil
  fits place t ht := by
    match place with
    | none | some (.worker _) | some (.caller _) => exact absurd ht List.not_mem_nil
  kept t ht := absurd ht Bool.false_ne_true
  relied j := by
    match j with
    | .worker _ | .caller _ => trivial
  fresh t _ := ⟨rfl, fun place ht => by
    match place with
    | none | some (.worker _) | some (.caller _) => exact absurd ht List.not_mem_nil⟩

/-- A call makes a task. -/
theorem submit (h : Custody s stage) (hpc : s.pc i = .idle) (sub : Submission) :
    Custody { s.goto i (.entering (.enqueue s.nextTask sub)) with nextTask := s.nextTask + 1 }
      stage := by
  let s' := { s.goto i (.entering (.enqueue s.nextTask sub)) with nextTask := s.nextTask + 1 }
  obtain ⟨hnew, hnowhere⟩ := h.fresh s.nextTask (Nat.le_refl _)
  have hself : s'.pc i = .entering (.enqueue s.nextTask sub) := s.goto_pc
  have hpcne : ∀ j, j ≠ i → s'.pc j = s.pc j := fun j hji => s.goto_pc_of_ne hji
  have hheld : ∀ place, place ≠ some i → s'.held place = s.held place := by
    intro place hplace
    match place with
    | none => rfl
    | some j =>
      show (s'.pc j).tasks = (s.pc j).tasks
      rw [hpcne j fun hji => hplace (congrArg some hji)]
  have hown : s'.held (some i) = [s.nextTask] := by
    show (s'.pc i).tasks = _
    rw [hself]
    rfl
  have hmem : ∀ place t, t ∈ s'.held place → t = s.nextTask ∨ t ∈ s.held place := by
    intro place t ht
    by_cases hplace : place = some i
    · subst hplace
      rw [hown, List.mem_singleton] at ht
      exact Or.inl ht
    · rw [hheld place hplace] at ht
      exact Or.inr ht
  refine ⟨h.tasks, h.history, ?_, fun place t ht => ?_, fun t ht => ?_, fun j => ?_, fun t ht => ?_⟩
  · apply h.exclusive.take hnowhere (i := some i)
    · rw [hown]
      show [s.nextTask] = s.nextTask :: (s.pc i).tasks
      rw [hpc]
      rfl
    · exact hheld
  · by_cases hplace : place = some i
    · subst hplace
      rw [hown, List.mem_singleton] at ht
      subst ht
      show ((s'.pc i).grip).allows _
      rw [hself, hnew]
      trivial
    · rw [hheld place hplace] at ht
      have hgrip : s'.grip place = s.grip place := by
        match place with
        | none => rfl
        | some j =>
          show (s'.pc j).grip = (s.pc j).grip
          rw [hpcne j fun hji => hplace (congrArg some hji)]
      rw [hgrip]
      exact h.fits place t ht
  · obtain ⟨place, hp⟩ := h.kept t ht
    have hplace : place ≠ some i := by
      rintro rfl
      change t ∈ (s.pc i).tasks at hp
      rw [hpc] at hp
      exact absurd hp List.not_mem_nil
    exact ⟨place, (hheld place hplace).symm ▸ hp⟩
  · show (s'.pc j).relies stage
    by_cases hji : j = i
    · subst hji
      rw [hself]
      trivial
    · rw [hpcne j hji]
      exact h.relied j
  · have hle : s.nextTask + 1 ≤ t := ht
    obtain ⟨hnew', hnowhere'⟩ := h.fresh t (Nat.le_of_succ_le hle)
    refine ⟨hnew', fun place hp => ?_⟩
    rcases hmem place t hp with heq | hp
    · rw [heq] at hle
      exact Nat.not_succ_le_self _ hle
    · exact hnowhere' place hp

/-- The workers that are started hold nothing. -/
theorem spawnWorkers (h : Custody s stage) (hunborn : ∀ n, s.pc (.worker n) = .unborn)
    (workers : Nat) : Custody (s.spawnWorkers workers) stage := by
  have hpc : ∀ j, (s.spawnWorkers workers).pc j = s.pc j ∨
      s.pc j = .unborn ∧ (s.spawnWorkers workers).pc j = .looping := by
    intro j
    match j with
    | .caller _ => exact Or.inl rfl
    | .worker n =>
      by_cases hn : n < workers
      · exact Or.inr ⟨hunborn n, if_pos hn⟩
      · exact Or.inl (if_neg hn)
  have hheld : (s.spawnWorkers workers).held = s.held := by
    funext place
    match place with
    | none => rfl
    | some j =>
      show ((s.spawnWorkers workers).pc j).tasks = (s.pc j).tasks
      rcases hpc j with heq | ⟨hold, hnew⟩
      · rw [heq]
      · rw [hold, hnew]
        rfl
  refine ⟨h.tasks, h.history, hheld ▸ h.exclusive, fun place t ht => ?_, fun t ht => ?_,
    fun j => ?_, fun t ht => ?_⟩
  · rw [hheld] at ht
    match place with
    | none => exact h.fits none t ht
    | some j =>
      have hfit := h.fits (some j) t ht
      show (((s.spawnWorkers workers).pc j).grip).allows _
      rcases hpc j with heq | ⟨hold, hnew⟩
      · rw [heq]
        exact hfit
      · change t ∈ (s.pc j).tasks at ht
        rw [hold] at ht
        exact absurd ht List.not_mem_nil
  · rw [hheld]
    exact h.kept t ht
  · rcases hpc j with heq | ⟨_, hnew⟩
    · rw [heq]
      exact h.relied j
    · rw [hnew]
      trivial
  · rw [hheld]
    exact h.fresh t ht

/-- A thread completes a task it holds, and lets go of it. -/
theorem complete (h : Custody s stage) {p : Pc Op Res ρ} {u : TaskId} {o : Outcome ρ}
    (ho : o.isRan = false) (hpc : s'.pc = Function.update s.pc i p)
    (hnext : s'.nextTask = s.nextTask) (hq : s'.queue = s.queue)
    (htasks : s'.tasks = (s.complete u o).tasks) (hhistory : s'.history = (s.complete u o).history)
    (hown : (s.pc i).tasks = u :: p.tasks) (hgrip : (s.pc i).grip = .holding)
    (hgrip' : p.grip = .holding) (hrelies : ∀ stage', (∀ t, (stage t).le (stage' t)) → p.relies stage') :
    ∃ stage', Custody s' stage' := by
  have hq' : s'.queued = s.queued := congrArg (fun Q => Q.items.map WorkItem.payload) hq
  have hfit := h.allowed_own (t := u) (hown ▸ List.mem_cons_self)
  rw [hgrip] at hfit
  cases hu : stage u with
  | new | begun | invoked | ran r =>
    rw [hu] at hfit
    cases hfit
  | waiting =>
    have hout : (s.tasks u).outcome = none := by
      rw [h.tasks u, hu]
      rfl
    have heq : s.complete u o =
        (s.setTask u ((s.tasks u).complete o)).record u (.settled o) := by
      rw [ExecState.complete, hout]
      rfl
    refine ⟨_, h.settle hpc hnext hq' hu ho ?_ ?_ (Or.inr hown) (fun _ => ⟨hgrip', hgrip⟩)
      (hrelies _ fun t => ?_)⟩
    · rw [htasks, heq]
      show Function.update s.tasks u ((s.tasks u).complete o) = _
      rw [h.tasks u, hu]
      rfl
    · rw [hhistory, heq]
      rfl
    · by_cases htu : t = u
      · subst htu
        rw [Function.update_self, hu]
        exact Stage.le_of_live rfl nofun
      · rw [Function.update_of_ne htu]
        exact Stage.le_refl _
  | settled o' ho' =>
    have hout : (s.tasks u).outcome.isSome = true := by
      rw [h.tasks u, hu]
      rfl
    have heq : s.complete u o = s := if_pos hout
    rw [heq] at htasks hhistory
    refine ⟨stage, h.transfer hpc hnext htasks hhistory ?_ ?_ ?_ ?_ (hrelies _ fun t => Stage.le_refl _)⟩
    · rw [hq', hown]
      exact (List.subperm_append_left _).mpr (List.sublist_cons_self u _).subperm
    · exact fun t ht => h.allowed_queued (hq' ▸ ht)
    · intro t ht
      rw [hgrip', ← hgrip]
      exact h.allowed_own (hown ▸ List.mem_cons_of_mem u ht)
    · intro t ht hlive
      rw [hq']
      rcases List.mem_append.mp ht with hmem | hmem
      · exact List.mem_append_left _ hmem
      · rw [hown] at hmem
        rcases List.mem_cons.mp hmem with rfl | hmem
        · rw [hu] at hlive
          cases hlive
        · exact List.mem_append_right _ hmem

/-- Tasks to be completed change places between the queue and the thread. -/
theorem shuffle (h : Custody s stage) {p : Pc Op Res ρ} (hpc : s'.pc = Function.update s.pc i p)
    (hnext : s'.nextTask = s.nextTask) (htasks : s'.tasks = s.tasks)
    (hhistory : s'.history = s.history)
    (hperm : (s'.queued ++ p.tasks).Perm (s.queued ++ (s.pc i).tasks))
    (hgrip : (s.pc i).grip = .holding) (hgrip' : p.grip = .holding) (hrelies : p.relies stage) :
    Custody s' stage := by
  have hall : ∀ t ∈ s'.queued ++ p.tasks, Grip.holding.allows (stage t) := by
    intro t ht
    rcases List.mem_append.mp (hperm.subset ht) with hmem | hmem
    · exact h.allowed_queued hmem
    · rw [← hgrip]
      exact h.allowed_own hmem
  refine h.transfer hpc hnext htasks hhistory hperm.subperm ?_ ?_ ?_ hrelies
  · exact fun t ht => hall t (List.mem_append_left _ ht)
  · intro t ht
    rw [hgrip']
    exact hall t (List.mem_append_right _ ht)
  · exact fun t ht _ => hperm.symm.subset ht

/-- A new task is pushed, and the thread takes what was evicted for it. -/
theorem push (h : Custody s stage) {p : Pc Op Res ρ} {t : TaskId} {n : Nat}
    (hpc : s'.pc = Function.update s.pc i p) (hnext : s'.nextTask = s.nextTask)
    (htasks : s'.tasks = s.tasks)
    (hhistory : s'.history = Function.update s.history t (.admitted :: s.history t))
    (hown : (s.pc i).tasks = [t]) (hgrip : (s.pc i).grip = .creating) (hgrip' : p.grip = .holding)
    (hq : s'.queued = s.queued.drop n ++ [t]) (hp : p.tasks = s.queued.take n)
    (hrelies : ∀ stage' : TaskId → Stage ρ, stage' t ≠ .new → p.relies stage') :
    Custody s' (Function.update stage t .waiting) := by
  have htmem : t ∈ (s.pc i).tasks := hown ▸ List.mem_singleton_self t
  have hnew : stage t = .new := by
    have hfit := h.allowed_own htmem
    rw [hgrip] at hfit
    exact Grip.allows_of_ne hfit nofun
  have hperm : (s'.queued ++ p.tasks).Perm (s.queued ++ (s.pc i).tasks) := by
    rw [hq, hp, hown, List.append_assoc]
    calc (s.queued.drop n ++ ([t] ++ s.queued.take n)).Perm
          (([t] ++ s.queued.take n) ++ s.queued.drop n) := List.perm_append_comm
      _ = [t] ++ (s.queued.take n ++ s.queued.drop n) := List.append_assoc ..
      _ = [t] ++ s.queued := by rw [List.take_append_drop]
      _ |>.Perm (s.queued ++ [t]) := List.perm_append_comm
  have hall : ∀ x ∈ s'.queued ++ p.tasks,
      Grip.holding.allows (Function.update stage t .waiting x) := by
    intro x hx
    by_cases hxt : x = t
    · subst hxt
      rw [Function.update_self]
      trivial
    · rw [Function.update_of_ne hxt]
      rcases List.mem_append.mp (hperm.subset hx) with hmem | hmem
      · exact h.allowed_queued hmem
      · rw [hown, List.mem_singleton] at hmem
        exact absurd hmem hxt
  refine h.move hpc hnext ?_ ?_ ?_ (Or.inr (Or.inl (List.mem_append_right _ htmem)))
    hperm.subperm ?_ ?_ (fun x hx _ => hperm.symm.subset hx) (hrelies _ ?_)
  · rw [htasks]
    have hself : (Stage.waiting (ρ := ρ)).task = s.tasks t := by
      rw [h.tasks t, hnew]
      rfl
    rw [hself, Function.update_eq_self]
  · rw [hhistory, h.history t, hnew]
    rfl
  · rw [hnew]
    exact Stage.le_of_live rfl nofun
  · exact fun x hx => hall x (List.mem_append_left _ hx)
  · intro x hx
    rw [hgrip']
    exact hall x (List.mem_append_right _ hx)
  · rw [Function.update_self]
    nofun

/-- A task that has an outcome is taken out of the queue. -/
theorem remove (h : Custody s stage) {t : TaskId} (hpc : s.pc i = .removing t) :
    Custody ({ s with queue := (s.queue.expirePayload t).2 }.goto i .idle) stage := by
  have hdone : (stage t).task.outcome.isSome = true := by
    have hrelied := h.relied i
    rw [hpc] at hrelied
    exact hrelied
  rcases expirePayload_cases s.queue t with hq | ⟨l₁, item, l₂, hle, hitems, hpayload, hq⟩
  · rw [hq]
    exact h.goto rfl rfl rfl rfl rfl (by rw [hpc]; rfl) (fun hne => absurd rfl hne) trivial
  · have hqueued : s.queued = l₁.map WorkItem.payload ++ t :: l₂.map WorkItem.payload := by
      show s.queue.items.map WorkItem.payload = _
      rw [hitems, List.map_append, List.map_cons, hpayload]
    have hqueued' : ({ s with queue := (s.queue.expirePayload t).2 }.goto i .idle).queued =
        l₁.map WorkItem.payload ++ l₂.map WorkItem.payload := by
      show (s.queue.expirePayload t).2.items.map WorkItem.payload = _
      rw [hq, List.map_append]
    have hsub : (l₁.map WorkItem.payload ++ l₂.map WorkItem.payload).Sublist s.queued := by
      rw [hqueued]
      exact (List.Sublist.refl _).append (List.sublist_cons_self _ _)
    refine h.transfer rfl rfl rfl rfl ?_ ?_ (fun x hx => absurd hx List.not_mem_nil) ?_ trivial
    · rw [hqueued', hpc]
      exact (hsub.append (List.Sublist.refl _)).subperm
    · intro x hx
      rw [hqueued'] at hx
      exact h.allowed_queued (hsub.subset hx)
    · intro x hx hlive
      rw [hpc] at hx
      change x ∈ s.queued ++ [] at hx
      rw [List.append_nil, hqueued, List.mem_append, List.mem_cons] at hx
      rw [hqueued']
      apply List.mem_append_left
      rw [List.mem_append]
      rcases hx with hx | rfl | hx
      · exact Or.inl hx
      · cases hst : stage x <;> simp [hst, Stage.live, Stage.task] at hlive hdone
      · exact Or.inr hx

/-- `expire_if_not_started` or `cancel_if_not_started` has returned `True`. -/
theorem settleIfNotStarted (h : Custody s stage) {t : TaskId} {sub : Submission}
    {o : Outcome ρ} {task : InferenceTask ρ} (hpc : s.pc i = .waiting t sub)
    (ho : o.isRan = false) (ht : (s.tasks t).settleIfNotStarted o = (true, task)) :
    ∃ stage', Custody (((s.setTask t task).record t (.settled o)).goto i (.removing t)) stage' := by
  have hnew : stage t ≠ .new := by
    have hrelied := h.relied i
    rw [hpc] at hrelied
    exact hrelied
  rw [h.tasks t] at ht
  have hwaiting : stage t = .waiting ∧ task = ⟨false, some o⟩ := by
    cases hst : stage t with
    | new => exact absurd hst hnew
    | waiting =>
      rw [hst] at ht
      exact ⟨rfl, (congrArg Prod.snd ht).symm⟩
    | settled | begun | invoked | ran =>
      rw [hst] at ht
      exact absurd (congrArg Prod.fst ht) Bool.false_ne_true
  refine ⟨Function.update stage t (.settled o ho), h.settle (p := .removing t) (i := i) ?_ ?_ ?_
    hwaiting.1 ho ?_ ?_ ?_ ?_ ?_⟩
  · rfl
  · rfl
  · rfl
  · rw [← hwaiting.2]
    rfl
  · rfl
  · rw [hpc]
    exact Or.inl rfl
  · exact fun hne => absurd rfl hne
  · show (Function.update stage t _ t).task.outcome.isSome = true
    rw [Function.update_self]
    rfl

/-- The stage of a task that is not held to be completed. -/
theorem stage_own (h : Custody s stage) {t : TaskId} (ht : t ∈ (s.pc i).tasks)
    (hg : (s.pc i).grip ≠ .holding) :
    stage t = (s.pc i).grip.stage :=
  Grip.allows_of_ne (h.allowed_own ht) hg

/-- `begin` on a task that is held to be run. -/
theorem begin (h : Custody s stage) {t : TaskId} {task : InferenceTask ρ} {b : Bool}
    (hpc : s.pc i = .beginning t) (hb : (s.tasks t).begin = (b, task)) :
    stage t = .waiting ∧ b = true ∧ task = ⟨true, none⟩ ∨ (stage t).live = false ∧ b = false := by
  have hfit := h.allowed_own (i := i) (t := t) (by rw [hpc]; exact List.mem_singleton_self t)
  rw [hpc] at hfit
  rw [h.tasks t] at hb
  cases hst : stage t with
  | new | begun | invoked | ran =>
    rw [hst] at hfit
    cases hfit
  | waiting =>
    rw [hst] at hb
    cases hb
    exact Or.inl ⟨rfl, rfl, rfl⟩
  | settled =>
    rw [hst] at hb
    cases hb
    exact Or.inr ⟨rfl, rfl⟩

theorem step (h : Custody s stage) (hg : Guarded s) (hs : ExecStep E i s s') :
    ∃ stage', Custody s' stage' := by
  cases hs with
  | submit sub hpc => exact ⟨stage, h.submit hpc sub⟩
  | startClosed hpc | startFailed hpc | enqueueClosed hpc =>
    exact ⟨stage, h.abandon rfl rfl rfl rfl rfl (by rw [hpc]; rfl) rfl trivial⟩
  | pushRaised hpc hq | pushRefused hpc hq =>
    obtain ⟨hitems, -⟩ := pushWithEvicted_refused (by simp) hq
    exact ⟨stage, h.abandon rfl rfl rfl rfl (congrArg (List.map WorkItem.payload) hitems)
      (by rw [hpc]; rfl) rfl trivial⟩
  | alreadyStarted hpc =>
    refine ⟨stage, h.goto rfl rfl rfl rfl rfl (by rw [hpc, AfterStart.tasks_pc]; rfl)
      (fun hne => ?_) (AfterStart.relies_pc _ _)⟩
    rw [hpc]
    exact AfterStart.grip_pc _ hne
  | @startDone next hpc =>
    have hunborn : ∀ n, s.pc (.worker n) = .unborn := hg.unborn (Or.inr ⟨i, by rw [hpc]; rfl⟩)
    have hpc' : (s.spawnWorkers E.workers).pc i = .starting (.pure ()) next := by
      cases i with
      | caller n => exact hpc
      | worker n =>
        rw [hunborn n] at hpc
        cases hpc
    refine ⟨stage, (h.spawnWorkers hunborn E.workers).goto rfl rfl rfl rfl rfl
      (by rw [hpc', AfterStart.tasks_pc]; rfl) (fun hne => ?_) (AfterStart.relies_pc _ _)⟩
    rw [hpc']
    exact AfterStart.grip_pc _ hne
  | pushed hpc hq | pushedEvicting hpc hq =>
    obtain ⟨n, hevicted, hitems⟩ := pushWithEvicted_accepted hq
    refine ⟨_, h.push (n := n) rfl rfl rfl rfl (by rw [hpc]; rfl) (by rw [hpc]; rfl) rfl ?_ ?_
      fun _ hne => hne⟩
    · show _ = (s.queue.items.map WorkItem.payload).drop n ++ _
      rw [← List.map_drop]
      exact hitems
    · show _ = (s.queue.items.map WorkItem.payload).take n
      rw [← List.map_take, ← hevicted]
      rfl
  | evict hpc =>
    have hrelied := h.relied i
    rw [hpc] at hrelied
    exact h.complete rfl (s.goto_complete_pc _ _) (s.complete_nextTask _ _)
      (s.complete_queue _ _) rfl rfl (by rw [hpc]; rfl) (by rw [hpc]; rfl) rfl
      fun stage' hle => (hle _).1 hrelied
  | finish hpc | report hpc =>
    exact h.complete rfl (s.goto_complete_pc _ _) (s.complete_nextTask _ _)
      (s.complete_queue _ _) rfl rfl (by rw [hpc]; rfl) (by rw [hpc]; rfl) rfl
      fun _ _ => trivial
  | timerTooLate hpc hd ht =>
    have hrelied := h.relied i
    rw [hpc] at hrelied
    exact ⟨stage, h.goto rfl rfl rfl rfl rfl (by rw [hpc]; rfl) (fun hne => absurd rfl hne) hrelied⟩
  | timerExpires hpc _ ht | cancels hpc _ ht =>
    exact h.settleIfNotStarted hpc rfl ht
  | remove hpc => exact ⟨stage, h.remove hpc⟩
  | drain hpc =>
    refine ⟨stage, h.shuffle rfl rfl rfl rfl ?_ (by rw [hpc]; rfl) rfl trivial⟩
    rw [hpc]
    exact List.perm_append_comm
  | popStart hpc hstart hfinite =>
    refine ⟨stage, h.goto rfl rfl rfl rfl rfl ?_ (fun _ => by rw [hpc]; rfl) hfinite⟩
    rw [hpc, Pc.tasks, startPop_ok hstart]
    rfl
  | popWaits hpc hq =>
    obtain ⟨hfinish, _, hperm⟩ := popRound_waits hq
    have hrelied := h.relied i
    rw [hpc] at hrelied
    refine ⟨stage, h.shuffle rfl rfl rfl rfl ?_ (by rw [hpc]; rfl) rfl ?_⟩
    · rw [hpc]
      have hmap := hperm.map WorkItem.payload
      rw [List.map_append, List.map_append] at hmap
      exact hmap
    · show PyFloat.isfinite _ = true
      rw [hfinish]
      exact hrelied
  | @popReturns call now item expired Q hpc hq =>
    refine ⟨stage, h.shuffle rfl rfl rfl rfl ?_ (by rw [hpc]; rfl) rfl trivial⟩
    rw [hpc]
    have hmap := (popRound_returned hq).2.map WorkItem.payload
    rw [List.map_append, List.map_append, List.map_append] at hmap
    have hitem : (item.map WorkItem.payload).toList = item.toList.map WorkItem.payload := by
      cases item <;> rfl
    show (_ ++ (_ ++ (item.map WorkItem.payload).toList)).Perm _
    rw [hitem]
    exact hmap
  | @begins t task hpc hb =>
    rcases h.begin hpc hb with ⟨hst, _, rfl⟩ | ⟨_, hfalse⟩
    · refine ⟨_, h.advance (σ := .begun) rfl rfl rfl (by rw [hpc]; rfl) rfl ?_ ?_
        (Or.inl ⟨rfl, trivial⟩) trivial⟩
      · show s.history = _
        have hsame : (Stage.begun (ρ := ρ)).history = s.history t := by
          rw [h.history t, hst]
          rfl
        rw [hsame, Function.update_eq_self]
      · rw [hst]
        exact Stage.le_of_live rfl nofun
    · cases hfalse
  | @beginsTooLate t task hpc hb =>
    rcases h.begin hpc hb with ⟨_, htrue, _⟩ | ⟨hdead, _⟩
    · cases htrue
    · refine ⟨_, h.advance (σ := stage t) rfl rfl rfl (by rw [hpc]; rfl) ?_ ?_ (Stage.le_refl _)
        (Or.inr ⟨rfl, hdead⟩) trivial⟩
      · show s.tasks = _
        rw [← h.tasks t, Function.update_eq_self]
      · show s.history = _
        rw [← h.history t, Function.update_eq_self]
  | @invoke t hpc =>
    have hst := h.stage_own (t := t) (by rw [hpc]; exact List.mem_singleton_self t) (by rw [hpc]; nofun)
    rw [hpc] at hst
    refine ⟨_, h.advance (σ := .invoked) rfl rfl rfl (by rw [hpc]; rfl) ?_ ?_ ?_
      (Or.inl ⟨rfl, trivial⟩) trivial⟩
    · show s.tasks = _
      have hsame : (Stage.invoked (ρ := ρ)).task = s.tasks t := by
        rw [h.tasks t, hst]
        rfl
      rw [hsame, Function.update_eq_self]
    · show Function.update s.history t (.invoked :: s.history t) = _
      rw [h.history t, hst]
      rfl
    · rw [hst]
      exact Stage.le_of_live rfl nofun
  | @completes t r hpc =>
    have hst := h.stage_own (t := t) (by rw [hpc]; exact List.mem_singleton_self t) (by rw [hpc]; nofun)
    rw [hpc] at hst
    have htask : s.tasks t = ⟨true, none⟩ := by
      rw [h.tasks t, hst]
      rfl
    have hcomplete : s.complete t (.ran r) =
        (s.setTask t ⟨true, some (.ran r)⟩).record t (.settled (.ran r)) := by
      rw [ExecState.complete, htask]
      rfl
    rw [hcomplete]
    refine ⟨_, h.advance (σ := .ran r) rfl rfl rfl (by rw [hpc]; rfl) rfl ?_ ?_
      (Or.inr ⟨rfl, rfl⟩) trivial⟩
    · show Function.update s.history t (.settled (.ran r) :: s.history t) = _
      rw [h.history t, hst]
      rfl
    · rw [hst]
      exact Stage.le_of_live rfl nofun
  | _ =>
    refine ⟨stage, h.goto rfl rfl rfl rfl rfl (by simp only [*]; rfl) ?_ trivial⟩
    first
      | exact fun hne => absurd rfl hne
      | exact fun _ => by simp only [*]; rfl

end Custody

end Runtime
end EdgeFort
