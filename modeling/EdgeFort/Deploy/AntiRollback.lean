/-
Anti-rollback over whole runs, read off the states `state.json` has held.

A commit is a write with status `active`, a rollback one with status
`rolled_back`; a refused candidate is recorded with status `failed`.
-/
import EdgeFort.Deploy.CrashAtomicity

namespace EdgeFort
namespace Deploy

open Effect ABDeployer

/-! ## What a history says -/

/-- The versions deployments have committed, newest first. -/
def committedVersions (history : List DeploymentState) : List PyStr :=
  history.filterMap fun st => if st.status = .active then activeVersionOf st else none

def sequenceOf (D : ABDeployer) (v : PyStr) : Option Int :=
  (D.canonicalManifest v).toOption.map fun m => m.releaseSequence

/-- The release sequences deployments have committed, newest first. -/
def committedSequences (D : ABDeployer) (history : List DeploymentState) : List Int :=
  (committedVersions history).filterMap (sequenceOf D)

/-- The versions that have been active, newest first. -/
def activations (history : List DeploymentState) : List PyStr :=
  history.filterMap fun st =>
    if st.status = .active ∨ st.status = .rolledBack then activeVersionOf st else none

variable {D : ABDeployer} {P : Provenance} {s s' : Sys} {st st' L : DeploymentState}
  {past states : List DeploymentState} {w w' w'' : World}

theorem activeVersionOf_committed {v : PyStr} {seq : Int} :
    activeVersionOf (st.committed v seq) = some v := by
  simp [activeVersionOf, DeploymentState.committed, DeploymentState.promoted]

theorem activeVersionOf_rolledBack {t : Slot} :
    activeVersionOf (st.rolledBack t) = st.slots.get t := rfl

section
variable {v : PyStr} {m : ArtifactManifest} {e : PyError} {t : Slot}

theorem committedSequences_failed :
    committedSequences D (st.failed e :: past) = committedSequences D past := by
  simp [committedSequences, committedVersions, DeploymentState.failed]

theorem committedSequences_rolledBack :
    committedSequences D (st.rolledBack t :: past) = committedSequences D past := by
  simp [committedSequences, committedVersions, DeploymentState.rolledBack]

theorem committedSequences_committed (hm : D.canonicalManifest v = .ok m) :
    committedSequences D (st.committed v m.releaseSequence :: past) =
      m.releaseSequence :: committedSequences D past := by
  have hstatus : (st.committed v m.releaseSequence).status = .active := rfl
  simp [committedSequences, committedVersions, activeVersionOf_committed, hstatus, sequenceOf, hm,
    Except.toOption]

end

/-! ## Lineages -/

/-- The states of a lineage are well-formed. -/
theorem Lineage.wellFormed (h : Lineage D P states) : ∀ st ∈ states, st.WellFormed := by
  induction h with
  | initial =>
    intro st hst
    rw [List.mem_singleton.mp hst]
    exact DeploymentState.initial_wellFormed
  | step _ hsucc ih =>
    intro x hx
    rcases List.mem_cons.mp hx with rfl | hx
    · have hst := ih _ List.mem_cons_self
      cases hsucc with
      | failed e => exact DeploymentState.failed_wellFormed hst e
      | committed hm _ _ => exact committed_wellFormed hst hm
      | rolledBack hs => exact DeploymentState.rolledBack_wellFormed hst hs
    · exact ih x hx

/-- The floor is the largest sequence committed so far. -/
theorem Lineage.floor_eq (h : Lineage D P (st :: past)) :
    st.highestReleaseSequence = (committedSequences D (st :: past)).foldr max (-1) := by
  generalize hh : st :: past = states at h
  induction h generalizing st past with
  | initial =>
    obtain ⟨rfl, rfl⟩ := List.cons.inj hh
    rfl
  | @step older newer rest _ hsucc ih =>
    obtain ⟨rfl, rfl⟩ := List.cons.inj hh
    have hold := ih rfl
    cases hsucc with
    | failed e => rwa [committedSequences_failed]
    | rolledBack _ => rwa [committedSequences_rolledBack]
    | committed hm _ _ =>
      rw [committedSequences_committed hm, List.foldr_cons, ← hold]
      exact Int.max_comm _ _

theorem le_foldr_max {xs : List Int} {x b : Int} (h : x ∈ xs) : x ≤ xs.foldr max b := by
  induction xs with
  | nil => cases h
  | cons y ys ih =>
    rw [List.foldr_cons]
    rcases List.mem_cons.mp h with rfl | h
    · exact Int.le_max_left _ _
    · exact Int.le_trans (ih h) (Int.le_max_right _ _)

theorem Lineage.committed_le (h : Lineage D P (st :: past)) {q : Int}
    (hq : q ∈ committedSequences D (st :: past)) : q ≤ st.highestReleaseSequence :=
  h.floor_eq ▸ le_foldr_max hq

/-- With an anchor each commit exceeds every commit before it. -/
theorem Lineage.committed_strict (h : Lineage D P states) (ha : D.anchored = true) :
    (committedSequences D states).Pairwise (· > ·) := by
  induction h with
  | initial => exact List.Pairwise.nil
  | step hlin hsucc ih =>
    cases hsucc with
    | failed e => rwa [committedSequences_failed]
    | rolledBack _ => rwa [committedSequences_rolledBack]
    | committed hm hlt _ =>
      rw [committedSequences_committed hm]
      exact List.pairwise_cons.mpr
        ⟨fun q hq => Int.lt_of_le_of_lt (hlin.committed_le hq) (hlt ha), ih⟩

/-- The active version is the newest activation, and the previous slot holds the
one before it. -/
theorem Lineage.activations_eq (h : Lineage D P (st :: past)) :
    (activations (st :: past)).head? = activeVersionOf st ∧
      (activations (st :: past))[1]? = st.previousSlot.bind st.slots.get := by
  generalize hh : st :: past = states at h
  induction h generalizing st past with
  | initial =>
    obtain ⟨rfl, rfl⟩ := List.cons.inj hh
    exact ⟨rfl, rfl⟩
  | @step older newer rest hlin hsucc ih =>
    obtain ⟨rfl, rfl⟩ := List.cons.inj hh
    obtain ⟨hhead, hnext⟩ := ih rfl
    have hwf := hlin.wellFormed older List.mem_cons_self
    have hcons : ∀ v, st.status = .active ∨ st.status = .rolledBack →
        activeVersionOf st = some v →
        activations (st :: older :: rest) = v :: activations (older :: rest) := fun v hs hv => by
      simp [activations, hs, hv]
    cases hsucc with
    | failed e =>
      have : activations (older.failed e :: older :: rest) = activations (older :: rest) := by
        simp [activations, DeploymentState.failed]
      rw [this]
      exact ⟨hhead, hnext⟩
    | @committed v m hm _ _ =>
      rw [hcons v (Or.inl rfl) activeVersionOf_committed]
      refine ⟨by simp [activeVersionOf_committed], ?_⟩
      rw [List.getElem?_cons_succ, ← List.head?_eq_getElem?, hhead]
      cases ha : older.activeSlot with
      | none => simp [activeVersionOf, DeploymentState.committed, DeploymentState.promoted, ha]
      | some a =>
        have hne : a ≠ Slot.inactive (some a) := fun heq =>
          Slot.inactive_ne (some a) (congrArg some heq)
        simp [activeVersionOf, DeploymentState.committed, DeploymentState.promoted, ha,
          Slots.get_set, hne]
    | @rolledBack t ht =>
      obtain ⟨v, hv⟩ := Option.ne_none_iff_exists'.mp (hwf.previous t ht)
      rw [hcons v (Or.inr rfl) hv]
      refine ⟨by simp [activeVersionOf_rolledBack, hv], ?_⟩
      rw [List.getElem?_cons_succ, ← List.head?_eq_getElem?, hhead]
      cases ha : older.activeSlot <;>
        simp [activeVersionOf, DeploymentState.rolledBack, ha]

theorem Lineage.generation_lt (h : Lineage D P (st' :: st :: past)) :
    st'.generation = st.generation + 1 := by
  cases h with
  | step _ hsucc => cases hsucc <;> rfl

/-! ## Runs -/

/-- The history is what `state.json` has held. -/
theorem Recoverable.history (h : Recoverable D P w L) :
    durableState w = w.history.head? ∧ (w.history = [] ∨ Lineage D P w.history) := by
  rcases h with ⟨h, _⟩ | ⟨st, hd, _⟩
  · rw [h.history]
    exact ⟨by simp [durableState, h.state], Or.inl rfl⟩
  · obtain ⟨past, hpast⟩ := hd.history
    exact ⟨by rw [hd.durableState, hpast]; rfl, Or.inr hd.lineage⟩

theorem Recoverable.lineage (h : Recoverable D P w L) (hst : durableState w = some st) :
    ∃ past, w.history = st :: past ∧ Lineage D P (st :: past) := by
  obtain ⟨hhead, hlin⟩ := h.history
  rw [hst] at hhead
  obtain ⟨past, hpast⟩ := List.head?_eq_some_iff.mp hhead.symm
  rw [hpast] at hlin
  exact ⟨past, hpast, hlin.resolve_left nofun⟩

/-- Nothing is ever taken out of the history. -/
theorem exec_history (o : Op) (w : World) : w.history <:+ (exec o w).2.history := by
  cases o <;> simp only [exec, rename] <;> (repeat' split) <;>
    first | exact List.suffix_refl _ | exact List.suffix_append _ _

theorem steps_history {p q : Cmd Unit} (h : sem.Steps (p, w) (q, w')) :
    w.history <:+ w'.history := by
  suffices ∀ c : Cmd Unit × World, sem.Steps (p, w) c → w.history <:+ c.2.history from this _ h
  intro c hc
  induction hc with
  | refl => exact List.suffix_refl _
  | tail _ hs ih =>
    refine ih.trans ?_
    cases hs with
    | op hx =>
      rcases hx with rfl | hx
      · exact exec_history _ _
      · cases hx <;> exact List.suffix_refl _

theorem Restart.history (h : Restart D w w') : w.history <:+ w'.history := by
  induction h with
  | finished order hf => exact steps_history hf
  | cut order hc _ ih =>
    obtain ⟨_, hc⟩ := hc
    exact (steps_history hc).trans ih

theorem committedSequences_append (xs ys : List DeploymentState) :
    committedSequences D (xs ++ ys) = committedSequences D xs ++ committedSequences D ys := by
  simp [committedSequences, committedVersions]

/-- A restart writes nothing over the state it recovers. -/
theorem Restart.history_eq (h : Restart D w w') (hr : Recoverable D P w L)
    (hst : durableState w = some L) : w'.history = w.history := by
  have hpoint : ∀ {w₀ w₁ : World}, Recoverable D P w₀ L → durableState w₀ = some L →
      ConstructPoint D P L w₀ w₁ → w₁.history = w₀.history ∧ durableState w₁ = some L := by
    intro w₀ w₁ hr₀ hst₀ hc
    obtain ⟨past, hpast, _⟩ := hr₀.lineage hst₀
    have hh : w₁.history = w₀.history := by
      rcases hc.history with hh | hh
      · exact hh
      · rw [hpast] at hh
        rcases hc.recoverable.history.2 with hn | hlin
        · exact absurd (hn.symm.trans hh) nofun
        · have := (hh ▸ hlin).generation_lt
          omega
    refine ⟨hh, ?_⟩
    rw [hc.recoverable.history.1, hh, hpast]
    rfl
  induction h with
  | finished order hf =>
    exact (hpoint hr hst (wp_cutAt (wp_construct order hr) hf.cutAt)).1
  | cut order hc _ ih =>
    have hc := wp_cutAt (wp_construct order hr) hc
    obtain ⟨hh, hst₁⟩ := hpoint hr hst hc
    exact (ih hc.recoverable hst₁).trans hh

/-- Without an anchor there is no journal, so the state on disk is the logical one. -/
theorem Recoverable.durable_eq (h : Recoverable D P w L) (ha : D.anchored = false)
    (hh : w.history ≠ []) : durableState w = some L := by
  obtain ⟨st, hd, hphase⟩ := h.durable hh
  have hno : ∀ {j}, ¬Journal D w j := fun hj => nomatch ha.symm.trans hj.anchored
  cases hphase with
  | quiet => exact hd.durableState
  | prepared hj => exact (hno hj.toJournal).elim
  | advanced hj => exact (hno hj.toJournal).elim
  | committed hj => exact (hno hj.toJournal).elim

/-! ## One point of a run -/

/-- The programs a deployment system may run next. -/
inductive Runs (D : ABDeployer) (s : Sys) : Cmd Unit → Prop
  | construct (order : Order) : s.alive = false → Runs D s (D.construct order)
  | request (req : Request) : s.alive = true → Runs D s (req.program D)

/-- A program of a run leaves a recoverable directory wherever it is cut. -/
theorem LifecycleInv.point {p : Cmd Unit} (h : LifecycleInv D s) (hp : Runs D s p)
    (hc : sem.CutAt p s.world w') : ∃ P L, Recoverable D P w' L := by
  cases hp with
  | construct order _ =>
    obtain ⟨L, hrec⟩ := h.recoverable
    exact ⟨_, L, (wp_cutAt (wp_construct order hrec) hc).recoverable⟩
  | request req ha =>
    obtain ⟨_, _, L', _, _, hr, _⟩ := wp_cutAt (h.request ha req) hc
    exact ⟨_, L', hr⟩

/-- The floor in `state.json`, before the first state that of an empty root. -/
def durableFloor (w : World) : Int :=
  match durableState w with
  | some st => st.highestReleaseSequence
  | none => -1

/-- The registry's sequences of the populated slots do not exceed the floor. -/
def SlotsBounded (D : ABDeployer) (st : DeploymentState) : Prop :=
  ∀ t v, st.slots.get t = some v →
    ∃ m, D.canonicalManifest v = .ok m ∧ m.releaseSequence ≤ st.highestReleaseSequence

theorem Verifies.canonical {n : Node} {v : PyStr} (h : Verifies D n v) :
    ∃ m, D.canonicalManifest v = .ok m := by
  obtain ⟨m, hm⟩ := h
  obtain ⟨c, hc, _⟩ := verifiedDirectoryManifest_canonical hm
  exact ⟨c, hc⟩

theorem SlotSafe.canonical {active : Prop} {v : PyStr} {final backup : Node}
    (h : SlotSafe D active (some v) final backup) : ∃ m, D.canonicalManifest v = .ok m := by
  rcases h with h | h
  · exact h.1.canonical
  · exact h.2.2.canonical

theorem Phase.canonical {t : Slot} {v : PyStr} (h : Phase D P w st L)
    (hv : st.slots.get t = some v) : ∃ m, D.canonicalManifest v = .ok m := by
  have hsafe : SlotsSafe D w st → ∃ m, D.canonicalManifest v = .ok m := fun hs => by
    have := hs t
    rw [hv] at this
    exact this.canonical
  cases h with
  | quiet h => exact hsafe h.safe
  | prepared h => exact hsafe h.safe
  | committed h => exact hsafe h.safe
  | @advanced j h =>
    by_cases ht : t = j.targetSlot
    · subst ht
      have hb := h.backup
      rw [hv] at hb
      exact Verifies.canonical hb
    · have hs := h.safe t ht
      rw [hv] at hs
      exact hs.canonical

theorem Recoverable.slotsBounded (h : Recoverable D P w L) (hst : durableState w = some st) :
    SlotsBounded D st := by
  intro t v hv
  rcases h with ⟨h, _⟩ | ⟨d, hd, hphase⟩
  · simp [durableState, h.state] at hst
  · obtain rfl := Option.some.inj (hd.durableState.symm.trans hst)
    obtain ⟨m, hm⟩ := hphase.canonical hv
    exact ⟨m, hm, hd.sequences t v m hv hm⟩

/-- The durable floor is the largest sequence committed so far. -/
theorem Recoverable.floor_eq (h : Recoverable D P w L) :
    durableFloor w = (committedSequences D w.history).foldr max (-1) := by
  cases hst : durableState w with
  | none =>
    have hnil : w.history = [] := List.head?_eq_none_iff.mp (h.history.1.symm.trans hst)
    rw [durableFloor, hst, hnil]
    rfl
  | some st =>
    obtain ⟨past, hpast, hlin⟩ := h.lineage hst
    rw [durableFloor, hst, hpast]
    exact hlin.floor_eq

theorem foldr_max_append_le (xs ys : List Int) (b : Int) :
    xs.foldr max b ≤ (ys ++ xs).foldr max b := by
  induction ys with
  | nil => exact Int.le_refl _
  | cons y ys ih => exact Int.le_trans ih (Int.le_max_right _ _)

theorem Recoverable.floor_le {P' : Provenance} {L' : DeploymentState}
    (h : Recoverable D P w L) (h' : Recoverable D P' w' L') (hh : w.history <:+ w'.history) :
    durableFloor w ≤ durableFloor w' := by
  obtain ⟨new, hnew⟩ := hh
  rw [h.floor_eq, h'.floor_eq, ← hnew, committedSequences_append]
  exact foldr_max_append_le _ _ _

/-! ## Deployments -/

/-- Whatever a deployment and the recoveries after it commit is newer than
everything committed before. -/
theorem LifecycleInv.deploy_newer {args : DeployArgs} (h : LifecycleInv D s)
    (ha : s.alive = true) (hargs : args.allowDowngrade = false ∨ D.anchored = true)
    (hc : sem.CutAt ((Request.deploy args).program D) s.world w)
    (hr : w' = w ∨ Restart D w w') :
    ∃ new, committedSequences D w'.history = new ++ committedSequences D s.world.history ∧
      ∀ q ∈ new, ∀ q' ∈ committedSequences D s.world.history, q' < q := by
  obtain ⟨hh, L, L', hL, hdur, hrec, hp⟩ := wp_cutAt (h.request ha (.deploy args)) hc
  cases hanch : D.anchored with
  | true =>
    have hsuffix : s.world.history <:+ w'.history := by
      obtain ⟨_, hc⟩ := hc
      rcases hr with rfl | hr
      · exact steps_history hc
      · exact (steps_history hc).trans hr.history
    have hrec' : Recoverable D (Qualified D ((Request.deploy args).logged s.world ++ s.calls))
        w' L' := by
      rcases hr with rfl | hr
      · exact hrec
      · exact (hr.settled hrec).toCalm.recoverable
    obtain ⟨pre, hpre⟩ := hsuffix
    have heq := committedSequences_append (D := D) pre s.world.history
    rw [hpre] at heq
    refine ⟨_, heq, fun q hq q' hq' => ?_⟩
    have hstrict : (committedSequences D w'.history).Pairwise (· > ·) := by
      rcases hrec'.history.2 with hn | hlin
      · rw [hn]
        exact List.Pairwise.nil
      · exact hlin.committed_strict hanch
    rw [heq] at hstrict
    exact (List.pairwise_append.mp hstrict).2.2 q hq q' hq'
  | false =>
    have heq : w'.history = w.history := by
      rcases hr with rfl | hr
      · rfl
      · exact hr.history_eq hrec (hrec.durable_eq hanch hh)
    rw [heq]
    cases hp with
    | same hhist _ => exact ⟨[], by rw [hhist]; rfl, nofun⟩
    | failed e _ hhist _ => exact ⟨[], by rw [hhist, committedSequences_failed]; rfl, nofun⟩
    | advanced _ _ ha' => exact nomatch hanch.symm.trans ha'
    | renamed hcom hhist =>
      obtain ⟨m, hadm, rfl⟩ := hcom
      refine ⟨[m.releaseSequence], by
        rw [hhist, committedSequences_committed hadm.canonical]; rfl, fun q hq q' hq' => ?_⟩
      obtain rfl := List.mem_singleton.mp hq
      have hlt := checkSequence_lt hadm.sequence hargs.symm
      have hdur := hL.durable_eq hanch (h.started ha)
      obtain ⟨past, hpast, hlin⟩ := hL.lineage hdur
      rw [hpast] at hq'
      exact Int.lt_of_le_of_lt (hlin.committed_le hq') hlt

/-! ## Rollbacks -/

/-- `new` makes active what was active before, and changes no slot and no floor. -/
structure SwapsBack (st new : DeploymentState) (past : List DeploymentState) : Prop where
  slots : new.slots = st.slots
  floor : new.highestReleaseSequence = st.highestReleaseSequence
  active : ∃ current before older, activations (st :: past) = current :: before :: older ∧
    activeVersionOf st = some current ∧ activeVersionOf new = some before

theorem Lineage.swapsBack {t : Slot} (h : Lineage D P (st :: past)) (ht : st.previousSlot = some t) :
    SwapsBack st (st.rolledBack t) past where
  slots := rfl
  floor := rfl
  active := by
    obtain ⟨hhead, hnext⟩ := h.activations_eq
    have hwf := h.wellFormed st List.mem_cons_self
    obtain ⟨before, hbefore⟩ := Option.ne_none_iff_exists'.mp (hwf.previous t ht)
    rw [ht, Option.bind_some, hbefore] at hnext
    cases hacts : activations (st :: past) with
    | nil => simp [hacts] at hnext
    | cons current rest =>
      cases rest with
      | nil => simp [hacts] at hnext
      | cons x older =>
        rw [hacts] at hhead hnext
        obtain rfl := Option.some.inj hnext
        exact ⟨current, x, older, rfl, hhead.symm, hbefore⟩

/-- A rollback swaps back, or changes nothing on disk. -/
theorem LifecycleInv.rollback {loadRuntime : Bytes → ArtifactManifest → Except PyError Unit}
    (h : LifecycleInv D s) (ha : s.alive = true)
    (hc : sem.CutAt ((Request.rollback loadRuntime).program D) s.world w') :
    Untouched s.world s.world.history w' ∨
      ∃ st past new, durableState s.world = some st ∧ s.world.history = st :: past ∧
        SwapsBack st new past ∧ Untouched s.world (new :: s.world.history) w' := by
  rcases h.alive ha with ⟨st, hcalm, hready⟩ | ⟨hanch, hself, hreq⟩
  · cases wp_cutAt_map (wp_rollback hcalm hready) hc with
    | before _ _ hu => exact Or.inl hu
    | swapped ht _ _ hu =>
      obtain ⟨past, hpast, hlin⟩ :=
        hcalm.recoverable.lineage hcalm.toDurable.durableState
      exact Or.inr ⟨st, past, _, hcalm.toDurable.durableState, hpast, hlin.swapsBack ht, hu⟩
  · obtain ⟨L, hrec⟩ := h.recoverable
    obtain ⟨st, hd, _⟩ := hrec.durable (h.started ha)
    have hr := wp_cutAt_map (wp_rollback_refused hd.state hd.wellFormed hself hanch
      (Calm.agrees_of_not hreq)) hc
    exact Or.inl ⟨hr.history, hr.floor, fun t => by rw [hr.node]⟩

/-! ## The theorem -/

/-- At every point of every run the floor in `state.json` is the largest sequence
committed so far, and bounds the populated slots; it never decreases.  A
deployment that may not downgrade commits only what is newer than everything
committed before, and a rollback swaps back to the version that was active
before the current one. -/
theorem anti_rollback (h : (lifecycle D).Reachable s) :
    (∀ p, Runs D s p → ∀ q w, sem.Steps (p, s.world) (q, w) →
      durableState w = w.history.head? ∧
      durableFloor w = (committedSequences D w.history).foldr max (-1) ∧
      (∀ st, durableState w = some st → SlotsBounded D st) ∧
      ∀ q' w', sem.Steps (q, w) (q', w') →
        w.history <:+ w'.history ∧ durableFloor w ≤ durableFloor w') ∧
    (s.alive = true → ∀ args : DeployArgs, args.allowDowngrade = false ∨ D.anchored = true →
      ∀ w w', sem.CutAt ((Request.deploy args).program D) s.world w →
        w' = w ∨ Restart D w w' →
        ∃ new, committedSequences D w'.history = new ++ committedSequences D s.world.history ∧
          ∀ q ∈ new, ∀ q' ∈ committedSequences D s.world.history, q' < q) ∧
    (s.alive = true → ∀ loadRuntime w,
      sem.CutAt ((Request.rollback loadRuntime).program D) s.world w →
        Untouched s.world s.world.history w ∨
          ∃ st past new, durableState s.world = some st ∧ s.world.history = st :: past ∧
            SwapsBack st new past ∧ Untouched s.world (new :: s.world.history) w) := by
  have hinv := lifecycleInv_reachable h
  refine ⟨fun p hp q w hw => ?_, fun ha args hargs w w' hc hr => hinv.deploy_newer ha hargs hc hr,
    fun ha loadRuntime w hc => hinv.rollback ha hc⟩
  obtain ⟨P, L, hrec⟩ := hinv.point hp ⟨q, hw⟩
  refine ⟨hrec.history.1, hrec.floor_eq, fun st hst => hrec.slotsBounded hst,
    fun q' w' hw' => ?_⟩
  obtain ⟨P', L', hrec'⟩ := hinv.point hp ⟨q', hw.trans hw'⟩
  exact ⟨steps_history hw', hrec.floor_le hrec' (steps_history hw')⟩

/-- A second deployment, of a newer release, after a first. -/
theorem anti_rollback_sample :
    durableFloor (Sample.deployed true Sample.one (Sample.constructed true)) =
      (committedSequences (Sample.deployer true)
        (Sample.deployed true Sample.one (Sample.constructed true)).history).foldr max (-1) :=
  ((anti_rollback (Sample.reachable_deployed Sample.one (Sample.reachable_constructed true))).1
    _ (.request (.deploy Sample.two) rfl) _ _ .refl).2.1

end Deploy
end EdgeFort
