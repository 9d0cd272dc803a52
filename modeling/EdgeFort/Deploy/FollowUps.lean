/-
What follows a call depends on the slots and on what deployments and rollbacks commit.

Two calm directories that agree on these answer every later call alike, and every
restart.  Generations, statuses and recorded errors may differ.
-/
import EdgeFort.Deploy.ActiveReleases
import EdgeFort.Deploy.CrashAtomicity
import EdgeFort.Deploy.FailedDeploy

namespace EdgeFort
namespace Deploy

open Effect ABDeployer

/-! ## A restart over a calm directory -/

/-- A calm directory, with its slot directories and what the deployer remembers. -/
structure Standing (D : ABDeployer) (P : Provenance) (st : DeploymentState) (slot : Slot → Node)
    (me : Self) (w : World) : Prop extends Calm D P w st where
  slotsOf : slotsOf w = slot
  memory : w.self = me

variable {D : ABDeployer} {P : Provenance} {args : DeployArgs} {st st' : DeploymentState}
  {slot : Slot → Node} {me : Self} {w w' v v' : World} {order : Order}

theorem slotsOf_same (hs : SameDisk w w') : slotsOf w' = slotsOf w :=
  funext fun s => congrFun hs.node (.slot s)

/-- A work directory is none of the slots. -/
theorem Standing.set (h : Standing D P st slot me w) {p : Path} {n : Node}
    (hp : ∀ s, Path.slot s ≠ p) (hc : Calm D P (w.set p n) st) :
    Standing D P st slot me (w.set p n) where
  toCalm := hc
  slotsOf := by
    rw [← h.slotsOf]
    exact funext fun s => by rw [Deploy.slotsOf, World.set_node, if_neg (hp s), Deploy.slotsOf]
  memory := h.memory

theorem wp_recoverBackup_calm (h : Standing D P st slot me w) (s : Slot) :
    wp sem (D.recoverBackup st s) (fun _ => Standing D P st slot me) (fun _ _ => False)
      (Standing D P st slot me) w := by
  have hset : ∀ n : Node, n.Removable → w.node (.backup s) ≠ .missing ∨ n = .missing →
      Standing D P st slot me (w.set (.backup s) n) := fun n hn hb =>
    h.set nofun (h.toCalm.set_backup hn hb)
  have hslot := h.slots s
  refine wp_bind.mpr (wp_look h ?_)
  rcases (h.toCalm.quiet.safe s).backup_removable with hb | ⟨es, hb⟩
  · simp only [hb]
    exact ⟨h, h⟩
  · simp only [hb]
    cases hv : st.slots.get s with
    | none =>
      rw [hv, hb] at hslot
      exact absurd hslot.2 nofun
    | some x =>
      rw [hv] at hslot
      obtain ⟨m, hm⟩ := hslot.1
      refine wp_bind.mpr (wp_look h ?_)
      simp only [hm]
      have hne : w.node (.backup s) ≠ .missing := by simp [hb]
      exact wp_rmtree (Or.inr ⟨es, hb⟩) (Or.inr hne) (fun n hn => hset n hn (Or.inl hne))
        (hset _ .missing (Or.inr rfl))

theorem wp_recoverBackups_calm (slots : List Slot) (h : Standing D P st slot me w) :
    wp sem (D.recoverBackups st slots) (fun _ => Standing D P st slot me) (fun _ _ => False)
      (Standing D P st slot me) w := by
  induction slots generalizing w with
  | nil => exact ⟨h, h⟩
  | cons s slots ih =>
    exact wp_bind.mpr (wp_mono (wp_recoverBackup_calm h s) (fun _ _ _ h₁ => ih h₁)
      (fun _ _ _ he => he) fun _ hc => hc)

theorem wp_removeCandidates_calm (slots : List Slot) (h : Standing D P st slot me w) :
    wp sem (removeCandidates slots) (fun _ => Standing D P st slot me) (fun _ _ => False)
      (Standing D P st slot me) w := by
  induction slots generalizing w with
  | nil => exact ⟨h, h⟩
  | cons s slots ih =>
    refine wp_bind.mpr (wp_look h ?_)
    rcases h.candidates s with hmiss | ⟨es, hdir⟩
    · simp only [hmiss]
      exact ih h
    · simp only [hdir]
      have hset : ∀ n : Node, n.Removable → Standing D P st slot me (w.set (.candidate s) n) :=
        fun n hn => h.set nofun (h.toCalm.set_candidate hn)
      exact wp_bind.mpr (wp_rmtree (Or.inr ⟨es, hdir⟩) (Or.inr (by simp [hdir])) hset
        (ih (hset _ .missing)))

theorem wp_settleSlot_calm (h : Standing D P st slot me w) (s : Slot) :
    wp sem (D.settleSlot st s) (fun _ w' => w' = w) (fun _ _ => False)
      (Standing D P st slot me) w := by
  have hslot := h.slots s
  unfold settleSlot
  cases hv : st.slots.get s with
  | none =>
    rw [hv] at hslot
    refine wp_bind.mpr (wp_look h ?_)
    simp only [hslot.1]
    exact ⟨h, rfl⟩
  | some x =>
    rw [hv] at hslot
    refine wp_bind.mpr (wp_verifiedSlotManifest hslot.1 h fun m hm => ?_)
    refine wp_raiseIf h (fun _ => rfl) fun hlt => ?_
    obtain ⟨c, hc, hseq⟩ := verifiedDirectoryManifest_canonical hm
    have hle := h.sequences s x c hv hc
    omega

theorem wp_settleSlots_calm (slots : List Slot) (h : Standing D P st slot me w) :
    wp sem (D.settleSlots st slots) (fun _ w' => w' = w) (fun _ _ => False)
      (Standing D P st slot me) w := by
  induction slots with
  | nil => exact ⟨h, rfl⟩
  | cons s slots ih =>
    refine wp_bind.mpr (wp_mono (wp_settleSlot_calm h s) ?_ (fun _ _ _ he => he) fun _ hc => hc)
    rintro _ w₁ - rfl
    exact ih

/-- A restart finds nothing to recover. -/
theorem wp_construct_calm (order : Order) (hanch : D.anchored = false) (h : Calm D P w st) :
    wp sem (D.construct order)
      (fun _ w' => (Calm D P w' st ∧ slotsOf w' = slotsOf w) ∧ Ready D w') (fun _ _ => False)
      (fun w' => Calm D P w' st ∧ slotsOf w' = slotsOf w) w := by
  have hself : freshSelf D w.floor = { trustedFloor := none, recoveryRequired := false } := by
    simp [freshSelf, hanch]
  have hcalm : ∀ w', Standing D P st (slotsOf w) (freshSelf D w.floor) w' →
      Calm D P w' st ∧ slotsOf w' = slotsOf w := fun w' h' => ⟨h'.toCalm, h'.slotsOf⟩
  have hw : Calm D P w st ∧ slotsOf w = slotsOf w := ⟨h, rfl⟩
  unfold ABDeployer.construct ABDeployer.sampleFloor
  simp only [hanch, Bool.false_eq_true, if_false]
  have h₁ : Standing D P st (slotsOf w) (freshSelf D w.floor)
      { w with self := freshSelf D w.floor } := ⟨h.same ⟨rfl, rfl, rfl⟩, rfl, rfl⟩
  rw [hself] at h₁ hcalm
  refine wp_bind.mpr ⟨hw, wp_bind.mpr (wp_setSelf hw (hcalm _ h₁) ?_)⟩
  generalize ({ w with self := { trustedFloor := none, recoveryRequired := false } } : World) =
    w₁ at h₁ ⊢
  obtain ⟨es, hroot⟩ := h₁.slotsRoot
  have hc₁ := hcalm w₁ h₁
  refine wp_bind.mpr (wp_bind.mpr (wp_look hc₁ ?_))
  simp only [hroot]
  refine ⟨hc₁, wp_bind.mpr (wp_bind.mpr (wp_look hc₁ ?_))⟩
  simp only [h₁.state]
  refine ⟨hc₁, wp_bind.mpr (wp_read_unchecked h₁.state h₁.wellFormed hc₁ ?_)⟩
  refine wp_bind.mpr (wp_readPendingAnchor_missing h₁.pending hc₁ ?_)
  refine wp_bind.mpr (wp_bind.mpr (wp_getSelf hc₁ ?_))
  simp only [h₁.memory]
  refine wp_bind.mpr (wp_raiseIf hc₁ (fun _ => ⟨hc₁, ?_⟩) fun hcon =>
    absurd hcon Bool.false_ne_true)
  refine wp_bind.mpr (wp_mono (wp_recoverBackups_calm _ h₁) ?_ (fun _ _ _ he => he)
    fun w' hc => hcalm w' hc)
  rintro _ w₂ - h₂
  refine wp_bind.mpr (wp_mono (wp_removeCandidates_calm _ h₂) ?_ (fun _ _ _ he => he)
    fun w' hc => hcalm w' hc)
  rintro _ w₃ - h₃
  refine wp_bind.mpr (wp_mono (wp_settleSlots_calm _ h₃) ?_ (fun _ _ _ he => he)
    fun w' hc => hcalm w' hc)
  rintro _ w₄ - rfl
  refine wp_bind.mpr (wp_bind.mpr (wp_look (hcalm _ h₃) ?_))
  simp only [h₃.pending]
  refine ⟨hcalm _ h₃, wp_bind.mpr (wp_getSelf (hcalm _ h₃) ?_)⟩
  simp only [h₃.memory]
  refine ⟨hcalm _ h₃, hcalm _ h₃, ?_, ?_⟩
  · rw [SelfOk, h₃.memory, hanch]
    rfl
  · rw [h₃.memory]

theorem Restart.calm (hanch : D.anchored = false) (h : Restart D w v) (hc : Calm D P w st) :
    Calm D P v st ∧ slotsOf v = slotsOf w ∧ Ready D v := by
  induction h with
  | finished order hf =>
    obtain ⟨⟨hcalm, hslots⟩, hready⟩ := wp_returns (wp_construct_calm order hanch hc) hf
    exact ⟨hcalm, hslots, hready⟩
  | cut order hcut _ ih =>
    obtain ⟨hcalm, hslots⟩ := wp_cutAt (wp_construct_calm order hanch hc) hcut
    obtain ⟨hcalm', hslots', hready⟩ := ih hcalm
    exact ⟨hcalm', hslots'.trans hslots, hready⟩

/-! ## A call over a calm directory -/

/-- What a deployment answers and leaves, by its answer. -/
def Deployed (D : ABDeployer) (P : Provenance) (args : DeployArgs) (st : DeploymentState)
    (w v : World) : Except PyError ModelMetrics → Prop
  | .ok _ => ∃ m, D.canonicalManifest args.version = .ok m ∧
      Calm D P v (st.committed args.version m.releaseSequence) ∧
      slotsOf v = Function.update (slotsOf w) (Slot.inactive st.activeSlot)
        (stagedDir D args.version)
  | .error _ => ∃ L, L.lifecycle = st.lifecycle ∧ Calm D P v L ∧ slotsOf v = slotsOf w

/-- The slot that is not deployed to stays as it was. -/
theorem Landed.slotsOf {m : ArtifactManifest} (h : Calm D P w st)
    (hl : Landed D P args st m w v) :
    slotsOf v = Function.update (slotsOf w) (Slot.inactive st.activeSlot)
      (stagedDir D args.version) := by
  funext s
  by_cases hs : s = Slot.inactive st.activeSlot
  · rw [hs, Function.update_self]
    exact hl.staged
  · rw [Function.update_of_ne hs]
    rcases active_of_ne h.wellFormed (Slot.inactive_ne st.activeSlot) hs with hact | hempty
    · exact hl.kept.active s hact
    · have hbefore := h.slots s
      have hafter := hl.slots s
      have hempty' : (st.committed args.version m.releaseSequence).slots.get s = none := by
        simpa [DeploymentState.committed, DeploymentState.promoted, Slots.get_set, hs] using hempty
      rw [hempty] at hbefore
      rw [hempty'] at hafter
      exact hafter.1.trans hbefore.1.symm

theorem deploy_finishes {r : Except PyError ModelMetrics} (hanch : D.anchored = false)
    (h : Calm D P w st) (hready : Ready D w)
    (hP : ∀ m, Admitted D args st w m → P st args.version)
    (hf : sem.Finishes (D.deploy args) w r v) :
    r = D.deployAnswer args st (slotsOf w) ∧ Ready D v ∧ Deployed D P args st w v r := by
  have hwp := wp_deploy h hready hP
  cases r with
  | ok metrics =>
    obtain ⟨hready', hanswer, m, hadm, hland⟩ := wp_returns hwp hf
    exact ⟨hanswer.symm, hready', m, hadm.canonical, hland.toCalm, hland.slotsOf h⟩
  | error e =>
    have hunharmed := wp_of_faulty (@wp_markedDeploy D P args st w hanch h hready)
    rw [erase_markedDeploy] at hunharmed
    obtain ⟨w₁, hr, ⟨L, hL, hcalm⟩, hself, hslots⟩ := wp_raises hunharmed hf
    refine ⟨((wp_raises hwp hf).2 hanch).symm, ⟨?_, ?_⟩, L, ?_, hcalm, ?_⟩
    · rw [SelfOk, hself]
      exact hr.trustedFloor.trans hready.self
    · rw [hself]
      exact hr.recoveryRequired.trans hready.notRequired
    · rcases hL with rfl | ⟨e, rfl⟩ <;> rfl
    · rw [← slotsOf_same hr.toSameDisk]
      exact funext hslots

/-- What a rollback leaves, by its answer. -/
def RolledBack (D : ABDeployer) (P : Provenance) (st : DeploymentState) (v : World) :
    Except PyError Bool → Prop
  | .ok true => ∃ s, st.previousSlot = some s ∧ Calm D P v (st.rolledBack s)
  | _ => Calm D P v st

theorem rollback_finishes {ρ : Type}
    {loadRuntime : Bytes → ArtifactManifest → Except PyError ρ} {r : Except PyError Bool}
    (h : Calm D P w st) (hready : Ready D w) (hf : sem.Finishes (D.rollback loadRuntime) w r v) :
    r = D.rollbackAnswer loadRuntime st (slotsOf w) ∧ Ready D v ∧ slotsOf v = slotsOf w ∧
      RolledBack D P st v r := by
  have hwp := @wp_rollback D P st w ρ loadRuntime h hready
  have hslots : slotsOf v = slotsOf w := by
    cases wp_cutAt hwp hf.cutAt with
    | before _ _ hu => exact funext hu.slots
    | swapped _ _ _ hu => exact funext hu.slots
  cases r with
  | ok done =>
    obtain ⟨hready', hanswer, hdone⟩ := wp_returns hwp hf
    refine ⟨hanswer.symm, hready', hslots, ?_⟩
    cases done <;> exact hdone
  | error e =>
    obtain ⟨hready', hanswer, hcalm⟩ := wp_raises hwp hf
    exact ⟨hanswer.symm, hready', hslots, hcalm⟩

/-! ## Directories that answer alike -/

/-- Nothing is asked of the releases in the slots but that they verify. -/
abbrev anyRelease : Provenance := fun _ _ => True

/-- Two calm directories that agree on the slots and on what has been committed. -/
structure Alike (D : ABDeployer) (w w' : World) : Prop where
  calm : ∃ st st', Calm D anyRelease w st ∧ Calm D anyRelease w' st' ∧
    st'.lifecycle = st.lifecycle
  slots : slotsOf w' = slotsOf w
  ready : Ready D w
  ready' : Ready D w'

/-- A later use of a deployment directory. -/
inductive FollowUp where
  | deploy (args : DeployArgs)
  | rollback (loadRuntime : Bytes → ArtifactManifest → Except PyError Unit)
  | restart

inductive Answer where
  | deployed (r : Except PyError ModelMetrics)
  | rolledBack (r : Except PyError Bool)
  | restarted

inductive FollowUp.Ends (D : ABDeployer) (w : World) : FollowUp → Answer → World → Prop
  | deploy {args : DeployArgs} {r : Except PyError ModelMetrics} {v : World} :
      sem.Finishes (D.deploy args) w r v → Ends D w (.deploy args) (.deployed r) v
  | rollback {loadRuntime : Bytes → ArtifactManifest → Except PyError Unit}
      {r : Except PyError Bool} {v : World} : sem.Finishes (D.rollback loadRuntime) w r v →
      Ends D w (.rollback loadRuntime) (.rolledBack r) v
  | restart {v : World} : Restart D w v → Ends D w .restart .restarted v

/-- Later uses one after the other, with their answers. -/
inductive Follows (D : ABDeployer) : World → List (FollowUp × Answer) → World → Prop
  | done (w : World) : Follows D w [] w
  | next {w v v' : World} {f : FollowUp} {a : Answer} {rest : List (FollowUp × Answer)} :
      f.Ends D w a v → Follows D v rest v' → Follows D w ((f, a) :: rest) v'

/-- What has been committed, and the slots. -/
def released (w : World) : Option (Option Slot × Option Slot × Slots × Int) × (Slot → Node) :=
  ((durableState w).map DeploymentState.lifecycle, slotsOf w)

theorem Alike.symm (h : Alike D w w') : Alike D w' w where
  calm := by
    obtain ⟨st, st', hc, hc', hl⟩ := h.calm
    exact ⟨st', st, hc', hc, hl.symm⟩
  slots := h.slots.symm
  ready := h.ready'
  ready' := h.ready

theorem Alike.released (h : Alike D w w') : released w' = released w := by
  obtain ⟨st, st', hc, hc', hl⟩ := h.calm
  simp only [Deploy.released, hc.durableState, hc'.durableState, Option.map_some, hl, h.slots]

theorem committed_lifecycle {version : PyStr} {seq : Int} (h : st'.lifecycle = st.lifecycle) :
    (st'.committed version seq).lifecycle = (st.committed version seq).lifecycle := by
  have hactive : st'.activeSlot = st.activeSlot := congrArg (fun x => x.1) h
  have hslots : st'.slots = st.slots := congrArg (fun x => x.2.2.1) h
  have hfloor : st'.highestReleaseSequence = st.highestReleaseSequence :=
    congrArg (fun x => x.2.2.2) h
  simp only [DeploymentState.lifecycle, DeploymentState.committed, DeploymentState.promoted,
    hactive, hslots, hfloor]

theorem rolledBack_lifecycle {s : Slot} (h : st'.lifecycle = st.lifecycle) :
    (st'.rolledBack s).lifecycle = (st.rolledBack s).lifecycle := by
  have hactive : st'.activeSlot = st.activeSlot := congrArg (fun x => x.1) h
  have hslots : st'.slots = st.slots := congrArg (fun x => x.2.2.1) h
  have hfloor : st'.highestReleaseSequence = st.highestReleaseSequence :=
    congrArg (fun x => x.2.2.2) h
  simp only [DeploymentState.lifecycle, DeploymentState.rolledBack, hactive, hslots, hfloor]

theorem Alike.deploy {r r' : Except PyError ModelMetrics} (hanch : D.anchored = false)
    (h : Alike D w w') (hf : sem.Finishes (D.deploy args) w r v)
    (hf' : sem.Finishes (D.deploy args) w' r' v') : r' = r ∧ Alike D v v' := by
  obtain ⟨st, st', hc, hc', hl⟩ := h.calm
  obtain ⟨hr, hready, hd⟩ := deploy_finishes hanch hc h.ready (fun _ _ => trivial) hf
  obtain ⟨hr', hready', hd'⟩ := deploy_finishes hanch hc' h.ready' (fun _ _ => trivial) hf'
  have hactive : st'.activeSlot = st.activeSlot := congrArg (fun x => x.1) hl
  have heq : r' = r := by rw [hr', hr, h.slots, deployAnswer_congr hl]
  subst heq
  refine ⟨rfl, ?_⟩
  cases r' with
  | ok metrics =>
    obtain ⟨m, hm, hcalm, hslots⟩ := hd
    obtain ⟨m', hm', hcalm', hslots'⟩ := hd'
    obtain rfl := Except.ok.inj (hm.symm.trans hm')
    refine ⟨⟨_, _, hcalm, hcalm', committed_lifecycle hl⟩, ?_, hready, hready'⟩
    rw [hslots', hslots, h.slots, hactive]
  | error e =>
    obtain ⟨L, hL, hcalm, hslots⟩ := hd
    obtain ⟨L', hL', hcalm', hslots'⟩ := hd'
    refine ⟨⟨L, L', hcalm, hcalm', hL'.trans (hl.trans hL.symm)⟩, ?_, hready, hready'⟩
    rw [hslots', hslots, h.slots]

theorem Alike.rollback {ρ : Type} {loadRuntime : Bytes → ArtifactManifest → Except PyError ρ}
    {r r' : Except PyError Bool} (h : Alike D w w')
    (hf : sem.Finishes (D.rollback loadRuntime) w r v)
    (hf' : sem.Finishes (D.rollback loadRuntime) w' r' v') : r' = r ∧ Alike D v v' := by
  obtain ⟨st, st', hc, hc', hl⟩ := h.calm
  obtain ⟨hr, hready, hslots, hd⟩ := rollback_finishes hc h.ready hf
  obtain ⟨hr', hready', hslots', hd'⟩ := rollback_finishes hc' h.ready' hf'
  have hprevious : st'.previousSlot = st.previousSlot := congrArg (fun x => x.2.1) hl
  have heq : r' = r := by rw [hr', hr, h.slots, rollbackAnswer_congr hl]
  subst heq
  have hafter : slotsOf v' = slotsOf v := by rw [hslots', hslots, h.slots]
  refine ⟨rfl, ?_, hafter, hready, hready'⟩
  match r', hd, hd' with
  | .ok true, ⟨s, hs, hcalm⟩, ⟨s', hs', hcalm'⟩ =>
    obtain rfl := Option.some.inj (hs.symm.trans (hprevious.symm.trans hs'))
    exact ⟨_, _, hcalm, hcalm', rolledBack_lifecycle hl⟩
  | .ok false, hcalm, hcalm' => exact ⟨st, st', hcalm, hcalm', hl⟩
  | .error _, hcalm, hcalm' => exact ⟨st, st', hcalm, hcalm', hl⟩

theorem Alike.restart (hanch : D.anchored = false) (h : Alike D w w') (hf : Restart D w v)
    (hf' : Restart D w' v') : Alike D v v' := by
  obtain ⟨st, st', hc, hc', hl⟩ := h.calm
  obtain ⟨hcalm, hslots, hready⟩ := hf.calm hanch hc
  obtain ⟨hcalm', hslots', hready'⟩ := hf'.calm hanch hc'
  refine ⟨⟨st, st', hcalm, hcalm', hl⟩, ?_, hready, hready'⟩
  rw [hslots', hslots, h.slots]

/-- One later use of directories that are alike. -/
theorem Alike.ends {f : FollowUp} {a : Answer} (hanch : D.anchored = false) (h : Alike D w w')
    (hf : f.Ends D w a v) : ∃ v', f.Ends D w' a v' ∧ Alike D v v' := by
  cases hf with
  | deploy hf =>
    obtain ⟨heq, halike⟩ := h.deploy hanch hf (sem.run_finishes _ w')
    exact ⟨_, .deploy (heq ▸ sem.run_finishes _ w'), halike⟩
  | rollback hf =>
    obtain ⟨heq, halike⟩ := h.rollback hf (sem.run_finishes _ w')
    exact ⟨_, .rollback (heq ▸ sem.run_finishes _ w'), halike⟩
  | restart hf =>
    obtain ⟨_, _, _, hc', _⟩ := h.calm
    obtain ⟨v', hv'⟩ := hc'.recoverable.recoversTo.finishes
    exact ⟨v', .restart hv', h.restart hanch hf hv'⟩

theorem Alike.follows {trace : List (FollowUp × Answer)} (hanch : D.anchored = false)
    (h : Alike D w w') (hf : Follows D w trace v) :
    ∃ v', Follows D w' trace v' ∧ Alike D v v' := by
  induction hf generalizing w' with
  | done w => exact ⟨w', .done w', h⟩
  | next hends _ ih =>
    obtain ⟨v₁, hends', h₁⟩ := h.ends hanch hends
    obtain ⟨v₂, hfollows, h₂⟩ := ih h₁
    exact ⟨v₂, .next hends' hfollows, h₂⟩

/-! ## Runs with deployments that fail -/

/-- A step on a working disk, or a deployment that raises on one that fails where
removals and handlers do not. -/
inductive FaultyStep (D : ABDeployer) : Sys → Sys → Prop
  | working {s s' : Sys} : LifecycleStep D s s' → FaultyStep D s s'
  | raised {s : Sys} {args : DeployArgs} {e : PyError} {w : World} : s.alive = true →
      (faultySem false).Finishes (D.markedDeploy args) s.world (.error e) w →
      FaultyStep D s
        { world := w, alive := true, calls := (Request.deploy args).logged s.world ++ s.calls }

def faultyLifecycle (D : ABDeployer) : System Sys where
  initial := (lifecycle D).initial
  step := FaultyStep D

section
variable {s s' : Sys} {e : PyError}

theorem reachable_faulty (h : (lifecycle D).Reachable s) : (faultyLifecycle D).Reachable s := by
  induction h with
  | initial h => exact .initial h
  | step _ hs ih => exact .step ih (.working hs)

theorem LifecycleInv.calm (hanch : D.anchored = false) (h : LifecycleInv D s)
    (ha : s.alive = true) : ∃ st, Calm D (Qualified D s.calls) s.world st ∧ Ready D s.world := by
  rcases h.alive ha with hcalm | ⟨hanch', _⟩
  · exact hcalm
  · rw [hanch] at hanch'
    cases hanch'

/-- A deployment that raises leaves the directory calm, over the same slots. -/
theorem raised_calm (hanch : D.anchored = false) (h : Calm D P w st) (hready : Ready D w)
    (hf : (faultySem false).Finishes (D.markedDeploy args) w (.error e) w') :
    (∃ L, (L = st ∨ ∃ e', L = st.failed e') ∧ Calm D P w' L) ∧ slotsOf w' = slotsOf w ∧
      Ready D w' := by
  obtain ⟨w₁, hr, hcalm, hself, hslots⟩ := wp_raises (wp_markedDeploy hanch h hready) hf
  refine ⟨hcalm, ?_, ?_, ?_⟩
  · rw [← slotsOf_same hr.toSameDisk]
    exact funext hslots
  · rw [SelfOk, hself]
    exact hr.trustedFloor.trans hready.self
  · rw [hself]
    exact hr.recoveryRequired.trans hready.notRequired

theorem LifecycleInv.faulty (hanch : D.anchored = false) (h : LifecycleInv D s)
    (hs : FaultyStep D s s') : LifecycleInv D s' := by
  cases hs with
  | working hs => exact h.step hs
  | raised ha hf =>
    rename_i args e w'
    obtain ⟨st, hcalm, hready⟩ := h.calm hanch ha
    have hcalm' : Calm D (Qualified D ((Request.deploy args).logged s.world ++ s.calls)) s.world
        st := hcalm.mono fun _ _ hv => hv.mono
    obtain ⟨⟨L, _, hL⟩, _, hready'⟩ := raised_calm hanch hcalm' hready hf
    refine ⟨⟨L, hL.recoverable⟩, fun _ => Or.inl ⟨L, hL, hready'⟩, fun _ => ?_⟩
    obtain ⟨past, hpast⟩ := hL.history
    simp [hpast]

theorem lifecycleInv_faulty (hanch : D.anchored = false) (h : (faultyLifecycle D).Reachable s) :
    LifecycleInv D s :=
  System.invariant (S := faultyLifecycle D) (LifecycleInv D) (fun _ => LifecycleInv.initial)
    (fun _ _ hi hs => hi.faulty hanch hs) h

/-- Without an anchor, a deployment that raises keeps the slots and all of the state but
its generation, status and error, and every later use goes as if it had not been made. -/
theorem failed_deploy_harmless (hanch : D.anchored = false)
    (h : (faultyLifecycle D).Reachable s) (ha : s.alive = true)
    (hf : (faultySem false).Finishes (D.markedDeploy args) s.world (.error e) w') :
    (∃ st st', durableState s.world = some st ∧ durableState w' = some st' ∧
      st'.activeSlot = st.activeSlot ∧ st'.previousSlot = st.previousSlot ∧
      st'.slots = st.slots ∧ st'.highestReleaseSequence = st.highestReleaseSequence ∧
      (st' = st ∨ st'.generation = st.generation + 1) ∧
      RecoversTo D s.world st ∧ RecoversTo D w' st') ∧
    (∀ slot, w'.node (.slot slot) = s.world.node (.slot slot)) ∧
    ∀ trace seen, (∃ v, Follows D w' trace v ∧ released v = seen) ↔
      ∃ v, Follows D s.world trace v ∧ released v = seen := by
  obtain ⟨st, hcalm, hready⟩ := (lifecycleInv_faulty hanch h).calm hanch ha
  obtain ⟨⟨L, hL, hcalm'⟩, hslots, hready'⟩ := raised_calm hanch hcalm hready hf
  have hlifecycle : L.lifecycle = st.lifecycle := by
    rcases hL with rfl | ⟨e', rfl⟩ <;> rfl
  have halike : Alike D s.world w' := {
    calm := ⟨st, L, hcalm.mono fun _ _ _ => trivial, hcalm'.mono fun _ _ _ => trivial, hlifecycle⟩
    slots := hslots
    ready := hready
    ready' := hready' }
  refine ⟨⟨st, L, hcalm.durableState, hcalm'.durableState, congrArg (fun x => x.1) hlifecycle,
    congrArg (fun x => x.2.1) hlifecycle, congrArg (fun x => x.2.2.1) hlifecycle,
    congrArg (fun x => x.2.2.2) hlifecycle, ?_, hcalm.recoverable.recoversTo,
    hcalm'.recoverable.recoversTo⟩, fun slot => congrFun hslots slot, fun trace seen => ?_⟩
  · rcases hL with rfl | ⟨e', rfl⟩
    · exact Or.inl rfl
    · exact Or.inr rfl
  · constructor
    · rintro ⟨v, hv, rfl⟩
      obtain ⟨v', hv', hvv⟩ := halike.symm.follows hanch hv
      exact ⟨v', hv', hvv.released⟩
    · rintro ⟨v, hv, rfl⟩
      obtain ⟨v', hv', hvv⟩ := halike.follows hanch hv
      exact ⟨v', hv', hvv.released⟩

end

namespace Sample

/-- The renames of a deployment that fail: the candidate's, and the one of its handler. -/
def renames (handlers : Bool) : Op × Part → Bool
  | (.rename (.candidate _) (.slot _), .body) => true
  | (.rename (.backup _) (.slot _), .handler) => handlers
  | _ => false

def deviceError : PyError := raise .osError "Input/output error"

/-- A third deployment, whose renames fail. -/
def broken (handlers : Bool) : Except PyError ModelMetrics × World :=
  (sem.broken (renames handlers) deviceError).run ((deployer false).markedDeploy oneAgain) both

theorem broken_finishes_error (handlers : Bool) : ∃ e,
    (faultySem handlers).Finishes ((deployer false).markedDeploy oneAgain) both (.error e)
      (broken handlers).2 := by
  have hmay : ∀ o, renames handlers o = true → canFail handlers o.1 o.2 = true := by
    rintro ⟨o, part⟩ ho
    unfold renames at ho
    split at ho <;> rename_i heq
    · cases heq
      rfl
    · cases heq
      simpa [canFail, Op.fails] using Or.inr ho
    · cases ho
  have hf : (faultySem handlers).Finishes ((deployer false).markedDeploy oneAgain) both
      (broken handlers).1 (broken handlers).2 :=
    broken_finishes sem (renames handlers) deviceError hmay (fun _ _ => .same) _ both
  have hraised : (broken handlers).1.isOk = false := by
    unfold broken both deployed constructed
    cases handlers <;> decide +kernel
  cases hr : (broken handlers).1 with
  | ok metrics =>
    rw [hr] at hraised
    cases hraised
  | error e =>
    rw [hr] at hf
    exact ⟨e, hf⟩

end Sample

theorem failed_deploy_harmless_sample :
    (Sample.broken false).2.node (.slot .A) = Sample.both.node (.slot .A) :=
  have ⟨_, hf⟩ := Sample.broken_finishes_error false
  (failed_deploy_harmless rfl (reachable_faulty Sample.reachable_both) rfl hf).2.1 .A

/-- Where the rename of the handler fails too, the slot stays in its backup until the
next recovery. -/
theorem failed_handler_displaces : ∃ s e w', (lifecycle (Sample.deployer false)).Reachable s ∧
    s.alive = true ∧
    (faultySem true).Finishes ((Sample.deployer false).markedDeploy Sample.oneAgain) s.world
      (.error e) w' ∧
    (∃ st v, durableState s.world = some st ∧ st.slots.get .A = some v) ∧
    w'.node (.slot .A) ≠ s.world.node (.slot .A) := by
  obtain ⟨e, hf⟩ := Sample.broken_finishes_error true
  have hslots : ((Sample.broken true).2.node (.slot .A)).present = false ∧
      (Sample.both.node (.slot .A)).present = true ∧
      ((durableState Sample.both).bind fun st => st.slots.get .A).isSome = true := by
    unfold Sample.broken Sample.both Sample.deployed Sample.constructed
    decide +kernel
  obtain ⟨hafter, hbefore, hversion⟩ := hslots
  obtain ⟨v, hv⟩ := Option.isSome_iff_exists.mp hversion
  obtain ⟨st, hst, hv⟩ := Option.bind_eq_some_iff.mp hv
  refine ⟨_, e, _, Sample.reachable_both, rfl, hf, ⟨st, v, hst, hv⟩, fun heq => ?_⟩
  rw [heq, hbefore] at hafter
  cases hafter

end Deploy
end EdgeFort
