/-
Only qualified releases are ever active: what `state.json` records, where the
recorded versions are, and which deployments put them there.

A slot that is not active is moved to its backup while a deployment replaces it,
so between two operations of a transaction, and after a crash there, its version
is in the backup.
-/
import EdgeFort.Deploy.AntiRollback

namespace EdgeFort
namespace Deploy

open Effect ABDeployer

/-! ## What a directory holds -/

/-- The state the deployer reads: a root without `state.json` stands for the first
state. -/
def ReadsAs (w : World) (st : DeploymentState) : Prop :=
  w.node .state = .missing ∧ st = {} ∨ w.node .state = .file (.json st.toDict)

/-- The populated slots are the active and the previous one. -/
structure Accounted (st : DeploymentState) : Prop where
  accepted : DeploymentState.parseState st.toDict = .ok st
  distinct : ∀ t, st.activeSlot = some t → st.previousSlot ≠ some t
  populated : ∀ t, st.slots.get t ≠ none ↔ st.activeSlot = some t ∨ st.previousSlot = some t

/-- Every recorded version is in its slot. -/
def InPlace (D : ABDeployer) (w : World) (st : DeploymentState) : Prop :=
  ∀ t v, st.slots.get t = some v → Verifies D (w.node (.slot t)) v

/-- Every recorded version is in its slot, or in the backup of a slot that is not
active. -/
def Held (D : ABDeployer) (w : World) (st : DeploymentState) : Prop :=
  ∀ t v, st.slots.get t = some v → Verifies D (w.node (.slot t)) v ∨
    st.activeSlot ≠ some t ∧ Verifies D (w.node (.backup t)) v

/-- What a call that deployed `m` over `old` had checked: the staged model has the
digest the registry signed, and its metrics pass the policy against the version
that was active then. -/
structure Promotion (D : ABDeployer) (c : DeployArgs × World) (old : DeploymentState)
    (m : ArtifactManifest) : Prop where
  base : durableState c.2 = some old
  inspected : ∃ d, D.registry.inspect c.1.version = .ok (d, m)
  signed : ∃ keyId sig, D.registry.trust.keyringVerify keyId m sig = .ok ()
  staged : ∃ model staged, D.registry.openVerifiedModel (stagedDir D c.1.version) c.1.version =
    .ok (model, staged) ∧ D.registry.trust.sha256 model = m.modelSha256
  gate : ∃ metrics, GatePassed D c.1 old c.2 m (stagedDir D c.1.version) metrics

variable {D : ABDeployer} {P : Provenance} {s : Sys} {st st' L : DeploymentState}
  {past : List DeploymentState} {w w' w₀ : World} {args : DeployArgs} {t : Slot} {v : PyStr}

theorem accounted_of_wellFormed (h : st.WellFormed) : Accounted st where
  accepted := DeploymentState.parseState_toDict h
  distinct t ha hp := by
    rcases h.distinct with hn | hne
    · exact nomatch ha.symm.trans hn
    · exact hne (ha.trans hp.symm)
  populated t := ⟨h.populated t, fun ht => ht.elim (h.active t) (h.previous t)⟩

/-! ## The recorded versions -/

theorem SlotsSafe.held (h : SlotsSafe D w st) : Held D w st := by
  intro t v hv
  have ht := h t
  rw [hv] at ht
  exact ht.imp And.left fun h => ⟨h.1, h.2.2⟩

theorem Phase.held (h : Phase D P w st L) : Held D w st := by
  cases h with
  | quiet h => exact h.safe.held
  | prepared h => exact h.safe.held
  | committed h => exact h.safe.held
  | @advanced j h =>
    intro t v hv
    by_cases ht : t = j.targetSlot
    · subst ht
      have hb := h.backup
      rw [hv] at hb
      exact Or.inr ⟨h.inactive, hb⟩
    · have hs := h.safe t ht
      rw [hv] at hs
      exact hs.imp And.left fun h => ⟨h.1, h.2.2⟩

theorem Calm.inPlace (h : Calm D P w st) : InPlace D w st := by
  intro t v hv
  have ht := h.slots t
  rw [hv] at ht
  exact ht.1

/-- A recorded version was put into the history by a commit that qualified it. -/
theorem Lineage.promoted (h : Lineage D P (st :: past)) (hv : st.slots.get t = some v) :
    ∃ old m newer older, D.canonicalManifest v = .ok m ∧ P old v ∧
      st :: past = newer ++ old.committed v m.releaseSequence :: old :: older := by
  generalize hh : st :: past = states at h
  induction h generalizing st past with
  | initial =>
    obtain ⟨rfl, rfl⟩ := List.cons.inj hh
    cases t <;> cases hv
  | @step older newer rest _ hsucc ih =>
    obtain ⟨rfl, rfl⟩ := List.cons.inj hh
    have hearlier : older.slots.get t = some v → ∃ old m newer' older', _ :=
      fun hv => ih hv rfl
    have hcons : older.slots.get t = some v → ∃ old m newer' older',
        D.canonicalManifest v = .ok m ∧ P old v ∧ st :: older :: rest =
          newer' ++ old.committed v m.releaseSequence :: old :: older' := by
      intro hv
      obtain ⟨old, m, newer', older', hm, hold, heq⟩ := hearlier hv
      exact ⟨old, m, st :: newer', older', hm, hold, by rw [heq]; rfl⟩
    cases hsucc with
    | failed e => exact hcons hv
    | rolledBack _ => exact hcons hv
    | committed hm _ hold =>
      rcases committed_slots hv with rfl | hv
      · exact ⟨older, _, [], rest, hm, hold, rfl⟩
      · exact hcons hv

theorem Admitted.promotion {c : DeployArgs × World} {m : ArtifactManifest}
    (h : Admitted D c.1 st c.2 m) (hst : durableState c.2 = some st) : Promotion D c st m := by
  obtain ⟨d, hinspect⟩ := h.inspected
  obtain ⟨model, hopen⟩ := Registry.verifyDirectory_ok.mp (Registry.inspect_ok hinspect).1
  obtain ⟨metrics, hgate⟩ := h.gate
  have hmeasured := hgate.measured
  simp only [measureCandidate, bind_eq_ok, raiseIf_eq_ok] at hmeasured
  obtain ⟨⟨staged, manifest⟩, hstaged, _, hsame, _⟩ := hmeasured
  refine ⟨hst, ⟨d, hinspect⟩, (Registry.openVerifiedModel_checked hopen).2.1,
    ⟨staged, manifest, hstaged, ?_⟩, metrics, hgate⟩
  rw [(Registry.openVerifiedModel_checked hstaged).2.2.2]
  exact ArtifactManifest.modelSha256_eq_of_pyEq (by simpa using hsame)

theorem Qualified.promotion {calls : List (DeployArgs × World)} {m : ArtifactManifest}
    (h : Qualified D calls st v) (hm : D.canonicalManifest v = .ok m) :
    ∃ c ∈ calls, c.1.version = v ∧ Promotion D c st m := by
  obtain ⟨c, hc, rfl, hst, m', hadm⟩ := h
  obtain rfl := Except.ok.inj (hm.symm.trans hadm.canonical)
  exact ⟨c, hc, rfl, hadm.promotion hst⟩

/-- Every recorded version was deployed by a call of the run. -/
theorem Durable.promotion {calls : List (DeployArgs × World)}
    (h : Durable D (Qualified D calls) w st) (hv : st.slots.get t = some v) :
    ∃ c ∈ calls, ∃ old m newer older, c.1.version = v ∧ Promotion D c old m ∧
      w.history = newer ++ old.committed v m.releaseSequence :: old :: older := by
  obtain ⟨past, hpast⟩ := h.history
  obtain ⟨old, m, newer, older, hm, hq, heq⟩ := (hpast ▸ h.lineage).promoted hv
  obtain ⟨c, hc, hversion, hp⟩ := hq.promotion hm
  exact ⟨c, hc, old, m, newer, older, hversion, hp, hpast.trans heq⟩

/-! ## The active slot during a deployment -/

theorem DeployPoint.active (h : DeployPoint D P args st w₀ w) :
    ∀ a, st.activeSlot = some a → w.node (.slot a) = w₀.node (.slot a) := by
  cases h with
  | before _ _ hk => exact hk.active
  | failed _ _ _ hk => exact hk.active
  | advanced _ _ _ _ hk => exact hk.active
  | committed _ _ _ hk _ => exact hk.active

theorem DeployPoint.recoverable (h : DeployPoint D P args st w₀ w) :
    ∃ L, Recoverable D P w L := by
  cases h with
  | before hr => exact ⟨_, hr⟩
  | failed _ hr => exact ⟨_, hr⟩
  | advanced _ _ hr => exact ⟨_, hr⟩
  | committed _ hr => exact ⟨_, hr⟩

/-- Between two points of a deployment the slot that is active at the first does
not change. -/
theorem DeployPoint.frame (hc : Calm D P w₀ st) (h : DeployPoint D P args st w₀ w)
    (h' : DeployPoint D P args st w₀ w') (hh : w.history <:+ w'.history)
    (hst : durableState w = some st') (ha : st'.activeSlot = some t) :
    w'.node (.slot t) = w.node (.slot t) := by
  obtain ⟨past, hpast⟩ := hc.history
  obtain ⟨_, hrec⟩ := h.recoverable
  have hhead := hrec.history.1
  rw [hst] at hhead
  -- until the commit the active slot is that of the state the deployment started in
  have hunchanged : st'.activeSlot = st.activeSlot → w'.node (.slot t) = w.node (.slot t) :=
    fun heq => (h'.active t (heq ▸ ha)).trans (h.active t (heq ▸ ha)).symm
  cases h with
  | before _ _ hk =>
    rw [hk.history, hpast] at hhead
    exact hunchanged (Option.some.inj hhead ▸ rfl)
  | failed _ _ _ hk =>
    rw [hk.history] at hhead
    exact hunchanged (Option.some.inj hhead ▸ rfl)
  | advanced _ _ _ _ hk =>
    rw [hk.history, hpast] at hhead
    exact hunchanged (Option.some.inj hhead ▸ rfl)
  | committed _ _ _ hk hstaged =>
    rw [hk.history] at hhead hh
    have htarget : t = Slot.inactive st.activeSlot := by
      obtain rfl := Option.some.inj hhead
      exact (Option.some.inj ha).symm
    subst htarget
    have hshort : w'.history ≠ w₀.history := fun heq => by
      have := (heq ▸ hh).length_le
      rw [List.length_cons] at this
      omega
    cases h' with
    | before _ _ hk' => exact absurd hk'.history hshort
    | advanced _ _ _ _ hk' => exact absurd hk'.history hshort
    | failed _ _ _ hk' =>
      rw [hk'.history] at hh
      have := (List.cons.inj (hh.eq_of_length (by simp))).1
      exact nomatch congrArg DeploymentState.status this
    | committed _ _ _ _ hstaged' => exact hstaged'.trans hstaged.symm

theorem LifecycleInv.deploy_frame (h : LifecycleInv D s) (ha : s.alive = true)
    {q q' : Cmd Unit} (hq : sem.Steps ((Request.deploy args).program D, s.world) (q, w))
    (hq' : sem.Steps (q, w) (q', w')) (hst : durableState w = some st')
    (hact : st'.activeSlot = some t) : w'.node (.slot t) = w.node (.slot t) := by
  rcases h.alive ha with ⟨L, hcalm, hready⟩ | ⟨hanch, hself, hreq⟩
  · have hmono : ∀ st v, Qualified D s.calls st v →
        Qualified D ((args, s.world) :: s.calls) st v := fun st v hv =>
      (hv.mono : Qualified D ([(args, s.world)] ++ s.calls) st v)
    have hP : ∀ m, Admitted D args L s.world m →
        Qualified D ((args, s.world) :: s.calls) L args.version := fun m hm =>
      ⟨(args, s.world), List.mem_cons_self, rfl, hcalm.toDurable.durableState, m, hm⟩
    have hwp := wp_deploy (hcalm.mono hmono) hready hP
    exact (wp_cutAt_map hwp ⟨q, hq⟩).frame (hcalm.mono hmono) (wp_cutAt_map hwp ⟨q', hq.trans hq'⟩)
      (steps_history hq') hst hact
  · obtain ⟨L, hrec⟩ := h.recoverable
    obtain ⟨d, hd, _⟩ := hrec.durable (h.started ha)
    have hwp : wp sem (D.deploy args) (fun _ _ => False) (fun _ w' => ReadOnly s.world w')
        (ReadOnly s.world) s.world :=
      wp_deploy_refused hd.state hd.wellFormed hself hanch (Calm.agrees_of_not hreq)
    rw [(wp_cutAt_map hwp ⟨q, hq⟩).node, (wp_cutAt_map hwp ⟨q', hq.trans hq'⟩).node]

/-! ## The theorem -/

theorem LifecycleInv.reads (h : LifecycleInv D s) :
    ∃ st, ReadsAs s.world st ∧ Accounted st ∧ Held D s.world st ∧
      (∀ t v, st.slots.get t = some v → ∃ c ∈ s.calls, ∃ old m newer older,
        c.1.version = v ∧ Promotion D c old m ∧
          s.world.history = newer ++ old.committed v m.releaseSequence :: old :: older) ∧
      (s.alive = true → s.world.self.recoveryRequired = false → InPlace D s.world st) := by
  obtain ⟨L, ⟨hfresh, _⟩ | ⟨st, hd, hphase⟩⟩ := h.recoverable
  · have hnone : ∀ t, ({} : DeploymentState).slots.get t = none := by intro t; cases t <;> rfl
    refine ⟨{}, Or.inl ⟨hfresh.state, rfl⟩,
      accounted_of_wellFormed DeploymentState.initial_wellFormed, fun t v hv => ?_, fun t v hv => ?_,
      fun ha => absurd hfresh.history (h.started ha)⟩ <;>
    · rw [hnone] at hv
      cases hv
  · refine ⟨st, Or.inr hd.state, accounted_of_wellFormed hd.wellFormed, hphase.held,
      fun t v hv => hd.promotion hv, fun ha hreq => ?_⟩
    rcases h.alive ha with ⟨L', hcalm, _⟩ | ⟨_, _, hreq'⟩
    · obtain rfl := hcalm.toDurable.unique hd
      exact hcalm.inPlace
    · exact nomatch hreq.symm.trans hreq'

/-- In every reachable state the recorded versions are those of the active and the
previous slot, each was deployed by a call that had qualified it, and each is in
its slot, or in the backup of the slot a transaction is replacing.  A deployment
never changes the slot that is active in `state.json`. -/
theorem qualified_releases (h : (lifecycle D).Reachable s) :
    (∃ st, ReadsAs s.world st ∧ Accounted st ∧ Held D s.world st ∧
      (∀ t v, st.slots.get t = some v → ∃ c ∈ s.calls, ∃ old m newer older,
        c.1.version = v ∧ Promotion D c old m ∧
          s.world.history = newer ++ old.committed v m.releaseSequence :: old :: older) ∧
      (s.alive = true → s.world.self.recoveryRequired = false → InPlace D s.world st)) ∧
    (s.alive = true → ∀ args q w q' w',
      sem.Steps ((Request.deploy args).program D, s.world) (q, w) → sem.Steps (q, w) (q', w') →
        ∀ st t, durableState w = some st → st.activeSlot = some t →
          w'.node (.slot t) = w.node (.slot t)) :=
  ⟨(lifecycleInv_reachable h).reads, fun ha _ _ _ _ _ hq hq' _ _ hst hact =>
    (lifecycleInv_reachable h).deploy_frame ha hq hq' hst hact⟩

namespace Sample

/-- A root with both releases deployed. -/
@[irreducible] def both : World := deployed false two (deployed false one (constructed false))

/-- The operations of a third deployment up to the rename of the slot to its backup. -/
def toRename : Nat := 17

@[irreducible] def displaced : World :=
  (sem.runFor toRename ((Request.deploy oneAgain).program (deployer false)) both).2

theorem reachable_both :
    (lifecycle (deployer false)).Reachable ⟨both, true,
      (Request.deploy two).logged (deployed false one (constructed false)) ++
        ((Request.deploy one).logged (constructed false) ++ [])⟩ := by
  unfold both
  exact reachable_deployed two (reachable_deployed one (reachable_constructed false))

theorem reachable_displaced :
    ∃ calls, (lifecycle (deployer false)).Reachable ⟨displaced, false, calls⟩ := by
  unfold displaced
  exact ⟨_, reachable_cut _ _ reachable_both⟩

end Sample

theorem qualified_releases_both :
    ∃ st, ReadsAs Sample.both st ∧ Accounted st ∧ Held (Sample.deployer false) Sample.both st :=
  have ⟨st, hreads, hacc, hheld, _⟩ := (qualified_releases Sample.reachable_both).1
  ⟨st, hreads, hacc, hheld⟩

/-- A deployment that is cut where its slot is in the backup leaves a populated slot
whose directory does not verify. -/
theorem populated_slot_displaced :
    ∃ s, (lifecycle (Sample.deployer false)).Reachable s ∧ ∃ st v,
      durableState s.world = some st ∧ st.slots.get .A = some v ∧
        ¬Verifies (Sample.deployer false) (s.world.node (.slot .A)) v := by
  have ⟨hslot, hversion⟩ : (Sample.displaced.node (.slot .A)).present = false ∧
      (durableState Sample.displaced).bind (fun st => st.slots.get .A) = some (py "1.0.0") := by
    unfold Sample.displaced Sample.both Sample.deployed Sample.constructed
    decide +kernel
  obtain ⟨st, hst, hv⟩ := Option.bind_eq_some_iff.mp hversion
  obtain ⟨calls, hreach⟩ := Sample.reachable_displaced
  exact ⟨⟨Sample.displaced, false, calls⟩, hreach, st, py "1.0.0", hst, hv,
    fun h => h.ne_missing (Node.eq_missing hslot)⟩

end Deploy
end EdgeFort
