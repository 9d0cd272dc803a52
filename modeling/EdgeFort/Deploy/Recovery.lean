/-
Recovery ends, without raising, in the logical state of the directory it starts
from, and a crash at any of its steps leaves a directory with the same one.
-/
import EdgeFort.Deploy.MethodRules

namespace EdgeFort
namespace Deploy

open Effect ABDeployer

/-! ## Points of a recovery -/

section
variable (D : ABDeployer) (P : Provenance) (L : DeploymentState) (floor : Int)
  (past : List DeploymentState)

/-- Any point of a recovery that will end in `L`. -/
structure RecoveryPoint (w : World) : Prop where
  recoverable : Recoverable D P w L
  floor : w.floor = floor
  history : w.history = past ∨ w.history = L :: past
  self : SelfOk D w.self
  notRequired : w.self.recoveryRequired = false

/-- A journal that the anchor never saw. -/
def Abandoned (w : World) (st : DeploymentState) (j : PendingAnchor) : Prop :=
  Journal D w j ∧ j.previousFloor = st.highestReleaseSequence ∧
    j.previousGeneration = st.generation

/-- The points at which `L` is on disk and the journal no longer matters. -/
structure InertPoint (w : World) : Prop extends Durable D P w L where
  safe : SlotsSafe D w L
  anchor : D.anchored = true → w.floor = L.highestReleaseSequence
  pending : w.node .pending = .missing ∨ ∃ j, Abandoned D w L j
  floor : w.floor = floor
  history' : w.history = past ∨ w.history = L :: past
  self : SelfOk D w.self
  notRequired : w.self.recoveryRequired = false

end

variable {D : ABDeployer} {P : Provenance} {L st : DeploymentState} {floor : Int}
  {past : List DeploymentState} {w w' : World}

theorem RecoveryPoint.same (h : RecoveryPoint D P L floor past w) (hs : SameDisk w w')
    (hself : w'.self = w.self) : RecoveryPoint D P L floor past w' where
  recoverable := h.recoverable.same hs
  floor := hs.floor.trans h.floor
  history := hs.history ▸ h.history
  self := hself ▸ h.self
  notRequired := hself ▸ h.notRequired

theorem InertPoint.point (h : InertPoint D P L floor past w) :
    RecoveryPoint D P L floor past w where
  recoverable := by
    refine Or.inr ⟨L, h.toDurable, ?_⟩
    rcases h.pending with hp | ⟨j, hj, hfl, hgen⟩
    · exact .quiet ⟨hp, h.anchor, h.safe⟩
    · exact .prepared ⟨hj, hfl, hgen, h.anchor hj.anchored, h.safe⟩
  floor := h.floor
  history := h.history'
  self := h.self
  notRequired := h.notRequired

theorem InertPoint.congr (h : InertPoint D P L floor past w)
    (hstate : w'.node .state = w.node .state) (hslots : w'.node .slots = w.node .slots)
    (hpend : w'.node .pending = w.node .pending)
    (hcand : ∀ s, (w'.node (.candidate s)).Removable) (hsafe : SlotsSafe D w' L)
    (hfloor : w'.floor = w.floor) (hhist : w'.history = w.history) (hself : w'.self = w.self) :
    InertPoint D P L floor past w' where
  toDurable := h.toDurable.congr hstate hslots hcand hhist
  safe := hsafe
  anchor ha := hfloor.trans (h.anchor ha)
  pending := by
    refine h.pending.imp (fun hp => hpend.trans hp) ?_
    rintro ⟨j, hj, hrest⟩
    exact ⟨j, ⟨hj.anchored, hpend.trans hj.pending, hj.wellFormed⟩, hrest⟩
  floor := hfloor.trans h.floor
  history' := hhist ▸ h.history'
  self := hself ▸ h.self
  notRequired := hself ▸ h.notRequired

theorem InertPoint.set_backup (h : InertPoint D P L floor past w) {s : Slot} {n : Node}
    (hs : SlotSafe D (L.activeSlot = some s) (L.slots.get s) (w.node (.slot s)) n) :
    InertPoint D P L floor past (w.set (.backup s) n) := by
  refine h.congr (by simp) (by simp) (by simp) (by simpa using h.candidates) ?_ rfl rfl rfl
  intro t
  by_cases hts : t = s
  · subst hts
    simpa using hs
  · simpa [hts] using h.safe t

theorem InertPoint.set_slot (h : InertPoint D P L floor past w) {s : Slot} {n : Node}
    (hs : SlotSafe D (L.activeSlot = some s) (L.slots.get s) n (w.node (.backup s))) :
    InertPoint D P L floor past (w.set (.slot s) n) := by
  refine h.congr (by simp) (by simp) (by simp) (by simpa using h.candidates) ?_ rfl rfl rfl
  intro t
  by_cases hts : t = s
  · subst hts
    simpa using hs
  · simpa [hts] using h.safe t

theorem InertPoint.set_candidate (h : InertPoint D P L floor past w) {s : Slot} {n : Node}
    (hn : n.Removable) : InertPoint D P L floor past (w.set (.candidate s) n) := by
  refine h.congr (by simp) (by simp) (by simp) ?_ ?_ rfl rfl rfl
  · intro t
    by_cases hts : t = s
    · simpa [hts] using hn
    · simpa [hts] using h.candidates t
  · intro t
    simpa using h.safe t

/-- The backup is moved back into a slot that is gone. -/
theorem InertPoint.restore (h : InertPoint D P L floor past w) {s : Slot} {v : PyStr}
    (hv : L.slots.get s = some v) (hb : Verifies D (w.node (.backup s)) v) :
    InertPoint D P L floor past
      ((w.set (.backup s) .missing).set (.slot s) (w.node (.backup s))) := by
  refine h.congr (by simp) (by simp) (by simp) (by simpa using h.candidates) ?_ rfl rfl rfl
  intro t
  by_cases hts : t = s
  · subst hts
    simpa [SlotSafe, hv] using Or.inl ⟨hb, Node.Removable.missing⟩
  · simpa [hts] using h.safe t

/-! ## The root and the first state -/

theorem Recoverable.set_slotsRoot (h : Recoverable D P w L) :
    Recoverable D P (w.set .slots (.dir [])) L := by
  rcases h with ⟨h, hL⟩ | ⟨st, hd, hp⟩
  · exact Or.inl ⟨{
      state := by simpa using h.state
      slotsRoot := Or.inr ⟨[], by simp⟩
      slot := by simpa using h.slot
      backup := by simpa using h.backup
      candidate := by simpa using h.candidate
      pending := by simpa using h.pending
      floor := h.floor
      history := h.history }, hL⟩
  · have hd' : Durable D P (w.set .slots (.dir [])) st :=
      { hd with
        state := by simpa using hd.state
        slotsRoot := ⟨[], by simp⟩
        candidates := by simpa using hd.candidates }
    refine Or.inr ⟨st, hd', ?_⟩
    cases hp with
    | quiet h => exact .quiet ⟨by simpa using h.pending, h.floor, fun s => by simpa using h.safe s⟩
    | prepared h =>
      exact .prepared { h with
        pending := by simpa using h.pending
        safe := fun s => by simpa using h.safe s }
    | advanced h =>
      exact .advanced { h with
        pending := by simpa using h.pending
        verifies := by simpa using h.verifies
        backup := by simpa using h.backup
        safe := fun s hs => by simpa using h.safe s hs }
    | committed h =>
      exact .committed { h with
        pending := by simpa using h.pending
        verifies := by simpa using h.verifies
        safe := fun s => by simpa using h.safe s }

theorem Recoverable.slotsRoot (h : Recoverable D P w L) :
    w.node .slots = .missing ∨ ∃ es, w.node .slots = .dir es := by
  rcases h with ⟨h, _⟩ | ⟨st, hd, _⟩
  · exact h.slotsRoot
  · exact Or.inr hd.slotsRoot

theorem wp_makeSlotsRoot (h : RecoveryPoint D P L floor past w) :
    wp sem makeSlotsRoot
      (fun _ w' => RecoveryPoint D P L floor past w' ∧ w'.self = w.self ∧
        ∃ es, w'.node .slots = .dir es)
      (fun _ _ => False) (RecoveryPoint D P L floor past) w := by
  refine wp_bind.mpr (wp_look h ?_)
  rcases h.recoverable.slotsRoot with hroot | ⟨es, hroot⟩
  · have h' : RecoveryPoint D P L floor past (w.set .slots (.dir [])) :=
      ⟨h.recoverable.set_slotsRoot, h.floor, h.history, h.self, h.notRequired⟩
    simp only [hroot]
    exact wp_perform_ok () _ rfl (by simp only [exec, hroot]) h h' ⟨h', rfl, [], by simp⟩
  · simp only [hroot]
    exact ⟨h, h, rfl, es, hroot⟩

/-- The state a first construction writes. -/
theorem Fresh.written (h : Fresh D w) (hroot : ∃ es, w.node .slots = .dir es) :
    Durable D P (w.written .state (.json ({} : DeploymentState).toDict)) {} ∧
      Quiet D (w.written .state (.json ({} : DeploymentState).toDict)) {} := by
  have hslots : ∀ s, ({} : DeploymentState).slots.get s = none := by intro s; cases s <;> rfl
  have hhist : (w.written .state (.json ({} : DeploymentState).toDict)).history = [{}] := by
    simp [recorded_state DeploymentState.initial_wellFormed, h.history]
  refine ⟨?_, ?_⟩
  · exact {
      state := by simp
      wellFormed := DeploymentState.initial_wellFormed
      slotsRoot := by simpa using hroot
      candidates := fun s => by simpa [h.candidate] using Node.Removable.missing
      sequences := fun s v m hv => by simp [hslots] at hv
      history := ⟨[], hhist⟩
      lineage := hhist ▸ .initial }
  · refine ⟨by simpa using h.pending, fun ha => h.floor ha, fun s => ?_⟩
    simpa [SlotSafe, hslots, h.slot, h.backup] using Node.Removable.missing

theorem wp_slotDataExists_missing {C : World → Prop} {Q : Bool → World → Prop}
    {E : PyError → World → Prop} (hroot : ∃ es, w.node .slots = .dir es)
    (hslot : ∀ s, w.node (.slot s) = .missing) (hC : C w) (hQ : Q false w) :
    wp sem slotDataExists Q E C w := by
  obtain ⟨es, hroot⟩ := hroot
  refine wp_bind.mpr (wp_look hC (wp_bind.mpr (wp_look hC (wp_bind.mpr (wp_look hC ⟨hC, ?_⟩)))))
  simpa [hroot, hslot, Node.isSymlink] using hQ

theorem wp_ensureState (h : RecoveryPoint D P L floor past w)
    (hroot : ∃ es, w.node .slots = .dir es) :
    wp sem ensureState
      (fun _ w' => RecoveryPoint D P L floor past w' ∧ w'.self = w.self ∧
        ∃ st, Durable D P w' st ∧ Phase D P w' st L)
      (fun _ _ => False) (RecoveryPoint D P L floor past) w := by
  refine wp_bind.mpr (wp_look h ?_)
  rcases h.recoverable with ⟨hf, rfl⟩ | ⟨st, hd, hp⟩
  · simp only [hf.state]
    refine wp_bind.mpr (wp_slotDataExists_missing hroot hf.slot h ?_)
    refine wp_bind.mpr (wp_raiseIf h (fun _ => ?_) fun hc => absurd hc Bool.false_ne_true)
    have hlast : ({} : DeploymentState).lastError = none := rfl
    have hpast : past = [] := by
      rcases h.history with hh | hh
      · exact hh ▸ hf.history
      · exact absurd (hf.history.symm.trans hh) (List.cons_ne_nil _ _).symm
    obtain ⟨hd, hq⟩ := hf.written (P := P) hroot
    have hpoint : ∀ t, RecoveryPoint D P {} floor past
        ((w.written .state (.json ({} : DeploymentState).toDict)).withTemp t) := by
      intro t
      refine ⟨Or.inr ⟨{}, hd.same ⟨rfl, rfl, rfl⟩, .quiet (hq.same ⟨rfl, rfl, rfl⟩)⟩, h.floor,
        Or.inr ?_, h.self, h.notRequired⟩
      simp [recorded_state DeploymentState.initial_wellFormed, hf.history, hpast]
    refine wp_write DeploymentState.initial_wellFormed
      (DeploymentState.encodable_toDict DeploymentState.initial_wellFormed hlast)
      (by simp [hf.state]) (fun t => h.same ⟨rfl, rfl, rfl⟩ rfl) hpoint ?_
    exact ⟨hpoint none, rfl, {}, hd.same ⟨rfl, rfl, rfl⟩, .quiet (hq.same ⟨rfl, rfl, rfl⟩)⟩
  · simp only [hd.state]
    exact ⟨h, h, rfl, st, hd, hp⟩

/-! ## The journal -/

/-- What `__init__` sets before recovery, when its sample is the anchor's floor. -/
def freshSelf (D : ABDeployer) (floor : Int) : Self :=
  { trustedFloor := if D.anchored then some floor else none, recoveryRequired := false }

theorem freshSelf_ok : SelfOk D (freshSelf D floor) := by
  unfold SelfOk freshSelf
  cases D.anchored <;> rfl

/-- A sequence that verification finds in the target slot of a journal. -/
theorem Installed.manifest {j : PendingAnchor} (h : Installed D w j) {m : ArtifactManifest}
    (hm : D.verifiedDirectoryManifest (w.node (.slot j.targetSlot)) j.version = .ok m) :
    m.releaseSequence = j.releaseSequence := by
  obtain ⟨c, hc, hseq⟩ := verifiedDirectoryManifest_canonical hm
  obtain ⟨c', hc', hseq'⟩ := canonicalManifest_of_identity h.identity
  rw [hc] at hc'
  rw [hseq, Except.ok.inj hc', hseq']

theorem Advanced.advances {j : PendingAnchor} (h : Advanced D P w st j) :
    st.highestReleaseSequence < j.releaseSequence :=
  h.previousFloor ▸ h.wellFormed.advances

theorem Advanced.inactive {j : PendingAnchor} (h : Advanced D P w st j) :
    st.activeSlot ≠ some j.targetSlot :=
  h.target ▸ Slot.inactive_ne st.activeSlot

theorem committed_wellFormed {v : PyStr} {m : ArtifactManifest} (h : st.WellFormed)
    (hm : D.canonicalManifest v = .ok m) : (st.committed v m.releaseSequence).WellFormed := by
  have hv : semverMatch v = true := by
    simp only [canonicalManifest, bind_eq_ok] at hm
    obtain ⟨_, hinspect, _⟩ := hm
    exact (Registry.inspect_ok hinspect).2
  have hge := h.floor_ge
  have hle := h.floor_le
  have hseq := m.sequence_le
  exact DeploymentState.promoted_wellFormed h (Slot.inactive_ne _) hv (by omega) (by omega)

theorem Durable.write (hd : Durable D P w st) (hL : L.WellFormed) (hsucc : Succeeds D P st L)
    (hseq : ∀ s v m, L.slots.get s = some v → D.canonicalManifest v = .ok m →
      m.releaseSequence ≤ L.highestReleaseSequence) :
    Durable D P (w.written .state (.json L.toDict)) L where
  state := by simp
  wellFormed := hL
  slotsRoot := by simpa using hd.slotsRoot
  candidates := by simpa using hd.candidates
  sequences := hseq
  history := ⟨w.history, by simp [recorded_state hL]⟩
  lineage := by
    obtain ⟨past, hpast⟩ := hd.history
    have hl := hd.lineage
    rw [hpast] at hl
    simpa [recorded_state hL, hpast] using hl.step hsucc

/-- A version of the committed state is the new one, or was there before. -/
theorem committed_slots {v x : PyStr} {seq : Int} {s : Slot}
    (h : (st.committed v seq).slots.get s = some x) : x = v ∨ st.slots.get s = some x := by
  simp only [DeploymentState.committed, DeploymentState.promoted, Slots.get_set] at h
  split_ifs at h
  · exact Or.inl (Option.some.inj h).symm
  · exact Or.inr h

/-- The commit of a qualified release. -/
theorem Durable.commit (hd : Durable D P w st) {v : PyStr} {m : ArtifactManifest}
    (hm : D.canonicalManifest v = .ok m)
    (hseq : D.anchored = true → st.highestReleaseSequence < m.releaseSequence) (hv : P st v) :
    Durable D P (w.written .state (.json (st.committed v m.releaseSequence).toDict))
      (st.committed v m.releaseSequence) := by
  refine hd.write (committed_wellFormed hd.wellFormed hm) (.committed hm hseq hv)
    fun s x c hx hc => ?_
  rcases committed_slots hx with rfl | hx
  · rw [hm] at hc
    obtain rfl := Except.ok.inj hc
    exact Int.le_max_right _ _
  · exact Int.le_trans (hd.sequences s x c hx hc) (Int.le_max_left _ _)

/-- A journalled commit is the commit of the release the journal names. -/
theorem Advanced.committed {j : PendingAnchor} (h : Advanced D P w st j) :
    ∃ m, D.canonicalManifest j.version = .ok m ∧ m.releaseSequence = j.releaseSequence ∧
      st.promoted j.targetSlot j.version j.releaseSequence =
        st.committed j.version m.releaseSequence := by
  obtain ⟨m, hm, hseq⟩ := canonicalManifest_of_identity h.identity
  refine ⟨m, hm, hseq, ?_⟩
  rw [DeploymentState.committed, hseq, Int.max_eq_right (Int.le_of_lt h.advances), ← h.target]

theorem Advanced.wellFormed_promoted {j : PendingAnchor} (hd : Durable D P w st)
    (h : Advanced D P w st j) :
    (st.promoted j.targetSlot j.version j.releaseSequence).WellFormed := by
  obtain ⟨m, hm, _, heq⟩ := h.committed
  exact heq ▸ committed_wellFormed hd.wellFormed hm

/-- The active slot is the one that takes no new version. -/
theorem active_of_ne {s t : Slot} (hwf : st.WellFormed) (ht : st.activeSlot ≠ some t) (hs : s ≠ t) :
    st.activeSlot = some s ∨ st.slots.get s = none := by
  cases ha : st.activeSlot with
  | none =>
    rw [hwf.active_first ha]
    exact Or.inr (by cases s <;> rfl)
  | some a =>
    have hat : a ≠ t := fun heq => ht (heq ▸ ha)
    exact Or.inl (by cases s <;> cases a <;> cases t <;> simp_all)

theorem Advanced.written {j : PendingAnchor} (hd : Durable D P w st) (h : Advanced D P w st j) :
    let L := st.promoted j.targetSlot j.version j.releaseSequence
    Durable D P (w.written .state (.json L.toDict)) L ∧
      Committed D (w.written .state (.json L.toDict)) L j := by
  intro L
  constructor
  · obtain ⟨m, hm, hseq, heq⟩ := h.committed
    have hd' := hd.commit hm (fun _ => hseq ▸ h.advances) h.qualified
    rwa [← heq] at hd'
  · refine {
      anchored := h.anchored
      pending := by simpa using h.pending
      wellFormed := h.wellFormed
      identity := h.identity
      verifies := by simpa using h.verifies
      floor := h.floor
      releaseSequence := rfl
      generation := by simp [L, DeploymentState.promoted, h.previousGeneration]
      active := rfl
      version := by simp [L, DeploymentState.promoted]
      safe := fun s => ?_ }
    by_cases hs : s = j.targetSlot
    · subst hs
      simp [L, DeploymentState.promoted, SlotSafe, h.verifies, h.backup.removable]
    · simpa [L, DeploymentState.promoted, Slots.get_set, hs] using
        ((h.safe s hs).mono fun heq => absurd heq.symm hs :
          SlotSafe D (j.targetSlot = s) _ _ _)

theorem Committed.finished {j : PendingAnchor} (h : Committed D w L j) :
    Quiet D (w.set .pending .missing) L :=
  ⟨by simp, fun _ => h.floor, fun s => by simpa using h.safe s⟩

theorem Durable.set_pending (hd : Durable D P w L) (n : Node) :
    Durable D P (w.set .pending n) L :=
  hd.congr (by simp) (by simp) (by simpa using hd.candidates) rfl

theorem InertPoint.of_quiet (hd : Durable D P w L) (hq : Quiet D w L) (hfloor : w.floor = floor)
    (hhist : w.history = past ∨ w.history = L :: past) (hself : SelfOk D w.self)
    (hreq : w.self.recoveryRequired = false) : InertPoint D P L floor past w where
  toDurable := hd
  safe := hq.safe
  anchor := hq.floor
  pending := Or.inl hq.pending
  floor := hfloor
  history' := hhist
  self := hself
  notRequired := hreq

/-- A journal of a landed commit is removed. -/
theorem wp_remove_committed {j : PendingAnchor} {Q : Unit → World → Prop}
    (h : RecoveryPoint D P L floor past w) (hd : Durable D P w L) (hc : Committed D w L j)
    (hQ : ∀ w', InertPoint D P L floor past w' → Q () w') :
    wp sem removePendingAnchor Q (fun _ _ => False) (RecoveryPoint D P L floor past) w := by
  have hinert : InertPoint D P L floor past (w.set .pending .missing) :=
    .of_quiet (hd.set_pending _) hc.finished h.floor h.history h.self h.notRequired
  exact wp_removePendingAnchor hc.pending h hinert.point (hQ _ hinert)

theorem wp_completeCommit {j : PendingAnchor} (h : RecoveryPoint D P
      (st.promoted j.targetSlot j.version j.releaseSequence) floor past w)
    (hd : Durable D P w st) (ha : Advanced D P w st j) (hpast : w.history = past) :
    wp sem (D.completeCommit st (some j) j.releaseSequence)
      (fun r w' => r = st.promoted j.targetSlot j.version j.releaseSequence ∧
        InertPoint D P (st.promoted j.targetSlot j.version j.releaseSequence) floor past w')
      (fun _ _ => False)
      (RecoveryPoint D P (st.promoted j.targetSlot j.version j.releaseSequence) floor past) w := by
  have hwf := ha.wellFormed_promoted hd
  obtain ⟨hd', hc⟩ := ha.written hd
  refine wp_bind.mpr (wp_raiseIf h (fun _ => ?_) fun hcon => ?_)
  · refine wp_bind.mpr (wp_lift_ok ha.identity h ?_)
    refine wp_bind.mpr (wp_verifiedSlotManifest ha.verifies h fun m hm => ?_)
    refine wp_bind.mpr (wp_raiseIf h (fun _ => ?_) fun hne => hne (ha.toInstalled.manifest hm))
    have hpoint : ∀ t, RecoveryPoint D P
        (st.promoted j.targetSlot j.version j.releaseSequence) floor past
        ((w.written .state (.json
          (st.promoted j.targetSlot j.version j.releaseSequence).toDict)).withTemp t) := by
      intro t
      refine ⟨Or.inr ⟨_, hd'.same ⟨rfl, rfl, rfl⟩, .committed (hc.same ⟨rfl, rfl, rfl⟩)⟩, h.floor,
        Or.inr ?_, h.self, h.notRequired⟩
      simp [recorded_state hwf, hpast]
    refine wp_bind.mpr (wp_write hwf (DeploymentState.encodable_toDict hwf rfl)
      (by simp [hd.state]) (fun t => h.same ⟨rfl, rfl, rfl⟩ rfl) hpoint ?_)
    refine wp_bind.mpr (wp_remove_committed (hpoint none) (hd'.same ⟨rfl, rfl, rfl⟩)
      (hc.same ⟨rfl, rfl, rfl⟩) fun w' hw' => ?_)
    exact ⟨hw'.point, rfl, hw'⟩
  · rcases hcon with hcon | hcon | hcon
    · exact hcon ha.previousFloor
    · exact hcon ha.previousGeneration
    · exact hcon rfl

theorem wp_settleJournal_abandoned {j : PendingAnchor} {Q : Unit → World → Prop}
    (h : RecoveryPoint D P L floor past w) (hp : Abandoned D w L j) (hQ : Q () w) :
    wp sem (D.settleJournal L (some j) w.floor) Q (fun _ _ => False)
      (RecoveryPoint D P L floor past) w := by
  have hnot : describesCommitted L j w.floor = false := by
    simp [describesCommitted, hp.2.2]
  simp only [settleJournal, hnot, Bool.false_eq_true, if_false]
  exact wp_raiseIf h (fun _ => hQ) fun hcon =>
    hcon.elim (fun hne => hne hp.2.1) fun hne => hne hp.2.2

theorem wp_settleJournal_committed {j : PendingAnchor} {Q : Unit → World → Prop}
    (h : RecoveryPoint D P L floor past w) (hd : Durable D P w L) (hc : Committed D w L j)
    (hQ : ∀ w', InertPoint D P L floor past w' → Q () w') :
    wp sem (D.settleJournal L (some j) w.floor) Q (fun _ _ => False)
      (RecoveryPoint D P L floor past) w := by
  have hdesc : describesCommitted L j w.floor = true := by
    simp [describesCommitted, hc.floor, hc.releaseSequence, hc.generation, hc.active, hc.version]
  simp only [settleJournal, hdesc, if_true]
  refine wp_bind.mpr (wp_lift_ok hc.identity h ?_)
  refine wp_bind.mpr (wp_verifiedSlotManifest hc.verifies h fun m _ => ?_)
  exact wp_remove_committed h hd hc hQ

/-- Whatever the phase, reading the journal and acting on it leaves `L` on disk. -/
theorem wp_recoverAnchorCommit (h : RecoveryPoint D P L floor past w) (hd : Durable D P w st)
    (hphase : Phase D P w st L) (hself : w.self = freshSelf D w.floor) (hpast : st ≠ L → w.history = past) :
    wp sem (do
        let pending ← readPendingAnchor
        D.recoverAnchorCommit st pending)
      (fun r w' => r = L ∧ InertPoint D P L floor past w') (fun _ _ => False)
      (RecoveryPoint D P L floor past) w := by
  cases hphase with
  | quiet hq =>
    have hinert : InertPoint D P L floor past w :=
      .of_quiet hd hq h.floor h.history h.self h.notRequired
    refine wp_bind.mpr (wp_readPendingAnchor_missing hq.pending h ?_)
    refine wp_bind.mpr (wp_getSelf h ?_)
    cases ha : D.anchored with
    | false =>
      simp only [hself, freshSelf, ha, Bool.false_eq_true, if_false]
      exact wp_bind.mpr (wp_raiseIf h (fun _ => ⟨h, rfl, hinert⟩) fun hcon => absurd hcon Bool.false_ne_true)
    | true =>
      simp only [hself, freshSelf, ha, if_true]
      refine wp_bind.mpr (wp_raiseIf h (fun _ => ?_) fun hlt => ?_)
      · rw [if_pos (hq.floor ha).symm]
        exact wp_bind.mpr ⟨h, h, rfl, hinert⟩
      · exact absurd (hq.floor ha) (Int.ne_of_lt hlt)
  | prepared hq =>
    have hinert : InertPoint D P L floor past w := {
      toDurable := hd
      safe := hq.safe
      anchor := fun _ => hq.floor
      pending := Or.inr ⟨_, hq.toJournal, hq.previousFloor, hq.previousGeneration⟩
      floor := h.floor
      history' := h.history
      self := h.self
      notRequired := h.notRequired }
    refine wp_bind.mpr (wp_readPendingAnchor hq.toJournal h ?_)
    refine wp_bind.mpr (wp_getSelf h ?_)
    simp only [hself, freshSelf, hq.anchored, if_true]
    refine wp_bind.mpr (wp_raiseIf h (fun _ => ?_) fun hlt => absurd hq.floor (Int.ne_of_lt hlt))
    rw [if_pos hq.floor.symm]
    exact wp_bind.mpr (wp_settleJournal_abandoned h
      ⟨hq.toJournal, hq.previousFloor, hq.previousGeneration⟩ ⟨h, rfl, hinert⟩)
  | advanced hq =>
    refine wp_bind.mpr (wp_readPendingAnchor hq.toJournal h ?_)
    refine wp_bind.mpr (wp_getSelf h ?_)
    simp only [hself, freshSelf, hq.anchored, if_true]
    have hlt := hq.floor ▸ hq.advances
    refine wp_bind.mpr (wp_raiseIf h (fun _ => ?_) fun hgt => absurd hgt (Int.not_lt.mpr (Int.le_of_lt hlt)))
    rw [if_neg (Int.ne_of_lt hlt), hq.floor]
    refine wp_completeCommit h hd hq (hpast fun heq => ?_)
    have := congrArg DeploymentState.generation heq
    simp [DeploymentState.promoted] at this
  | committed hq =>
    refine wp_bind.mpr (wp_readPendingAnchor hq.toJournal h ?_)
    refine wp_bind.mpr (wp_getSelf h ?_)
    simp only [hself, freshSelf, hq.anchored, if_true]
    refine wp_bind.mpr (wp_raiseIf h (fun _ => ?_) fun hlt => absurd hq.floor (Int.ne_of_lt hlt))
    rw [if_pos hq.floor.symm]
    exact wp_bind.mpr (wp_settleJournal_committed h hd hq fun w' hw' => ⟨hw'.point, rfl, hw'⟩)

/-! ## Backups -/

theorem wp_restore {s : Slot} {v : PyStr} {Q : Unit → World → Prop} {E : PyError → World → Prop}
    (h : InertPoint D P L floor past w) (hv : L.slots.get s = some v)
    (hslot : w.node (.slot s) = .missing) (hb : Verifies D (w.node (.backup s)) v)
    (hQ : ∀ w', InertPoint D P L floor past w' → w'.node (.backup s) = .missing →
      (∀ t, t ≠ s → w'.node (.backup t) = w.node (.backup t)) → Q () w') :
    wp sem (perform (.rename (.backup s) (.slot s))) Q E (RecoveryPoint D P L floor past) w := by
  have h' := h.restore hv hb
  obtain ⟨es, hes⟩ := h.slotsRoot
  refine wp_rename ?_ ?_ h.point h'.point (hQ _ h' (by simp) fun t hts => by simp [hts])
  · rcases hb.removable with hmiss | ⟨es, hdir⟩
    · exact absurd hmiss hb.ne_missing
    · rw [hdir, hslot]
      rfl
  · simp only [parentError, hes]

theorem wp_recoverBackup (h : InertPoint D P L floor past w) (s : Slot) :
    wp sem (D.recoverBackup L s)
      (fun _ w' => InertPoint D P L floor past w' ∧ w'.node (.backup s) = .missing ∧
        ∀ t, t ≠ s → w'.node (.backup t) = w.node (.backup t))
      (fun _ _ => False) (RecoveryPoint D P L floor past) w := by
  refine wp_bind.mpr (wp_look h.point ?_)
  have hsafe := h.safe s
  rcases hsafe.backup_removable with hb | ⟨es, hb⟩
  · simp only [hb]
    exact ⟨h.point, h, hb, fun _ _ => rfl⟩
  simp only [hb]
  cases hv : L.slots.get s with
  | none =>
    rw [hv] at hsafe
    exact absurd (hb.symm.trans hsafe.2) nofun
  | some v =>
    rw [hv] at hsafe
    refine wp_bind.mpr (wp_look h.point ?_)
    cases hfinal : D.verifiedDirectoryManifest (w.node (.slot s)) v with
    | ok m =>
      -- the slot already holds the recorded version: the backup goes
      have hset : ∀ n : Node, n.Removable → InertPoint D P L floor past (w.set (.backup s) n) :=
        fun n hn => h.set_backup (by rw [hv]; exact Or.inl ⟨⟨m, hfinal⟩, hn⟩)
      exact wp_rmtree (Or.inr ⟨es, hb⟩) (Or.inr (by simp [hb])) (fun n hn => (hset n hn).point)
        ⟨hset _ .missing, by simp, fun t hts => by simp [hts]⟩
    | error e =>
      have hnot : ¬Verifies D (w.node (.slot s)) v := by
        rintro ⟨m, hm⟩
        rw [hfinal] at hm
        cases hm
      obtain ⟨hact, hrem, m, hm⟩ := hsafe.resolve_left fun hs => hnot hs.1
      have hback : Verifies D (w.node (.backup s)) v := ⟨m, hm⟩
      rw [hb] at hm
      refine wp_bind.mpr (wp_lift_ok hm h.point (wp_bind.mpr ?_))
      have hset : ∀ n : Node, n.Removable → InertPoint D P L floor past (w.set (.slot s) n) :=
        fun n hn => h.set_slot (by rw [hv]; exact Or.inr ⟨hact, hn, hback⟩)
      rcases hrem with hmiss | ⟨es', hdir⟩
      · simp only [hmiss]
        exact ⟨h.point, wp_restore h hv hmiss hback fun w' hw' hb' hoth => ⟨hw', hb', hoth⟩⟩
      · simp only [hdir]
        refine wp_rmtree (Or.inr ⟨es', hdir⟩) (Or.inr (by simp [hdir]))
          (fun n hn => (hset n hn).point) ?_
        refine wp_restore (hset _ .missing) hv (by simp) (by simpa using hback)
          fun w' hw' hb' hoth => ⟨hw', hb', fun t hts => ?_⟩
        rw [hoth t hts, World.set_node, if_neg nofun]

theorem wp_recoverBackups (slots : List Slot) (h : InertPoint D P L floor past w) :
    wp sem (D.recoverBackups L slots)
      (fun _ w' => InertPoint D P L floor past w' ∧
        ∀ t, t ∈ slots ∨ w.node (.backup t) = .missing → w'.node (.backup t) = .missing)
      (fun _ _ => False) (RecoveryPoint D P L floor past) w := by
  induction slots generalizing w with
  | nil => exact ⟨h.point, h, fun t ht => ht.resolve_left nofun⟩
  | cons s slots ih =>
    refine wp_bind.mpr (wp_mono (wp_recoverBackup h s) ?_ (fun _ _ _ he => he) fun _ hc => hc)
    rintro _ w₁ _ ⟨h₁, hs, hoth⟩
    refine wp_mono (ih h₁) ?_ (fun _ _ _ he => he) fun _ hc => hc
    rintro _ w₂ _ ⟨h₂, hmiss⟩
    refine ⟨h₂, fun t ht => hmiss t ?_⟩
    by_cases hts : t = s
    · exact Or.inr (hts ▸ hs)
    · rcases ht with ht | ht
      · exact Or.inl ((List.mem_cons.mp ht).resolve_left hts)
      · exact Or.inr ((hoth t hts).trans ht)

theorem mem_slotsFrom (first s : Slot) : s ∈ slotsFrom first := by
  cases first <;> cases s <;> decide

/-! ## Candidates and slots -/

/-- Backups are gone. -/
def NoBackup (w : World) : Prop := ∀ s, w.node (.backup s) = .missing

theorem wp_removeCandidates (slots : List Slot) (h : InertPoint D P L floor past w)
    (hb : NoBackup w) :
    wp sem (removeCandidates slots)
      (fun _ w' => InertPoint D P L floor past w' ∧ NoBackup w' ∧
        ∀ t, t ∈ slots ∨ w.node (.candidate t) = .missing → w'.node (.candidate t) = .missing)
      (fun _ _ => False) (RecoveryPoint D P L floor past) w := by
  induction slots generalizing w with
  | nil => exact ⟨h.point, h, hb, fun t ht => ht.resolve_left nofun⟩
  | cons s slots ih =>
    refine wp_bind.mpr (wp_look h.point ?_)
    rcases h.candidates s with hmiss | ⟨es, hdir⟩
    · simp only [hmiss]
      refine wp_mono (ih h hb) ?_ (fun _ _ _ he => he) fun _ hc => hc
      rintro _ w' _ ⟨h', hb', hc'⟩
      refine ⟨h', hb', fun t ht => hc' t ?_⟩
      by_cases hts : t = s
      · exact Or.inr (hts ▸ hmiss)
      · exact ht.imp (fun hm => (List.mem_cons.mp hm).resolve_left hts) id
    · simp only [hdir]
      have hset : ∀ n : Node, n.Removable → InertPoint D P L floor past (w.set (.candidate s) n) :=
        fun n hn => h.set_candidate hn
      refine wp_bind.mpr (wp_rmtree (Or.inr ⟨es, hdir⟩) (Or.inr (by simp [hdir]))
        (fun n hn => (hset n hn).point) ?_)
      refine wp_mono (ih (hset _ .missing) (by simpa [NoBackup] using hb)) ?_
        (fun _ _ _ he => he) fun _ hc => hc
      rintro _ w' _ ⟨h', hb', hc'⟩
      refine ⟨h', hb', fun t ht => hc' t ?_⟩
      by_cases hts : t = s
      · exact Or.inr (by simp [hts])
      · exact ht.imp (fun hm => (List.mem_cons.mp hm).resolve_left hts) fun hm => by
          simpa [hts] using hm

theorem wp_settleSlot (h : InertPoint D P L floor past w) (hb : NoBackup w) (s : Slot) :
    wp sem (D.settleSlot L s)
      (fun _ w' => InertPoint D P L floor past w' ∧
        SlotCalm D (L.slots.get s) (w'.node (.slot s)) .missing ∧
        ∀ p, p ≠ .slot s → w'.node p = w.node p)
      (fun _ _ => False) (RecoveryPoint D P L floor past) w := by
  have hsafe := h.safe s
  unfold settleSlot
  cases hv : L.slots.get s with
  | none =>
    refine wp_bind.mpr (wp_look h.point ?_)
    rcases hsafe.final_removable with hmiss | ⟨es, hdir⟩
    · simp only [hmiss]
      exact ⟨h.point, h, ⟨hmiss, rfl⟩, fun _ _ => rfl⟩
    · simp only [hdir]
      have hset : ∀ n : Node, n.Removable → InertPoint D P L floor past (w.set (.slot s) n) :=
        fun n hn => h.set_slot (by rw [hv]; exact ⟨hn, hb s⟩)
      exact wp_rmtree (Or.inr ⟨es, hdir⟩) (Or.inr (by simp [hdir])) (fun n hn => (hset n hn).point)
        ⟨hset _ .missing, ⟨by simp, rfl⟩, fun p hp => by simp [hp]⟩
  | some v =>
    rw [hv, hb s] at hsafe
    have hver : Verifies D (w.node (.slot s)) v :=
      hsafe.elim And.left fun hs => absurd rfl hs.2.2.ne_missing
    refine wp_bind.mpr (wp_verifiedSlotManifest hver h.point fun m hm => ?_)
    refine wp_raiseIf h.point (fun _ => ⟨h, ⟨hver, .missing⟩, fun _ _ => rfl⟩) fun hlt => ?_
    obtain ⟨c, hc, hseq⟩ := verifiedDirectoryManifest_canonical hm
    have hle := h.sequences s v c hv hc
    omega

theorem wp_settleSlots (slots : List Slot) (h : InertPoint D P L floor past w) (hb : NoBackup w) :
    wp sem (D.settleSlots L slots)
      (fun _ w' => InertPoint D P L floor past w' ∧
        (∀ t, t ∈ slots ∨ SlotCalm D (L.slots.get t) (w.node (.slot t)) .missing →
          SlotCalm D (L.slots.get t) (w'.node (.slot t)) .missing) ∧
        ∀ p, (∀ s, p ≠ .slot s) → w'.node p = w.node p)
      (fun _ _ => False) (RecoveryPoint D P L floor past) w := by
  induction slots generalizing w with
  | nil => exact ⟨h.point, h, fun t ht => ht.resolve_left nofun, fun _ _ => rfl⟩
  | cons s slots ih =>
    refine wp_bind.mpr (wp_mono (wp_settleSlot h hb s) ?_ (fun _ _ _ he => he) fun _ hc => hc)
    rintro _ w₁ _ ⟨h₁, hs, hoth⟩
    have hb₁ : NoBackup w₁ := fun t => (hoth (.backup t) nofun).trans (hb t)
    refine wp_mono (ih h₁ hb₁) ?_ (fun _ _ _ he => he) fun _ hc => hc
    rintro _ w₂ _ ⟨h₂, hcalm, hframe⟩
    refine ⟨h₂, fun t ht => hcalm t ?_, fun p hp => (hframe p hp).trans (hoth p (hp s))⟩
    by_cases hts : t = s
    · exact Or.inr (hts ▸ hs)
    · have hne : Path.slot t ≠ .slot s := fun heq => hts (Path.slot.inj heq)
      rcases ht with ht | ht
      · exact Or.inl ((List.mem_cons.mp ht).resolve_left hts)
      · exact Or.inr ((hoth _ hne).symm ▸ ht)

theorem wp_dropJournal {Q : Unit → World → Prop} (h : InertPoint D P L floor past w)
    (hQ : ∀ w', InertPoint D P L floor past w' → w'.node .pending = .missing →
      (∀ p, p ≠ .pending → w'.node p = w.node p) → Q () w') :
    wp sem dropJournal Q (fun _ _ => False) (RecoveryPoint D P L floor past) w := by
  refine wp_bind.mpr (wp_look h.point ?_)
  rcases h.pending with hp | ⟨j, hj, _⟩
  · simp only [hp]
    exact ⟨h.point, hQ w h hp fun _ _ => rfl⟩
  · simp only [hj.pending]
    have h' : InertPoint D P L floor past (w.set .pending .missing) :=
      .of_quiet (h.toDurable.set_pending _)
        ⟨by simp, h.anchor, fun s => by simpa using h.safe s⟩ h.floor h.history' h.self
        h.notRequired
    exact wp_removePendingAnchor hj.pending h.point h'.point
      (hQ _ h' (by simp) fun p hp => by simp [hp])

/-! ## Recovery and construction -/

theorem RecoveryPoint.readOnly (h : RecoveryPoint D P L floor past w) (hr : ReadOnly w w') :
    RecoveryPoint D P L floor past w' where
  recoverable := h.recoverable.same hr.toSameDisk
  floor := hr.floor.trans h.floor
  history := hr.history ▸ h.history
  self := hr.trustedFloor.trans h.self
  notRequired := hr.recoveryRequired.trans h.notRequired

/-- Recovery from any recoverable directory ends in its logical state. -/
theorem wp_recover (order : Order) (h : RecoveryPoint D P L floor past w)
    (hself : w.self = freshSelf D w.floor) :
    wp sem (D.recover order) (fun _ w' => Settled D P w' L) (fun _ _ => False)
      (RecoveryPoint D P L floor past) w := by
  refine wp_bind.mpr (wp_mono (wp_makeSlotsRoot h) ?_ (fun _ _ _ he => he) fun _ hc => hc)
  rintro _ w₁ - ⟨h₁, hself₁, hroot⟩
  refine wp_bind.mpr (wp_mono (wp_ensureState h₁ hroot) ?_ (fun _ _ _ he => he) fun _ hc => hc)
  rintro _ w₂ - ⟨h₂, hself₂, st, hd, hphase⟩
  refine wp_bind.mpr (wp_read_unchecked hd.state hd.wellFormed h₂ ?_)
  have hs : w₂.self = freshSelf D w₂.floor := by
    rw [hself₂, hself₁, hself, h₂.floor, ← h.floor]
  have hnew : st ≠ L → w₂.history = past := by
    intro hne
    rcases h₂.history with hh | hh
    · exact hh
    · obtain ⟨_, hst⟩ := hd.history
      exact absurd (List.cons.inj (hst.symm.trans hh)).1 hne
  have hcommit := wp_recoverAnchorCommit h₂ hd hphase hs hnew
  rw [wp_bind] at hcommit
  refine wp_bind.mpr (wp_mono hcommit (fun pending w₃ _ hw₃ => ?_) (fun _ _ _ he => he)
    fun _ hc => hc)
  refine wp_bind.mpr (wp_mono hw₃ ?_ (fun _ _ _ he => he) fun _ hc => hc)
  rintro r w₄ - ⟨hr, h₄⟩
  rw [hr]
  refine wp_bind.mpr (wp_mono (wp_recoverBackups _ h₄) ?_ (fun _ _ _ he => he) fun _ hc => hc)
  rintro _ w₅ - ⟨h₅, hb₅⟩
  have hb₅ : NoBackup w₅ := fun s => hb₅ s (Or.inl (mem_slotsFrom _ s))
  refine wp_bind.mpr (wp_mono (wp_removeCandidates _ h₅ hb₅) ?_ (fun _ _ _ he => he)
    fun _ hc => hc)
  rintro _ w₆ - ⟨h₆, hb₆, hc₆⟩
  refine wp_bind.mpr (wp_mono (wp_settleSlots _ h₆ hb₆) ?_ (fun _ _ _ he => he) fun _ hc => hc)
  rintro _ w₇ - ⟨h₇, hs₇, hoth₇⟩
  refine wp_bind.mpr (wp_dropJournal h₇ fun w₈ h₈ hp₈ hoth₈ => ?_)
  have hcalm : ∀ s, SlotCalm D (L.slots.get s) (w₈.node (.slot s)) .missing := by
    intro s
    rw [hoth₈ (.slot s) nofun]
    exact hs₇ s (Or.inl (by cases s <;> decide))
  have hbackup : ∀ s, w₈.node (.backup s) = .missing := fun s => by
    rw [hoth₈ (.backup s) nofun, hoth₇ (.backup s) nofun, hb₆ s]
  have hcand : ∀ s, w₈.node (.candidate s) = .missing := fun s => by
    rw [hoth₈ (.candidate s) nofun, hoth₇ (.candidate s) nofun, hc₆ s (Or.inl (mem_slotsFrom _ s))]
  have hsettled : Settled D P w₈ L := {
    toDurable := h₈.toDurable
    pending := hp₈
    floor := h₈.anchor
    slots := fun s => by rw [hbackup s]; exact hcalm s
    noBackup := hbackup
    noCandidate := hcand }
  refine wp_validateStateAnchor h₈.wellFormed h₈.self (fun w' hw' => h₈.point.readOnly hw')
    (fun _ w' hw' => ?_) fun ha hcon => absurd ⟨h₈.notRequired, h₈.anchor ha⟩ hcon
  exact {
    toCalm := hsettled.toCalm.same hw'.toSameDisk
    noBackup := fun s => by rw [hw'.node]; exact hbackup s
    noCandidate := fun s => by rw [hw'.node]; exact hcand s }

/-- The anchor of a recoverable directory reports a floor the deployer accepts. -/
theorem Recoverable.floorInRange (h : Recoverable D P w L) (ha : D.anchored = true) :
    FloorInRange w.floor := by
  rcases h with ⟨h, _⟩ | ⟨st, hd, hphase⟩
  · rw [h.floor ha]
    exact ⟨Int.le_refl _, by simp [maxReleaseSequence]⟩
  · have hst : FloorInRange st.highestReleaseSequence :=
      ⟨hd.wellFormed.floor_ge, hd.wellFormed.floor_le⟩
    cases hphase with
    | quiet h => exact h.floor ha ▸ hst
    | prepared h => exact h.floor ▸ hst
    | advanced h =>
      have := h.wellFormed.sequence_nonneg
      exact h.floor ▸ ⟨by omega, h.wellFormed.sequence_le⟩
    | committed h => exact h.floor ▸ hst

/-- What a construction keeps at each of its steps. -/
structure ConstructPoint (D : ABDeployer) (P : Provenance) (L : DeploymentState) (w w' : World) :
    Prop where
  recoverable : Recoverable D P w' L
  floor : w'.floor = w.floor
  history : w'.history = w.history ∨ w'.history = L :: w.history

/-- A deployer that may go on: it has an anchor's floor exactly when it has an
anchor, and no transaction of its own is unresolved. -/
structure Ready (D : ABDeployer) (w : World) : Prop where
  self : SelfOk D w.self
  notRequired : w.self.recoveryRequired = false

theorem RecoveryPoint.construct {w₀ : World}
    (h : RecoveryPoint D P L w₀.floor w₀.history w) : ConstructPoint D P L w₀ w :=
  ⟨h.recoverable, h.floor, h.history⟩

theorem RecoveryPoint.ready (h : RecoveryPoint D P L floor past w) : Ready D w :=
  ⟨h.self, h.notRequired⟩

/-- Construction over a recoverable directory succeeds, and its crashes leave the
directory as recoverable as it was. -/
theorem wp_construct (order : Order) (h : Recoverable D P w L) :
    wp sem (D.construct order) (fun _ w' => Settled D P w' L ∧ Ready D w') (fun _ _ => False)
      (ConstructPoint D P L w) w := by
  have hsame : ∀ w', SameDisk w w' → ConstructPoint D P L w w' := fun w' hs =>
    ⟨h.same hs, hs.floor, Or.inl hs.history⟩
  have hstart : ∀ w', SameDisk w w' → wp sem
      (D.start (if D.anchored then some w.floor else none) order)
      (fun _ w' => Settled D P w' L ∧ Ready D w') (fun _ _ => False)
      (ConstructPoint D P L w) w' := by
    intro w' hs
    have hs' : SameDisk w { w' with self := freshSelf D w.floor } :=
      ⟨hs.node, hs.floor, hs.history⟩
    refine wp_bind.mpr (wp_setSelf (hsame _ hs) (hsame _ hs') ?_)
    have hpoint : RecoveryPoint D P L w.floor w.history { w' with self := freshSelf D w.floor } :=
      ⟨h.same hs', hs.floor, Or.inl hs.history, freshSelf_ok, rfl⟩
    have hself : (freshSelf D w.floor) = freshSelf D w'.floor := by rw [hs.floor]
    exact wp_mono (wp_recover order hpoint hself)
      (fun _ _ hp hq => ⟨hq, hp.ready⟩) (fun _ _ _ he => he) fun _ hp => hp.construct
  unfold ABDeployer.construct ABDeployer.sampleFloor
  cases ha : D.anchored with
  | false =>
    simp only [ha, Bool.false_eq_true, if_false] at hstart ⊢
    exact wp_bind.mpr ⟨hsame _ (.refl w), hstart w (.refl w)⟩
  | true =>
    simp only [ha, if_true] at hstart ⊢
    have hobs : SameDisk w { w with observed := observe w.floor w.observed } := ⟨rfl, rfl, rfl⟩
    refine wp_bind.mpr (wp_bind.mpr (wp_readAnchorFloor ha (hsame _ (.refl w)) (hsame _ hobs)
      (fun _ => ⟨hsame _ hobs, hstart _ hobs⟩) fun hrange => ?_))
    exact absurd (h.floorInRange ha) hrange

end Deploy
end EdgeFort
