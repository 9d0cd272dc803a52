/-
The invariant of the deployment directory under one writer.

Between any two operations the directory is `Recoverable`: `state.json` is absent
and nothing else is there, or it holds a state whose slots and journal are in one
of four phases of a transaction.  Each phase fixes the logical state, the one
recovery will end in.
-/
import EdgeFort.Deploy.Deployer
import EdgeFort.Deploy.FileRules

namespace EdgeFort
namespace Deploy

open Effect

/-! ## Which states may follow which -/

/-- Which versions deployments over a state have qualified. -/
abbrev Provenance := DeploymentState → PyStr → Prop

/-- The writes of `state.json` that the deployer makes over a state. -/
inductive Succeeds (D : ABDeployer) (P : Provenance) (st : DeploymentState) :
    DeploymentState → Prop
  | failed (e : PyError) : Succeeds D P st (st.failed e)
  | committed {v : PyStr} {m : ArtifactManifest} : D.canonicalManifest v = .ok m →
      (D.anchored = true → st.highestReleaseSequence < m.releaseSequence) → P st v →
      Succeeds D P st (st.committed v m.releaseSequence)
  | rolledBack {s : Slot} : st.previousSlot = some s → Succeeds D P st (st.rolledBack s)

/-- The states `state.json` has held, newest first. -/
inductive Lineage (D : ABDeployer) (P : Provenance) : List DeploymentState → Prop
  | initial : Lineage D P [{}]
  | step {st st' : DeploymentState} {past : List DeploymentState} :
      Lineage D P (st :: past) → Succeeds D P st st' → Lineage D P (st' :: st :: past)

theorem Lineage.mono {D : ABDeployer} {P P' : Provenance} {states : List DeploymentState}
    (h : Lineage D P states) (hP : ∀ st v, P st v → P' st v) : Lineage D P' states := by
  induction h with
  | initial => exact .initial
  | step _ hs ih =>
    refine ih.step ?_
    cases hs with
    | failed e => exact .failed e
    | committed hm hlt hv => exact .committed hm hlt (hP _ _ hv)
    | rolledBack hs => exact .rolledBack hs

/-! ## Slots -/

section
variable (D : ABDeployer)

/-- The directory holds the release the registry publishes as `v`. -/
def Verifies (n : Node) (v : PyStr) : Prop := ∃ m, D.verifiedDirectoryManifest n v = .ok m

/-- A slot from which recovery finds the recorded version, in place or in the
backup.  The active slot is never moved. -/
def SlotSafe (active : Prop) (version : Option PyStr) (final backup : Node) : Prop :=
  match version with
  | none => final.Removable ∧ backup = .missing
  | some v => Verifies D final v ∧ backup.Removable ∨
      ¬active ∧ final.Removable ∧ Verifies D backup v

/-- A slot as the deployer finds it when no transaction is under way. -/
def SlotCalm (version : Option PyStr) (final backup : Node) : Prop :=
  match version with
  | none => final = .missing ∧ backup = .missing
  | some v => Verifies D final v ∧ backup.Removable

/-- The backup of a slot that has been moved: it holds the recorded version. -/
def BackedUp (version : Option PyStr) (backup : Node) : Prop :=
  match version with
  | none => backup = .missing
  | some v => Verifies D backup v

variable {D}

theorem Verifies.removable {n : Node} {v : PyStr} (h : Verifies D n v) : n.Removable := by
  obtain ⟨m, hm⟩ := h
  simp only [ABDeployer.verifiedDirectoryManifest, bind_eq_ok] at hm
  obtain ⟨_, _, _, hv, _⟩ := hm
  obtain ⟨_, hopen⟩ := Registry.verifyDirectory_ok.mp hv
  exact Or.inr (Registry.openVerifiedModel_dir hopen)

theorem Verifies.ne_missing {n : Node} {v : PyStr} (h : Verifies D n v) : n ≠ .missing := by
  rintro rfl
  obtain ⟨m, hm⟩ := h
  simp only [ABDeployer.verifiedDirectoryManifest, bind_eq_ok] at hm
  obtain ⟨_, _, _, hv, _⟩ := hm
  obtain ⟨_, hopen⟩ := Registry.verifyDirectory_ok.mp hv
  cases hopen

theorem BackedUp.removable {version : Option PyStr} {backup : Node}
    (h : BackedUp D version backup) : backup.Removable := by
  cases version with
  | none => exact Or.inl h
  | some v => exact Verifies.removable h

theorem BackedUp.safe {active : Prop} {version : Option PyStr} {final backup : Node}
    (h : BackedUp D version backup) (ha : ¬active) (hf : final.Removable) :
    SlotSafe D active version final backup := by
  cases version with
  | none => exact ⟨hf, h⟩
  | some v => exact Or.inr ⟨ha, hf, h⟩

theorem SlotCalm.safe {active : Prop} {version : Option PyStr} {final backup : Node}
    (h : SlotCalm D version final backup) : SlotSafe D active version final backup := by
  cases version with
  | none => exact ⟨Or.inl h.1, h.2⟩
  | some v => exact Or.inl h

theorem SlotSafe.final_removable {active : Prop} {version : Option PyStr} {final backup : Node}
    (h : SlotSafe D active version final backup) : final.Removable := by
  cases version with
  | none => exact h.1
  | some v => exact h.elim (fun h => h.1.removable) fun h => h.2.1

theorem SlotSafe.backup_removable {active : Prop} {version : Option PyStr} {final backup : Node}
    (h : SlotSafe D active version final backup) : backup.Removable := by
  cases version with
  | none => exact Or.inl h.2
  | some v => exact h.elim And.right fun h => h.2.2.removable

theorem SlotSafe.mono {active active' : Prop} {version : Option PyStr} {final backup : Node}
    (h : SlotSafe D active version final backup) (ha : active' → active) :
    SlotSafe D active' version final backup := by
  cases version with
  | none => exact h
  | some v => exact h.imp id fun h => ⟨fun hact => h.1 (ha hact), h.2⟩

end

/-! ## The phases of a transaction -/

variable (D : ABDeployer) (P : Provenance)

/-- A state on disk, apart from its slots and the journal. -/
structure Durable (w : World) (st : DeploymentState) : Prop where
  state : w.node .state = .file (.json st.toDict)
  wellFormed : st.WellFormed
  slotsRoot : ∃ es, w.node .slots = .dir es
  candidates : ∀ s, (w.node (.candidate s)).Removable
  sequences : ∀ s v m, st.slots.get s = some v → D.canonicalManifest v = .ok m →
    m.releaseSequence ≤ st.highestReleaseSequence
  history : ∃ past, w.history = st :: past
  lineage : Lineage D P w.history

/-- Each slot, or its backup, holds what `st` records for it. -/
def SlotsSafe (w : World) (st : DeploymentState) : Prop :=
  ∀ s, SlotSafe D (st.activeSlot = some s) (st.slots.get s) (w.node (.slot s)) (w.node (.backup s))

/-- No journal. -/
structure Quiet (w : World) (st : DeploymentState) : Prop where
  pending : w.node .pending = .missing
  floor : D.anchored = true → w.floor = st.highestReleaseSequence
  safe : SlotsSafe D w st

structure Journal (w : World) (j : PendingAnchor) : Prop where
  anchored : D.anchored = true
  pending : w.node .pending = .file (.json j.toDict)
  wellFormed : j.WellFormed

/-- The journal is written and the anchor has not moved. -/
structure Prepared (w : World) (st : DeploymentState) (j : PendingAnchor) : Prop
    extends Journal D w j where
  previousFloor : j.previousFloor = st.highestReleaseSequence
  previousGeneration : j.previousGeneration = st.generation
  floor : w.floor = st.highestReleaseSequence
  safe : SlotsSafe D w st

/-- What recovery checks before it trusts the journal: the release is the one its
sequence belongs to, and the target slot holds it. -/
structure Installed (w : World) (j : PendingAnchor) : Prop where
  identity : D.registry.assertReleaseSequenceIdentity j.version j.releaseSequence = .ok ()
  verifies : Verifies D (w.node (.slot j.targetSlot)) j.version

/-- The anchor has moved and `state.json` has not: recovery completes the commit. -/
structure Advanced (w : World) (st : DeploymentState) (j : PendingAnchor) : Prop
    extends Journal D w j, Installed D w j where
  previousFloor : j.previousFloor = st.highestReleaseSequence
  previousGeneration : j.previousGeneration = st.generation
  floor : w.floor = j.releaseSequence
  target : j.targetSlot = Slot.inactive st.activeSlot
  qualified : P st j.version
  backup : BackedUp D (st.slots.get j.targetSlot) (w.node (.backup j.targetSlot))
  safe : ∀ s, s ≠ j.targetSlot → SlotSafe D (st.activeSlot = some s) (st.slots.get s)
    (w.node (.slot s)) (w.node (.backup s))

/-- `state.json` carries the commit and the journal is still there. -/
structure Committed (w : World) (st : DeploymentState) (j : PendingAnchor) : Prop
    extends Journal D w j, Installed D w j where
  floor : w.floor = st.highestReleaseSequence
  releaseSequence : j.releaseSequence = st.highestReleaseSequence
  generation : j.previousGeneration + 1 = st.generation
  active : st.activeSlot = some j.targetSlot
  version : st.slots.get j.targetSlot = some j.version
  safe : SlotsSafe D w st

/-- The state recovery will end in. -/
inductive Phase (w : World) (st : DeploymentState) : DeploymentState → Prop
  | quiet : Quiet D w st → Phase w st st
  | prepared {j : PendingAnchor} : Prepared D w st j → Phase w st st
  | advanced {j : PendingAnchor} : Advanced D P w st j →
      Phase w st (st.promoted j.targetSlot j.version j.releaseSequence)
  | committed {j : PendingAnchor} : Committed D w st j → Phase w st st

/-- A directory in which nothing has been deployed. -/
structure Fresh (w : World) : Prop where
  state : w.node .state = .missing
  slotsRoot : w.node .slots = .missing ∨ ∃ es, w.node .slots = .dir es
  slot : ∀ s, w.node (.slot s) = .missing
  backup : ∀ s, w.node (.backup s) = .missing
  candidate : ∀ s, w.node (.candidate s) = .missing
  pending : w.node .pending = .missing
  floor : D.anchored = true → w.floor = -1
  history : w.history = []

/-- Recovery will end in `L`. -/
def Recoverable (w : World) (L : DeploymentState) : Prop :=
  (Fresh D w ∧ L = {}) ∨ ∃ st, Durable D P w st ∧ Phase D P w st L

/-- No transaction is under way. -/
structure Calm (w : World) (st : DeploymentState) : Prop extends Durable D P w st where
  pending : w.node .pending = .missing
  floor : D.anchored = true → w.floor = st.highestReleaseSequence
  slots : ∀ s, SlotCalm D (st.slots.get s) (w.node (.slot s)) (w.node (.backup s))

/-- What recovery leaves: no candidate, no backup and no journal. -/
structure Settled (w : World) (st : DeploymentState) : Prop extends Calm D P w st where
  noBackup : ∀ s, w.node (.backup s) = .missing
  noCandidate : ∀ s, w.node (.candidate s) = .missing

variable {D P} {w w' : World} {st L : DeploymentState}

theorem Calm.quiet (h : Calm D P w st) : Quiet D w st :=
  ⟨h.pending, h.floor, fun s => (h.slots s).safe⟩

theorem Calm.recoverable (h : Calm D P w st) : Recoverable D P w st :=
  Or.inr ⟨st, h.toDurable, .quiet h.quiet⟩

/-! ## Frames -/

/-- A state stays on disk while the paths it rests on are left alone. -/
theorem Durable.congr (h : Durable D P w st) (hstate : w'.node .state = w.node .state)
    (hslots : w'.node .slots = w.node .slots)
    (hcand : ∀ s, (w'.node (.candidate s)).Removable) (hhist : w'.history = w.history) :
    Durable D P w' st where
  state := hstate.trans h.state
  wellFormed := h.wellFormed
  slotsRoot := hslots ▸ h.slotsRoot
  candidates := hcand
  sequences := h.sequences
  history := hhist ▸ h.history
  lineage := hhist ▸ h.lineage

theorem Durable.mono {P' : Provenance} (h : Durable D P w st) (hP : ∀ st v, P st v → P' st v) :
    Durable D P' w st where
  state := h.state
  wellFormed := h.wellFormed
  slotsRoot := h.slotsRoot
  candidates := h.candidates
  sequences := h.sequences
  history := h.history
  lineage := h.lineage.mono hP

theorem Durable.unique (h : Durable D P w st) (h' : Durable D P w L) : st = L := by
  obtain ⟨_, hst⟩ := h.history
  obtain ⟨_, hL⟩ := h'.history
  exact (List.cons.inj (hst.symm.trans hL)).1

theorem Recoverable.mono {P' : Provenance} (h : Recoverable D P w L)
    (hP : ∀ st v, P st v → P' st v) : Recoverable D P' w L := by
  rcases h with h | ⟨st, hd, hphase⟩
  · exact Or.inl h
  refine Or.inr ⟨st, hd.mono hP, ?_⟩
  cases hphase with
  | quiet h => exact .quiet h
  | prepared h => exact .prepared h
  | advanced h => exact .advanced { h with qualified := hP _ _ h.qualified }
  | committed h => exact .committed h

theorem Calm.mono {P' : Provenance} (h : Calm D P w st) (hP : ∀ st v, P st v → P' st v) :
    Calm D P' w st :=
  { h with toDurable := h.toDurable.mono hP }

/-- Recoverability speaks of the disk, the anchor and the history alone. -/
structure SameDisk (w w' : World) : Prop where
  node : w'.node = w.node
  floor : w'.floor = w.floor
  history : w'.history = w.history

theorem SameDisk.refl (w : World) : SameDisk w w := ⟨rfl, rfl, rfl⟩

theorem SameDisk.withTemp (w : World) (t : Option Doc) : SameDisk w (w.withTemp t) :=
  ⟨rfl, rfl, rfl⟩

theorem Durable.same (h : Durable D P w st) (hs : SameDisk w w') : Durable D P w' st :=
  h.congr (by rw [hs.node]) (by rw [hs.node]) (by rw [hs.node]; exact h.candidates) hs.history

theorem SlotsSafe.same (h : SlotsSafe D w st) (hs : SameDisk w w') : SlotsSafe D w' st := by
  intro s
  rw [hs.node]
  exact h s

theorem Journal.same {j : PendingAnchor} (h : Journal D w j) (hs : SameDisk w w') :
    Journal D w' j :=
  ⟨h.anchored, by rw [hs.node, h.pending], h.wellFormed⟩

theorem Installed.same {j : PendingAnchor} (h : Installed D w j) (hs : SameDisk w w') :
    Installed D w' j :=
  ⟨h.identity, by rw [hs.node]; exact h.verifies⟩

theorem Quiet.same (h : Quiet D w st) (hs : SameDisk w w') : Quiet D w' st :=
  ⟨by rw [hs.node, h.pending], fun ha => hs.floor.trans (h.floor ha), h.safe.same hs⟩

theorem Prepared.same {j : PendingAnchor} (h : Prepared D w st j) (hs : SameDisk w w') :
    Prepared D w' st j :=
  { h with
    toJournal := h.toJournal.same hs
    floor := hs.floor.trans h.floor
    safe := h.safe.same hs }

theorem Advanced.same {j : PendingAnchor} (h : Advanced D P w st j) (hs : SameDisk w w') :
    Advanced D P w' st j :=
  { h with
    toJournal := h.toJournal.same hs
    toInstalled := h.toInstalled.same hs
    floor := hs.floor.trans h.floor
    backup := by rw [hs.node]; exact h.backup
    safe := by
      intro s hne
      rw [hs.node]
      exact h.safe s hne }

theorem Committed.same {j : PendingAnchor} (h : Committed D w st j) (hs : SameDisk w w') :
    Committed D w' st j :=
  { h with
    toJournal := h.toJournal.same hs
    toInstalled := h.toInstalled.same hs
    floor := hs.floor.trans h.floor
    safe := h.safe.same hs }

theorem Phase.same (h : Phase D P w st L) (hs : SameDisk w w') : Phase D P w' st L := by
  cases h with
  | quiet h => exact .quiet (h.same hs)
  | prepared h => exact .prepared (h.same hs)
  | advanced h => exact .advanced (h.same hs)
  | committed h => exact .committed (h.same hs)

theorem Recoverable.same (h : Recoverable D P w L) (hs : SameDisk w w') :
    Recoverable D P w' L := by
  rcases h with ⟨h, hL⟩ | ⟨st, hd, hp⟩
  · refine Or.inl ⟨?_, hL⟩
    exact {
      state := by rw [hs.node, h.state]
      slotsRoot := by rw [hs.node]; exact h.slotsRoot
      slot := fun s => by rw [hs.node, h.slot]
      backup := fun s => by rw [hs.node, h.backup]
      candidate := fun s => by rw [hs.node, h.candidate]
      pending := by rw [hs.node, h.pending]
      floor := fun ha => hs.floor.trans (h.floor ha)
      history := hs.history.trans h.history }
  · exact Or.inr ⟨st, hd.same hs, hp.same hs⟩

theorem Calm.same (h : Calm D P w st) (hs : SameDisk w w') : Calm D P w' st where
  toDurable := h.toDurable.same hs
  pending := by rw [hs.node, h.pending]
  floor ha := hs.floor.trans (h.floor ha)
  slots s := by rw [hs.node]; exact h.slots s

end Deploy
end EdgeFort
