/-
The states a transaction of the deployer commits, from the state it starts in.
-/
import EdgeFort.Deploy.State

namespace EdgeFort

namespace DeploymentState

/-- The state that makes `version` active in slot `target`. -/
def promoted (st : DeploymentState) (target : Slot) (version : PyStr) (floor : Int) :
    DeploymentState where
  generation := st.generation + 1
  activeSlot := some target
  previousSlot := st.activeSlot
  slots := st.slots.set target version
  highestReleaseSequence := floor
  status := .active
  lastError := none

/-- The state a deployment of version `v` with sequence `seq` commits. -/
def committed (st : DeploymentState) (v : PyStr) (seq : Int) : DeploymentState :=
  st.promoted (Slot.inactive st.activeSlot) v (max st.highestReleaseSequence seq)

/-- The state that makes slot `previous` active again. -/
def rolledBack (st : DeploymentState) (previous : Slot) : DeploymentState where
  generation := st.generation + 1
  activeSlot := some previous
  previousSlot := st.activeSlot
  slots := st.slots
  highestReleaseSequence := st.highestReleaseSequence
  status := .rolledBack
  lastError := none

/-- `_error_text` -/
def errorText (e : PyError) : PyStr := (py e.cls.name ++ py ": " ++ e.text).take maxErrorChars

/-- The state that records a refused candidate. -/
def failed (st : DeploymentState) (e : PyError) : DeploymentState :=
  { st with generation := st.generation + 1, status := .failed, lastError := some (errorText e) }

/-- The part of a state that a deployment or a rollback commits. -/
def lifecycle (st : DeploymentState) : Option Slot × Option Slot × Slots × Int :=
  (st.activeSlot, st.previousSlot, st.slots, st.highestReleaseSequence)

/-- The journal of the transition that makes `version` active in slot `target`. -/
def pendingAnchor (st : DeploymentState) (target : Slot) (version : PyStr)
    (releaseSequence : Int) : PendingAnchor where
  previousGeneration := st.generation
  previousFloor := st.highestReleaseSequence
  targetSlot := target
  version := version
  releaseSequence := releaseSequence

/-! ## Well-formedness -/

theorem initial_wellFormed : ({} : DeploymentState).WellFormed where
  floor_ge := by simp
  floor_le := by simp [maxReleaseSequence]
  distinct := Or.inl rfl
  versions s v h := by cases s <;> cases h
  active s h := nomatch h
  previous s h := nomatch h
  populated s h := by cases s <;> exact absurd rfl h
  active_first _ := rfl
  error_le text h := nomatch h

variable {st : DeploymentState}

theorem promoted_wellFormed (h : st.WellFormed) {target : Slot} {v : PyStr} {floor : Int}
    (ht : st.activeSlot ≠ some target) (hv : semverMatch v = true) (hge : -1 ≤ floor)
    (hle : floor ≤ maxReleaseSequence) : (st.promoted target v floor).WellFormed where
  floor_ge := hge
  floor_le := hle
  distinct := Or.inr fun heq => ht heq.symm
  versions s x hs := by
    simp only [promoted, Slots.get_set] at hs
    split_ifs at hs with hst
    · exact Option.some.inj hs ▸ hv
    · exact h.versions s x hs
  active s hs := by
    obtain rfl := Option.some.inj hs
    simp [promoted]
  previous s hs := by
    have hne : s ≠ target := fun heq => ht (heq ▸ hs)
    simpa [promoted, Slots.get_set, hne] using h.active s hs
  populated s hs := by
    by_cases hst : s = target
    · exact Or.inl (hst ▸ rfl)
    · simp only [promoted, Slots.get_set, if_neg hst] at hs
      refine Or.inr ?_
      cases hact : st.activeSlot with
      | none =>
        rw [h.active_first hact] at hs
        cases s <;> exact absurd rfl hs
      | some a =>
        have hta : target ≠ a := fun heq => ht (heq ▸ hact)
        have hsa : s = a := by cases s <;> cases target <;> cases a <;> simp_all
        simp [promoted, hact, hsa]
  active_first hs := nomatch hs
  error_le text ht := nomatch ht

theorem rolledBack_wellFormed (h : st.WellFormed) {previous : Slot}
    (hp : st.previousSlot = some previous) : (st.rolledBack previous).WellFormed where
  floor_ge := h.floor_ge
  floor_le := h.floor_le
  distinct := by
    refine Or.inr fun heq => ?_
    have heq : some previous = st.activeSlot := heq
    rcases h.distinct with hn | hne
    · exact nomatch heq.trans hn
    · exact hne (heq.symm.trans hp.symm)
  versions := h.versions
  active s hs := h.previous s (hp.trans hs)
  previous := h.active
  populated s hs := (h.populated s hs).symm.imp (fun hs => hp.symm.trans hs) id
  active_first hs := nomatch hs
  error_le text ht := nomatch ht

theorem failed_wellFormed (h : st.WellFormed) (e : PyError) : (st.failed e).WellFormed where
  floor_ge := h.floor_ge
  floor_le := h.floor_le
  distinct := h.distinct
  versions := h.versions
  active := h.active
  previous := h.previous
  populated := h.populated
  active_first := h.active_first
  error_le text ht := by
    obtain rfl := Option.some.inj ht
    exact List.length_take_le _ _

/-- A well-formed state without an error text can be written. -/
theorem encodable_toDict (h : st.WellFormed) (he : st.lastError = none) :
    st.toDict.encodable = true := by
  have hversion : ∀ s, (Slots.versionJson (st.slots.get s)).encodable = true := by
    intro s
    cases hs : st.slots.get s with
    | none => rfl
    | some v => exact semverMatch_utf8 (h.versions s v hs)
  have hslot : ∀ s, (Slot.toJson s).encodable = true := by
    rintro (_ | s)
    · rfl
    · cases s <;> rfl
  have hstatus : utf8Encodable st.status.value = true := by cases st.status <;> rfl
  have hslots : st.slots.toJson.encodable = true := by
    have ha := hversion .A
    have hb := hversion .B
    simp only [Slots.get] at ha hb
    simp only [Slots.toJson, Json.encodable, Json.encodableFields, ha, hb]
    decide
  simp only [toDict, fields, he, errorJson, Json.encodable, Json.encodableFields, hslot, hslots,
    hstatus]
  decide

end DeploymentState

theorem PendingAnchor.encodable_toDict {p : PendingAnchor} (h : p.WellFormed) :
    p.toDict.encodable = true := by
  have htarget : utf8Encodable p.targetSlot.name = true := by cases p.targetSlot <;> rfl
  simp only [toDict, fields, Json.encodable, Json.encodableFields, htarget,
    semverMatch_utf8 h.semver]
  decide

end EdgeFort
