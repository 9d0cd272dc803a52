/-
A rollback over a calm directory, and the calls a deployer refuses because its
state and the anchor disagree.
-/
import EdgeFort.Deploy.Transaction

namespace EdgeFort
namespace Deploy

open Effect ABDeployer

variable {D : ABDeployer} {P : Provenance} {args : DeployArgs} {st : DeploymentState}
  {w w' : World} {ρ : Type} {loadRuntime : Bytes → ArtifactManifest → Except PyError ρ}

/-! ## Rollback -/

/-- The history, with the floor and the slot directories as they were. -/
structure Untouched (w : World) (history : List DeploymentState) (w' : World) : Prop where
  history : w'.history = history
  floor : w'.floor = w.floor
  slots : ∀ s, w'.node (.slot s) = w.node (.slot s)

/-- The points of a rollback from `w`, whose state is `st`. -/
inductive RollbackPoint (D : ABDeployer) (P : Provenance) (st : DeploymentState) (w w' : World) :
    Prop
  | before : Recoverable D P w' st → SelfOk D w'.self → Untouched w w.history w' →
      RollbackPoint D P st w w'
  | swapped {s : Slot} : st.previousSlot = some s → Recoverable D P w' (st.rolledBack s) →
      SelfOk D w'.self → Untouched w (st.rolledBack s :: w.history) w' →
      RollbackPoint D P st w w'

/-- A slot that is recorded, by its name. -/
theorem recordedIn_eq {slot : Option Slot} {s : Slot} {v : PyStr}
    (h : recordedIn st slot = some (s, v)) : slot = some s ∧ st.slots.get s = some v := by
  unfold recordedIn at h
  split at h
  · cases h
  · rename_i s'
    split at h
    · cases h
    · cases h
    · obtain ⟨rfl, rfl⟩ := Prod.mk.inj (Option.some.inj h)
      exact ⟨rfl, ‹_›⟩

theorem Calm.rolledBack {s : Slot} (h : Calm D P w st) (hs : st.previousSlot = some s) :
    Calm D P (w.written .state (.json (st.rolledBack s).toDict)) (st.rolledBack s) where
  toDurable := h.toDurable.write (DeploymentState.rolledBack_wellFormed h.wellFormed hs)
    (.rolledBack hs) h.sequences
  pending := by simpa using h.pending
  floor := h.floor
  slots t := by simpa [DeploymentState.rolledBack] using h.slots t

/-- A rollback returns with the two slots swapped, or changes nothing. -/
theorem wp_rollback (h : Calm D P w st) (hready : Ready D w) :
    wp sem (D.rollback loadRuntime)
      (fun done w' => Ready D w' ∧ D.rollbackAnswer loadRuntime st (slotsOf w) = .ok done ∧
        if done then ∃ s, st.previousSlot = some s ∧ Calm D P w' (st.rolledBack s)
        else Calm D P w' st)
      (fun e w' => Ready D w' ∧ D.rollbackAnswer loadRuntime st (slotsOf w) = .error e ∧
        Calm D P w' st)
      (RollbackPoint D P st w) w := by
  have hpoint : ∀ w', ReadOnly w w' → RollbackPoint D P st w w' := fun w' hr =>
    .before (h.recoverable.same hr.toSameDisk) (hr.trustedFloor.trans hready.self)
      ⟨hr.history, hr.floor, fun s => by rw [hr.node]⟩
  have hready' : ∀ w', ReadOnly w w' → Ready D w' := fun w' hr =>
    ⟨hr.trustedFloor.trans hready.self, hr.recoveryRequired.trans hready.notRequired⟩
  refine wp_bind.mpr (wp_read_checked h.state h.wellFormed hready.self hpoint
    (fun _ w₁ hr => ?_) fun ha hcon => absurd ⟨hready.notRequired, h.floor ha⟩ hcon)
  have h₁ := h.same hr.toSameDisk
  cases hrec : recordedIn st st.previousSlot with
  | none =>
    refine ⟨hpoint w₁ hr, hready' w₁ hr, ?_, h₁⟩
    rw [rollbackAnswer, hrec]
    rfl
  | some x =>
    obtain ⟨s, v⟩ := x
    obtain ⟨hprev, _⟩ := recordedIn_eq hrec
    refine wp_bind.mpr (wp_bind.mpr (wp_look (hpoint w₁ hr) ?_))
    rw [hr.node]
    refine wp_liftM.mpr ⟨hpoint w₁ hr, fun x hx => ?_, fun e he => ⟨hready' w₁ hr, ?_, h₁⟩⟩
    swap
    · simp only [rollbackAnswer, hrec, slotsOf, he, error_bind]
    have hwf := DeploymentState.rolledBack_wellFormed h.wellFormed hprev
    have hcalm := h₁.rolledBack hprev
    have hswapped : ∀ t, RollbackPoint D P st w
        ((w₁.written .state (.json (st.rolledBack s).toDict)).withTemp t) := fun t =>
      .swapped hprev (hcalm.recoverable.same (.withTemp _ t)) (hready' w₁ hr).self
        ⟨by simp [recorded_state hwf, hr.history], hr.floor, fun t => by simp [hr.node]⟩
    refine wp_bind.mpr (wp_write hwf (DeploymentState.encodable_toDict hwf rfl) (by simp [h₁.state])
      (fun t => hpoint _ ⟨⟨hr.node, hr.floor, hr.history⟩, hr.recoveryRequired, hr.trustedFloor⟩)
      hswapped ?_)
    refine ⟨hswapped none, ⟨(hready' w₁ hr).self, (hready' w₁ hr).notRequired⟩, ?_, s, hprev,
      hcalm.same (.withTemp _ none)⟩
    simp only [rollbackAnswer, hrec, slotsOf, hx, ok_bind]
    rfl

/-! ## Refused calls -/

/-- Reading a state that does not agree with the anchor only reads. -/
theorem wp_read_refused {α : Type} {k : DeploymentState → Cmd α}
    (hstate : w.node .state = .file (.json st.toDict)) (hwf : st.WellFormed)
    (hself : SelfOk D w.self) (ha : D.anchored = true) (hno : ¬AnchorAgrees w st) :
    wp sem (D.read true >>= k) (fun _ _ => False) (fun _ w' => ReadOnly w w') (ReadOnly w) w :=
  wp_bind.mpr (wp_read_checked hstate hwf hself (fun _ hr => hr) (fun hagrees => absurd (hagrees ha) hno)
    fun _ _ _ _ hr => hr)

theorem wp_deploy_refused (hstate : w.node .state = .file (.json st.toDict)) (hwf : st.WellFormed)
    (hself : SelfOk D w.self) (ha : D.anchored = true) (hno : ¬AnchorAgrees w st) :
    wp sem (D.deploy args) (fun _ _ => False) (fun _ w' => ReadOnly w w') (ReadOnly w) w := by
  refine wp_bind.mpr (wp_liftM.mpr ⟨.refl w, fun x _ => ?_, fun _ _ => .refl w⟩)
  refine wp_bind.mpr (wp_liftM.mpr ⟨.refl w, fun _ _ => ?_, fun _ _ => .refl w⟩)
  exact wp_read_refused hstate hwf hself ha hno

theorem wp_rollback_refused (hstate : w.node .state = .file (.json st.toDict))
    (hwf : st.WellFormed) (hself : SelfOk D w.self) (ha : D.anchored = true)
    (hno : ¬AnchorAgrees w st) :
    wp sem (D.rollback loadRuntime) (fun _ _ => False) (fun _ w' => ReadOnly w w')
      (ReadOnly w) w :=
  wp_read_refused hstate hwf hself ha hno

end Deploy
end EdgeFort
