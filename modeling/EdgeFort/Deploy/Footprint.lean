/-
What the methods of the deployer may change, whatever they find on disk.
-/
import EdgeFort.Deploy.Deployer
import EdgeFort.Effect.Frame

namespace EdgeFort
namespace Deploy

open Effect ABDeployer

/-- The operation is none of the anchor's and leaves the deployer's memory alone. -/
def Op.onDisk : Op → Bool
  | .readFloor | .advanceTo _ | .setSelf _ => false
  | _ => true

/-- The operation may change what is at path `q`. -/
def Op.writes (q : Path) : Op → Bool
  | .mkdir p | .create p _ | .fill p _ _ | .removeEntry p _ | .rmdir p | .unlink p
  | .replaceTemp p => p = q
  | .rename src dst => src = q || dst = q
  | _ => false

/-- A disk operation that changes at most the paths that are `allowed`. -/
def Within (allowed : Path → Prop) (o : Op) : Prop :=
  o.onDisk = true ∧ ∀ q, o.writes q = true → allowed q

/-- Only the disk has changed, at paths that are `allowed`. -/
structure ChangesOnly (allowed : Path → Prop) (w w' : World) : Prop where
  self : w'.self = w.self
  observed : w'.observed = w.observed
  floor : w'.floor = w.floor
  node : ∀ q, ¬allowed q → w'.node q = w.node q

variable {D : ABDeployer} {allowed : Path → Prop} {w w' : World}

theorem ChangesOnly.refl (w : World) : ChangesOnly allowed w w := ⟨rfl, rfl, rfl, fun _ _ => rfl⟩

theorem ChangesOnly.trans {w'' : World} (h : ChangesOnly allowed w w')
    (h' : ChangesOnly allowed w' w'') : ChangesOnly allowed w w'' :=
  ⟨h'.self.trans h.self, h'.observed.trans h.observed, h'.floor.trans h.floor,
    fun q hq => (h'.node q hq).trans (h.node q hq)⟩

theorem ChangesOnly.exec {o : Op} (h : Within allowed o) (w : World) :
    ChangesOnly allowed w (exec o w).2 := by
  obtain ⟨hdisk, hwrites⟩ := h
  have hset : ∀ p n, o.writes p = true → ∀ q, ¬allowed q → (w.set p n).node q = w.node q := by
    intro p n hp q hq
    rw [World.set_node, if_neg]
    rintro rfl
    exact hq (hwrites q hp)
  cases o with
  | readFloor => cases hdisk
  | advanceTo r => cases hdisk
  | setSelf s => cases hdisk
  | rename src dst =>
    simp only [Deploy.exec, rename]
    split
    · exact .refl w
    · exact .refl w
    · refine ⟨rfl, rfl, rfl, fun q hq => ?_⟩
      have hsrc : q ≠ src := fun h => hq (hwrites q (by simp [Op.writes, h]))
      have hdst : q ≠ dst := fun h => hq (hwrites q (by simp [Op.writes, h]))
      simp [hsrc, hdst]
  | replaceTemp p =>
    simp only [Deploy.exec]
    split
    · exact .refl w
    · exact .refl w
    · exact ⟨rfl, rfl, rfl, fun q hq => hset p _ (by simp [Op.writes]) q hq⟩
  | look p => exact .refl w
  | mkstemp => exact ⟨rfl, rfl, rfl, fun _ _ => rfl⟩
  | writeTemp doc => exact ⟨rfl, rfl, rfl, fun _ _ => rfl⟩
  | fsyncTemp => exact .refl w
  | fsyncDir => exact .refl w
  | getSelf => exact .refl w
  | unlinkTemp =>
    simp only [Deploy.exec]
    split
    · exact .refl w
    · exact ⟨rfl, rfl, rfl, fun _ _ => rfl⟩
  | _ =>
    simp only [Deploy.exec]
    split <;>
      first
      | exact .refl w
      | exact ⟨rfl, rfl, rfl, fun q hq => hset _ _ (by simp [Op.writes]) q hq⟩

theorem ChangesOnly.outcome {o : Op} {x : Except PyError o.Res × World} (h : Within allowed o)
    (hx : sem.Outcome o w x) : ChangesOnly allowed w x.2 := by
  rcases hx with rfl | hx
  · exact .exec h w
  · have hdisk := h.1
    cases hx <;> cases hdisk

/-- A program whose operations are all within a footprint changes nothing else. -/
theorem wp_within {α : Type} {p : Cmd α} (hp : p.All (Within allowed)) (w : World) :
    wp sem p (fun _ => ChangesOnly allowed w) (fun _ => ChangesOnly allowed w)
      (ChangesOnly allowed w) w :=
  wp_all hp (fun _ _ _ ho hw hx => hw.trans (.outcome ho hx)) (.refl w)

/-! ## Footprints -/

section
variable {p : Path} {α : Type}

theorem look_within : (look p).All (Within allowed) := .perform ⟨rfl, nofun⟩

/-- A footprint of one path. -/
theorem within_one {o : Op} (ho : o.onDisk = true) (hw : ∀ q, o.writes q = decide (p = q))
    (hp : allowed p) : Within allowed o :=
  ⟨ho, fun q hq => of_decide_eq_true ((hw q).symm.trans hq) ▸ hp⟩

theorem quiet_within {b : Bool} {c : Cmd Unit} (h : c.All (Within allowed)) :
    (quiet b c).All (Within allowed) := by
  cases b with
  | false => exact h
  | true => exact .ignore h

theorem removeAll_within {b : Bool} (hp : allowed p) (fs : List FileName) :
    (removeAll b p fs).All (Within allowed) := by
  induction fs with
  | nil =>
    exact quiet_within (.perform (within_one rfl (fun _ => rfl) hp))
  | cons f fs ih =>
    exact .bind (quiet_within (.perform
      (within_one rfl (fun _ => rfl) hp))) fun _ => ih

theorem rmtree_within {b : Bool} (hp : allowed p) : (rmtree b p).All (Within allowed) := by
  refine .bind look_within fun n => ?_
  cases n with
  | dir es => exact removeAll_within hp _
  | _ => exact quiet_within (.throw _)

theorem copyFiles_within (hp : allowed p) (es : Entries) :
    (copyFiles p es).All (Within allowed) := by
  induction es with
  | nil => trivial
  | cons e es ih =>
    obtain ⟨f, data⟩ := e
    exact .bind (.perform (within_one rfl (fun _ => rfl) hp)) fun _ =>
      .bind (.perform (within_one rfl (fun _ => rfl) hp)) fun _ => ih

theorem copytree_within (hp : allowed p) (es : Entries) :
    (copytree es p).All (Within allowed) :=
  .bind (.perform (within_one rfl (fun _ => rfl) hp))
    fun _ => copyFiles_within hp es

theorem suppress_within {which : PyError → Bool} {c : Cmd Unit} (h : c.All (Within allowed)) :
    (suppress which c).All (Within allowed) :=
  .catch' h fun _ => by split_ifs <;> trivial

theorem fsyncRoot_within : fsyncRoot.All (Within allowed) :=
  suppress_within (.perform ⟨rfl, nofun⟩)

theorem atomicWrite_within (hp : allowed p) (doc : Doc) :
    (atomicWrite p doc).All (Within allowed) :=
  .bind (.perform ⟨rfl, nofun⟩) fun _ => .finally'
    (.bind (.perform ⟨rfl, nofun⟩) fun _ => .bind (.perform ⟨rfl, nofun⟩) fun _ =>
      .bind (.perform (within_one rfl (fun _ => rfl) hp))
        fun _ => fsyncRoot_within)
    (suppress_within (.perform ⟨rfl, nofun⟩))

theorem lift_within (r : Except PyError α) : (liftM r : Cmd α).All (Within allowed) :=
  .liftM r

end

section
variable {st : DeploymentState} {t : Slot} {v : PyStr}

theorem write_within (hs : allowed .state) : (write st).All (Within allowed) :=
  .bind (lift_within _) fun _ => .bind (lift_within _) fun _ => atomicWrite_within hs _

theorem writePendingAnchor_within {j : PendingAnchor} (hp : allowed .pending) :
    (writePendingAnchor j).All (Within allowed) :=
  .bind (lift_within _) fun _ => .bind (lift_within _) fun _ => atomicWrite_within hp _

theorem removePendingAnchor_within (hp : allowed .pending) :
    removePendingAnchor.All (Within allowed) := by
  refine .bind (.catch' (.bind (.perform
    (within_one rfl (fun _ => rfl) hp)) fun _ => .pure _)
    fun e => ?_) fun removed => ?_
  · split_ifs <;> trivial
  · cases removed with
    | false => trivial
    | true => exact fsyncRoot_within

theorem readPendingAnchor_within : readPendingAnchor.All (Within allowed) := by
  refine .bind look_within fun n => ?_
  cases n with
  | missing => trivial
  | symlink _ => trivial
  | _ => exact .bind (lift_within _) fun _ => .pure _

theorem slotDataExists_within : slotDataExists.All (Within allowed) :=
  .bind look_within fun _ => .bind look_within fun _ => .bind look_within fun _ => .pure _

/-- An unchecked read only looks. -/
theorem read_within : (D.read false).All (Within allowed) := by
  refine .bind look_within fun n => ?_
  cases n with
  | missing =>
    exact .bind slotDataExists_within fun _ => .bind (lift_within _) fun _ => .pure _
  | symlink resolves => cases resolves <;> trivial
  | _ => exact .bind (lift_within _) fun _ => .bind (.pure _) fun _ => .pure _

theorem verifiedSlotManifest_within : (D.verifiedSlotManifest t v).All (Within allowed) :=
  .bind look_within fun _ => lift_within _

theorem verifiedSlotArtifact_within : (D.verifiedSlotArtifact t v).All (Within allowed) :=
  .bind look_within fun _ => lift_within _

theorem verifiedSlotRuntime_within {ρ : Type}
    {loadRuntime : Bytes → ArtifactManifest → Except PyError ρ} :
    (D.verifiedSlotRuntime loadRuntime t v).All (Within allowed) :=
  .bind look_within fun _ => lift_within _

/-! ## Deployment -/

variable {args : DeployArgs} {m : ArtifactManifest}

theorem qualify_within : (D.qualify args st m t).All (Within allowed) := by
  refine .bind look_within fun _ => .bind (lift_within _) fun _ => ?_
  split
  · exact .bind (lift_within _) fun _ => .pure _
  · exact .bind look_within fun _ => .bind (lift_within _) fun _ =>
      .bind (lift_within _) fun _ => .pure _

theorem recordFailure_within {e : PyError} (hc : allowed (.candidate t)) (hs : allowed .state) :
    (recordFailure st t e).All (Within allowed) :=
  .bind (rmtree_within hc) fun _ => .bind (write_within hs) fun _ => .throw _

theorem rename_within {src dst : Path} (hs : allowed src) (hd : allowed dst) :
    (perform (.rename src dst)).All (Within allowed) := by
  refine .perform ⟨rfl, fun q hq => ?_⟩
  simp only [Op.writes, Bool.or_eq_true, decide_eq_true_eq] at hq
  rcases hq with rfl | rfl
  · exact hs
  · exact hd

theorem backUp_within (hs : allowed (.slot t)) (hb : allowed (.backup t)) :
    (backUp t).All (Within allowed) := by
  refine .bind (rmtree_within hb) fun _ => .bind look_within fun n => ?_
  cases n with
  | missing => trivial
  | dir es => exact rename_within hs hb
  | _ => trivial

theorem undo_within {e : PyError} (hs : allowed (.slot t)) (hb : allowed (.backup t)) :
    (undo t e).All (Within allowed) := by
  refine .bind look_within fun n => .bind ?_ fun _ => .bind look_within fun b => .bind ?_
    fun _ => .throw _
  · split_ifs
    · exact rmtree_within hs
    · trivial
  · split_ifs
    · exact rename_within hb hs
    · trivial

theorem install_within {commit : Cmd Unit} (hc : allowed (.candidate t)) (hs : allowed (.slot t))
    (h : commit.All (Within allowed)) : (D.install v t commit).All (Within allowed) :=
  .bind (rename_within hc hs) fun _ => .bind verifiedSlotArtifact_within fun _ => h

/-! ## Recovery -/

theorem makeSlotsRoot_within (h : allowed .slots) : makeSlotsRoot.All (Within allowed) := by
  refine .bind look_within fun n => ?_
  cases n with
  | missing => exact .perform (within_one rfl (fun _ => rfl) h)
  | _ => trivial

theorem ensureState_within (h : allowed .state) : ensureState.All (Within allowed) := by
  refine .bind look_within fun n => ?_
  cases n with
  | missing =>
    exact .bind slotDataExists_within fun _ => .bind (lift_within _) fun _ => write_within h
  | symlink resolves => cases resolves <;> trivial
  | _ => trivial

theorem settleJournal_within {pending : Option PendingAnchor} {floor : Int}
    (hp : allowed .pending) : (D.settleJournal st pending floor).All (Within allowed) := by
  cases pending with
  | none => trivial
  | some j =>
    simp only [settleJournal]
    split_ifs
    · exact .bind (lift_within _) fun _ => .bind verifiedSlotManifest_within fun _ =>
        removePendingAnchor_within hp
    · exact lift_within _

theorem completeCommit_within {pending : Option PendingAnchor} {floor : Int}
    (hs : allowed .state) (hp : allowed .pending) :
    (D.completeCommit st pending floor).All (Within allowed) := by
  cases pending with
  | none => trivial
  | some j =>
    exact .bind (lift_within _) fun _ => .bind (lift_within _) fun _ =>
      .bind verifiedSlotManifest_within fun _ => .bind (lift_within _) fun _ =>
        .bind (write_within hs) fun _ => .bind (removePendingAnchor_within hp) fun _ => .pure _

theorem recoverAnchorCommit_within {pending : Option PendingAnchor} (hs : allowed .state)
    (hp : allowed .pending) : (D.recoverAnchorCommit st pending).All (Within allowed) := by
  refine .bind (.perform ⟨rfl, nofun⟩) fun self => ?_
  cases self.trustedFloor with
  | none => exact .bind (lift_within _) fun _ => .pure _
  | some floor =>
    refine .bind (lift_within _) fun _ => ?_
    split_ifs
    · exact .bind (settleJournal_within hp) fun _ => .pure _
    · exact completeCommit_within hs hp

theorem recoverBackup_within (hs : allowed (.slot t)) (hb : allowed (.backup t)) :
    (D.recoverBackup st t).All (Within allowed) := by
  refine .bind look_within fun n => ?_
  cases n with
  | missing => trivial
  | dir es =>
    simp only
    split
    · exact .throw _
    · refine .bind look_within fun final => ?_
      split
      · exact rmtree_within hb
      · refine .bind (lift_within _) fun _ => .bind ?_ fun _ => rename_within hb hs
        cases final with
        | missing => trivial
        | dir es => exact rmtree_within hs
        | _ => trivial
  | _ => trivial

theorem recoverBackups_within (hs : ∀ t, allowed (.slot t)) (hb : ∀ t, allowed (.backup t))
    (slots : List Slot) : (D.recoverBackups st slots).All (Within allowed) := by
  induction slots with
  | nil => trivial
  | cons t slots ih => exact .bind (recoverBackup_within (hs t) (hb t)) fun _ => ih

theorem removeCandidates_within (hc : ∀ t, allowed (.candidate t)) (slots : List Slot) :
    (removeCandidates slots).All (Within allowed) := by
  induction slots with
  | nil => trivial
  | cons t slots ih =>
    refine .bind look_within fun n => ?_
    cases n with
    | missing => exact ih
    | dir es => exact .bind (rmtree_within (hc t)) fun _ => ih
    | _ => trivial

theorem settleSlot_within (hs : allowed (.slot t)) : (D.settleSlot st t).All (Within allowed) := by
  unfold settleSlot
  split
  · refine .bind look_within fun n => ?_
    cases n with
    | dir es => exact rmtree_within hs
    | _ => trivial
  · exact .bind verifiedSlotManifest_within fun _ => lift_within _

theorem settleSlots_within (hs : ∀ t, allowed (.slot t)) (slots : List Slot) :
    (D.settleSlots st slots).All (Within allowed) := by
  induction slots with
  | nil => trivial
  | cons t slots ih => exact .bind (settleSlot_within (hs t)) fun _ => ih

theorem dropJournal_within (hp : allowed .pending) : dropJournal.All (Within allowed) := by
  refine .bind look_within fun n => ?_
  cases n with
  | missing => trivial
  | symlink _ => trivial
  | _ => exact removePendingAnchor_within hp

end

end Deploy
end EdgeFort
