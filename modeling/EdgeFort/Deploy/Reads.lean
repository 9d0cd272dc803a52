/-
What an anchored deployer returns from a directory that may be tampered with.

Between the calls of a live deployer everything on disk may be replaced, and the
anchor's floor may move; the deployer's memory stays its own.
-/
import EdgeFort.Deploy.Lifecycle
import EdgeFort.Deploy.Footprint

namespace EdgeFort
namespace Deploy

open Effect ABDeployer

/-! ## Calls that read -/

/-- The calls that return a state or what they make of one: `_read`, and then the
rest of the call. -/
inductive ReadCall (D : ABDeployer) : {α : Type} → Cmd α → (DeploymentState → Cmd α) → Prop
  | state : ReadCall D D.state pure
  | activeIdentity :
      ReadCall D D.activeIdentity fun st => pure (st.generation, activeVersionOf st)
  | activeSnapshot {ρ : Type} (loadRuntime : Bytes → ArtifactManifest → Except PyError ρ) :
      ReadCall D (D.activeSnapshot loadRuntime) fun st => do
        let (slot, version) ← liftM (activeSlotOf st)
        let runtime ← D.verifiedSlotRuntime loadRuntime slot version
        return (runtime, version, st.generation)
  | activeArtifactSnapshot :
      ReadCall D D.activeArtifactSnapshot fun st => do
        let (slot, version) ← liftM (activeSlotOf st)
        let (model, manifest) ← D.verifiedSlotArtifact slot version
        return (model, manifest, st.generation)

/-- A live deployer over a directory anyone may change between its calls. -/
inductive WatchedStep (D : ABDeployer) : World → World → Prop
  | tampered {w w' : World} : w'.self = w.self → w'.observed = w.observed → WatchedStep D w w'
  | answered {w w' : World} (req : Request) {r : Except PyError Unit} :
      sem.Finishes (req.program D) w r w' → WatchedStep D w w'
  | read {w w' : World} {α : Type} {p : Cmd α} {k : DeploymentState → Cmd α}
      {r : Except PyError α} : ReadCall D p k → sem.Finishes p w r w' → WatchedStep D w w'

/-- The deployer may be constructed over anything its construction accepts. -/
def watched (D : ABDeployer) : System World where
  initial w' := ∃ order w, sem.Finishes (D.construct order) w (.ok ()) w'
  step := WatchedStep D

variable {D : ABDeployer} {st : DeploymentState} {w w' : World} {α : Type}

/-! ## The deployer's memory -/

/-- The trusted floor is the one the anchor last reported, unless an anchored
transaction is unresolved. -/
def Watched (w : World) : Prop :=
  ∃ f, w.self.trustedFloor = some f ∧ (w.self.recoveryRequired = true ∨ w.observed = some f)

/-- The state's floor is the one the anchor last reported, and no transaction is
unresolved. -/
structure Confirmed (w : World) (st : DeploymentState) : Prop where
  trusted : w.self.trustedFloor = some st.highestReleaseSequence
  resolved : w.self.recoveryRequired = false
  observed : w.observed = some st.highestReleaseSequence

theorem Confirmed.watched (h : Confirmed w st) : Watched w := ⟨_, h.trusted, Or.inr h.observed⟩

theorem Watched.changes {allowed : Path → Prop} (h : Watched w) (hc : ChangesOnly allowed w w') :
    Watched w' := by
  unfold Watched
  rw [hc.self, hc.observed]
  exact h

theorem Confirmed.changes {allowed : Path → Prop} (h : Confirmed w st)
    (hc : ChangesOnly allowed w w') : Confirmed w' st :=
  ⟨hc.self ▸ h.trusted, hc.self ▸ h.resolved, hc.observed.trans h.observed⟩

/-- A program that stays on disk keeps the deployer's memory. -/
theorem keeps_disk {p : Cmd α} (hp : p.All (Within fun _ => True)) : Keeps sem Watched p :=
  .all hp fun _ _ _ ho hw hx => hw.changes (.outcome ho hx)

theorem observe_inRange {floor : Int} {before : Option Int} (h : FloorInRange floor) :
    observe floor before = some floor := if_pos h

theorem observe_notInRange {floor : Int} {before : Option Int} (h : ¬FloorInRange floor) :
    observe floor before = before := if_neg h

/-- A checked state is one the anchor confirms. -/
theorem wp_validateStateAnchor_watched (ha : D.anchored = true) (h : Watched w) :
    wp sem (D.validateStateAnchor st) (fun _ w' => Confirmed w' st) (fun _ => Watched)
      (fun _ => True) w := by
  obtain ⟨trusted, htrust, hobs⟩ := h
  refine wp_bind.mpr (wp_getSelf trivial ?_)
  simp only [htrust]
  refine wp_bind.mpr (wp_raiseIf trivial (fun hreq => ?_) fun _ => ⟨trusted, htrust, hobs⟩)
  have hreq : w.self.recoveryRequired = false := by simpa using hreq
  have hobs : w.observed = some trusted := hobs.resolve_left (by simp [hreq])
  refine wp_bind.mpr (wp_look trivial (wp_bind.mpr ?_))
  unfold refreshedFloor
  split_ifs with hrefresh
  · refine wp_bind.mpr (wp_readAnchorFloor ha trivial trivial (fun hrange => ?_) fun hrange e => ?_)
    · refine wp_bind.mpr (wp_bind.mpr (wp_getSelf trivial (wp_setSelf trivial trivial ?_)))
      refine ⟨trivial, wp_raiseIf trivial (fun hfl => ?_) fun hfl => ?_⟩
      · have hfl := not_not.mp hfl
        exact ⟨congrArg some hfl.symm, hreq, (observe_inRange hrange).trans (congrArg some hfl.symm)⟩
      · exact ⟨w.floor, rfl, Or.inr (observe_inRange hrange)⟩
    · exact ⟨trusted, htrust, Or.inr ((observe_notInRange hrange).trans hobs)⟩
  · have hfl := not_not.mp (not_or.mp hrefresh).1
    refine ⟨trivial, wp_raiseIf trivial (fun _ => ?_) fun hne => absurd hfl hne⟩
    exact ⟨htrust.trans (congrArg some hfl.symm), hreq, hobs.trans (congrArg some hfl.symm)⟩

/-! ## The missing state file -/

/-- There is neither a state file nor slot data. -/
structure Absent (w : World) : Prop where
  state : w.node .state = .missing
  slotsRoot : (w.node .slots).isSymlink = false
  slots : ∀ s, (w.node (.slot s)).present = false

theorem wp_slotDataExists (w : World) :
    wp sem slotDataExists (fun found w' => w' = w ∧ (found = false ↔
        (w.node .slots).isSymlink = false ∧ ∀ s, (w.node (.slot s)).present = false))
      (fun _ _ => False) (fun _ => True) w := by
  refine wp_bind.mpr (wp_look trivial (wp_bind.mpr (wp_look trivial (wp_bind.mpr
    (wp_look trivial ⟨trivial, rfl, ?_⟩)))))
  simp only [Bool.or_eq_false_iff, and_assoc]
  refine and_congr_right fun _ => ⟨fun h s => ?_, fun h => ⟨h .A, h .B⟩⟩
  cases s
  · exact h.1
  · exact h.2

/-- `_read` returns a confirmed state, or the first state where there is nothing. -/
theorem wp_read_watched (ha : D.anchored = true) (h : Watched w) :
    wp sem (D.read true) (fun st w' => Confirmed w' st ∨ st = {} ∧ w' = w ∧ Absent w)
      (fun _ => Watched) (fun _ => True) w := by
  refine wp_bind.mpr (wp_look trivial ?_)
  have hdoc : ∀ n, wp sem (do
      let st ← liftM (readDoc "deployment state" DeploymentState.parseState n)
      (if true = true then D.validateStateAnchor st else pure ())
      return st : Cmd DeploymentState)
      (fun st w' => Confirmed w' st ∨ st = {} ∧ w' = w ∧ Absent w)
      (fun _ => Watched) (fun _ => True) w := fun n =>
    wp_bind.mpr (wp_liftM.mpr ⟨trivial, fun st _ => wp_bind.mpr
      (wp_mono (wp_validateStateAnchor_watched ha h) (fun _ _ _ hc => ⟨trivial, Or.inl hc⟩)
        (fun _ _ _ he => he) fun _ h => h), fun _ _ => h⟩)
  cases hnode : w.node .state with
  | missing =>
    refine wp_bind.mpr (wp_mono (wp_slotDataExists w) (fun found w₁ _ hf => ?_)
      (fun _ _ _ he => he.elim) fun _ h => h)
    obtain ⟨rfl, hfound⟩ := hf
    refine wp_bind.mpr (wp_raiseIf trivial (fun hno => ?_) fun _ => h)
    obtain ⟨hroot, hslots⟩ := hfound.mp (by simpa using hno)
    exact ⟨trivial, Or.inr ⟨rfl, rfl, hnode, hroot, hslots⟩⟩
  | symlink resolves => cases resolves <;> exact ⟨trivial, h⟩
  | dir es => exact hdoc _
  | file doc => exact hdoc _
  | special => exact hdoc _

/-! ## Every call keeps the memory -/

theorem keeps_read (ha : D.anchored = true) : Keeps sem Watched (D.read true) := fun _ h =>
  wp_mono (wp_read_watched ha h)
    (fun _ _ _ hr => hr.elim Confirmed.watched fun ⟨_, hw, _⟩ => hw ▸ h) (fun _ _ _ he => he)
    fun _ h => h

theorem keeps_lift (r : Except PyError α) : Keeps sem Watched (liftM r : Cmd α) :=
  keeps_disk (lift_within r)

/-- While recovery is required the advance may go any way; once it has returned, the
trusted floor is the one the anchor has reported. -/
theorem wp_advanceAnchor_watched {r f : Int} (htrust : w.self.trustedFloor = some f)
    (hreq : w.self.recoveryRequired = true) :
    wp sem (advanceAnchor r)
      (fun _ w' => ∃ f, w'.self.trustedFloor = some f ∧ w'.observed = some f)
      (fun _ => Watched) (fun _ => True) w := by
  have hself : ∀ w' : World, w'.self = w.self → Watched w' := fun w' hs =>
    ⟨f, hs ▸ htrust, Or.inl (hs ▸ hreq)⟩
  refine wp_bind.mpr (wp_catch.mpr (wp_bind.mpr (wp_perform.mpr ⟨trivial, ?_⟩)))
  rintro x (rfl | hx)
  · by_cases hlt : r < w.floor
    · have hrun : sem.exec (.advanceTo r) w =
          (.error (raise .deploymentError "rollback anchor cannot decrease"), w) := if_pos hlt
      rw [hrun]
      exact ⟨trivial, nofun, fun _ _ => ⟨trivial, hself w rfl⟩⟩
    · have hrun : sem.exec (.advanceTo r) w =
          (.ok (.int r), { w with floor := r, observed := observe r w.observed }) := if_neg hlt
      rw [hrun]
      refine ⟨trivial, fun a hv => ?_, nofun⟩
      obtain rfl := Except.ok.inj hv
      refine wp_liftM.mpr ⟨trivial, fun floor hfloor => ?_, fun _ _ => ⟨trivial, hself _ rfl⟩⟩
      obtain ⟨heq, hrange⟩ := validateAnchorFloor_ok.mp hfloor
      obtain rfl := Json.int.inj heq
      refine wp_bind.mpr (wp_raiseIf trivial (fun _ => ?_) fun hne => absurd rfl hne)
      refine wp_bind.mpr (wp_bind.mpr (wp_getSelf trivial (wp_setSelf trivial trivial ?_)))
      exact ⟨trivial, r, rfl, observe_inRange hrange⟩
  · cases hx with
    | before e => exact ⟨trivial, nofun, fun _ _ => ⟨trivial, hself _ rfl⟩⟩
    | after e _ => exact ⟨trivial, nofun, fun _ _ => ⟨trivial, hself _ rfl⟩⟩

theorem keeps_commitAnchored {t : Slot} {v : PyStr} {r : Int} :
    Keeps sem Watched (commitAnchored st t v r) := by
  intro w ⟨f, htrust, _⟩
  refine wp_bind.mpr (wp_setRecoveryRequired trivial trivial ?_)
  refine wp_bind.mpr (wp_mono (wp_advanceAnchor_watched htrust rfl) ?_ (fun _ _ _ he => he)
    fun _ h => h)
  rintro floor w₁ - ⟨f', htrust', hobs'⟩
  have hwrite : (write (st.promoted t v floor)).All (Within fun _ => True) := write_within trivial
  refine wp_bind.mpr (wp_mono (wp_within hwrite w₁) (fun _ w₂ _ hc => ?_)
    (fun _ _ _ hc => Watched.changes ⟨f', htrust', Or.inr hobs'⟩ hc) fun _ _ => trivial)
  have hw₂ : Watched { w₂ with self := { w₂.self with recoveryRequired := false } } :=
    ⟨f', hc.self ▸ htrust', Or.inr (hc.observed.trans hobs')⟩
  exact wp_bind.mpr (wp_setRecoveryRequired trivial trivial
    (keeps_disk (removePendingAnchor_within trivial) _ hw₂))

theorem keeps_promote {t : Slot} {v : PyStr} {r : Int} : Keeps sem Watched (D.promote st t v r) := by
  unfold ABDeployer.promote
  split_ifs
  · exact .bind (keeps_disk (.catch' (install_within trivial trivial (writePendingAnchor_within trivial))
      fun _ => undo_within trivial trivial)) fun _ => keeps_commitAnchored
  · exact keeps_disk (.catch' (install_within trivial trivial (write_within trivial))
      fun _ => undo_within trivial trivial)

theorem keeps_deploy (ha : D.anchored = true) (args : DeployArgs) :
    Keeps sem Watched (D.deploy args) :=
  .bind (keeps_lift _) fun _ => .bind (keeps_lift _) fun _ => .bind (keeps_read ha) fun _ =>
    .bind (keeps_lift _) fun _ => .bind (keeps_disk (rmtree_within trivial)) fun _ =>
      .bind (keeps_lift _) fun _ => .bind (keeps_disk (copytree_within trivial _)) fun _ =>
        .bind (keeps_disk (.catch' qualify_within fun _ => recordFailure_within trivial trivial))
          fun _ => .bind (keeps_disk (backUp_within trivial trivial)) fun _ =>
            .bind keeps_promote fun _ => .bind (keeps_disk (rmtree_within trivial)) fun _ =>
              keeps_disk (.pure _)

theorem keeps_rollback (ha : D.anchored = true)
    (loadRuntime : Bytes → ArtifactManifest → Except PyError Unit) :
    Keeps sem Watched (D.rollback loadRuntime) :=
  .bind (keeps_read ha) fun st => by
    split
    · exact keeps_disk (.pure _)
    · exact keeps_disk (.bind verifiedSlotRuntime_within fun _ =>
        .bind (write_within trivial) fun _ => .pure _)

theorem keeps_request (ha : D.anchored = true) (req : Request) :
    Keeps sem Watched (req.program D) := by
  cases req with
  | deploy args => exact .bind (keeps_deploy ha args) fun _ => keeps_disk (.pure _)
  | rollback loadRuntime => exact .bind (keeps_rollback ha loadRuntime) fun _ => keeps_disk (.pure _)

theorem ReadCall.eq {p : Cmd α} {k : DeploymentState → Cmd α} (h : ReadCall D p k) :
    p = D.read true >>= k := by
  cases h with
  | state =>
    show D.read true = (D.read true).bind pure
    generalize D.read true = p
    induction p with
    | pure a => rfl
    | throw e => rfl
    | op o k ih => exact congrArg _ (funext fun r => ih r)
  | activeIdentity => rfl
  | activeSnapshot loadRuntime => rfl
  | activeArtifactSnapshot => rfl

/-- What follows the read only looks at slots. -/
theorem ReadCall.within {p : Cmd α} {k : DeploymentState → Cmd α} (h : ReadCall D p k)
    (st : DeploymentState) : (k st).All (Within fun _ => True) := by
  cases h with
  | state => exact .pure _
  | activeIdentity => exact .pure _
  | activeSnapshot loadRuntime =>
    exact .bind (lift_within _) fun _ => .bind verifiedSlotRuntime_within fun _ => .pure _
  | activeArtifactSnapshot =>
    exact .bind (lift_within _) fun _ => .bind verifiedSlotArtifact_within fun _ => .pure _

/-- Recovery on any content keeps the memory. -/
theorem keeps_recover (ha : D.anchored = true) (order : Order) :
    Keeps sem Watched (D.recover order) :=
  .bind (keeps_disk (makeSlotsRoot_within trivial)) fun _ =>
    .bind (keeps_disk (ensureState_within trivial)) fun _ => .bind (keeps_disk read_within) fun _ =>
      .bind (keeps_disk readPendingAnchor_within) fun _ =>
        .bind (keeps_disk (recoverAnchorCommit_within trivial trivial)) fun _ =>
          .bind (keeps_disk (recoverBackups_within (fun _ => trivial) (fun _ => trivial) _)) fun _ =>
            .bind (keeps_disk (removeCandidates_within (fun _ => trivial) _)) fun _ =>
              .bind (keeps_disk (settleSlots_within (fun _ => trivial) _)) fun _ =>
                .bind (keeps_disk (dropJournal_within trivial)) fun _ => fun _ hw =>
                  wp_mono (wp_validateStateAnchor_watched ha hw) (fun _ _ _ hc => hc.watched)
                    (fun _ _ _ he => he) fun _ h => h

theorem wp_construct_watched (ha : D.anchored = true) (order : Order) (w : World) :
    wp sem (D.construct order) (fun _ => Watched) (fun _ _ => True) (fun _ => True) w := by
  refine wp_bind.mpr ?_
  unfold sampleFloor
  rw [if_pos ha]
  refine wp_bind.mpr (wp_readAnchorFloor ha trivial trivial (fun hrange => ⟨trivial, ?_⟩)
    fun _ _ => trivial)
  refine wp_bind.mpr (wp_setSelf trivial trivial ?_)
  exact wp_mono (keeps_recover ha order _ ⟨w.floor, rfl, Or.inr (observe_inRange hrange)⟩)
    (fun _ _ _ hw => hw) (fun _ _ _ _ => trivial) fun _ h => h

theorem watched_reachable (ha : D.anchored = true) (h : (watched D).Reachable w) : Watched w := by
  refine System.invariant (S := watched D) Watched ?_ (fun w w' hw hs => ?_) h
  · rintro w' ⟨order, w, hf⟩
    have hwp := wp_construct_watched ha order w
    exact wp_returns hwp hf
  · cases hs with
    | tampered hself hobs =>
      unfold Watched
      rw [hself, hobs]
      exact hw
    | answered req hf => exact (keeps_request ha req).finishes hw hf
    | read hcall hf =>
      have hkeeps := (keeps_read ha).bind fun st => keeps_disk (hcall.within st)
      exact (hcall.eq ▸ hkeeps : Keeps sem Watched _).finishes hw hf

/-! ## The theorem -/

/-- A root with neither state nor slots, where the first state is not what the
anchor vouches for. -/
structure Exposed (w : World) : Prop extends Absent w where
  unvouched : w.self.trustedFloor ≠ some (-1) ∨ w.self.recoveryRequired = true

/-- The call's answer comes of a state whose floor the anchor last reported, while no
anchored transaction was unresolved. -/
def FailsClosed (D : ABDeployer) (w : World) {α : Type} (p : Cmd α)
    (k : DeploymentState → Cmd α) : Prop :=
  ∀ a w', sem.Finishes p w (.ok a) w' → ∃ st w₁, sem.Finishes (D.read true) w (.ok st) w₁ ∧
    sem.Finishes (k st) w₁ (.ok a) w' ∧ w'.observed = some st.highestReleaseSequence ∧
      w'.self.recoveryRequired = false

theorem Absent.wp_read (h : Absent w) :
    wp sem (D.read true) (fun st w' => st = {} ∧ w' = w) (fun _ _ => False) (fun _ => True) w := by
  refine wp_bind.mpr (wp_look trivial ?_)
  rw [h.state]
  refine wp_bind.mpr (wp_mono (wp_slotDataExists w) (fun found w₁ _ hf => ?_)
    (fun _ _ _ he => he) fun _ h => h)
  obtain ⟨rfl, hfound⟩ := hf
  have hfound := hfound.mpr ⟨h.slotsRoot, h.slots⟩
  exact wp_bind.mpr (wp_raiseIf trivial (fun _ => ⟨trivial, rfl, rfl⟩) fun hyes =>
    nomatch hfound.symm.trans hyes)

/-- After any tampering the reads of an anchored deployer fail closed, except on a
root that has lost its state file and its slots. -/
theorem anchored_reads (ha : D.anchored = true) (h : (watched D).Reachable w) :
    (∀ (α : Type) (p : Cmd α) k, ReadCall D p k → FailsClosed D w p k) ↔ ¬Exposed w := by
  obtain ⟨f, htrust, hobs⟩ := watched_reachable ha h
  constructor
  · intro hclosed hexp
    have hwp := hexp.toAbsent.wp_read (D := D)
    obtain ⟨_, w', hf, rfl, rfl⟩ := exists_returns hwp
    obtain ⟨st, w₁, hread, _, hobserved, hreq⟩ := hclosed _ _ _ .state _ _ hf
    obtain ⟨rfl, _⟩ := wp_returns hwp hread
    have hobs := hobs.resolve_left (by simp [hreq])
    obtain rfl := Option.some.inj (hobs.symm.trans hobserved)
    exact hexp.unvouched.elim (fun hne => hne htrust) fun hyes => nomatch hreq.symm.trans hyes
  · intro hexp α p k hcall a w' hf
    rw [hcall.eq] at hf
    obtain ⟨st, w₁, hread, hrest⟩ := finishes_bind hf
    refine ⟨st, w₁, hread, hrest, ?_⟩
    have hconfirmed : Confirmed w₁ st := by
      rcases wp_returns (wp_read_watched ha ⟨f, htrust, hobs⟩) hread with hc | ⟨rfl, rfl, habs⟩
      · exact hc
      · have htrusted : w₁.self.trustedFloor = some (-1) := by
          by_contra hne
          exact hexp ⟨habs, Or.inl hne⟩
        have hreq : w₁.self.recoveryRequired = false := by
          by_contra hne
          exact hexp ⟨habs, Or.inr (by simpa using hne)⟩
        obtain rfl := Option.some.inj (htrust.symm.trans htrusted)
        exact ⟨htrusted, hreq, hobs.resolve_left (by simp [hreq])⟩
    have hwp := wp_within (hcall.within st) w₁
    have hchanges := wp_returns hwp hrest
    have hend := hconfirmed.changes hchanges
    exact ⟨hend.observed, hend.resolved⟩

/-- Everything on disk deleted. -/
def World.wiped (w : World) : World := { w with node := fun _ => .missing }

theorem World.wiped_observed (w : World) : w.wiped.observed = w.observed := rfl

theorem World.wiped_absent (w : World) : Absent w.wiped := ⟨rfl, rfl, fun _ => rfl⟩

theorem watched_wiped (h : (watched D).Reachable w) : (watched D).Reachable w.wiped :=
  .step h (.tampered rfl rfl)

theorem watched_answered (h : (watched D).Reachable w) (req : Request) :
    (watched D).Reachable (sem.run (req.program D) w).2 :=
  .step h (.answered req (sem.run_finishes _ _))

namespace Sample

/-- The root after a first release has been deployed. -/
@[irreducible] def served : World := deployed true one (constructed true)

theorem served_holds : (served.node .state).present = true ∧ served.observed = some 1 := by
  unfold served deployed constructed
  decide +kernel

theorem watched_deployed (a : DeployArgs) (h : (watched (deployer true)).Reachable w) :
    (watched (deployer true)).Reachable (deployed true a w) := by
  unfold deployed
  exact watched_answered h (.deploy a)

theorem watched_served : (watched (deployer true)).Reachable served := by
  unfold served
  exact watched_deployed one (.initial ⟨order, emptyRoot, constructed_finishes true⟩)

end Sample

theorem anchored_reads_served :
    FailsClosed (Sample.deployer true) Sample.served (Sample.deployer true).state pure := by
  refine (anchored_reads rfl Sample.watched_served).mpr (fun h => ?_) _ _ _ .state
  have hthere := Sample.served_holds.1
  rw [h.state] at hthere
  cases hthere

/-- With the root wiped, `state()` returns the first state, although the anchor has
reported the floor of the first release. -/
theorem wiped_state_returned :
    ∃ w, (watched (Sample.deployer true)).Reachable w ∧
      sem.Finishes (Sample.deployer true).state w (.ok {}) w ∧
        w.observed = some 1 ∧ ({} : DeploymentState).highestReleaseSequence = -1 := by
  have hwp := (World.wiped_absent Sample.served).wp_read (D := Sample.deployer true)
  obtain ⟨_, w', hf, rfl, rfl⟩ := exists_returns hwp
  exact ⟨_, watched_wiped Sample.watched_served, hf,
    (World.wiped_observed _).trans Sample.served_holds.2, rfl⟩

end Deploy
end EdgeFort
