/-
A deployment moves a calm directory through the phases of its transaction.

The proof follows `deploy`: the candidate is staged and qualified over a calm
directory, the inactive slot is moved to its backup and replaced, and the commit
is the rename of `state.json`, or the anchor's advance where there is an anchor.
-/
import EdgeFort.Deploy.Answers
import EdgeFort.Deploy.Recovery

namespace EdgeFort
namespace Deploy

open Effect ABDeployer

/-! ## What a deployment has checked -/

/-- The slot directories of a world. -/
def slotsOf (w : World) (s : Slot) : Node := w.node (.slot s)

/-- The directory `copytree` makes of a published release. -/
def stagedDir (D : ABDeployer) (version : PyStr) : Node :=
  match D.registry.inspect version with
  | .ok (.dir es, _) => .dir (copied es)
  | _ => .missing

section
variable (D : ABDeployer) (args : DeployArgs) (st : DeploymentState)

/-- The candidate's metrics pass the policy against the active model's. -/
structure GatePassed (w : World) (manifest : ArtifactManifest) (candidate : Node)
    (metrics : ModelMetrics) : Prop where
  measured : D.measureCandidate args manifest candidate = .ok metrics
  enforced : match recordedIn st st.activeSlot with
    | none => enforce D.policy metrics none = .ok ()
    | some (slot, version) => ∃ baseline,
        D.measureBaseline args (w.node (.slot slot)) version = .ok baseline ∧
          enforce D.policy metrics (some baseline) = .ok ()

/-- Every check a deployment makes before it commits. -/
structure Admitted (w : World) (m : ArtifactManifest) : Prop where
  inspected : ∃ d, D.registry.inspect args.version = .ok (d, m)
  identity : D.registry.assertReleaseSequenceIdentity args.version m.releaseSequence = .ok ()
  sequence : D.checkSequence st m args.allowDowngrade = .ok ()
  gate : ∃ metrics, GatePassed D args st w m (stagedDir D args.version) metrics

end

/-- The history and the floor of a world, and the active slot as it was. -/
structure Kept (st : DeploymentState) (w : World) (history : List DeploymentState) (floor : Int)
    (w' : World) : Prop where
  history : w'.history = history
  floor : w'.floor = floor
  active : ∀ a, st.activeSlot = some a → w'.node (.slot a) = w.node (.slot a)

/-- The points of a deployment from `w`, whose state is `st`. -/
inductive DeployPoint (D : ABDeployer) (P : Provenance) (args : DeployArgs)
    (st : DeploymentState) (w w' : World) : Prop
  | before : Recoverable D P w' st → SelfOk D w'.self → Kept st w w.history w.floor w' →
      DeployPoint D P args st w w'
  | failed (e : PyError) : Recoverable D P w' (st.failed e) → SelfOk D w'.self →
      Kept st w (st.failed e :: w.history) w.floor w' → DeployPoint D P args st w w'
  | advanced {m : ArtifactManifest} : Admitted D args st w m → D.anchored = true →
      Recoverable D P w' (st.committed args.version m.releaseSequence) → SelfOk D w'.self →
      Kept st w w.history m.releaseSequence w' → DeployPoint D P args st w w'
  | committed {m : ArtifactManifest} : Admitted D args st w m →
      Recoverable D P w' (st.committed args.version m.releaseSequence) → SelfOk D w'.self →
      Kept st w (st.committed args.version m.releaseSequence :: w.history)
        (if D.anchored then m.releaseSequence else w.floor) w' →
      w'.node (.slot (Slot.inactive st.activeSlot)) = stagedDir D args.version →
      DeployPoint D P args st w w'

theorem GatePassed.gate {D : ABDeployer} {args : DeployArgs} {st : DeploymentState} {w : World}
    {m : ArtifactManifest} {candidate : Node} {metrics : ModelMetrics}
    (h : GatePassed D args st w m candidate metrics) :
    D.gate args st m candidate (slotsOf w) = .ok metrics := by
  have henforced := h.enforced
  cases hrec : recordedIn st st.activeSlot with
  | none =>
    rw [hrec] at henforced
    simp only [ABDeployer.gate, h.measured, hrec, ok_bind, henforced]
    rfl
  | some x =>
    rw [hrec] at henforced
    obtain ⟨baseline, hb, he⟩ := henforced
    simp only [ABDeployer.gate, h.measured, hrec, slotsOf, hb, ok_bind, he]
    rfl

/-! ## The inactive slot, moved -/

/-- The recorded version of slot `t` is in its backup, and anything may be in its
place. -/
structure Moved (D : ABDeployer) (P : Provenance) (w : World) (st : DeploymentState)
    (t : Slot) : Prop extends Durable D P w st where
  target : t = Slot.inactive st.activeSlot
  final : (w.node (.slot t)).Removable
  backup : BackedUp D (st.slots.get t) (w.node (.backup t))
  others : ∀ s, s ≠ t → SlotCalm D (st.slots.get s) (w.node (.slot s)) (w.node (.backup s))

/-- The slot is moved, and there is no journal yet. -/
structure Placed (D : ABDeployer) (P : Provenance) (w : World) (st : DeploymentState)
    (t : Slot) : Prop extends Moved D P w st t where
  pending : w.node .pending = .missing
  floor : D.anchored = true → w.floor = st.highestReleaseSequence

variable {D : ABDeployer} {P : Provenance} {args : DeployArgs} {st L : DeploymentState}
  {t : Slot} {w w' : World}

theorem Moved.safe (h : Moved D P w st t) : SlotsSafe D w st := by
  intro s
  by_cases hs : s = t
  · subst hs
    exact h.backup.safe (h.target ▸ Slot.inactive_ne st.activeSlot) h.final
  · exact (h.others s hs).safe

theorem Moved.same (h : Moved D P w st t) (hs : SameDisk w w') : Moved D P w' st t where
  toDurable := h.toDurable.same hs
  target := h.target
  final := by rw [hs.node]; exact h.final
  backup := by rw [hs.node]; exact h.backup
  others s hne := by rw [hs.node]; exact h.others s hne

theorem Placed.recoverable (h : Placed D P w st t) : Recoverable D P w st :=
  Or.inr ⟨st, h.toDurable, .quiet ⟨h.pending, h.floor, h.safe⟩⟩

theorem Placed.same (h : Placed D P w st t) (hs : SameDisk w w') : Placed D P w' st t where
  toMoved := h.toMoved.same hs
  pending := by rw [hs.node, h.pending]
  floor ha := hs.floor.trans (h.floor ha)

theorem Placed.set_slot (h : Placed D P w st t) {n : Node} (hn : n.Removable) :
    Placed D P (w.set (.slot t) n) st t where
  toDurable := h.toDurable.congr (by simp) (by simp) (by simpa using h.candidates) rfl
  target := h.target
  pending := by simpa using h.pending
  floor := h.floor
  final := by simpa using hn
  backup := by simpa using h.backup
  others s hs := by simpa [hs] using h.others s hs

/-- Once the slot is empty and the backup is back, the directory is calm. -/
theorem Placed.restored (h : Placed D P w st t) (hslot : w.node (.slot t) = .missing)
    (hb : w.node (.backup t) ≠ .missing) :
    Calm D P ((w.set (.backup t) .missing).set (.slot t) (w.node (.backup t))) st where
  toDurable := h.toDurable.congr (by simp) (by simp) (by simpa using h.candidates) rfl
  pending := by simpa using h.pending
  floor := h.floor
  slots s := by
    by_cases hs : s = t
    · subst hs
      have hback := h.backup
      cases hv : st.slots.get s with
      | none =>
        rw [hv] at hback
        exact absurd hback hb
      | some v =>
        rw [hv] at hback
        simpa [SlotCalm] using ⟨hback, Node.Removable.missing⟩
    · simpa [hs] using h.others s hs

theorem Placed.empty (h : Placed D P w st t) (hslot : w.node (.slot t) = .missing)
    (hb : w.node (.backup t) = .missing) : Calm D P w st where
  toDurable := h.toDurable
  pending := h.pending
  floor := h.floor
  slots s := by
    by_cases hs : s = t
    · subst hs
      have hback := h.backup
      cases hv : st.slots.get s with
      | none => exact ⟨hslot, hb⟩
      | some v =>
        rw [hv] at hback
        exact absurd hb hback.ne_missing
    · exact h.others s hs

/-- Undoing a promotion that never started leaves the directory calm. -/
theorem wp_undo {C : World → Prop} {E : PyError → World → Prop} (e : PyError)
    (h : Placed D P w st t)
    (hC : ∀ w', Placed D P w' st t → w'.self = w.self → w'.history = w.history →
      w'.floor = w.floor → (∀ s, s ≠ t → w'.node (.slot s) = w.node (.slot s)) → C w')
    (hcalm : ∀ w', Calm D P w' st → w'.self = w.self → w'.history = w.history →
      w'.floor = w.floor → (∀ s, s ≠ t → w'.node (.slot s) = w.node (.slot s)) →
      w'.node (.slot t) = w.node (.backup t) → C w' ∧ E e w') :
    wp sem (undo t e) (fun _ _ => False) E C w := by
  have hset : ∀ n : Node, n.Removable → C (w.set (.slot t) n) := fun n hn =>
    hC _ (h.set_slot hn) rfl rfl rfl fun s hs => by simp [hs]
  have hw : C w := hC w h rfl rfl rfl fun _ _ => rfl
  refine wp_bind.mpr (wp_look hw (wp_bind.mpr ?_))
  -- from a world whose slot is gone, the backup goes back
  have hback : ∀ w₁, Placed D P w₁ st t → w₁.node (.slot t) = .missing → w₁.self = w.self →
      w₁.history = w.history → w₁.floor = w.floor →
      (∀ s, s ≠ t → w₁.node (.slot s) = w.node (.slot s)) →
      w₁.node (.backup t) = w.node (.backup t) →
      wp sem (do
        let backup ← look (.backup t)
        (if backup.exists' then perform (.rename (.backup t) (.slot t)) else pure ())
        throw e) (fun (_ : Unit) _ => False) E C w₁ := by
    intro w₁ h₁ hslot hself hhist hfloor hoth hbackup
    have hC₁ : C w₁ := hC w₁ h₁ hself hhist hfloor hoth
    refine wp_bind.mpr (wp_look hC₁ (wp_bind.mpr ?_))
    rcases h₁.backup.removable with hb | ⟨es, hb⟩
    · rw [hb]
      exact ⟨hC₁, hcalm w₁ (h₁.empty hslot hb) hself hhist hfloor hoth
        (by rw [hslot, ← hbackup, hb])⟩
    · have hne : w₁.node (.backup t) ≠ .missing := by simp [hb]
      obtain ⟨es', hroot⟩ := h₁.slotsRoot
      have hdone := hcalm _ (h₁.restored hslot hne) hself hhist hfloor
        (fun s hs => by simpa [hs] using hoth s hs) (by simpa using hbackup)
      rw [if_pos (by rw [hb]; rfl)]
      refine wp_rename ?_ (by simp only [parentError, hroot]) hC₁ hdone.1 hdone
      rw [hb, hslot]
      rfl
  rcases h.final with hmiss | ⟨es, hdir⟩
  · rw [hmiss]
    exact ⟨hw, hback w h hmiss rfl rfl rfl (fun _ _ => rfl) rfl⟩
  · rw [hdir]
    exact wp_rmtree (Or.inr ⟨es, hdir⟩) (Or.inl rfl) hset (hback _ (h.set_slot .missing)
      (by simp) rfl rfl rfl (fun s hs => by simp [hs]) (by simp))

/-! ## Before the slot is moved -/

theorem Calm.set_candidate (h : Calm D P w st) {s : Slot} {n : Node} (hn : n.Removable) :
    Calm D P (w.set (.candidate s) n) st where
  toDurable := by
    refine h.toDurable.congr (by simp) (by simp) (fun c => ?_) rfl
    by_cases hc : c = s
    · simpa [hc] using hn
    · simpa [hc] using h.candidates c
  pending := by simpa using h.pending
  floor := h.floor
  slots c := by simpa using h.slots c

theorem Calm.set_backup (h : Calm D P w st) {n : Node} (hn : n.Removable)
    (hb : w.node (.backup t) ≠ .missing ∨ n = .missing) : Calm D P (w.set (.backup t) n) st where
  toDurable := h.toDurable.congr (by simp) (by simp) (by simpa using h.candidates) rfl
  pending := by simpa using h.pending
  floor := h.floor
  slots c := by
    by_cases hc : c = t
    · subst hc
      have hslot := h.slots c
      cases hv : st.slots.get c with
      | none =>
        rw [hv] at hslot
        simpa [SlotCalm] using ⟨hslot.1, hb.resolve_left fun hne => hne hslot.2⟩
      | some v =>
        rw [hv] at hslot
        simpa [SlotCalm] using ⟨hslot.1, hn⟩
    · simpa [hc] using h.slots c

/-- Nothing but the work directories has changed since `w`, and the deployer
remembers `me`. -/
structure Prelim (st : DeploymentState) (w : World) (me : Self) (w' : World) : Prop
    extends Kept st w w.history w.floor w' where
  memory : w'.self = me

theorem Prelim.set {me : Self} {w₁ : World} (h : Prelim st w me w₁) {p : Path} {n : Node}
    (hp : ∀ a, st.activeSlot = some a → p ≠ .slot a) : Prelim st w me (w₁.set p n) where
  history := h.history
  floor := h.floor
  active a ha := by
    rw [World.set_node, if_neg (fun heq => hp a ha heq.symm)]
    exact h.active a ha
  memory := h.memory

theorem Prelim.withTemp {me : Self} {w₁ : World} (h : Prelim st w me w₁) (t : Option Doc) :
    Prelim st w me (w₁.withTemp t) :=
  ⟨⟨h.history, h.floor, h.active⟩, h.memory⟩

theorem Calm.deployPoint {me : Self} {w₁ : World} (h : Calm D P w₁ st) (hok : SelfOk D me)
    (hp : Prelim st w me w₁) : DeployPoint D P args st w w₁ :=
  .before h.recoverable (hp.memory ▸ hok) hp.toKept

theorem Placed.deployPoint {me : Self} {w₁ : World} (h : Placed D P w₁ st t)
    (hok : SelfOk D me) (hp : Prelim st w me w₁) : DeployPoint D P args st w w₁ :=
  .before h.recoverable (hp.memory ▸ hok) hp.toKept

section
variable {me : Self} {w₁ : World} (hok : SelfOk D me) (hp : Prelim st w me w₁)
include hok hp

theorem wp_removeCandidate {Q : Unit → World → Prop} {E : PyError → World → Prop}
    (h : Calm D P w₁ st)
    (hQ : Calm D P (w₁.set (.candidate t) .missing) st →
      Prelim st w me (w₁.set (.candidate t) .missing) →
      Q () (w₁.set (.candidate t) .missing)) :
    wp sem (rmtree true (.candidate t)) Q E (DeployPoint D P args st w) w₁ := by
  have hset : ∀ n : Node, n.Removable → Calm D P (w₁.set (.candidate t) n) st :=
    fun n hn => h.set_candidate hn
  have hprelim : ∀ n, Prelim st w me (w₁.set (.candidate t) n) := fun n => hp.set fun _ _ => nofun
  exact wp_rmtree (h.candidates t) (Or.inl rfl)
    (fun n hn => (hset n hn).deployPoint hok (hprelim n)) (hQ (hset _ .missing) (hprelim _))

theorem wp_stage {es : Entries} {Q : Unit → World → Prop} {E : PyError → World → Prop}
    (h : Calm D P w₁ st) (hcand : w₁.node (.candidate t) = .missing)
    (hQ : ∀ w₂, Calm D P w₂ st → Prelim st w me w₂ →
      w₂.node (.candidate t) = .dir (copied es) → Q () w₂) :
    wp sem (copytree es (.candidate t)) Q E (DeployPoint D P args st w) w₁ := by
  have hset : ∀ n : Node, n.Removable → Calm D P (w₁.set (.candidate t) n) st :=
    fun n hn => h.set_candidate hn
  have hprelim : ∀ n, Prelim st w me (w₁.set (.candidate t) n) := fun n => hp.set fun _ _ => nofun
  exact wp_copytree hcand (h.deployPoint hok hp)
    (fun es => (hset _ (.dir es)).deployPoint hok (hprelim _))
    (hQ _ (hset _ (.dir _)) (hprelim _) (by simp))

omit hok in
/-- The gate reads the candidate and the active slot. -/
theorem wp_qualify {C : World → Prop} {m : ArtifactManifest} (hC : C w₁) :
    wp sem (D.qualify args st m t)
      (fun metrics w' => w' = w₁ ∧ GatePassed D args st w m (w₁.node (.candidate t)) metrics)
      (fun e w' => w' = w₁ ∧ D.gate args st m (w₁.node (.candidate t)) (slotsOf w) = .error e)
      C w₁ := by
  refine wp_bind.mpr (wp_look hC (wp_bind.mpr (wp_liftM.mpr ⟨hC, fun metrics hm => ?_,
    fun e he => ⟨rfl, ?_⟩⟩)))
  swap
  · rw [gate, he]
    rfl
  cases hrec : recordedIn st st.activeSlot with
  | none =>
    refine wp_bind.mpr (wp_liftM.mpr ⟨hC, fun _ he => ⟨hC, rfl, hm, ?_⟩, fun e he => ⟨rfl, ?_⟩⟩)
    · rw [hrec]
      exact he
    · simp only [gate, hm, hrec, ok_bind, he]
      rfl
  | some x =>
    obtain ⟨slot, version⟩ := x
    have hact : st.activeSlot = some slot := by
      unfold recordedIn at hrec
      split at hrec
      · cases hrec
      · rename_i s hs
        split at hrec
        · cases hrec
        · cases hrec
        · exact hs.trans (by rw [(Prod.mk.inj (Option.some.inj hrec)).1])
    refine wp_bind.mpr (wp_look hC ?_)
    rw [hp.active slot hact]
    refine wp_bind.mpr (wp_liftM.mpr ⟨hC, fun baseline hb => ?_, fun e he => ⟨rfl, ?_⟩⟩)
    · refine wp_bind.mpr (wp_liftM.mpr ⟨hC, fun _ he => ⟨hC, rfl, hm, ?_⟩, fun e he => ⟨rfl, ?_⟩⟩)
      · rw [hrec]
        exact ⟨baseline, hb, he⟩
      · simp only [gate, hm, hrec, slotsOf, hb, ok_bind, he]
        rfl
    · simp only [gate, hm, hrec, slotsOf, ok_bind, he]
      rfl

end

theorem Calm.failed (h : Calm D P w st) (e : PyError) :
    Calm D P (w.written .state (.json (st.failed e).toDict)) (st.failed e) where
  toDurable := h.toDurable.write (DeploymentState.failed_wellFormed h.wellFormed e) (.failed e)
    h.sequences
  pending := by simpa using h.pending
  floor := h.floor
  slots s := by simpa [DeploymentState.failed] using h.slots s

/-- A refused candidate is removed, and its error recorded where it can be. -/
theorem wp_recordFailure {me : Self} {w₁ : World} (hok : SelfOk D me) (e : PyError)
    (h : Calm D P w₁ st) (hp : Prelim st w me w₁) :
    wp sem (recordFailure st t e) (fun _ _ => False)
      (fun e' w' => (∃ L, Calm D P w' L) ∧ w'.self = me ∧ e' = refusal st e)
      (DeployPoint D P args st w) w₁ := by
  refine wp_bind.mpr (wp_removeCandidate hok hp h fun h₂ hp₂ => ?_)
  generalize w₁.set (.candidate t) .missing = w₂ at h₂ hp₂ ⊢
  have hC : DeployPoint D P args st w w₂ := h₂.deployPoint hok hp₂
  have hwf := DeploymentState.failed_wellFormed h₂.wellFormed e
  by_cases henc : (st.failed e).toDict.encodable = true
  · have hcalm := h₂.failed e
    have hpoint : ∀ s, DeployPoint D P args st w
        ((w₂.written .state (.json (st.failed e).toDict)).withTemp s) := by
      intro s
      refine .failed e (hcalm.recoverable.same ⟨rfl, rfl, rfl⟩) (hp₂.memory ▸ hok) ⟨?_, hp₂.floor, ?_⟩
      · simp [recorded_state hwf, hp₂.history]
      · intro a ha
        simpa using hp₂.active a ha
    refine wp_bind.mpr (wp_write hwf henc (by simp [h₂.state])
      (fun s => (h₂.same (.withTemp w₂ s)).deployPoint hok (hp₂.withTemp s)) hpoint ?_)
    refine ⟨hpoint none, ⟨_, hcalm.same ⟨rfl, rfl, rfl⟩⟩, hp₂.memory, ?_⟩
    simp [refusal, canonicalJson, henc]
  · refine wp_bind.mpr (wp_bind.mpr (wp_lift_ok (DeploymentState.parseState_toDict hwf) hC
      (wp_bind.mpr ?_)))
    refine wp_liftM.mpr ⟨hC, fun doc hdoc => ?_, fun e' he' => ⟨⟨st, h₂⟩, hp₂.memory, ?_⟩⟩
    · simp [canonicalJson, henc] at hdoc
    · rw [refusal, he']

theorem Calm.placed_empty (h : Calm D P w st) (ht : t = Slot.inactive st.activeSlot)
    (hv : st.slots.get t = none) : Placed D P w st t := by
  have hslot := h.slots t
  rw [hv] at hslot
  exact {
    toDurable := h.toDurable
    target := ht
    pending := h.pending
    floor := h.floor
    final := Or.inl hslot.1
    backup := by rw [hv]; exact hslot.2
    others := fun s _ => h.slots s }

theorem Calm.placed_moved (h : Calm D P w st) (ht : t = Slot.inactive st.activeSlot) {v : PyStr}
    (hv : st.slots.get t = some v) :
    Placed D P ((w.set (.slot t) .missing).set (.backup t) (w.node (.slot t))) st t := by
  have hslot := h.slots t
  rw [hv] at hslot
  exact {
    toDurable := h.toDurable.congr (by simp) (by simp) (by simpa using h.candidates) rfl
    target := ht
    pending := by simpa using h.pending
    floor := h.floor
    final := by simpa using Node.Removable.missing
    backup := by rw [hv]; simpa [BackedUp] using hslot.1
    others := fun s hs => by simpa [hs] using h.slots s }

/-- The candidate takes the place of the slot that was moved. -/
theorem Placed.promoted (h : Placed D P w st t) :
    Placed D P ((w.set (.candidate t) .missing).set (.slot t) (w.node (.candidate t))) st t where
  toDurable := h.toDurable.congr (by simp) (by simp) (fun s => by
    by_cases hs : s = t
    · simpa [hs] using Node.Removable.missing
    · simpa [hs] using h.candidates s) rfl
  target := h.target
  final := by simpa using h.candidates t
  backup := by simpa using h.backup
  others s hs := by simpa [hs] using h.others s hs
  pending := by simpa using h.pending
  floor := h.floor

/-- The inactive slot is moved to its backup. -/
theorem wp_backUp {me : Self} {w₁ : World} (hok : SelfOk D me) (h : Calm D P w₁ st)
    (hp : Prelim st w me w₁) (ht : t = Slot.inactive st.activeSlot) {E : PyError → World → Prop} :
    wp sem (backUp t)
      (fun _ w' => Placed D P w' st t ∧ Prelim st w me w' ∧ w'.node (.slot t) = .missing ∧
        w'.node (.candidate t) = w₁.node (.candidate t))
      E (DeployPoint D P args st w) w₁ := by
  have hnact : ∀ a, st.activeSlot = some a → a ≠ t := fun a ha heq =>
    Slot.inactive_ne st.activeSlot (ht ▸ heq ▸ ha)
  have hrem : (w₁.node (.backup t)).Removable := (h.quiet.safe t).backup_removable
  have hset : ∀ n : Node, n.Removable → (w₁.node (.backup t) ≠ .missing ∨ n = .missing) →
      Calm D P (w₁.set (.backup t) n) st := fun n hn hb => h.set_backup hn hb
  have hprelim : ∀ n, Prelim st w me (w₁.set (.backup t) n) := fun n => hp.set fun _ _ => nofun
  have hrm : wp sem (rmtree true (.backup t))
      (fun _ w' => w' = w₁.set (.backup t) .missing) E (DeployPoint D P args st w) w₁ := by
    rcases hrem with hmiss | ⟨es, hdir⟩
    · have hw : DeployPoint D P args st w w₁ := h.deployPoint hok hp
      refine wp_bind.mpr (wp_look hw ?_)
      rw [hmiss]
      exact wp_ignore.mpr ⟨hw, by rw [← hmiss, World.set_self_node]⟩
    · exact wp_rmtree (Or.inr ⟨es, hdir⟩) (Or.inl rfl)
        (fun n hn => (hset n hn (Or.inl (by simp [hdir]))).deployPoint hok (hprelim n)) rfl
  refine wp_bind.mpr (wp_mono hrm ?_ (fun _ _ _ he => he) fun _ hc => hc)
  rintro _ _ hpoint rfl
  have h₂ := hset _ .missing (Or.inr rfl)
  have hp₂ := hprelim .missing
  have hslot := h₂.slots t
  have hb₂ : (w₁.set (.backup t) .missing).node (.backup t) = .missing := by simp
  have hc₂ : (w₁.set (.backup t) .missing).node (.candidate t) = w₁.node (.candidate t) := by simp
  generalize w₁.set (.backup t) .missing = w₂ at *
  refine wp_bind.mpr (wp_look hpoint ?_)
  cases hv : st.slots.get t with
  | none =>
    rw [hv] at hslot
    rw [hslot.1]
    exact ⟨hpoint, h₂.placed_empty ht hv, hp₂, hslot.1, hc₂⟩
  | some v =>
    rw [hv] at hslot
    obtain ⟨es, hdir⟩ := hslot.1.removable.resolve_left hslot.1.ne_missing
    have hplaced := h₂.placed_moved ht hv
    have hp₃ : Prelim st w me
        ((w₂.set (.slot t) .missing).set (.backup t) (w₂.node (.slot t))) :=
      (hp₂.set fun a ha heq => hnact a ha (Path.slot.inj heq).symm).set fun _ _ => nofun
    simp only [hdir]
    refine wp_rename (by rw [hdir, hb₂]; rfl) rfl hpoint (hplaced.deployPoint hok hp₃)
      ⟨hplaced, hp₃, by simp, by simpa using hc₂⟩

/-! ## The commit -/

section
variable {m : ArtifactManifest}

theorem Admitted.canonical (h : Admitted D args st w m) :
    D.canonicalManifest args.version = .ok m := by
  obtain ⟨d, hd⟩ := h.inspected
  exact canonicalManifest_of_inspect hd

theorem checkSequence_lt {downgrade : Bool} (h : D.checkSequence st m downgrade = .ok ())
    (hd : D.anchored = true ∨ downgrade = false) :
    st.highestReleaseSequence < m.releaseSequence := by
  simp only [checkSequence, bind_eq_ok, raiseIf_eq_ok, not_and] at h
  obtain ⟨_, hanch, hdown⟩ := h
  rcases hd with ha | ha
  · exact Int.not_le.mp (hanch ha)
  · exact Int.not_le.mp fun hle => hdown hle ha

theorem Admitted.sequence_lt (h : Admitted D args st w m) (ha : D.anchored = true) :
    st.highestReleaseSequence < m.releaseSequence :=
  checkSequence_lt h.sequence (Or.inl ha)

theorem Admitted.floor_eq (h : Admitted D args st w m) (ha : D.anchored = true) :
    (st.committed args.version m.releaseSequence).highestReleaseSequence = m.releaseSequence :=
  Int.max_eq_right (Int.le_of_lt (h.sequence_lt ha))

/-- The journal of the transaction. -/
abbrev journalOf (st : DeploymentState) (args : DeployArgs) (m : ArtifactManifest) :
    PendingAnchor :=
  st.pendingAnchor (Slot.inactive st.activeSlot) args.version m.releaseSequence

theorem Admitted.journal_wellFormed (h : Admitted D args st w m) (hwf : st.WellFormed)
    (ha : D.anchored = true) : (journalOf st args m).WellFormed where
  floor_ge := hwf.floor_ge
  semver := by
    obtain ⟨d, hd⟩ := h.inspected
    exact (Registry.inspect_ok hd).2
  sequence_nonneg := m.sequence_nonneg
  sequence_le := m.sequence_le
  advances := h.sequence_lt ha

/-- The slots of the committed state, once the new version is in place. -/
theorem committed_calm {s : Slot} {v : PyStr} {seq : Int} {final backup : Node}
    (ht : s = Slot.inactive st.activeSlot → Verifies D final v ∧ backup.Removable)
    (ho : s ≠ Slot.inactive st.activeSlot → SlotCalm D (st.slots.get s) final backup) :
    SlotCalm D ((st.committed v seq).slots.get s) final backup := by
  by_cases hs : s = Slot.inactive st.activeSlot
  · simpa [DeploymentState.committed, DeploymentState.promoted, hs, SlotCalm] using ht hs
  · simpa [DeploymentState.committed, DeploymentState.promoted, Slots.get_set, hs] using ho hs

theorem verifies_of_artifact {n : Node} {v : PyStr} {x : Bytes × ArtifactManifest}
    (h : D.verifiedArtifact n v = .ok x) : Verifies D n v := by
  simp only [verifiedArtifact, bind_eq_ok, raiseIf_eq_ok, pure_eq_ok] at h
  obtain ⟨c, hc, ⟨model, manifest⟩, hopen, _, heq, _⟩ := h
  refine ⟨manifest, ?_⟩
  simp only [verifiedDirectoryManifest, bind_eq_ok, raiseIf_eq_ok, pure_eq_ok]
  exact ⟨c, hc, manifest, Registry.verifyDirectory_ok.mpr ⟨model, hopen⟩, (), heq, rfl⟩

/-- The new version stands in the target slot, and the anchor's floor is `floor`. -/
structure Landed (D : ABDeployer) (P : Provenance) (args : DeployArgs) (st : DeploymentState)
    (m : ArtifactManifest) (w w' : World) : Prop
    extends Calm D P w' (st.committed args.version m.releaseSequence) where
  self : SelfOk D w'.self
  kept : Kept st w (st.committed args.version m.releaseSequence :: w.history)
    (if D.anchored then m.releaseSequence else w.floor) w'
  staged : w'.node (.slot (Slot.inactive st.activeSlot)) = stagedDir D args.version

theorem Landed.deployPoint (h : Landed D P args st m w w') (hadm : Admitted D args st w m) :
    DeployPoint D P args st w w' :=
  .committed hadm h.recoverable h.self h.kept h.staged

theorem Landed.same {w'' : World} (h : Landed D P args st m w w') (hs : SameDisk w' w'')
    (hself : SelfOk D w''.self) : Landed D P args st m w w'' where
  toCalm := h.toCalm.same hs
  self := hself
  kept := ⟨hs.history.trans h.kept.history, hs.floor.trans h.kept.floor,
    fun a ha => by rw [hs.node]; exact h.kept.active a ha⟩
  staged := by rw [hs.node]; exact h.staged

theorem Landed.set_backup (h : Landed D P args st m w w') {n : Node} (hn : n.Removable) :
    Landed D P args st m w (w'.set (.backup (Slot.inactive st.activeSlot)) n) where
  toCalm := by
    refine ⟨h.toDurable.congr (by simp) (by simp) (by simpa using h.candidates) rfl,
      by simpa using h.pending, h.floor, fun s => ?_⟩
    refine committed_calm (fun hs => ?_) fun hs => ?_
    · subst hs
      have hslot := h.slots (Slot.inactive st.activeSlot)
      simp only [DeploymentState.committed, DeploymentState.promoted, Slots.get_set_self,
        SlotCalm] at hslot
      simpa using ⟨hslot.1, hn⟩
    · have hslot := h.slots s
      simp only [DeploymentState.committed, DeploymentState.promoted, Slots.get_set,
        if_neg hs] at hslot
      simpa [hs] using hslot
  self := h.self
  kept := ⟨h.kept.history, h.kept.floor, fun a ha => by simpa using h.kept.active a ha⟩
  staged := by simpa using h.staged

/-- The candidate is moved into the slot and verified again, and what follows is
undone when it raises. -/
theorem wp_install {me : Self} {w₁ : World} {commit : Cmd Unit} {es : Entries}
    {Q : Unit → World → Prop} {E : PyError → World → Prop} (hok : SelfOk D me)
    (h : Placed D P w₁ st t) (hp : Prelim st w me w₁) (hslot : w₁.node (.slot t) = .missing)
    (hcand : w₁.node (.candidate t) = .dir es)
    (hcommit : ∀ w₂ x, Placed D P w₂ st t → Prelim st w me w₂ → w₂.node (.slot t) = .dir es →
      D.verifiedArtifact (.dir es) args.version = .ok x →
      wp sem commit Q (fun _ _ => False) (DeployPoint D P args st w) w₂)
    (hE : ∀ e w₂, Calm D P w₂ st → w₂.self = me →
      D.verifiedArtifact (.dir es) args.version = .error e → E e w₂) :
    wp sem ((D.install args.version t commit).catch' (undo t)) Q E
      (DeployPoint D P args st w) w₁ := by
  have hne : ∀ a, st.activeSlot = some a → a ≠ t := fun a ha heq =>
    Slot.inactive_ne st.activeSlot (h.target ▸ heq ▸ ha)
  obtain ⟨es', hroot⟩ := h.slotsRoot
  have h₂ := h.promoted
  have hp₂ : Prelim st w me
      ((w₁.set (.candidate t) .missing).set (.slot t) (w₁.node (.candidate t))) :=
    (hp.set (p := .candidate t) fun _ _ => nofun).set fun a ha heq =>
      hne a ha (Path.slot.inj heq).symm
  have hpoint : DeployPoint D P args st w w₁ := h.deployPoint hok hp
  have hpoint₂ : DeployPoint D P args st w
      ((w₁.set (.candidate t) .missing).set (.slot t) (w₁.node (.candidate t))) :=
    h₂.deployPoint hok hp₂
  refine wp_catch.mpr (wp_bind.mpr (wp_rename ?_ (by simp only [parentError, hroot]) hpoint
    hpoint₂ ?_))
  · rw [hcand, hslot]
    rfl
  have hnode : ((w₁.set (.candidate t) .missing).set (.slot t)
      (w₁.node (.candidate t))).node (.slot t) = .dir es := by simp [hcand]
  generalize (w₁.set (.candidate t) .missing).set (.slot t) (w₁.node (.candidate t)) = w₂ at *
  refine wp_bind.mpr (wp_bind.mpr (wp_look hpoint₂ ?_))
  rw [hnode]
  refine wp_liftM.mpr ⟨hpoint₂, fun x hx => ?_, fun e hver => ?_⟩
  · exact wp_mono (hcommit w₂ x h₂ hp₂ hnode hx) (fun _ _ _ hq => hq)
      (fun _ _ _ he => he.elim) fun _ hc => hc
  · have hprelim : ∀ w₃ : World, w₃.self = w₂.self → w₃.history = w₂.history →
        w₃.floor = w₂.floor → (∀ s, s ≠ t → w₃.node (.slot s) = w₂.node (.slot s)) →
        Prelim st w me w₃ := fun w₃ hself hhist hfloor hslots =>
      ⟨⟨hhist.trans hp₂.history, hfloor.trans hp₂.floor, fun a ha =>
        (hslots a (hne a ha)).trans (hp₂.active a ha)⟩, hself.trans hp₂.memory⟩
    refine wp_mono (wp_undo (C := DeployPoint D P args st w) (E := fun e' w' => E e' w') e h₂
      (fun w₃ h₃ hself hhist hfloor hslots =>
        h₃.deployPoint hok (hprelim w₃ hself hhist hfloor hslots))
      fun w₃ h₃ hself hhist hfloor hslots _ =>
        ⟨h₃.deployPoint hok (hprelim w₃ hself hhist hfloor hslots),
          hE e w₃ h₃ (hself.trans hp₂.memory) hver⟩) (fun _ _ _ hq => hq.elim) (fun _ _ _ he => he)
      fun _ hc => hc

/-- Without an anchor the rename of `state.json` is the commit. -/
theorem wp_commitState {me : Self} {w₁ : World} {Q : Unit → World → Prop}
    {E : PyError → World → Prop} (hanch : D.anchored = false) (hok : SelfOk D me)
    (hadm : Admitted D args st w m) (hP : P st args.version) (h : Placed D P w₁ st t)
    (hp : Prelim st w me w₁) (hver : Verifies D (w₁.node (.slot t)) args.version)
    (hstaged : w₁.node (.slot t) = stagedDir D args.version)
    (hQ : ∀ w', Landed D P args st m w w' → w'.self = me → Q () w') :
    wp sem (write (st.committed args.version m.releaseSequence)) Q E
      (DeployPoint D P args st w) w₁ := by
  have hno : ∀ {p : Prop}, D.anchored = true → p := fun ha => by
    rw [hanch] at ha
    cases ha
  have hwf := committed_wellFormed h.wellFormed hadm.canonical
  have hland : ∀ x, Landed D P args st m w ((w₁.written .state
      (.json (st.committed args.version m.releaseSequence).toDict)).withTemp x) := by
    intro x
    suffices Landed D P args st m w (w₁.written .state
        (.json (st.committed args.version m.releaseSequence).toDict)) from
      this.same (.withTemp _ x) (hp.memory ▸ hok)
    exact {
      toDurable := h.toDurable.commit hadm.canonical (fun ha => hno ha) hP
      pending := by simpa using h.pending
      floor := fun ha => hno ha
      slots := fun s => by
        refine committed_calm (fun hs => ?_) fun hs => ?_
        · subst hs
          simpa [← h.target] using ⟨hver, h.backup.removable⟩
        · simpa using h.others s (h.target ▸ hs)
      self := hp.memory ▸ hok
      kept := ⟨by simp [recorded_state hwf, hp.history], by simp [hanch, hp.floor],
        fun a ha => by simpa using hp.active a ha⟩
      staged := by simpa [← h.target] using hstaged }
  exact wp_write hwf (DeploymentState.encodable_toDict hwf rfl) (by simp [h.state])
    (fun x => (h.same (.withTemp w₁ x)).deployPoint hok (hp.withTemp x))
    (fun x => (hland x).deployPoint hadm) (hQ _ (hland none) hp.memory)

/-- The new version is in place and the journal of the transaction is on disk. -/
structure Armed (D : ABDeployer) (P : Provenance) (args : DeployArgs) (st : DeploymentState)
    (m : ArtifactManifest) (w : World) : Prop
    extends Moved D P w st (Slot.inactive st.activeSlot) where
  journal : Journal D w (journalOf st args m)
  verifies : Verifies D (w.node (.slot (Slot.inactive st.activeSlot))) args.version
  staged : w.node (.slot (Slot.inactive st.activeSlot)) = stagedDir D args.version
  qualified : P st args.version

theorem Armed.same {w₁ : World} (h : Armed D P args st m w) (hs : w₁.node = w.node)
    (hhist : w₁.history = w.history) : Armed D P args st m w₁ where
  toDurable := h.toDurable.congr (by rw [hs]) (by rw [hs]) (by rw [hs]; exact h.candidates) hhist
  target := rfl
  final := by rw [hs]; exact h.final
  backup := by rw [hs]; exact h.backup
  others s hne := by rw [hs]; exact h.others s hne
  journal := ⟨h.journal.anchored, by rw [hs]; exact h.journal.pending, h.journal.wellFormed⟩
  verifies := by rw [hs]; exact h.verifies
  staged := by rw [hs]; exact h.staged
  qualified := h.qualified

theorem Armed.prepared (h : Armed D P args st m w) (hf : w.floor = st.highestReleaseSequence) :
    Recoverable D P w st :=
  Or.inr ⟨st, h.toDurable, .prepared ⟨h.journal, rfl, rfl, hf, h.toMoved.safe⟩⟩

theorem Armed.installed {w₁ : World} (h : Armed D P args st m w₁) (hadm : Admitted D args st w m) :
    Installed D w₁ (journalOf st args m) :=
  ⟨hadm.identity, h.verifies⟩

theorem Admitted.promoted_eq (h : Admitted D args st w m) (ha : D.anchored = true) :
    st.promoted (Slot.inactive st.activeSlot) args.version m.releaseSequence =
      st.committed args.version m.releaseSequence := by
  rw [DeploymentState.committed, Int.max_eq_right (Int.le_of_lt (h.sequence_lt ha))]

theorem Admitted.journal_eq (h : Admitted D args st w m) (ha : D.anchored = true) :
    st.promoted (journalOf st args m).targetSlot (journalOf st args m).version
      (journalOf st args m).releaseSequence = st.committed args.version m.releaseSequence :=
  h.promoted_eq ha

theorem Armed.phase {w₁ : World} (h : Armed D P args st m w₁) (hadm : Admitted D args st w m)
    (hf : w₁.floor = m.releaseSequence) : Advanced D P w₁ st (journalOf st args m) where
  toJournal := h.journal
  toInstalled := h.installed hadm
  previousFloor := rfl
  previousGeneration := rfl
  floor := hf
  target := rfl
  qualified := h.qualified
  backup := h.backup
  safe s hs := (h.others s hs).safe

theorem Armed.advanced {w₁ : World} (h : Armed D P args st m w₁) (hadm : Admitted D args st w m)
    (hf : w₁.floor = m.releaseSequence) :
    Recoverable D P w₁ (st.committed args.version m.releaseSequence) := by
  have hphase := Phase.advanced (h.phase hadm hf)
  rw [hadm.journal_eq h.journal.anchored] at hphase
  exact Or.inr ⟨st, h.toDurable, hphase⟩

/-- The states of the commit: `state.json` renamed, then the journal removed. -/
theorem Armed.landed {w₁ : World} (h : Armed D P args st m w₁) (hadm : Admitted D args st w m)
    (hf : w₁.floor = m.releaseSequence) (hok : SelfOk D w₁.self)
    (hk : Kept st w w.history m.releaseSequence w₁) :
    let L := st.committed args.version m.releaseSequence
    (∀ w', SameDisk (w₁.written .state (.json L.toDict)) w' → SelfOk D w'.self →
      DeployPoint D P args st w w') ∧
      Landed D P args st m w ((w₁.written .state (.json L.toDict)).set .pending .missing) := by
  intro L
  have hwf : L.WellFormed := committed_wellFormed h.toDurable.wellFormed hadm.canonical
  have hwritten := (h.phase hadm hf).written h.toDurable
  rw [hadm.journal_eq h.journal.anchored] at hwritten
  obtain ⟨hd, hc⟩ := hwritten
  have hkept : Kept st w (L :: w.history) m.releaseSequence (w₁.written .state (.json L.toDict)) :=
    ⟨by simp [recorded_state hwf, hk.history], hf, fun a ha => by simpa using hk.active a ha⟩
  have hfloor : (if D.anchored then m.releaseSequence else w.floor) = m.releaseSequence :=
    if_pos h.journal.anchored
  constructor
  · intro w' hs hok'
    have hrec : Recoverable D P (w₁.written .state (.json L.toDict)) L :=
      Or.inr ⟨L, hd, .committed hc⟩
    refine .committed hadm (hrec.same hs) hok' ⟨hs.history.trans hkept.history,
      (hs.floor.trans hkept.floor).trans hfloor.symm, fun a ha => ?_⟩ ?_
    · rw [hs.node]
      exact hkept.active a ha
    · rw [hs.node]
      simpa using h.staged
  · exact {
      toDurable := hd.set_pending _
      pending := by simp
      floor := fun ha => hf.trans (hadm.floor_eq ha).symm
      slots := fun s => by
        refine committed_calm (fun hs => ?_) fun hs => ?_
        · subst hs
          simpa using ⟨h.verifies, h.backup.removable⟩
        · simpa using h.others s hs
      self := hok
      kept := ⟨hkept.history, hf.trans hfloor.symm, fun a ha => by simpa using hkept.active a ha⟩
      staged := by simpa using h.staged }

/-- How a deployment that raises may leave things: calm, or waiting for recovery. -/
def Alive (D : ABDeployer) (P : Provenance) (w : World) : Prop :=
  (∃ L, Calm D P w L ∧ Ready D w) ∨
    D.anchored = true ∧ SelfOk D w.self ∧ w.self.recoveryRequired = true

/-- With an anchor the commit is the anchor's advance. -/
theorem wp_commitAnchored {w₁ : World} {Q : Unit → World → Prop} (hadm : Admitted D args st w m)
    (h : Armed D P args st m w₁) (hf : w₁.floor = st.highestReleaseSequence)
    (hp : Kept st w w.history w.floor w₁) (hok : SelfOk D w₁.self)
    (hQ : ∀ w', Landed D P args st m w w' → Ready D w' → Q () w') :
    wp sem (commitAnchored st (Slot.inactive st.activeSlot) args.version m.releaseSequence) Q
      (fun _ w' => Alive D P w') (DeployPoint D P args st w) w₁ := by
  have hlt := hadm.sequence_lt h.journal.anchored
  have hwfj := h.journal.wellFormed
  have hrange : FloorInRange m.releaseSequence :=
    ⟨by have := hwfj.sequence_nonneg; exact Int.le_trans (by decide) this, hwfj.sequence_le⟩
  -- the points before `state.json` is renamed
  have hpoint : ∀ w', w'.node = w₁.node → w'.history = w₁.history →
      (w'.floor = w₁.floor ∨ w'.floor = m.releaseSequence) → SelfOk D w'.self →
      DeployPoint D P args st w w' := by
    intro w' hn hh hfl hok'
    have harmed := h.same hn hh
    have hactive : ∀ a, st.activeSlot = some a → w'.node (.slot a) = w.node (.slot a) :=
      fun a ha => by rw [hn]; exact hp.active a ha
    rcases hfl with hfl | hfl
    · exact .before (harmed.prepared (hfl.trans hf)) hok'
        ⟨hh.trans hp.history, hfl.trans hp.floor, hactive⟩
    · exact .advanced hadm h.journal.anchored (harmed.advanced hadm hfl) hok'
        ⟨hh.trans hp.history, hfl, hactive⟩
  have hw : DeployPoint D P args st w w₁ := hpoint w₁ rfl rfl (Or.inl rfl) hok
  have hset : ∀ b, SelfOk D { w₁.self with recoveryRequired := b } := fun _ => hok
  refine wp_bind.mpr (wp_setRecoveryRequired hw
    (hpoint _ rfl rfl (Or.inl rfl) (hset true)) ?_)
  refine wp_bind.mpr (wp_advanceAnchor hrange (hf.symm ▸ Int.le_of_lt hlt) ?_ ?_ ?_)
  · intro w' hn hh hfl _ hself
    refine hpoint w' hn hh hfl ?_
    rcases hself with hself | hself
    · exact hself ▸ hset true
    · simp [SelfOk, hself, h.journal.anchored]
  · intro w₂ hn hh hfl hself
    have hok₂ : SelfOk D w₂.self := by simp [SelfOk, hself, h.journal.anchored]
    have harmed := h.same hn hh
    have hkept : Kept st w w.history m.releaseSequence w₂ :=
      ⟨hh.trans hp.history, hfl, fun a ha => by rw [hn]; exact hp.active a ha⟩
    obtain ⟨hstep, hland⟩ := harmed.landed hadm hfl hok₂ hkept
    have hwf := committed_wellFormed harmed.toDurable.wellFormed hadm.canonical
    rw [hadm.promoted_eq h.journal.anchored]
    refine wp_bind.mpr (wp_write hwf (DeploymentState.encodable_toDict hwf rfl)
      (by simp [harmed.state]) (fun x => hpoint _ hn hh (Or.inr hfl) hok₂)
      (fun x => hstep _ (.withTemp _ x) hok₂) ?_)
    have hoff : ∀ s : Self, s.trustedFloor = w₂.self.trustedFloor → SelfOk D s := fun s hs => by
      unfold SelfOk
      rw [hs]
      exact hok₂
    refine wp_bind.mpr (wp_setRecoveryRequired (hstep _ (.withTemp _ none) hok₂)
      (hstep _ ⟨rfl, rfl, rfl⟩ (hoff _ rfl)) ?_)
    have hend : Landed D P args st m w { ((w₂.written .state
        (.json (st.committed args.version m.releaseSequence).toDict)).set .pending .missing) with
          temp := none, self := { w₂.self with recoveryRequired := false } } :=
      hland.same ⟨rfl, rfl, rfl⟩ (hoff _ rfl)
    refine wp_removePendingAnchor (?_ : _ = Node.file (.json (journalOf st args m).toDict))
      (hstep _ ⟨rfl, rfl, rfl⟩ (hoff _ rfl)) (hend.deployPoint hadm) (hQ _ hend ⟨hoff _ rfl, rfl⟩)
    simpa using harmed.journal.pending
  · intro e w' hself
    exact Or.inr ⟨h.journal.anchored, hself ▸ hset true, by rw [hself]⟩

/-- The journal is written once the new version is in place. -/
theorem wp_journal {me : Self} {w₁ : World} {Q : Unit → World → Prop} {E : PyError → World → Prop}
    (hanch : D.anchored = true) (hok : SelfOk D me) (hadm : Admitted D args st w m)
    (hP : P st args.version) (h : Placed D P w₁ st (Slot.inactive st.activeSlot))
    (hp : Prelim st w me w₁)
    (hver : Verifies D (w₁.node (.slot (Slot.inactive st.activeSlot))) args.version)
    (hstaged : w₁.node (.slot (Slot.inactive st.activeSlot)) = stagedDir D args.version)
    (hQ : ∀ w', Armed D P args st m w' → w'.floor = st.highestReleaseSequence →
      Prelim st w me w' → Q () w') :
    wp sem (writePendingAnchor (journalOf st args m)) Q E (DeployPoint D P args st w) w₁ := by
  have hwf := hadm.journal_wellFormed h.wellFormed hanch
  have harmed : ∀ x, Armed D P args st m
      ((w₁.written .pending (.json (journalOf st args m).toDict)).withTemp x) := fun x => {
    toDurable := h.toDurable.congr (by simp) (by simp) (by simpa using h.candidates)
      (by simp [recorded_pending])
    target := rfl
    final := by simpa using h.final
    backup := by simpa using h.backup
    others := fun s hs => by simpa using h.others s hs
    journal := ⟨hanch, by simp, hwf⟩
    verifies := by simpa using hver
    staged := by simpa using hstaged
    qualified := hP }
  have hprelim : ∀ x, Prelim st w me
      ((w₁.written .pending (.json (journalOf st args m).toDict)).withTemp x) := fun x =>
    ⟨⟨by simpa [recorded_pending] using hp.history, hp.floor, fun a ha => by
      simpa using hp.active a ha⟩, hp.memory⟩
  refine wp_writePendingAnchor hwf (by simp [h.pending])
    (fun x => (h.same (.withTemp w₁ x)).deployPoint hok (hp.withTemp x)) (fun x => ?_) ?_
  · exact .before ((harmed x).prepared (h.floor hanch)) ((hprelim x).memory ▸ hok)
      (hprelim x).toKept
  · exact hQ _ (harmed none) (h.floor hanch) (hprelim none)

theorem wp_promote {me : Self} {w₁ : World} {es : Entries} {Q : Unit → World → Prop}
    (hready : SelfOk D me ∧ me.recoveryRequired = false) (hadm : Admitted D args st w m)
    (hP : P st args.version) (h : Placed D P w₁ st t) (hp : Prelim st w me w₁)
    (hslot : w₁.node (.slot t) = .missing) (hcand : w₁.node (.candidate t) = .dir es)
    (hstaged : stagedDir D args.version = .dir es)
    (hQ : ∀ w', Landed D P args st m w w' → Ready D w' →
      (∃ x, D.verifiedArtifact (.dir es) args.version = .ok x) → Q () w') :
    wp sem (D.promote st t args.version m.releaseSequence) Q
      (fun e w' => Alive D P w' ∧
        (D.anchored = false → D.verifiedArtifact (.dir es) args.version = .error e))
      (DeployPoint D P args st w) w₁ := by
  obtain ⟨hok, hreq⟩ := hready
  have ht := h.target
  subst ht
  have hundone : ∀ (e : PyError) w₂, Calm D P w₂ st → w₂.self = me →
      D.verifiedArtifact (.dir es) args.version = .error e → Alive D P w₂ ∧
        (D.anchored = false → D.verifiedArtifact (.dir es) args.version = .error e) :=
    fun e w₂ hcalm hself hver => ⟨Or.inl ⟨st, hcalm, hself ▸ hok, hself ▸ hreq⟩, fun _ => hver⟩
  unfold ABDeployer.promote
  split_ifs with hanch
  · refine wp_bind.mpr (wp_install hok h hp hslot hcand (fun w₂ x h₂ hp₂ hdir hx =>
      wp_journal hanch hok hadm hP h₂ hp₂ (hdir ▸ verifies_of_artifact hx) (hdir.trans hstaged.symm)
        fun w₃ harmed hfl hp₃ => ?_) hundone)
    refine wp_mono (wp_commitAnchored hadm harmed hfl hp₃.toKept (hp₃.memory ▸ hok)
      fun w' hland hready => hQ w' hland hready ⟨x, hx⟩) (fun _ _ _ hq => hq) ?_ fun _ hc => hc
    exact fun e w' _ halive => ⟨halive, fun ha => absurd hanch (by simp [ha])⟩
  · have hanch : D.anchored = false := by simpa using hanch
    refine wp_install hok h hp hslot hcand (fun w₂ x h₂ hp₂ hdir hx => ?_) hundone
    exact wp_commitState hanch hok hadm hP h₂ hp₂ (hdir ▸ verifies_of_artifact hx)
      (hdir.trans hstaged.symm)
      fun w₃ hland hself => hQ w₃ hland ⟨hself ▸ hok, hself ▸ hreq⟩ ⟨x, hx⟩

end

/-! ## The deployment -/

theorem Kept.refl (st : DeploymentState) (w : World) : Kept st w w.history w.floor w :=
  ⟨rfl, rfl, fun _ _ => rfl⟩

/-- A deployment over a calm directory returns with the release committed, or
raises with the directory calm, or waiting for recovery. -/
theorem wp_deploy (h : Calm D P w st) (hready : Ready D w)
    (hP : ∀ m, Admitted D args st w m → P st args.version) :
    wp sem (D.deploy args)
      (fun metrics w' => Ready D w' ∧ D.deployAnswer args st (slotsOf w) = .ok metrics ∧
        ∃ m, Admitted D args st w m ∧ Landed D P args st m w w')
      (fun e w' => Alive D P w' ∧
        (D.anchored = false → D.deployAnswer args st (slotsOf w) = .error e))
      (DeployPoint D P args st w) w := by
  have hreadonly : ∀ w', ReadOnly w w' → DeployPoint D P args st w w' := fun w' hr =>
    .before (h.recoverable.same hr.toSameDisk) (hr.trustedFloor.trans hready.self)
      ⟨hr.history, hr.floor, fun a _ => by rw [hr.node]⟩
  have hraised : ∀ w', ReadOnly w w' → Alive D P w' := fun w' hr =>
    Or.inl ⟨st, h.same hr.toSameDisk, hr.trustedFloor.trans hready.self,
      hr.recoveryRequired.trans hready.notRequired⟩
  have hw := hreadonly w (.refl w)
  refine wp_bind.mpr (wp_liftM.mpr ⟨hw, ?_, fun e he => ⟨hraised w (.refl w), fun _ => ?_⟩⟩)
  swap
  · rw [deployAnswer, he, error_bind]
  rintro ⟨d, m⟩ hinspect
  refine wp_bind.mpr (wp_liftM.mpr ⟨hw, ?_, fun e he => ⟨hraised w (.refl w), fun _ => ?_⟩⟩)
  swap
  · simp only [deployAnswer, hinspect, ok_bind, he, error_bind]
  rintro ⟨⟩ hidentity
  refine wp_bind.mpr (wp_read_checked h.state h.wellFormed hready.self hreadonly
    (fun _ w₁ hr => ?_) fun ha hcon => absurd ⟨hready.notRequired, h.floor ha⟩ hcon)
  have hw₁ := hreadonly w₁ hr
  refine wp_bind.mpr (wp_liftM.mpr ⟨hw₁, ?_, fun e he => ⟨hraised w₁ hr, fun _ => ?_⟩⟩)
  swap
  · simp only [deployAnswer, hinspect, hidentity, ok_bind, he, error_bind]
  rintro ⟨⟩ hsequence
  -- the checks are made: from here on only the work directories change
  have hok : SelfOk D w₁.self := hr.trustedFloor.trans hready.self
  have hreq : w₁.self.recoveryRequired = false :=
    hr.recoveryRequired.trans hready.notRequired
  have h₁ := h.same hr.toSameDisk
  have hp₁ : Prelim st w w₁.self w₁ :=
    ⟨⟨hr.history, hr.floor, fun a _ => by rw [hr.node]⟩, rfl⟩
  refine wp_bind.mpr (wp_removeCandidate hok hp₁ h₁ fun h₂ hp₂ => ?_)
  have hcand₂ : (w₁.set (.candidate (Slot.inactive st.activeSlot)) .missing).node
      (.candidate (Slot.inactive st.activeSlot)) = .missing := by simp
  generalize w₁.set (.candidate (Slot.inactive st.activeSlot)) .missing = w₂ at h₂ hp₂ hcand₂ ⊢
  have hdir := (Registry.inspect_ok hinspect).1
  obtain ⟨model, hopen⟩ := Registry.verifyDirectory_ok.mp hdir
  obtain ⟨es, rfl⟩ := Registry.openVerifiedModel_dir hopen
  have hstaged : stagedDir D args.version = .dir (copied es) := by
    simp only [stagedDir, hinspect]
  have hfiles : Registry.openDirectory (.dir es) = .ok es := rfl
  rw [deployAnswer_staged hinspect hidentity hsequence]
  refine wp_bind.mpr (wp_lift_ok hfiles (h₂.deployPoint hok hp₂) ?_)
  refine wp_bind.mpr (wp_stage hok hp₂ h₂ hcand₂ fun w₃ h₃ hp₃ hcand₃ => ?_)
  refine wp_bind.mpr (wp_catch.mpr (wp_mono (wp_qualify hp₃ (h₃.deployPoint hok hp₃))
    (fun metrics w₄ _ hgate => ?_) (fun e w₄ _ heq => ?_) fun _ hc => hc))
  · obtain ⟨rfl, hgate⟩ := hgate
    have hadm : Admitted D args st w m :=
      ⟨⟨_, hinspect⟩, hidentity, hsequence, metrics, hstaged ▸ hcand₃ ▸ hgate⟩
    have hmetrics : D.gate args st m (.dir (copied es)) (slotsOf w) = .ok metrics :=
      hcand₃ ▸ hgate.gate
    simp only [hmetrics, Except.mapError, ok_bind]
    refine wp_bind.mpr (wp_mono (wp_backUp hok h₃ hp₃ rfl) ?_ (fun _ _ _ he => he) fun _ hc => hc)
    rintro _ w₅ - ⟨h₅, hp₅, hslot₅, hcand₅⟩
    refine wp_bind.mpr (wp_mono (wp_promote ⟨hok, hreq⟩ hadm (hP m hadm) h₅ hp₅ hslot₅
      (hcand₅.trans hcand₃) hstaged fun w₆ hland hready₆ hver => ?_) (fun _ _ _ hq => hq)
      (fun e w₆ _ he => ⟨he.1, fun ha => by rw [he.2 ha, error_bind]⟩) fun _ hc => hc)
    -- the backup of the version that was replaced
    obtain ⟨x, hx⟩ := hver
    have hback : (w₆.node (.backup (Slot.inactive st.activeSlot))).Removable :=
      (hland.toCalm.quiet.safe _).backup_removable
    have hset : ∀ n : Node, n.Removable → Landed D P args st m w
        (w₆.set (.backup (Slot.inactive st.activeSlot)) n) := fun n hn => hland.set_backup hn
    refine wp_bind.mpr (wp_rmtree hback (Or.inl rfl) (fun n hn => (hset n hn).deployPoint hadm) ?_)
    refine ⟨(hset _ .missing).deployPoint hadm, ⟨hready₆.self, hready₆.notRequired⟩, ?_, m, hadm,
      hset _ .missing⟩
    rw [hx, ok_bind]
    rfl
  · obtain ⟨rfl, hgate⟩ := heq
    refine wp_mono (wp_recordFailure hok e h₃ hp₃) (fun _ _ _ hq => hq.elim) ?_ fun _ hc => hc
    rintro e' w₅ _ ⟨⟨L, hL⟩, hself, rfl⟩
    refine ⟨Or.inl ⟨L, hL, hself ▸ hok, hself ▸ hreq⟩, fun _ => ?_⟩
    rw [← hcand₃, hgate]
    rfl

end Deploy
end EdgeFort
