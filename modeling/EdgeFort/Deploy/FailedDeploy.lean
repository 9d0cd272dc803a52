/-
A deployment that raises leaves the slots alone.

Without an anchor a raising `deploy` has not renamed `state.json` to a committed state.
Where the inactive slot has been moved by then, the handler moves it back.
-/
import EdgeFort.Deploy.CrashAtomicity
import EdgeFort.Deploy.Faults

namespace EdgeFort
namespace Deploy

open Effect ABDeployer

variable {D : ABDeployer} {P : Provenance} {args : DeployArgs} {st : DeploymentState}
  {t : Slot} {w w' : World} {b : Bool} {part : Part}

/-! ## What fails leaves -/

/-- The operation changes at most `p` where it fails. -/
def FailsAt (p : Path) (o : Op) : Prop :=
  ∀ w w', Leaves o w w' → w' = w ∨ ∃ es, w' = w.set p (.dir es)

/-- The operation changes nothing where it fails. -/
def FailsClean (o : Op) : Prop := ∀ w w', Leaves o w w' → w' = w

theorem look_failsFast {p : Path} {may : Op → Prop} : (look p).FailsFast may FailsClean := by
  refine .perform fun _ w w' h => ?_
  cases h
  rfl

theorem copytree_failsFast {es : Entries} {p : Path} {may : Op → Prop} :
    (copytree es p).FailsFast may (FailsAt p) := by
  have hcopy : (copyFiles p es).FailsFast may (FailsAt p) := by
    induction es with
    | nil => exact .pure ()
    | cons e es ih =>
      refine .bind (.perform fun _ w w' h => ?_) fun _ => .bind (.perform fun _ w w' h => ?_)
        fun _ => ih
      · cases h
        exact Or.inl rfl
      · cases h with
        | same => exact Or.inl rfl
        | partly written _ => exact Or.inr ⟨_, rfl⟩
  refine .bind (.perform fun _ w w' h => ?_) fun _ => hcopy
  cases h
  exact Or.inl rfl

theorem qualify_failsFast {m : ArtifactManifest} {may : Op → Prop} :
    (D.qualify args st m t).FailsFast may FailsClean := by
  refine .bind look_failsFast fun _ => .bind (.liftM _) fun _ => ?_
  split
  · exact .bind (.liftM _) fun _ => .pure _
  · exact .bind look_failsFast fun _ => .bind (.liftM _) fun _ => .bind (.liftM _) fun _ => .pure _

theorem not_canFail {o : Op} (h : o.fails = false) (hw : o.writesState = false) :
    ¬canFail b o part = true := by
  cases part <;> simp [canFail, h, hw]

theorem read_failsFast :
    (D.read true).FailsFast (fun o => canFail b o part = true) FailsClean := by
  have hself : ∀ {may : Op → Prop}, (perform .getSelf).FailsFast may FailsClean :=
    .perform fun _ w w' h => by
      cases h
      rfl
  have hset : ∀ {may : Op → Prop} (s : Self), (perform (.setSelf s)).FailsFast may FailsClean :=
    fun s => .perform fun _ w w' h => by
      cases h
      rfl
  -- the anchor is no part of the disk
  have hfloor : D.readAnchorFloor.FailsFast (fun o => canFail b o part = true) FailsClean :=
    .bind (.liftM _) fun _ => .of_all (.catch' (.bind (.perform (not_canFail rfl rfl))
      fun _ => .liftM _) fun _ => .throw _)
  have hanchor : ∀ st, (D.validateStateAnchor st).FailsFast
      (fun o => canFail b o part = true) FailsClean := by
    intro st
    refine .bind hself fun self => ?_
    split
    · exact .pure ()
    · refine .bind (.liftM _) fun _ => .bind look_failsFast fun _ => .bind ?_ fun _ => .liftM _
      unfold refreshedFloor
      split_ifs
      · exact .bind hfloor fun _ => .bind (.bind hself fun _ => hset _) fun _ => .pure _
      · exact .pure _
  refine .bind look_failsFast fun n => ?_
  split
  · exact .bind (.bind look_failsFast fun _ => .bind look_failsFast fun _ =>
      .bind look_failsFast fun _ => .pure _) fun _ => .bind (.liftM _) fun _ => .pure _
  · exact .throw _
  · exact .throw _
  · exact .bind (.liftM _) fun st => .bind (hanchor st) fun _ => .pure _

/-! ## The state file -/

/-- The temporary file is removed, if it is there. -/
theorem wp_removeTemp {R : World → Prop} {E : PyError → World → Prop} (x : Option Doc)
    (h : R (w.withTemp none)) :
    wp (faultySem b)
      ((suppress (fun e => e.cls = .fileNotFoundError) (perform .unlinkTemp)).mark part)
      (fun _ => R) E (fun _ => True) (w.withTemp x) := by
  apply wp_erase
  · refine .mark (.catch' (.perform (not_canFail rfl rfl)) fun e => ?_)
    split_ifs
    · exact .pure ()
    · exact .throw e
  · rw [Prog.erase_mark]
    refine wp_catch.mpr ?_
    cases x with
    | none => exact wp_perform_error notFound (w.withTemp none) rfl rfl trivial trivial ⟨trivial, h⟩
    | some doc => exact wp_perform_ok () (w.withTemp none) rfl rfl trivial trivial h

/-- A state is written, or nothing happens. -/
theorem wp_markedWrite {L : DeploymentState} {Q : Unit → World → Prop}
    {E : PyError → World → Prop} (hstate : ∀ es, w.node .state ≠ .dir es)
    (hQ : Q () ((w.written .state (.json L.toDict)).withTemp none))
    (hE : ∀ e x, E e (w.withTemp x)) :
    wp (faultySem b) ((write L).mark part) Q E (fun _ => True) w := by
  have hw : ∀ e, E e w := fun e => hE e w.temp
  rw [write, Prog.mark_bind, Prog.mark_liftM]
  refine wp_bind.mpr (wp_liftM.mpr ⟨trivial, fun _ _ => ?_, fun e _ => hw e⟩)
  rw [Prog.mark_bind, Prog.mark_liftM]
  refine wp_bind.mpr (wp_liftM.mpr ⟨trivial, fun doc hdoc => ?_, fun e _ => hw e⟩)
  have hdoc' : doc = .json L.toDict := by
    unfold canonicalJson at hdoc
    split_ifs at hdoc
    exact (Except.ok.inj hdoc).symm
  subst hdoc'
  rw [atomicWrite, Prog.mark_bind, Prog.mark_finally']
  refine wp_bind.mpr (wp_mark_perform (wp_perform_ok () (w.withTemp (some (.malformed _))) rfl
    rfl trivial trivial ?_) fun _ e v hl => ?_)
  · refine wp_finally.mpr ?_
    rw [Prog.mark_bind, Prog.mark_bind, Prog.mark_bind]
    have hraised : ∀ e x, wp (faultySem b)
        ((suppress (fun e => e.cls = .fileNotFoundError) (perform .unlinkTemp)).mark part)
        (fun _ => E e) E (fun _ => True) (w.withTemp x) := fun e x => wp_removeTemp x (hE e none)
    refine wp_bind.mpr (wp_mark_perform (wp_perform_ok () (w.withTemp (some (.json L.toDict))) rfl
      rfl trivial trivial ?_) fun _ e v hl => ?_)
    · refine wp_bind.mpr (wp_mark_perform (wp_perform_ok () (w.withTemp (some (.json L.toDict)))
        rfl rfl trivial trivial ?_) fun _ e v hl => ?_)
      · refine wp_bind.mpr (wp_mark_perform (wp_perform_ok ()
          ((w.written .state (.json L.toDict)).withTemp none) rfl ?_ trivial trivial ?_)
          fun _ e v hl => ?_)
        · simp only [exec, World.withTemp_node]
          cases hn : w.node .state with
          | dir es => exact absurd hn (hstate es)
          | _ => rfl
        · apply wp_erase
          · refine .mark (.catch' (.perform (not_canFail rfl rfl)) fun e => ?_)
            split_ifs
            · exact .pure ()
            · exact .throw e
          · rw [Prog.erase_mark]
            exact wp_fsyncRoot trivial (wp_removeTemp none hQ)
        · cases hl
          exact hraised e _
      · cases hl
        exact hraised e _
    · cases hl with
      | same => exact hraised e _
      | temp x => exact hraised e x
  · cases hl
    exact hw e

/-! ## A calm directory with the slots of another -/

/-- The directory is calm, and nothing but the work directories has changed. -/
structure Spared (D : ABDeployer) (P : Provenance) (st : DeploymentState) (w w' : World) :
    Prop where
  calm : Calm D P w' st
  prelim : Prelim st w w.self w'
  slots : ∀ s, w'.node (.slot s) = w.node (.slot s)

/-- The directory is calm, with the slots and all of the state that deployments rest on
as they were. -/
structure Unharmed (D : ABDeployer) (P : Provenance) (st : DeploymentState) (w w' : World) :
    Prop where
  calm : ∃ L, (L = st ∨ ∃ e, L = st.failed e) ∧ Calm D P w' L
  self : w'.self = w.self
  slots : ∀ s, w'.node (.slot s) = w.node (.slot s)

theorem Spared.unharmed (h : Spared D P st w w') : Unharmed D P st w w' :=
  ⟨⟨st, Or.inl rfl, h.calm⟩, h.prelim.memory, h.slots⟩

theorem Spared.set_candidate (h : Spared D P st w w') {n : Node} (hn : n.Removable) :
    Spared D P st w (w'.set (.candidate t) n) where
  calm := h.calm.set_candidate hn
  prelim := h.prelim.set fun _ _ => nofun
  slots s := by simpa using h.slots s

theorem Spared.withTemp (h : Spared D P st w w') (x : Option Doc) :
    Spared D P st w (w'.withTemp x) where
  calm := h.calm.same (.withTemp w' x)
  prelim := h.prelim.withTemp x
  slots := h.slots

theorem Spared.failsAt {o : Op} {w'' : World} (h : Spared D P st w w')
    (ho : FailsAt (.candidate t) o) (hl : Leaves o w' w'') : Spared D P st w w'' := by
  rcases ho w' w'' hl with rfl | ⟨es, rfl⟩
  · exact h
  · exact h.set_candidate (.dir es)

/-! ## Before the slot is moved -/

theorem wp_markedRemoveCandidate {Q : Unit → World → Prop} {E : PyError → World → Prop}
    (h : Spared D P st w w')
    (hQ : Spared D P st w (w'.set (.candidate t) .missing) →
      Q () (w'.set (.candidate t) .missing)) :
    wp (faultySem b) ((rmtree true (.candidate t)).mark .removal) Q E (fun _ => True) w' :=
  wp_mark_safe (fun _ => Bool.false_ne_true) (wp_rmtree (h.calm.candidates t) (Or.inl rfl)
    (fun _ _ => trivial) (hQ (h.set_candidate .missing)))

theorem wp_markedStage {es : Entries} {Q : Unit → World → Prop} {E : PyError → World → Prop}
    (h : Spared D P st w w') (hcand : w'.node (.candidate t) = .missing)
    (hQ : ∀ v, Spared D P st w v → v.node (.candidate t) = .dir (copied es) → Q () v)
    (hE : ∀ e v, Spared D P st w v → E e v) :
    wp (faultySem b) ((copytree es (.candidate t)).mark part) Q E (fun _ => True) w' := by
  have hsem : wp sem (copytree es (.candidate t)) Q E (Spared D P st w) w' :=
    wp_copytree hcand h (fun es => h.set_candidate (.dir es))
      (hQ _ (h.set_candidate (.dir _)) (by simp))
  exact wp_mark copytree_failsFast hsem fun o e v v' ho hv hl => hE e v' (hv.failsAt ho hl)

theorem wp_markedQualify {m : ArtifactManifest} {Q : ModelMetrics → World → Prop}
    {E : PyError → World → Prop} (h : Spared D P st w w') (hQ : ∀ metrics, Q metrics w')
    (hE : ∀ e, E e w') :
    wp (faultySem b) ((D.qualify args st m t).mark part) Q E (fun _ => True) w' := by
  have hsem : wp sem (D.qualify args st m t) Q E (fun v => v = w') w' := by
    refine wp_mono (wp_qualify h.prelim rfl) ?_ ?_ fun _ hv => hv.symm
    · rintro metrics v - ⟨rfl, _⟩
      exact hQ metrics
    · rintro e v - ⟨rfl, _⟩
      exact hE e
  refine wp_mark qualify_failsFast hsem fun o e v v' ho hv hl => ?_
  subst hv
  rw [ho v v' hl]
  exact hE e

theorem wp_markedRecordFailure (e : PyError) (h : Spared D P st w w') :
    wp (faultySem b) (markedRecordFailure st t e) (fun _ _ => False)
      (fun _ v => Unharmed D P st w v) (fun _ => True) w' := by
  refine wp_bind.mpr (wp_markedRemoveCandidate h fun h₂ => ?_)
  generalize w'.set (.candidate t) .missing = w₂ at h₂ ⊢
  have hcalm := h₂.calm.failed e
  refine wp_bind.mpr (wp_markedWrite (by simp [h₂.calm.state]) ⟨trivial, ?_⟩
    fun e x => (h₂.withTemp x).unharmed)
  exact ⟨⟨_, Or.inr ⟨e, rfl⟩, hcalm.same (.withTemp _ none)⟩, h₂.prelim.memory, fun s => by
    simpa using h₂.slots s⟩

/-! ## Once the slot is moved -/

/-- The slot is moved to its backup, and nothing else that deployments rest on has
changed. -/
structure Displaced (D : ABDeployer) (P : Provenance) (st : DeploymentState) (t : Slot)
    (w w' : World) : Prop extends Placed D P w' st t where
  kept : Prelim st w w.self w'
  elsewhere : ∀ s, s ≠ t → w'.node (.slot s) = w.node (.slot s)
  moved : w'.node (.backup t) = w.node (.slot t)

theorem Displaced.withTemp (h : Displaced D P st t w w') (x : Option Doc) :
    Displaced D P st t w (w'.withTemp x) where
  toPlaced := h.toPlaced.same (.withTemp w' x)
  kept := h.kept.withTemp x
  elsewhere := h.elsewhere
  moved := h.moved

/-- The candidate is renamed into the place of the slot. -/
theorem Displaced.promoted (h : Displaced D P st t w w') :
    Displaced D P st t w
      ((w'.set (.candidate t) .missing).set (.slot t) (w'.node (.candidate t))) where
  toPlaced := h.toPlaced.promoted
  kept := by
    have hcand := h.kept.set (p := .candidate t) (n := .missing) fun _ _ => nofun
    refine hcand.set fun a ha heq => ?_
    have hat : t = a := Path.slot.inj heq
    exact Slot.inactive_ne st.activeSlot (h.target ▸ hat ▸ ha)
  elsewhere s hs := by simpa [hs] using h.elsewhere s hs
  moved := by simpa using h.moved

theorem wp_markedBackUp {Q : Unit → World → Prop} {E : PyError → World → Prop}
    (h : Spared D P st w w') (ht : t = Slot.inactive st.activeSlot)
    (hQ : ∀ v, Displaced D P st t w v → v.node (.slot t) = .missing → Q () v)
    (hE : ∀ e v, Spared D P st w v → E e v) :
    wp (faultySem false) (markedBackUp t) Q E (fun _ => True) w' := by
  have hrem : (w'.node (.backup t)).Removable := (h.calm.quiet.safe t).backup_removable
  refine wp_bind.mpr (wp_mark_safe (fun _ => Bool.false_ne_true) (wp_rmtree hrem (Or.inl rfl)
    (fun _ _ => trivial) ?_))
  have h₂ : Spared D P st w (w'.set (.backup t) .missing) := {
    calm := h.calm.set_backup .missing (Or.inr rfl)
    prelim := h.prelim.set fun _ _ => nofun
    slots := fun s => by simpa using h.slots s }
  have hback : (w'.set (.backup t) .missing).node (.backup t) = .missing := by simp
  generalize w'.set (.backup t) .missing = w₂ at h₂ hback ⊢
  have hslot := h₂.calm.slots t
  refine wp_bind.mpr (wp_mark_perform (wp_perform_ok _ w₂ rfl rfl trivial trivial ?_)
    fun _ e v hl => ?_)
  · cases hv : st.slots.get t with
    | none =>
      rw [hv] at hslot
      rw [hslot.1]
      refine ⟨trivial, hQ w₂ ?_ hslot.1⟩
      exact {
        toPlaced := h₂.calm.placed_empty ht hv
        kept := h₂.prelim
        elsewhere := fun s _ => h₂.slots s
        moved := by rw [hback, ← h₂.slots t, hslot.1] }
    | some v =>
      rw [hv] at hslot
      obtain ⟨es, hdir⟩ := hslot.1.removable.resolve_left hslot.1.ne_missing
      rw [hdir]
      refine wp_mark_perform (wp_rename (by rw [hdir, hback]; rfl) rfl trivial trivial ?_)
        fun _ e v hl => ?_
      · refine hQ _ ?_ (by simp)
        have hmoved : Prelim st w w.self (w₂.set (.slot t) .missing) :=
          h₂.prelim.set fun a ha heq => by
            have hat : t = a := Path.slot.inj heq
            exact Slot.inactive_ne st.activeSlot (ht ▸ hat ▸ ha)
        exact {
          toPlaced := h₂.calm.placed_moved ht hv
          kept := hmoved.set fun _ _ => nofun
          elsewhere := fun s hs => by simpa [hs] using h₂.slots s
          moved := by simpa using h₂.slots t }
      · cases hl
        exact hE e w₂ h₂
  · cases hl
    exact hE e w₂ h₂

/-- The handler puts the slot back. -/
theorem wp_markedUndo (e : PyError) (h : Displaced D P st t w w') :
    wp (faultySem false) (markedUndo t e) (fun _ _ => False)
      (fun _ v => Spared D P st w v) (fun _ => True) w' := by
  have hlook : ∀ p : Path, Prog.All (fun o => ¬canFail false o.1 o.2 = true)
      ((look p).mark Part.handler) := fun p => .mark (.perform Bool.false_ne_true)
  apply wp_erase
  · refine .bind (hlook _) fun final => .bind ?_ fun _ => .bind (hlook _) fun backup =>
      .bind ?_ fun _ => .throw e
    · split_ifs
      · exact .mark (.of_forall (fun _ => Bool.false_ne_true) _)
      · exact .pure ()
    · split_ifs
      · exact .mark (.perform Bool.false_ne_true)
      · exact .pure ()
  · rw [erase_markedUndo]
    refine wp_undo e h.toPlaced (fun _ _ _ _ _ _ => trivial) ?_
    intro v hcalm hself hhist hfloor hslots hslot
    refine ⟨trivial, hcalm, ?_, ?_⟩
    · refine ⟨⟨hhist.trans h.kept.history, hfloor.trans h.kept.floor, fun a ha => ?_⟩,
        hself.trans h.kept.memory⟩
      have hat : a ≠ t := fun heq => Slot.inactive_ne st.activeSlot (h.target ▸ heq ▸ ha)
      exact (hslots a hat).trans (h.elsewhere a hat)
    · intro s
      by_cases hs : s = t
      · rw [hs, hslot, h.moved]
      · rw [hslots s hs, h.elsewhere s hs]

/-- What raises between the rename of the candidate and the one of `state.json` is
undone. -/
theorem wp_markedPromote {version : PyStr} {releaseSequence : Int} {Q : Unit → World → Prop}
    (hanch : D.anchored = false) (h : Displaced D P st t w w')
    (hslot : w'.node (.slot t) = .missing)
    (hQ : ∀ v, (v.node (.backup t)).Removable → Q () v) :
    wp (faultySem false) (D.markedPromote st t version releaseSequence) Q
      (fun _ v => Spared D P st w v) (fun _ => True) w' := by
  rw [markedPromote, if_neg (by simp [hanch])]
  have hundo : ∀ e v, Displaced D P st t w v →
      wp (faultySem false) (markedUndo t e) Q (fun _ v => Spared D P st w v) (fun _ => True) v :=
    fun e v hv => wp_mono (wp_markedUndo e hv) (fun _ _ _ hq => hq.elim) (fun _ _ _ he => he)
      fun _ hc => hc
  obtain ⟨es, hroot⟩ := h.slotsRoot
  rw [install, Prog.mark_bind]
  refine wp_catch.mpr (wp_bind.mpr (wp_mark_perform ?_ fun _ e v hl => ?_))
  · rcases h.candidates t with hcand | ⟨es', hcand⟩
    · refine wp_perform_error notFound w' rfl ?_ trivial trivial (hundo _ w' h)
      simp [exec, rename, replaceError, hcand]
    · refine wp_rename (by rw [hcand, hslot]; rfl) (by simp only [parentError, hroot]) trivial
        trivial ?_
      have h₂ := h.promoted
      generalize (w'.set (.candidate t) .missing).set (.slot t) (w'.node (.candidate t)) = w₂
        at h₂ ⊢
      rw [Prog.mark_bind, verifiedSlotArtifact, Prog.mark_bind]
      refine wp_bind.mpr (wp_bind.mpr (wp_mark_perform (wp_perform_ok _ w₂ rfl rfl trivial
        trivial ?_) fun _ e v hl => ?_))
      · rw [Prog.mark_liftM]
        refine wp_liftM.mpr ⟨trivial, fun _ _ => ?_, fun e _ => hundo e w₂ h₂⟩
        refine wp_markedWrite (by simp [h₂.state]) (hQ _ ?_) fun e x => hundo e _ (h₂.withTemp x)
        simpa using h₂.backup.removable
      · cases hl
        exact hundo e w₂ h₂
  · cases hl
    exact hundo e w' h

/-! ## The deployment -/

/-- A deployment that raises harms nothing.  `w₁` is the world it has read. -/
theorem wp_markedDeploy (hanch : D.anchored = false) (h : Calm D P w st) (hready : Ready D w) :
    wp (faultySem false) (D.markedDeploy args) (fun _ _ => True)
      (fun _ w' => ∃ w₁, ReadOnly w w₁ ∧ Unharmed D P st w₁ w') (fun _ => True) w := by
  have hraised : ∀ w₁, ReadOnly w w₁ → ∀ e : PyError, ∀ v, Spared D P st w₁ v →
      ∃ w₁, ReadOnly w w₁ ∧ Unharmed D P st w₁ v := fun w₁ hr _ v hv => ⟨w₁, hr, hv.unharmed⟩
  have hspared : ∀ w₁, ReadOnly w w₁ → Spared D P st w₁ w₁ := fun w₁ hr =>
    ⟨h.same hr.toSameDisk, ⟨.refl st w₁, rfl⟩, fun _ => rfl⟩
  have hunharmed : ∀ w₁, ReadOnly w w₁ → ∃ w₂, ReadOnly w w₂ ∧ Unharmed D P st w₂ w₁ :=
    fun w₁ hr => ⟨w₁, hr, (hspared w₁ hr).unharmed⟩
  refine wp_bind.mpr (wp_liftM.mpr ⟨trivial, ?_, fun _ _ => hunharmed w (.refl w)⟩)
  rintro ⟨d, m⟩ hinspect
  refine wp_bind.mpr (wp_liftM.mpr ⟨trivial, ?_, fun _ _ => hunharmed w (.refl w)⟩)
  rintro ⟨⟩ -
  have hno : ∀ {p : Prop}, D.anchored = true → p := fun ha => by
    rw [hanch] at ha
    cases ha
  refine wp_bind.mpr (wp_mark read_failsFast (wp_read_checked (C := ReadOnly w) h.state
    h.wellFormed hready.self (fun _ hr => hr) (fun _ w₁ hr => ?_) fun ha => hno ha) ?_)
  swap
  · rintro o e v v' ho hr hl
    rw [ho v v' hl]
    exact hunharmed v hr
  refine wp_bind.mpr (wp_liftM.mpr ⟨trivial, ?_, fun _ _ => hunharmed w₁ hr⟩)
  rintro ⟨⟩ -
  refine wp_bind.mpr (wp_markedRemoveCandidate (hspared w₁ hr) fun h₂ => ?_)
  have hcand₂ : (w₁.set (.candidate (Slot.inactive st.activeSlot)) .missing).node
      (.candidate (Slot.inactive st.activeSlot)) = .missing := by simp
  generalize w₁.set (.candidate (Slot.inactive st.activeSlot)) .missing = w₂ at h₂ hcand₂ ⊢
  refine wp_bind.mpr (wp_liftM.mpr ⟨trivial, fun es _ => ?_, fun e _ => hraised w₁ hr e w₂ h₂⟩)
  refine wp_bind.mpr (wp_markedStage h₂ hcand₂ (fun w₃ h₃ _ => ?_) (hraised w₁ hr))
  refine wp_bind.mpr (wp_catch.mpr (wp_markedQualify h₃ (fun metrics => ?_) fun e => ?_))
  · refine wp_bind.mpr (wp_markedBackUp h₃ rfl (fun w₄ h₄ hslot => ?_) (hraised w₁ hr))
    refine wp_bind.mpr (wp_mono (wp_markedPromote hanch h₄ hslot fun w₅ hback => ?_)
      (fun _ _ _ hq => hq) (fun e v _ hv => hraised w₁ hr e v hv) fun _ hc => hc)
    -- the backup of a release that is committed is removed without an error
    exact wp_bind.mpr (wp_mark_safe (fun _ => Bool.false_ne_true) (wp_rmtree hback (Or.inl rfl)
      (fun _ _ => trivial) ⟨trivial, trivial⟩))
  · exact wp_mono (wp_markedRecordFailure e h₃) (fun _ _ _ hq => hq.elim)
      (fun _ v _ hv => ⟨w₁, hr, hv⟩) fun _ hc => hc

end Deploy
end EdgeFort
