/-
What the small methods of the deployer do, as rules for `wp`.
-/
import EdgeFort.Deploy.Invariant

namespace EdgeFort
namespace Deploy

open Effect

variable {D : ABDeployer} {w : World} {C : World → Prop}

theorem wp_raiseIf {c : Prop} [Decidable c] {e : PyError} {Q : Unit → World → Prop}
    {E : PyError → World → Prop} (hC : C w) (hQ : ¬c → Q () w) (hE : c → E e w) :
    wp sem (liftM (raiseIf c e)) Q E C w := by
  refine wp_liftM.mpr ⟨hC, fun _ h => hQ (raiseIf_eq_ok.mp h), fun e' h => ?_⟩
  by_cases hc : c
  · rw [raiseIf_pos hc] at h
    exact Except.error.inj h ▸ hE hc
  · rw [raiseIf_neg hc] at h
    cases h

theorem wp_lift_ok {α : Type} {r : Except PyError α} {a : α} {Q : α → World → Prop}
    {E : PyError → World → Prop} (hr : r = .ok a) (hC : C w) (hQ : Q a w) :
    wp sem (liftM r) Q E C w := by
  subst hr
  exact ⟨hC, hQ⟩

/-! ## The state file -/

theorem recorded_state {st : DeploymentState} (h : st.WellFormed) :
    World.recorded .state (.json st.toDict) = [st] := by
  simp [World.recorded, DeploymentState.parseState_toDict h, Except.toOption]

theorem recorded_pending (doc : Doc) : World.recorded .pending doc = [] := rfl

open ABDeployer

theorem wp_write {st : DeploymentState} {Q : Unit → World → Prop} {E : PyError → World → Prop}
    (hwf : st.WellFormed) (henc : st.toDict.encodable = true)
    (hp : ∀ es, w.node .state ≠ .dir es) (hC : ∀ t, C (w.withTemp t))
    (hC' : ∀ t, C ((w.written .state (.json st.toDict)).withTemp t))
    (hQ : Q () ((w.written .state (.json st.toDict)).withTemp none)) :
    wp sem (write st) Q E C w := by
  have hw : C w := hC w.temp
  refine wp_bind.mpr (wp_lift_ok (DeploymentState.parseState_toDict hwf) hw ?_)
  refine wp_bind.mpr (wp_lift_ok (by simp [canonicalJson, henc]; rfl) hw ?_)
  exact wp_atomicWrite hp hC hC' hQ

theorem readDoc_json {α : Type} {label : PyStr} {parse : Json → Except PyError α} {v : Json} {a : α}
    (h : parse v = .ok a) : readDoc label parse (.file (.json v)) = .ok a := by
  simp [readDoc, openDoc, parseDoc, ok_bind, h]

/-- A state on disk is read back. -/
theorem wp_read_unchecked {st : DeploymentState} {Q : DeploymentState → World → Prop}
    {E : PyError → World → Prop} (hstate : w.node .state = .file (.json st.toDict))
    (hwf : st.WellFormed) (hC : C w) (hQ : Q st w) : wp sem (D.read false) Q E C w := by
  refine wp_bind.mpr (wp_look hC ?_)
  simp only [hstate]
  refine wp_bind.mpr (wp_lift_ok (readDoc_json (DeploymentState.parseState_toDict hwf)) hC ?_)
  exact ⟨hC, hQ⟩

/-! ## The journal -/

theorem wp_writePendingAnchor {j : PendingAnchor} {Q : Unit → World → Prop}
    {E : PyError → World → Prop} (hwf : j.WellFormed) (hp : ∀ es, w.node .pending ≠ .dir es)
    (hC : ∀ t, C (w.withTemp t))
    (hC' : ∀ t, C ((w.written .pending (.json j.toDict)).withTemp t))
    (hQ : Q () ((w.written .pending (.json j.toDict)).withTemp none)) :
    wp sem (writePendingAnchor j) Q E C w := by
  have hw : C w := hC w.temp
  refine wp_bind.mpr (wp_lift_ok (PendingAnchor.parsePendingAnchor_toDict hwf) hw ?_)
  refine wp_bind.mpr (wp_lift_ok (by
    simp [canonicalJson, PendingAnchor.encodable_toDict hwf]; rfl) hw ?_)
  exact wp_atomicWrite hp hC hC' hQ

theorem wp_removePendingAnchor {doc : Doc} {Q : Unit → World → Prop} {E : PyError → World → Prop}
    (hp : w.node .pending = .file doc) (hC : C w) (hC' : C (w.set .pending .missing))
    (hQ : Q () (w.set .pending .missing)) : wp sem removePendingAnchor Q E C w := by
  refine wp_bind.mpr (wp_catch.mpr (wp_bind.mpr (wp_perform_ok () (w.set .pending .missing) rfl
    (by simp [exec, hp]) hC hC' ?_)))
  exact ⟨hC', wp_fsyncRoot hC' hQ⟩

theorem wp_readPendingAnchor_missing {Q : Option PendingAnchor → World → Prop}
    {E : PyError → World → Prop} (hp : w.node .pending = .missing) (hC : C w) (hQ : Q none w) :
    wp sem readPendingAnchor Q E C w := by
  refine wp_bind.mpr (wp_look hC ?_)
  rw [hp]
  exact ⟨hC, hQ⟩

theorem wp_readPendingAnchor {j : PendingAnchor} {Q : Option PendingAnchor → World → Prop}
    {E : PyError → World → Prop} (hj : Journal D w j) (hC : C w) (hQ : Q (some j) w) :
    wp sem readPendingAnchor Q E C w := by
  refine wp_bind.mpr (wp_look hC ?_)
  rw [hj.pending]
  exact wp_bind.mpr (wp_lift_ok
    (readDoc_json (PendingAnchor.parsePendingAnchor_toDict hj.wellFormed)) hC ⟨hC, hQ⟩)

/-! ## Slots -/

theorem wp_verifiedSlotManifest {s : Slot} {v : PyStr} {Q : ArtifactManifest → World → Prop}
    {E : PyError → World → Prop} (hv : Verifies D (w.node (.slot s)) v) (hC : C w)
    (hQ : ∀ m, D.verifiedDirectoryManifest (w.node (.slot s)) v = .ok m → Q m w) :
    wp sem (D.verifiedSlotManifest s v) Q E C w := by
  obtain ⟨m, hm⟩ := hv
  exact wp_bind.mpr (wp_look hC (wp_lift_ok hm hC (hQ m hm)))

/-- A directory that verifies carries the sequence of the registry's manifest. -/
theorem verifiedDirectoryManifest_canonical {n : Node} {v : PyStr} {m : ArtifactManifest}
    (h : D.verifiedDirectoryManifest n v = .ok m) :
    ∃ c, D.canonicalManifest v = .ok c ∧ m.releaseSequence = c.releaseSequence := by
  simp only [verifiedDirectoryManifest, bind_eq_ok, raiseIf_eq_ok, pure_eq_ok] at h
  obtain ⟨c, hc, m', _, _, heq, rfl⟩ := h
  exact ⟨c, hc, ArtifactManifest.releaseSequence_eq_of_pyEq (by simpa using heq)⟩

theorem canonicalManifest_of_inspect {v : PyStr} {d : Node} {m : ArtifactManifest}
    (h : D.registry.inspect v = .ok (d, m)) : D.canonicalManifest v = .ok m := by
  simp [canonicalManifest, h, ok_bind, pure, Except.pure]

theorem canonicalManifest_of_identity {v : PyStr} {seq : Int}
    (h : D.registry.assertReleaseSequenceIdentity v seq = .ok ()) :
    ∃ m, D.canonicalManifest v = .ok m ∧ m.releaseSequence = seq := by
  obtain ⟨d, m, hm, hseq⟩ := Registry.assertReleaseSequenceIdentity_ok h
  exact ⟨m, canonicalManifest_of_inspect hm, hseq⟩

/-! ## The anchor -/

/-- The floors an anchor may report. -/
def FloorInRange (floor : Int) : Prop := -1 ≤ floor ∧ floor ≤ maxReleaseSequence

theorem validateAnchorFloor_ok {value : Json} {floor : Int} :
    validateAnchorFloor value = .ok floor ↔ value = .int floor ∧ FloorInRange floor := by
  simp only [validateAnchorFloor, Json.intWhere_ok, Bool.and_eq_true, decide_eq_true_eq,
    FloorInRange]

/-- A deployer remembers a trusted floor exactly when it has an anchor. -/
def SelfOk (D : ABDeployer) (s : Self) : Prop := s.trustedFloor.isSome = D.anchored

/-- Nothing but the deployer's memory of the anchor has changed. -/
structure ReadOnly (w w' : World) : Prop extends SameDisk w w' where
  recoveryRequired : w'.self.recoveryRequired = w.self.recoveryRequired
  trustedFloor : w'.self.trustedFloor.isSome = w.self.trustedFloor.isSome

theorem ReadOnly.refl (w : World) : ReadOnly w w := ⟨SameDisk.refl w, rfl, rfl⟩

theorem wp_readAnchorFloor {Q : Int → World → Prop} {E : PyError → World → Prop}
    (ha : D.anchored = true) (hC : C w) (hC' : C { w with observed := observe w.floor w.observed })
    (hQ : FloorInRange w.floor → Q w.floor { w with observed := observe w.floor w.observed })
    (hE : ¬FloorInRange w.floor → ∀ e, E e { w with observed := observe w.floor w.observed }) :
    wp sem D.readAnchorFloor Q E C w := by
  refine wp_bind.mpr (wp_raiseIf hC (fun _ => ?_) (fun h => ?_))
  · refine wp_catch.mpr (wp_bind.mpr (wp_perform_ok _ _ rfl rfl hC hC' ?_))
    refine wp_liftM.mpr ⟨hC', fun a h => ?_, fun e h => ⟨hC', hE (fun hf => ?_) _⟩⟩
    · obtain ⟨heq, hf⟩ := validateAnchorFloor_ok.mp h
      obtain rfl := Json.int.inj heq
      exact hQ hf
    · rw [validateAnchorFloor_ok.mpr ⟨rfl, hf⟩] at h
      cases h
  · rw [ha] at h
    cases h

theorem ReadOnly.observe (w : World) (s : Self)
    (hr : s.recoveryRequired = w.self.recoveryRequired)
    (ht : s.trustedFloor.isSome = w.self.trustedFloor.isSome) (o : Option Int) :
    ReadOnly w { w with self := s, observed := o } :=
  ⟨⟨rfl, rfl, rfl⟩, hr, ht⟩

/-- The state agrees with the anchor, as far as this deployer can tell. -/
structure AnchorAgrees (w : World) (st : DeploymentState) : Prop where
  notRequired : w.self.recoveryRequired = false
  floor : w.floor = st.highestReleaseSequence ∨
    w.self.trustedFloor = some st.highestReleaseSequence ∧ (w.node .pending).present = false

/-- `_validate_state_anchor` passes only states that agree with the anchor, and
refuses only when recovery is required or the floors differ. -/
theorem wp_validateStateAnchor {st : DeploymentState} {Q : Unit → World → Prop}
    {E : PyError → World → Prop} (hwf : st.WellFormed) (hself : SelfOk D w.self)
    (hC : ∀ w', ReadOnly w w' → C w')
    (hQ : (D.anchored = true → AnchorAgrees w st) → ∀ w', ReadOnly w w' → Q () w')
    (hE : D.anchored = true → ¬(w.self.recoveryRequired = false ∧
      w.floor = st.highestReleaseSequence) → ∀ e w', ReadOnly w w' → E e w') :
    wp sem (D.validateStateAnchor st) Q E C w := by
  have hw : C w := hC w (.refl w)
  refine wp_bind.mpr (wp_getSelf hw ?_)
  unfold SelfOk at hself
  cases htrust : w.self.trustedFloor with
  | none =>
    refine ⟨hw, hQ (fun ha => ?_) w (.refl w)⟩
    rw [htrust, ha] at hself
    cases hself
  | some trusted =>
    have ha : D.anchored = true := by rw [← hself, htrust]; rfl
    simp only
    refine wp_bind.mpr (wp_raiseIf hw (fun hreq => ?_) fun hreq =>
      hE ha (fun h => Bool.false_ne_true (h.1.symm.trans hreq)) _ w (.refl w))
    have hreq : w.self.recoveryRequired = false := by simpa using hreq
    refine wp_bind.mpr (wp_look hw (wp_bind.mpr ?_))
    have hread := ReadOnly.observe w w.self rfl rfl (observe w.floor w.observed)
    have hset : ∀ f, ReadOnly w
        { w with
          self := { w.self with trustedFloor := some f }
          observed := observe w.floor w.observed } :=
      fun f => ReadOnly.observe w ⟨some f, w.self.recoveryRequired⟩ rfl (by rw [htrust]; rfl) _
    unfold refreshedFloor
    split_ifs with hrefresh
    · refine wp_bind.mpr (wp_readAnchorFloor ha hw (hC _ hread) (fun hrange => ?_) fun hrange e => ?_)
      · refine wp_bind.mpr (wp_bind.mpr (wp_getSelf (hC _ hread)
          (wp_setSelf (hC _ hread) (hC _ (hset w.floor)) ?_)))
        refine ⟨hC _ (hset w.floor), wp_raiseIf (hC _ (hset w.floor)) (fun hfl => ?_) fun hfl => ?_⟩
        · exact hQ (fun _ => ⟨hreq, Or.inl (not_not.mp hfl).symm⟩) _ (hset w.floor)
        · exact hE ha (fun h => hfl h.2.symm) _ _ (hset w.floor)
      · refine hE ha (fun h => hrange ?_) _ _ hread
        rw [h.2]
        exact ⟨hwf.floor_ge, hwf.floor_le⟩
    · obtain ⟨hfl, hpend⟩ := not_or.mp hrefresh
      have hfl := not_not.mp hfl
      refine ⟨hw, wp_raiseIf hw (fun _ => ?_) fun hne => absurd hfl hne⟩
      exact hQ (fun _ => ⟨hreq, Or.inr ⟨by rw [htrust, hfl], by simpa using hpend⟩⟩) w (.refl w)

/-- A state on disk is read back, unless the anchor check refuses it. -/
theorem wp_read_checked {st : DeploymentState} {Q : DeploymentState → World → Prop}
    {E : PyError → World → Prop} (hstate : w.node .state = .file (.json st.toDict))
    (hwf : st.WellFormed) (hself : SelfOk D w.self) (hC : ∀ w', ReadOnly w w' → C w')
    (hQ : (D.anchored = true → AnchorAgrees w st) → ∀ w', ReadOnly w w' → Q st w')
    (hE : D.anchored = true → ¬(w.self.recoveryRequired = false ∧
      w.floor = st.highestReleaseSequence) → ∀ e w', ReadOnly w w' → E e w') :
    wp sem (D.read true) Q E C w := by
  have hw : C w := hC w (.refl w)
  refine wp_bind.mpr (wp_look hw ?_)
  simp only [hstate]
  refine wp_bind.mpr (wp_lift_ok (readDoc_json (DeploymentState.parseState_toDict hwf)) hw ?_)
  exact wp_bind.mpr (wp_validateStateAnchor hwf hself hC
    (fun ha w' hw' => ⟨hC w' hw', hQ ha w' hw'⟩) hE)

/-- `advance_to` moves the floor, or raises with the floor moved or not. -/
theorem wp_advanceAnchor {r : Int} {Q : Int → World → Prop} {E : PyError → World → Prop}
    (hr : FloorInRange r) (hle : w.floor ≤ r)
    (hC : ∀ w', w'.node = w.node → w'.history = w.history → (w'.floor = w.floor ∨ w'.floor = r) →
      w'.self.recoveryRequired = w.self.recoveryRequired →
      (w'.self = w.self ∨ w'.self.trustedFloor = some r) → C w')
    (hQ : ∀ w', w'.node = w.node → w'.history = w.history → w'.floor = r →
      w'.self = { w.self with trustedFloor := some r } → Q r w')
    (hE : ∀ e w', w'.self = w.self → E e w') :
    wp sem (advanceAnchor r) Q E C w := by
  have hw : C w := hC w rfl rfl (Or.inl rfl) rfl (Or.inl rfl)
  refine wp_bind.mpr (wp_catch.mpr (wp_bind.mpr (wp_perform.mpr ⟨hw, ?_⟩)))
  rintro x (rfl | hx)
  · have hadv : exec (.advanceTo r) w =
        (.ok (.int r), { w with floor := r, observed := observe r w.observed }) := by
      simp only [exec, if_neg (Int.not_lt.mpr hle)]
    have hC₁ : C { w with floor := r, observed := observe r w.observed } :=
      hC _ rfl rfl (Or.inr rfl) rfl (Or.inl rfl)
    have hC₂ : C { w with
        floor := r
        observed := observe r w.observed
        self := { w.self with trustedFloor := some r } } :=
      hC _ rfl rfl (Or.inr rfl) rfl (Or.inr rfl)
    have hrun : sem.exec (.advanceTo r) w =
      (.ok (.int r), { w with floor := r, observed := observe r w.observed }) := hadv
    rw [hrun]
    refine ⟨hC₁, fun a ha => ?_, fun e he => absurd he ok_ne_error⟩
    obtain rfl := Except.ok.inj ha
    refine wp_lift_ok (validateAnchorFloor_ok.mpr ⟨rfl, hr⟩) hC₁ ?_
    refine wp_bind.mpr (wp_raiseIf hC₁ (fun _ => ?_) fun hne => absurd rfl hne)
    refine wp_bind.mpr (wp_bind.mpr (wp_getSelf hC₁ (wp_setSelf hC₁ hC₂ ⟨hC₂, ?_⟩)))
    exact hQ _ rfl rfl rfl rfl
  · cases hx with
    | before e => exact ⟨hw, fun _ h => absurd h error_ne_ok, fun e' _ => ⟨hw, hE _ _ rfl⟩⟩
    | after e _ =>
      have hC₁ : C { w with floor := r } := hC _ rfl rfl (Or.inr rfl) rfl (Or.inl rfl)
      exact ⟨hC₁, fun _ h => absurd h error_ne_ok, fun e' _ => ⟨hC₁, hE _ _ rfl⟩⟩

theorem wp_setRecoveryRequired {b : Bool} {Q : Unit → World → Prop} {E : PyError → World → Prop}
    (hC : C w) (hC' : C { w with self := { w.self with recoveryRequired := b } })
    (hQ : Q () { w with self := { w.self with recoveryRequired := b } }) :
    wp sem (setRecoveryRequired b) Q E C w :=
  wp_bind.mpr (wp_getSelf hC (wp_setSelf hC hC' hQ))

end Deploy
end EdgeFort
