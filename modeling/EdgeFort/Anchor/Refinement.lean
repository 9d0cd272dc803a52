/-
`FileRollbackAnchor` against `MemoryRollbackAnchor`.

The file stands for the value of one memory anchor.  Each section reads the file or replaces
it by that of the next value, so that every history of calls, constructions and crashes is
one of the memory anchor.
-/
import EdgeFort.Anchor.File

namespace EdgeFort
namespace Anchor

open Effect Json

variable (I : Interpreter)

/-! ## The bytes of the file -/

section Bytes

variable {I}

theorem sortKeys_payload (floor : Floor) : (payload floor).sortKeys =
    .obj [("floor", .int floor.val), ("schema_version", .int 1)] := rfl

theorem natAbs_floor (floor : Floor) : floor.val.natAbs < 10 ^ 19 := by
  have hlo := floor.property.1
  have hhi := floor.property.2
  unfold maxReleaseSequence at hhi
  norm_num
  omega

theorem refusal_int {n : Nat} {i : Int} (h : i.natAbs < 10 ^ 19) :
    (Json.int i).refusal n = none := by
  have hlen : ¬maxStrDigits < (decimal i.natAbs).length := by
    have := length_decimal (by decide) h
    unfold maxStrDigits
    omega
  cases n <;> exact if_neg hlen

/-- A floor has a file. -/
theorem exists_anchorFile (floor : Floor) :
    ∃ data, anchorFile I floor = .ok data := by
  obtain ⟨text, htext⟩ : ∃ text, canonicalJsonBytes I (payload floor) = .ok text := by
    refine exists_dumpsBytes rfl ?_
    have hroom := I.dumpsNesting_ge
    obtain ⟨n, hn⟩ : ∃ n, I.dumpsNesting = n + 1 := ⟨I.dumpsNesting - 1, by omega⟩
    rw [hn]
    refine refusal_obj.mpr ⟨sorts_of_pos (by omega) _, refusalFields_eq_none.mpr ?_⟩
    simp only [List.forall_mem_cons]
    exact ⟨refusal_int (by decide), refusal_int (natAbs_floor floor), nofun⟩
  exact ⟨text ++ [0x0A], by rw [anchorFile, htext]; rfl⟩

/-- The file of a floor reads as the floor. -/
theorem parseAnchor_file (hI : I.Lawful) {floor : Floor} {data : Bytes}
    (h : anchorFile I floor = .ok data) :
    parseAnchor (Deploy.docOf I maxAnchorBytes data) = .ok floor := by
  obtain ⟨text, htext, hdata⟩ := bind_eq_ok.mp h
  obtain rfl := Except.ok.inj hdata
  have hlen : text.length + 1 ≤ maxAnchorBytes := by
    have hfloor := Deploy.length_sequence floor.property.1 floor.property.2
    have hone : byteLength (intRepr 1) = 1 := by decide
    rw [Deploy.length_canonical htext, sortKeys_payload, byteLength_render_obj]
    simp only [itemsLength, List.map_cons, List.map_nil, List.sum_cons, List.sum_nil, render,
      maxAnchorBytes, hone]
    have hkeys : byteLength (renderString false (py "floor")) +
      byteLength (renderString false (py "schema_version")) = 23 := by decide
    omega
  have hvalid : validate (some floor.val) = .ok floor := dif_pos floor.property
  rw [Deploy.docOf_canonical (v := payload floor) hI rfl (Json.readDepth_flat I rfl) htext hlen, sortKeys_payload]
  have hfloor : jsonInt? (Json.item [(py "floor", .int floor.val),
      (py "schema_version", .int 1)] "floor") = some floor.val := rfl
  simp only [parseAnchor, hfloor, hvalid]
  rfl

end Bytes

/-! ## What the disk stands for -/

/-- The anchor file is that of `floor`. -/
def Holds (w : World) (floor : Floor) : Prop :=
  ∃ data, anchorFile I floor = .ok data ∧ w.entry = .file data

/-- The disk stands for a memory anchor, or for none yet. -/
def Stands (w : World) (v : Option MemoryRollbackAnchor) : Prop :=
  w.parent ≠ .irregular ∧
    match v with
    | none => w.entry = .missing
    | some A => Holds I w A.value

def ParentKept (w w' : World) : Prop :=
  (w.parent ≠ .irregular → w'.parent ≠ .irregular) ∧
    (w.parent = .directory → w'.parent = .directory)

/-- The floor in the file does not decrease. -/
def Later (w w' : World) : Prop :=
  ParentKept w w' ∧
    ∀ floor, Holds I w floor → ∃ floor', floor.val ≤ floor'.val ∧ Holds I w' floor'

/-- What those do who do not hold the lock for writing. -/
def Quiet (w w' : World) : Prop :=
  ParentKept w w' ∧ w'.entry = w.entry ∧ w'.temps = w.temps

section Relations

variable {I} {w w' w'' : World} {floor : Floor}

theorem ParentKept.refl (w : World) : ParentKept w w := ⟨id, id⟩

theorem ParentKept.trans (h : ParentKept w w') (h' : ParentKept w' w'') : ParentKept w w'' :=
  ⟨h'.1 ∘ h.1, h'.2 ∘ h.2⟩

theorem Quiet.refl (w : World) : Quiet w w := ⟨.refl w, rfl, rfl⟩

theorem Quiet.holds (h : Quiet w w') (hw : Holds I w floor) : Holds I w' floor := by
  obtain ⟨data, hdata, hentry⟩ := hw
  exact ⟨data, hdata, h.2.1.trans hentry⟩

variable (I) in
theorem interference : Interference (Stands I) (Later I) Quiet where
  refl := Quiet.refl
  quiet_trans h h' := ⟨h.1.trans h'.1, h'.2.1.trans h.2.1, h'.2.2.trans h.2.2⟩
  le_trans h h' := by
    refine ⟨h.1.trans h'.1, fun floor hfloor => ?_⟩
    obtain ⟨floor₁, hle₁, hfloor₁⟩ := h.2 floor hfloor
    obtain ⟨floor₂, hle₂, hfloor₂⟩ := h'.2 floor₁ hfloor₁
    exact ⟨floor₂, hle₁.trans hle₂, hfloor₂⟩
  quiet_le h := ⟨h.1, fun floor hfloor => ⟨floor, le_rfl, h.holds hfloor⟩⟩
  keeps {w w' v} h hw := by
    refine ⟨h.1.1 hw.1, ?_⟩
    cases v with
    | none => exact h.2.1.trans hw.2
    | some A => exact h.holds hw.2

/-- A step that keeps the entry. -/
theorem Later.of_entry (hparent : ParentKept w w') (hentry : w'.entry = w.entry) : Later I w w' :=
  ⟨hparent, fun floor ⟨data, hdata, hfile⟩ =>
    ⟨floor, le_rfl, data, hdata, hentry.trans hfile⟩⟩

theorem Stands.of_entry {v : Option MemoryRollbackAnchor} (h : Stands I w v)
    (hparent : ParentKept w w') (hentry : w'.entry = w.entry) : Stands I w' v := by
  refine ⟨hparent.1 h.1, ?_⟩
  cases v with
  | none => exact hentry.trans h.2
  | some A =>
    obtain ⟨data, hdata, hfile⟩ := h.2
    exact ⟨data, hdata, hentry.trans hfile⟩

theorem outcome_iff {o : FileOp} {x : Except PyError o.Res × World} :
    sem.Outcome o w x ↔ x = exec o w :=
  or_iff_left not_false

end Relations

/-! ## The sections -/

section Sections

variable {I} {w : World} {floor : Floor}

/-- An operation that only looks. -/
theorem reads_perform {o : FileOp} {b : o.Res}
    (h : ∀ w', Quiet w w' → exec o w' = (.ok b, w')) :
    Reads sem Quiet (.ok b) (perform o) w := by
  intro w' hw' x hx
  rw [outcome_iff.mp hx, h w' hw']
  exact ⟨Quiet.refl w', rfl⟩

/-- `_read` of the file of a floor. -/
theorem reads_read (hI : I.Lawful) (hw : Holds I w floor) :
    Reads sem Quiet (.ok floor) (FileRollbackAnchor.read I) w := by
  obtain ⟨data, hdata, hentry⟩ := hw
  have hparse := parseAnchor_file hI hdata
  refine Reads.bind (interference I) (c := false) (reads_perform fun w' hw' => ?_)
    fun w₁ hw₁ => Reads.bind (interference I) (c := ()) (Reads.ofExcept (.ok ()) w₁) fun w₂ hw₂ =>
      Reads.bind (interference I) (c := some data) ?_ fun w₃ _ => ?_
  · simp only [exec, hw'.2.1, hentry]
  · intro w' hw' x hx
    have hfile : w'.entry = .file data := by rw [hw'.2.1, hw₂.2.1, hw₁.2.1, hentry]
    have hexec : exec .openRead w' = (.ok (some data), w') := by simp only [exec, hfile]
    rw [outcome_iff.mp hx, hexec]
    exact ⟨Quiet.refl w', rfl⟩
  · simp only [hparse]
    exact Reads.ofExcept (.ok floor) w₃

variable {ι : Type} {a : AnchorCall ι} {v : Option MemoryRollbackAnchor}
  {A : MemoryRollbackAnchor} {r : Except PyError (Option Int)} {data : Bytes}

/-- Parents are made and not unmade. -/
theorem parentKept_mkdir (w : World) : ParentKept w (exec .mkdirParent w).2 := by
  simp only [exec]
  split_ifs with hmissing
  · exact ⟨fun _ => nofun, fun _ => rfl⟩
  · exact ParentKept.refl w

/-- An operation of a writer that leaves the entry alone. -/
theorem writes_op {o : FileOp} {k : Except PyError o.Res → FileProg (Option Int)}
    (h : ∀ w', Quiet w w' → Stands I w' v → ParentKept w' (exec o w').2 ∧
      (exec o w').2.entry = w'.entry ∧
        Writes sem memoryAnchor (Stands I) (Later I) Quiet a v (k (exec o w').1) (exec o w').2) :
    Writes sem memoryAnchor (Stands I) (Later I) Quiet a v (.op o k) w := by
  intro w' hw' hstands x hx
  obtain ⟨hparent, hentry, hnext⟩ := h w' hw' hstands
  rw [outcome_iff.mp hx]
  exact ⟨.of_entry hparent hentry, Or.inl ⟨hstands.of_entry hparent hentry, hnext⟩⟩

/-- An operation after the effect that leaves the entry alone. -/
theorem wrote_op {o : FileOp} {k : Except PyError o.Res → FileProg (Option Int)}
    (h : ∀ w', Quiet w w' → Stands I w' v → ParentKept w' (exec o w').2 ∧
      (exec o w').2.entry = w'.entry ∧
        Wrote sem (Stands I) (Later I) Quiet r v (k (exec o w').1) (exec o w').2) :
    Wrote sem (Stands I) (Later I) Quiet r v (.op o k) w := by
  intro w' hw' hstands x hx
  obtain ⟨hparent, hentry, hnext⟩ := h w' hw' hstands
  rw [outcome_iff.mp hx]
  exact ⟨.of_entry hparent hentry, hstands.of_entry hparent hentry, hnext⟩

/-- A file is that of one floor. -/
theorem Holds.inj (hI : I.Lawful) {floor' : Floor} (h : Holds I w floor)
    (h' : Holds I w floor') : floor = floor' := by
  obtain ⟨data, hdata, hentry⟩ := h
  obtain ⟨data', hdata', hentry'⟩ := h'
  obtain rfl := Entry.file.inj (hentry.symm.trans hentry')
  exact Except.ok.inj ((parseAnchor_file hI hdata).symm.trans (parseAnchor_file hI hdata'))

/-- A floor that is held is not above that of the next anchor. -/
theorem Stands.le_of_below (hI : I.Lawful) (h : Stands I w v) (hbelow : Below v (some A))
    (hfloor : Holds I w floor) : floor.val ≤ A.value.val := by
  cases v with
  | none =>
    obtain ⟨data, -, hentry⟩ := hfloor
    rw [h.2] at hentry
    cases hentry
  | some B =>
    rw [hfloor.inj hI h.2]
    exact hbelow

/-- The replacement is where a write takes effect. -/
theorem writes_atomicWrite (hI : I.Lawful) {f : Unit → FileProg (Option Int)}
    (hstep : memoryAnchor.step v a = (r, some A)) (hdata : anchorFile I A.value = .ok data)
    (hf : ∀ w', Holds I w' A.value →
      Wrote sem (Stands I) (Later I) Quiet r (some A) (f ()) w') :
    Writes sem memoryAnchor (Stands I) (Later I) Quiet a v (atomicWrite data >>= f) w := by
  refine writes_op fun w₁ _ hstands₁ => ⟨parentKept_mkdir w₁, ?_, ?_⟩
  · simp only [exec]
    split_ifs <;> rfl
  have hparent₁ : (exec .mkdirParent w₁).2.parent = .directory := by
    simp only [exec]
    split_ifs with hmissing
    · rfl
    · cases hparent : w₁.parent with
      | missing => exact absurd hparent hmissing
      | directory => rfl
      | irregular => exact absurd hparent hstands₁.1
  refine writes_op fun w₂ hw₂ _ => ?_
  have hparent₂ : w₂.parent ≠ .missing := by
    rw [hw₂.1.2 hparent₁]
    nofun
  have hmkstemp : exec .mkstemp w₂ = (.ok w₂.nextTemp, { w₂ with
      temps := Function.update w₂.temps w₂.nextTemp (some [])
      nextTemp := w₂.nextTemp + 1 }) := if_neg hparent₂
  rw [hmkstemp]
  refine ⟨ParentKept.refl w₂, rfl, ?_⟩
  refine writes_op fun w₃ _ _ => ⟨ParentKept.refl w₃, rfl, ?_⟩
  refine writes_op fun w₄ hw₄ _ => ⟨ParentKept.refl w₄, rfl, ?_⟩
  intro w₅ hw₅ hstands₅ x hx
  have htemp : w₅.temps w₂.nextTemp = some data := by
    rw [hw₅.2.2]
    show w₄.temps w₂.nextTemp = some data
    rw [hw₄.2.2]
    exact Function.update_self _ _ _
  have hreplace : exec (.replace w₂.nextTemp) w₅ = (.ok (), { w₅ with
      entry := .file data
      temps := Function.update w₅.temps w₂.nextTemp none }) := by
    simp only [exec, htemp]
  have hholds : ∀ {w'}, w'.entry = .file data → Holds I w' A.value := fun h => ⟨data, hdata, h⟩
  have hbelow : Below v (some A) := by
    have hbelow := below_step v a
    rwa [hstep] at hbelow
  rw [outcome_iff.mp hx, hreplace, hstep]
  refine ⟨⟨ParentKept.refl w₅, fun floor hfloor =>
    ⟨A.value, hstands₅.le_of_below hI hbelow hfloor, hholds rfl⟩⟩,
    Or.inr ⟨⟨hstands₅.1, hholds rfl⟩, ?_⟩⟩
  refine wrote_op fun w₆ hw₆ _ => ⟨ParentKept.refl w₆, rfl, ?_⟩
  refine wrote_op fun w₇ hw₇ hstands₇ => ?_
  have hgone : w₇.temps w₂.nextTemp = none := by
    rw [hw₇.2.2]
    show w₆.temps w₂.nextTemp = none
    rw [hw₆.2.2]
    exact Function.update_self _ _ _
  have hunlink : exec (.unlink w₂.nextTemp) w₇ = (.error notFound, w₇) := by
    simp only [exec, hgone]
  rw [hunlink]
  exact ⟨ParentKept.refl w₇, rfl, hf w₇ hstands₇.2⟩

/-- `_write` of the next floor. -/
theorem writes_write (hI : I.Lawful) {f : Unit → FileProg (Option Int)}
    (hstep : memoryAnchor.step v a = (r, some A))
    (hf : ∀ w', Holds I w' A.value →
      Wrote sem (Stands I) (Later I) Quiet r (some A) (f ()) w') :
    Writes sem memoryAnchor (Stands I) (Later I) Quiet a v
      (FileRollbackAnchor.write I A.value >>= f) w := by
  obtain ⟨data, hdata⟩ := exists_anchorFile A.value
  have hwrite : FileRollbackAnchor.write I A.value = atomicWrite data := by
    rw [FileRollbackAnchor.write, hdata]
    rfl
  rw [hwrite]
  exact writes_atomicWrite hI hstep hdata hf

open FileRollbackAnchor

/-- The section of a construction makes the file or leaves it. -/
theorem writes_provision (hI : I.Lawful) {i : ι} {initial : PyObject}
    (hvalid : validate (argument? initial) = .ok floor) (hw : Stands I w v) :
    Writes sem memoryAnchor (Stands I) (Later I) Quiet (.construct i initial) v
      (provision I floor) w := by
  have hinit : MemoryRollbackAnchor.init initial = .ok ⟨floor⟩ := by
    rw [MemoryRollbackAnchor.init, hvalid]
    rfl
  cases v with
  | none =>
    have hstep : (memoryAnchor : Object ι).step none (.construct i initial) =
        (.ok none, some ⟨floor⟩) := by
      simp only [memoryAnchor, hinit]
    refine Writes.bind (interference I) (c := false) (reads_perform fun w' hw' => ?_)
      fun w₁ hw₁ => ?_
    · simp only [exec, hw'.2.1, hw.2]
    rw [if_neg Bool.false_ne_true]
    refine writes_op fun w₂ hw₂ _ => ⟨ParentKept.refl w₂, rfl, ?_⟩
    have hlink : exec .isSymlink w₂ = (.ok false, w₂) := by
      simp only [exec, hw₂.2.1, hw₁.2.1, hw.2]
    rw [hlink]
    refine writes_write hI hstep fun w' hw' => ?_
    exact Wrote.bind (interference I) (reads_read hI hw') fun _ _ => rfl
  | some A =>
    obtain ⟨data, hdata, hentry⟩ := hw.2
    refine Writes.bind (interference I) (c := true) (reads_perform fun w' hw' => ?_)
      fun w₁ hw₁ => ?_
    · simp only [exec, hw'.2.1, hentry]
    rw [if_pos rfl]
    refine Writes.bind (interference I) (Reads.ofExcept (.ok ()) w₁) fun w₂ hw₂ => ?_
    refine Writes.bind (interference I) (reads_read hI (hw₂.holds (hw₁.holds hw.2))) fun _ _ => ?_
    show memoryAnchor.step (some A) (.construct i initial) = (.ok none, some A)
    simp only [memoryAnchor, hinit]
    rfl

/-- The section of `advance_to`. -/
theorem writes_advance (hI : I.Lawful) {i : ι} {argument : PyObject}
    (hvalid : validate (argument? argument) = .ok floor) (hw : Holds I w A.value) :
    Writes sem memoryAnchor (Stands I) (Later I) Quiet (.advanceTo i argument) (some A)
      (advance I floor) w := by
  have hstep : (memoryAnchor : Object ι).step (some A) (.advanceTo i argument) =
      if floor.val < A.value.val then (.error cannotDecrease, some A)
      else (.ok (some floor.val), some ⟨floor⟩) := by
    simp only [memoryAnchor, MemoryRollbackAnchor.advanceTo, hvalid]
    split_ifs <;> rfl
  refine Writes.bind (interference I) (reads_read hI hw) fun w₁ _ => ?_
  by_cases hlt : floor.val < A.value.val
  · rw [if_pos hlt] at hstep
    refine Writes.bind_error (interference I) ?_ hstep
    rw [raiseIf_pos hlt]
    exact Reads.ofExcept (.error cannotDecrease) w₁
  · rw [if_neg hlt] at hstep
    refine Writes.bind (interference I) (c := ()) ?_ fun w₂ _ => ?_
    · rw [raiseIf_neg hlt]
      exact Reads.ofExcept (.ok ()) w₁
    by_cases hgt : A.value.val < floor.val
    · rw [if_pos hgt]
      exact writes_write hI hstep fun _ _ => rfl
    · rw [if_neg hgt]
      have hsame : A = ⟨floor⟩ := by
        obtain ⟨value⟩ := A
        exact congrArg MemoryRollbackAnchor.mk
          (Subtype.ext (le_antisymm (not_lt.mp hlt) (not_lt.mp hgt)))
      show memoryAnchor.step (some A) (.advanceTo i argument) = (.ok (some floor.val), some A)
      rw [hstep, hsame]

end Sections

/-! ## The calls -/

section Calls

open FileRollbackAnchor

variable {I} {ι : Type} {w : World} {floor : Floor}

/-- A file that is there stays, and stands for an anchor. -/
theorem stands_later {w' : World} {v : Option MemoryRollbackAnchor} (hw : Holds I w floor)
    (hlater : Later I w w') (hstands : Stands I w' v) : ∃ A, v = some A ∧ Holds I w' A.value := by
  cases v with
  | none =>
    obtain ⟨floor', -, data, -, hentry⟩ := hlater.2 floor hw
    rw [hstands.2] at hentry
    cases hentry
  | some A => exact ⟨A, rfl, hstands.2⟩

theorem before_readFloor (hI : I.Lawful) (hw : Holds I w floor) (i : ι) :
    Before sem memoryAnchor (Stands I) (Later I) Quiet (method I (.readFloor i)) (.readFloor i)
      (pure none) w := by
  intro w' hlater v hstands
  obtain ⟨A, rfl, hA⟩ := stands_later hw hlater hstands
  exact ⟨rfl, Reads.bind (interference I) (reads_read hI hA) fun _ _ => rfl⟩

theorem before_advanceTo (hI : I.Lawful) (hw : Holds I w floor) (i : ι)
    (argument : PyObject) :
    Before sem memoryAnchor (Stands I) (Later I) Quiet (method I (.advanceTo i argument))
      (.advanceTo i argument) (method I (.advanceTo i argument)).prelude w := by
  simp only [method]
  cases hvalid : validate (argument? argument) with
  | error e =>
    intro w' hlater v hstands
    obtain ⟨A, rfl, -⟩ := stands_later hw hlater hstands
    simp only [memoryAnchor, MemoryRollbackAnchor.advanceTo, hvalid]
    rfl
  | ok value =>
    intro w' hlater v hstands
    obtain ⟨A, rfl, hA⟩ := stands_later hw hlater hstands
    exact writes_advance hI hvalid hA

/-- A construction with any argument, at any time. -/
theorem before_construct (hI : I.Lawful) (i : ι)
    (initial : PyObject) (w : World) :
    Before sem memoryAnchor (Stands I) (Later I) Quiet (method I (.construct i initial))
      (.construct i initial) (prepare initial) w := by
  unfold prepare
  cases hvalid : validate (argument? initial) with
  | error e =>
    intro w' _ v _
    have hinit : MemoryRollbackAnchor.init initial = .error e := by
      rw [MemoryRollbackAnchor.init, hvalid]
      rfl
    cases v with
    | none => simp only [memoryAnchor, hinit]
    | some A =>
      simp only [memoryAnchor, hinit]
      rfl
  | ok value =>
    have hmkdir : ∀ w', Quiet w' (exec .mkdirParent w').2 := by
      intro w'
      refine ⟨parentKept_mkdir w', ?_⟩
      simp only [exec]
      split_ifs <;> exact ⟨rfl, rfl⟩
    have hmade : ∀ w', w'.parent ≠ .irregular → (exec .mkdirParent w').2.parent = .directory := by
      intro w' hregular
      simp only [exec]
      split_ifs with hmissing
      · rfl
      · cases hparent : w'.parent with
        | missing => exact absurd hparent hmissing
        | directory => rfl
        | irregular => exact absurd hparent hregular
    intro w₁ _ v₁ hstands₁ x hx
    rw [outcome_iff.mp hx]
    refine ⟨hmkdir w₁, ?_⟩
    intro w₂ hlater₂ v₂ _ x hx
    have hregular : exec .parentIsRegular w₂ = (.ok true, w₂) := by
      simp only [exec, hlater₂.1.2 (hmade w₁ hstands₁.1), decide_true]
    rw [outcome_iff.mp hx, hregular]
    refine ⟨Quiet.refl w₂, ?_⟩
    intro w₃ _ v₃ _ x hx
    rw [outcome_iff.mp hx]
    refine ⟨hmkdir w₃, ?_⟩
    intro w₄ _ v₄ hstands₄
    exact writes_provision hI hvalid hstands₄

variable {τ π : Type} {proc : τ → π} {v₀ v : Option MemoryRollbackAnchor}
  {s : RwState FileOp FileOp.Res PyError (Option Int) Checked (Mutex ι) (AnchorCall ι) τ π World}
  {lin : List (Effected (AnchorCall ι) (Except PyError (Option Int)))}

/-- Once an instance has been made there is a file. -/
theorem exists_holds (h : RwState.Inv sem (clients I proc) memoryAnchor (Stands I) (Later I) Quiet
    v₀ s lin v) {i : ι} {id : Nat} {u : τ} {initial : PyObject}
    (hcall : .call id u (.construct i initial) ∈ s.history)
    (hret : .ret id (.ok none) ∈ s.history) : ∃ floor, Holds I s.world floor := by
  obtain ⟨a, ha⟩ := h.linearizes.returned id _ hret
  obtain ⟨u', hu'⟩ := h.linearizes.called _ ha
  obtain ⟨-, rfl⟩ := h.call_inj hcall hu'
  obtain ⟨m, pre, post, -, hanswer, hpost⟩ := h.replays.exists_step ha
  have hmade : ∃ A, (memoryAnchor.step m (.construct i initial)).2 = some A := by
    cases m with
    | some A => exact ⟨A, rfl⟩
    | none =>
      simp only [memoryAnchor] at hanswer ⊢
      cases hinit : MemoryRollbackAnchor.init initial with
      | ok A => exact ⟨A, rfl⟩
      | error e =>
        rw [hinit] at hanswer
        cases hanswer
  obtain ⟨A, hA⟩ := hmade
  have hbelow := below_replays hpost
  rw [hA] at hbelow
  cases v with
  | none => exact hbelow.elim
  | some B => exact ⟨B.value, h.stands.2⟩

/-- Whatever may be called can be, at any time. -/
theorem before_start (hI : I.Lawful)
    (h : RwState.Inv sem (clients I proc) memoryAnchor (Stands I) (Later I) Quiet v₀ s lin v)
    {t : τ} {a : AnchorCall ι} (hmay : may proc s.history t a) :
    Before sem memoryAnchor (Stands I) (Later I) Quiet (method I a) a (method I a).prelude
      s.world := by
  cases a with
  | construct i initial => exact before_construct hI i initial s.world
  | readFloor i =>
    obtain ⟨id, u, initial, -, hcall, hret⟩ := hmay
    obtain ⟨floor, hfloor⟩ := exists_holds h hcall hret
    exact before_readFloor hI hfloor i
  | advanceTo i argument =>
    obtain ⟨id, u, initial, -, hcall, hret⟩ := hmay
    obtain ⟨floor, hfloor⟩ := exists_holds h hcall hret
    exact before_advanceTo hI hfloor i argument

end Calls

/-! ## The refinement -/

section Refinement

open FileRollbackAnchor

variable {τ π : Type} [DecidableEq τ]

/-- Threads of processes that work on one anchor file, which stands for `v₀` at the start. -/
def anchors (ι : Type) [DecidableEq ι] (proc : τ → π) (v₀ : Option MemoryRollbackAnchor) :
    System (RwState FileOp FileOp.Res PyError (Option Int) Checked (Mutex ι) (AnchorCall ι) τ π
      World) :=
  RwState.system sem (clients I proc) fun w => Stands I w v₀

/-- Every history is one of a single memory anchor, whose value is the floor in the file; the
floor does not decrease; and a read that is called after an advance has returned sees it. -/
structure Refines (ι : Type) [DecidableEq ι] (proc : τ → π) (v₀ : Option MemoryRollbackAnchor) :
    Prop where
  explained : ∀ s, (anchors I ι proc v₀).Reachable s → ∃ lin v,
    memoryAnchor.Replays v₀ lin v ∧ Linearizes s.history lin ∧ Stands I s.world v
  monotone : ∀ s s', (anchors I ι proc v₀).Reachable s →
    Relation.ReflTransGen (anchors I ι proc v₀).step s s' → Later I s.world s'.world
  durable : ∀ s, (anchors I ι proc v₀).Reachable s → ∀ id id' t u i j r n x,
    .call id t (.advanceTo i (.int r)) ∈ s.history →
      [.ret id (.ok x), .call id' u (.readFloor j)].Sublist s.history →
        .ret id' (.ok (some n)) ∈ s.history → r ≤ n

/-- A read after an advance in a replay. -/
theorem le_of_replays {ι : Type} {v v' : Option MemoryRollbackAnchor} {id id' : Nat} {i j : ι}
    {r n : Int} {x : Option Int} {lin : List (Effected (AnchorCall ι) (Except PyError (Option Int)))}
    (h : memoryAnchor.Replays v lin v')
    (hsub : [⟨id, .advanceTo i (.int r), .ok x⟩, ⟨id', .readFloor j, .ok (some n)⟩].Sublist lin) :
    r ≤ n := by
  obtain ⟨pre, post, rfl, hadvance, hread⟩ := List.cons_sublist_iff.mp hsub
  obtain ⟨m, hpre, hpost⟩ := SeqObject.replays_append.mp h
  obtain ⟨m₁, -, rest, -, hanswer, hrest⟩ := hpre.exists_step hadvance
  obtain ⟨A, hA, hvalue⟩ := value_advanceTo hanswer
  obtain ⟨m₂, before, -, hbefore, hanswer', -⟩ :=
    hpost.exists_step (List.singleton_sublist.mp hread)
  obtain ⟨B, rfl, hfloor⟩ := value_readFloor hanswer'
  have hbelow : Below (some A) (some B) := by
    rw [← hA]
    exact (below_replays hrest).trans (below_replays hbefore)
  rw [← hvalue, ← hfloor]
  exact hbelow

variable {I} {ι : Type} [DecidableEq ι]

theorem exists_inv (hI : I.Lawful) {proc : τ → π}
    {v₀ : Option MemoryRollbackAnchor} {s} (h : (anchors I ι proc v₀).Reachable s) :
    ∃ lin v, RwState.Inv sem (clients I proc) memoryAnchor (Stands I) (Later I) Quiet v₀ s lin v :=
  RwState.linearizable (interference I) (fun _ => id)
    (fun hinv hmay => before_start hI hinv hmay) h

theorem anchor_refines (I : Interpreter) (hI : I.Lawful)
    (proc : τ → π) (v₀ : Option MemoryRollbackAnchor) : Refines I ι proc v₀ where
  explained s h := by
    obtain ⟨lin, v, hinv⟩ := exists_inv hI h
    exact ⟨lin, v, hinv.replays, hinv.linearizes, hinv.stands⟩
  monotone s s' h hsteps := by
    have hstep : ∀ s s', (anchors I ι proc v₀).Reachable s →
        (anchors I ι proc v₀).step s s' → Later I s.world s'.world := by
      intro s s' h hs
      obtain ⟨lin, v, hinv⟩ := exists_inv hI h
      obtain ⟨-, -, -, hlater⟩ := hinv.step (interference I)
        (fun hinv hmay => before_start hI hinv hmay) hs
      exact hlater
    have hrun : (anchors I ι proc v₀).Reachable s' ∧ Later I s.world s'.world := by
      induction hsteps with
      | refl => exact ⟨h, (interference I).quiet_le (Quiet.refl _)⟩
      | tail _ hs ih => exact ⟨ih.1.step hs, (interference I).le_trans ih.2 (hstep _ _ ih.1 hs)⟩
    exact hrun.2
  durable s h id id' t u i j r n x hadvance hsub hread := by
    obtain ⟨lin, v, hinv⟩ := exists_inv hI h
    obtain ⟨a, ha⟩ := hinv.linearizes.returned id _ (hsub.subset List.mem_cons_self)
    obtain ⟨b, hb⟩ := hinv.linearizes.returned id' _ hread
    obtain ⟨t', hcall⟩ := hinv.linearizes.called _ ha
    obtain ⟨u', hcall'⟩ := hinv.linearizes.called _ hb
    obtain ⟨-, rfl⟩ := hinv.call_inj hadvance hcall
    obtain ⟨-, rfl⟩ := hinv.call_inj
      (hsub.subset (List.mem_cons_of_mem _ List.mem_cons_self)) hcall'
    exact le_of_replays hinv.replays (hinv.linearizes.ordered _ ha _ hb _ _ _ hsub)

theorem anchor_refines_sample :
    Refines EdgeFort.Sample.interpreter Nat (fun t : Nat => t / 2) none :=
  anchor_refines EdgeFort.Sample.interpreter EdgeFort.Sample.interpreter_lawful
    (fun t : Nat => t / 2) none

end Refinement

end Anchor
end EdgeFort
