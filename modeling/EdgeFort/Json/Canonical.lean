/-
The canonical form of a JSON value: its items in key order.

Canonical text determines the value up to the order of items, and reads back as
the canonical form of what was printed.
-/
import EdgeFort.Json.RoundTrip
import EdgeFort.Python.Utf8

namespace EdgeFort.Json

/-! ## Sorting changes the order of items only -/

theorem map_fst_sortFields (fields : List (PyStr × Json)) :
    (sortFields fields).map Prod.fst = fields.map Prod.fst := by
  induction fields with
  | nil => rfl
  | cons f fields ih =>
    obtain ⟨k, x⟩ := f
    rw [sortFields, List.map_cons, List.map_cons, ih]

theorem mem_sortFields {fields : List (PyStr × Json)} {g : PyStr × Json} :
    g ∈ sortFields fields ↔ ∃ x, (g.1, x) ∈ fields ∧ g.2 = x.sortKeys := by
  induction fields with
  | nil => simp [sortFields]
  | cons f fields ih =>
    obtain ⟨k, x⟩ := f
    obtain ⟨k', y⟩ := g
    simp only [sortFields, List.mem_cons, Prod.mk.injEq, ih]
    constructor
    · rintro (⟨rfl, rfl⟩ | ⟨z, hz, rfl⟩)
      · exact ⟨x, Or.inl ⟨rfl, rfl⟩, rfl⟩
      · exact ⟨z, Or.inr hz, rfl⟩
    · rintro ⟨z, ⟨rfl, rfl⟩ | hz, rfl⟩
      · exact Or.inl ⟨rfl, rfl⟩
      · exact Or.inr ⟨z, hz, rfl⟩

theorem mem_sortItems {xs : List Json} {y : Json} :
    y ∈ sortItems xs ↔ ∃ x ∈ xs, y = x.sortKeys := by
  induction xs with
  | nil => simp [sortItems]
  | cons x xs ih => simp [sortItems, ih]

theorem strictItems_iff {xs : List Json} : strictItems xs = true ↔ ∀ x ∈ xs, x.strict = true := by
  induction xs with
  | nil => simp [strictItems]
  | cons x xs ih => simp [strictItems, ih]

theorem strictFields_iff {fields : List (PyStr × Json)} :
    strictFields fields = true ↔ ∀ f ∈ fields, f.2.strict = true := by
  induction fields with
  | nil => simp [strictFields]
  | cons f fields ih => simp [strictFields, ih]

/-- `value[k]` is an item of the object, or there is none. -/
theorem item_cases (fields : List (PyStr × Json)) (k : PyStr) :
    item fields k = null ∨ ∃ f ∈ fields, item fields k = f.2 := by
  unfold item
  cases hl : fields.lookup k with
  | none => exact Or.inl rfl
  | some v =>
    obtain ⟨l₁, l₂, hfields, -⟩ := List.lookup_eq_some_iff.mp hl
    exact Or.inr ⟨(k, v), by rw [hfields]; simp, rfl⟩

/-- An item of a strict object is strict. -/
theorem item_strict {fields : List (PyStr × Json)} (h : (obj fields).strict = true) (k : PyStr) :
    (item fields k).strict = true := by
  simp only [strict, Bool.and_eq_true, decide_eq_true_eq] at h
  rcases item_cases fields k with hnull | ⟨f, hf, hitem⟩
  · rw [hnull]
    rfl
  · rw [hitem]
    exact strictFields_iff.mp h.2 f hf

theorem encodableItems_iff {xs : List Json} :
    encodableItems xs = true ↔ ∀ x ∈ xs, x.encodable = true := by
  induction xs with
  | nil => simp [encodableItems]
  | cons x xs ih => simp [encodableItems, ih]

theorem encodableFields_iff {fields : List (PyStr × Json)} :
    encodableFields fields = true ↔
      ∀ f ∈ fields, utf8Encodable f.1 = true ∧ f.2.encodable = true := by
  induction fields with
  | nil => simp [encodableFields]
  | cons f fields ih => simp [encodableFields, ih]

theorem stringsAllItems_iff {p : PyStr → Bool} {xs : List Json} :
    stringsAllItems p xs = true ↔ ∀ x ∈ xs, x.stringsAll p = true := by
  induction xs with
  | nil => simp [stringsAllItems]
  | cons x xs ih => simp [stringsAllItems, ih]

theorem stringsAllFields_iff {p : PyStr → Bool} {fields : List (PyStr × Json)} :
    stringsAllFields p fields = true ↔
      ∀ f ∈ fields, p f.1 = true ∧ f.2.stringsAll p = true := by
  induction fields with
  | nil => simp [stringsAllFields]
  | cons f fields ih => simp [stringsAllFields, ih]

theorem length_sortFields (fields : List (PyStr × Json)) :
    (sortFields fields).length = fields.length := by
  induction fields with
  | nil => rfl
  | cons f fields ih => rw [sortFields, List.length_cons, ih, List.length_cons]

theorem refusalItems_eq_none {n : Nat} {xs : List Json} :
    refusalItems n xs = none ↔ ∀ x ∈ xs, x.refusal n = none := by
  induction xs with
  | nil => simp [refusalItems]
  | cons x xs ih => simp [refusalItems, ih, Option.or_eq_none_iff]

theorem refusalFields_eq_none {n : Nat} {fields : List (PyStr × Json)} :
    refusalFields n fields = none ↔ ∀ f ∈ fields, f.2.refusal n = none := by
  induction fields with
  | nil => simp [refusalFields]
  | cons f fields ih => simp [refusalFields, ih, Option.or_eq_none_iff]

theorem readDepthItems_le {n : Nat} {xs : List Json} :
    readDepthItems xs ≤ n ↔ ∀ x ∈ xs, x.readDepth ≤ n := by
  induction xs with
  | nil => simp [readDepthItems]
  | cons x xs ih => simp [readDepthItems, ih]

theorem readDepthFields_le {n : Nat} {fields : List (PyStr × Json)} :
    readDepthFields fields ≤ n ↔ ∀ f ∈ fields, f.2.readDepth ≤ n := by
  induction fields with
  | nil => simp [readDepthFields]
  | cons f fields ih => simp [readDepthFields, ih]

theorem readDepth_item (fields : List (PyStr × Json)) (k : PyStr) :
    (item fields k).readDepth ≤ readDepthFields fields := by
  rcases item_cases fields k with hnull | ⟨f, hf, hitem⟩
  · rw [hnull]
    exact Nat.zero_le _
  · rw [hitem]
    exact readDepthFields_le.mp le_rfl f hf

/-- An object without containers in it is within the room there is. -/
theorem readDepth_flat (I : Interpreter) {fields : List (PyStr × Json)}
    (h : readDepthFields fields = 0) : (obj fields).readDepth ≤ I.loadsNesting := by
  have hroom := I.loadsNesting_ge
  rw [readDepth, h]
  omega

/-- Induction on a value by its parts. -/
@[elab_as_elim] theorem partsInduction {P : Json → Prop} (null : P null) (bool : ∀ b, P (bool b))
    (int : ∀ i, P (int i)) (float : ∀ x, P (float x)) (str : ∀ s, P (str s))
    (arr : ∀ xs, (∀ x ∈ xs, P x) → P (arr xs))
    (obj : ∀ fields, (∀ f ∈ fields, P f.2) → P (obj fields)) (v : Json) : P v := by
  refine @Json.rec P (fun xs => ∀ x ∈ xs, P x) (fun fields => ∀ f ∈ fields, P f.2)
    (fun f => P f.2) null bool int float str arr obj ?_ ?_ ?_ ?_ ?_ v
  · exact fun x hx => absurd hx List.not_mem_nil
  · exact fun x xs hx hxs => List.forall_mem_cons.mpr ⟨hx, hxs⟩
  · exact fun f hf => absurd hf List.not_mem_nil
  · exact fun f fields hf hfs => List.forall_mem_cons.mpr ⟨hf, hfs⟩
  · exact fun _ _ hx => hx

instance : Std.Total keyLE := ⟨fun f g => le_total f.1 g.1⟩

instance : IsTrans (PyStr × Json) keyLE := ⟨fun _ _ _ h₁ h₂ => le_trans h₁ h₂⟩

theorem mem_insertionSort {fields : List (PyStr × Json)} {f : PyStr × Json} :
    f ∈ fields.insertionSort keyLE ↔ f ∈ fields :=
  (List.perm_insertionSort keyLE fields).mem_iff

theorem nodup_sorted {fields : List (PyStr × Json)} :
    (((sortFields fields).insertionSort keyLE).map Prod.fst).Nodup ↔
      (fields.map Prod.fst).Nodup := by
  rw [((List.perm_insertionSort keyLE (sortFields fields)).map Prod.fst).nodup_iff,
    map_fst_sortFields]

theorem strict_sortKeys (v : Json) (h : v.strict = true) : v.sortKeys.strict = true := by
  induction v using partsInduction with
  | null | bool | int | float | str => exact h
  | arr xs ih =>
    simp only [strict, strictItems_iff] at h
    simp only [sortKeys, strict, strictItems_iff]
    rintro y hy
    obtain ⟨x, hx, rfl⟩ := mem_sortItems.mp hy
    exact ih x hx (h x hx)
  | obj fields ih =>
    simp only [strict, Bool.and_eq_true, decide_eq_true_eq, strictFields_iff] at h
    simp only [sortKeys, strict, Bool.and_eq_true, decide_eq_true_eq, strictFields_iff]
    refine ⟨nodup_sorted.mpr h.1, fun g hg => ?_⟩
    obtain ⟨x, hx, hgx⟩ := mem_sortFields.mp (mem_insertionSort.mp hg)
    exact hgx ▸ ih _ hx (h.2 _ hx)

theorem encodable_sortKeys (v : Json) (h : v.encodable = true) : v.sortKeys.encodable = true := by
  induction v using partsInduction with
  | null | bool | int | float | str => exact h
  | arr xs ih =>
    simp only [encodable, encodableItems_iff] at h
    simp only [sortKeys, encodable, encodableItems_iff]
    rintro y hy
    obtain ⟨x, hx, rfl⟩ := mem_sortItems.mp hy
    exact ih x hx (h x hx)
  | obj fields ih =>
    simp only [encodable, encodableFields_iff] at h
    simp only [sortKeys, encodable, encodableFields_iff]
    intro g hg
    obtain ⟨x, hx, hgx⟩ := mem_sortFields.mp (mem_insertionSort.mp hg)
    exact ⟨(h _ hx).1, hgx ▸ ih _ hx (h _ hx).2⟩

theorem stringsAll_sortKeys {p : PyStr → Bool} (v : Json) (h : v.stringsAll p = true) :
    v.sortKeys.stringsAll p = true := by
  induction v using partsInduction with
  | null | bool | int | float | str => exact h
  | arr xs ih =>
    simp only [stringsAll, stringsAllItems_iff] at h
    simp only [sortKeys, stringsAll, stringsAllItems_iff]
    intro y hy
    obtain ⟨x, hx, rfl⟩ := mem_sortItems.mp hy
    exact ih x hx (h x hx)
  | obj fields ih =>
    simp only [stringsAll, stringsAllFields_iff] at h
    simp only [sortKeys, stringsAll, stringsAllFields_iff]
    intro g hg
    obtain ⟨x, hx, hgx⟩ := mem_sortFields.mp (mem_insertionSort.mp hg)
    exact ⟨(h _ hx).1, hgx ▸ ih _ hx (h _ hx).2⟩

/-- The order of items makes no difference to the depth. -/
theorem readDepth_sortKeys (v : Json) : v.sortKeys.readDepth = v.readDepth := by
  refine eq_of_forall_ge_iff fun n => ?_
  induction v using partsInduction generalizing n with
  | null | bool | int | float | str => rfl
  | arr xs ih =>
    cases n with
    | zero => simp [sortKeys, readDepth]
    | succ n =>
      simp only [sortKeys, readDepth, Nat.add_le_add_iff_right, readDepthItems_le]
      constructor
      · exact fun h x hx => (ih x hx n).mp (h _ (mem_sortItems.mpr ⟨x, hx, rfl⟩))
      · rintro h y hy
        obtain ⟨x, hx, rfl⟩ := mem_sortItems.mp hy
        exact (ih x hx n).mpr (h x hx)
  | obj fields ih =>
    cases n with
    | zero => simp [sortKeys, readDepth]
    | succ n =>
      simp only [sortKeys, readDepth, Nat.add_le_add_iff_right, Nat.max_le, readDepthFields_le]
      refine and_congr_left fun _ => ⟨fun h f hf => ?_, fun h g hg => ?_⟩
      · have hmem : (f.1, f.2.sortKeys) ∈ sortFields fields := mem_sortFields.mpr ⟨f.2, hf, rfl⟩
        exact (ih f hf n).mp (h _ (mem_insertionSort.mpr hmem))
      · obtain ⟨x, hx, hgx⟩ := mem_sortFields.mp (mem_insertionSort.mp hg)
        rw [hgx]
        exact (ih _ hx n).mpr (h _ hx)

theorem sortItems_eq_self {xs : List Json} : sortItems xs = xs ↔ ∀ x ∈ xs, x.sortKeys = x := by
  induction xs with
  | nil => simp [sortItems]
  | cons x xs ih => rw [sortItems, List.cons.injEq, ih, List.forall_mem_cons]

theorem sortFields_eq_self {fields : List (PyStr × Json)} :
    sortFields fields = fields ↔ ∀ f ∈ fields, f.2.sortKeys = f.2 := by
  induction fields with
  | nil => simp [sortFields]
  | cons f fields ih =>
    obtain ⟨k, x⟩ := f
    rw [sortFields, List.cons.injEq, ih, List.forall_mem_cons, Prod.mk.injEq]
    exact and_congr_left fun _ => and_iff_right rfl

/-- Sorting that leaves items in order leaves each of them. -/
theorem sortFields_eq_of_sorted {fields : List (PyStr × Json)} (h : fields.Pairwise keyLE)
    (hself : (sortFields fields).insertionSort keyLE = fields) : sortFields fields = fields := by
  have hordered : (sortFields fields).Pairwise keyLE := by
    have hkeys : (fields.map Prod.fst).Pairwise (· ≤ ·) := List.pairwise_map.mpr h
    rwa [← map_fst_sortFields, List.pairwise_map] at hkeys
  rwa [hordered.insertionSort_eq] at hself

/-- The canonical form is its own canonical form. -/
theorem sortKeys_sortKeys (v : Json) : v.sortKeys.sortKeys = v.sortKeys := by
  induction v using partsInduction with
  | null | bool | int | float | str => rfl
  | arr xs ih =>
    have hself : sortItems (sortItems xs) = sortItems xs := by
      refine sortItems_eq_self.mpr fun y hy => ?_
      obtain ⟨x, hx, rfl⟩ := mem_sortItems.mp hy
      exact ih x hx
    rw [sortKeys, sortKeys, hself]
  | obj fields ih =>
    have hself : sortFields ((sortFields fields).insertionSort keyLE) =
        (sortFields fields).insertionSort keyLE := by
      refine sortFields_eq_self.mpr fun g hg => ?_
      obtain ⟨x, hx, hgx⟩ := mem_sortFields.mp (mem_insertionSort.mp hg)
      rw [hgx]
      exact ih _ hx
    have hsorted := List.pairwise_insertionSort keyLE (sortFields fields)
    rw [sortKeys, sortKeys, hself, hsorted.insertionSort_eq]

/-- Sorting changes no lookup but for the value's own form. -/
theorem lookup_sorted {fields : List (PyStr × Json)} (h : (fields.map Prod.fst).Nodup)
    (k : PyStr) : ((sortFields fields).insertionSort keyLE).lookup k =
      (fields.lookup k).map sortKeys := by
  cases hk : fields.lookup k with
  | none =>
    rw [Option.map_none, List.lookup_eq_none_iff]
    intro g hg
    obtain ⟨x, hx, -⟩ := mem_sortFields.mp (mem_insertionSort.mp hg)
    exact List.lookup_eq_none_iff.mp hk (g.1, x) hx
  | some x =>
    obtain ⟨l₁, l₂, hl, -⟩ := List.lookup_eq_some_iff.mp hk
    have hmem : (k, x) ∈ fields := by
      rw [hl]
      simp
    exact lookup_of_nodup (nodup_sorted.mpr h)
      (mem_insertionSort.mpr (mem_sortFields.mpr ⟨x, hmem, rfl⟩))

theorem item_sorted {fields : List (PyStr × Json)} (h : (fields.map Prod.fst).Nodup)
    (k : PyStr) : item ((sortFields fields).insertionSort keyLE) k = (item fields k).sortKeys := by
  rw [item, item, lookup_sorted h]
  cases fields.lookup k <;> rfl

theorem keysAre_map_fst (fields : List (PyStr × Json)) :
    keysAre fields (fields.map Prod.fst) = true := by
  simp only [keysAre, Bool.and_eq_true, List.all_eq_true, List.contains_iff_mem]
  refine ⟨fun f hf => List.mem_map_of_mem hf, fun k hk => ?_⟩
  obtain ⟨f, hf, rfl⟩ := List.mem_map.mp hk
  rw [Option.isSome_iff_ne_none, ne_eq, List.lookup_eq_none_iff]
  intro hnone
  simpa using hnone f hf

theorem keysAre_sorted {fields : List (PyStr × Json)} (h : (fields.map Prod.fst).Nodup)
    {keys : List PyStr} (hkeys : keysAre fields keys = true) :
    keysAre ((sortFields fields).insertionSort keyLE) keys = true := by
  simp only [keysAre, Bool.and_eq_true, List.all_eq_true] at hkeys ⊢
  refine ⟨fun g hg => ?_, fun k hk => ?_⟩
  · obtain ⟨x, hx, -⟩ := mem_sortFields.mp (mem_insertionSort.mp hg)
    exact hkeys.1 (g.1, x) hx
  · rw [lookup_sorted h, Option.isSome_map]
    exact hkeys.2 k hk

/-! ## A text that has a UTF-8 encoding is the text of a value that has one -/

theorem mem_escapeString {c : CodePoint} {s : PyStr} (hc : c ∈ s)
    (hsur : isSurrogate c = true) : c ∈ escapeString false s := by
  simp only [isSurrogate, Bool.and_eq_true, decide_eq_true_eq] at hsur
  have hnone : shortEscapes.lookup c.val = none := by
    have hall : ∀ p ∈ shortEscapes, p.1 < 0x80 := by decide
    rw [List.lookup_eq_none_iff]
    intro p hp
    have := hall p hp
    simp only [bne_iff_ne, ne_eq]
    omega
  have hself : escapeChar false c = [c] := by
    have hlow : ¬c.val < 0x20 := by omega
    simp [escapeChar, hnone, hlow]
  exact List.mem_flatMap.mpr ⟨c, hc, hself ▸ List.mem_singleton_self c⟩

theorem utf8Encodable_of_subset {s t : PyStr} (h : utf8Encodable t = true)
    (hsub : ∀ c ∈ s, isSurrogate c = true → c ∈ t) : utf8Encodable s = true := by
  simp only [utf8Encodable, List.all_eq_true, Bool.not_eq_true'] at h ⊢
  intro c hc
  by_contra hsur
  rw [Bool.not_eq_false] at hsur
  have hfalse := h c (hsub c hc hsur)
  rw [hsur] at hfalse
  cases hfalse

theorem mem_render_arr {I : Interpreter} {ascii : Bool} {xs : List Json} {x : Json} (hx : x ∈ xs)
    {c : CodePoint} (hc : c ∈ render I ascii x) : c ∈ render I ascii (arr xs) := by
  have hitems : ∀ ys : List Json, x ∈ ys → c ∈ renderItems I ascii ys := by
    intro ys hys
    induction ys with
    | nil => cases hys
    | cons y ys ih =>
      simp only [renderItems, List.mem_cons, List.mem_append]
      rcases List.mem_cons.mp hys with rfl | hys
      · exact Or.inr (Or.inl hc)
      · exact Or.inr (Or.inr (ih hys))
  cases xs with
  | nil => cases hx
  | cons y ys =>
    simp only [render, List.mem_cons, List.mem_append]
    rcases List.mem_cons.mp hx with rfl | hx
    · exact Or.inr (Or.inl hc)
    · exact Or.inr (Or.inr (hitems ys hx))

theorem mem_render_obj {I : Interpreter} {ascii : Bool} {fields : List (PyStr × Json)}
    {f : PyStr × Json} (hf : f ∈ fields) {c : CodePoint}
    (hc : c ∈ escapeString ascii f.1 ∨ c ∈ render I ascii f.2) :
    c ∈ render I ascii (obj fields) := by
  have hitems : ∀ gs : List (PyStr × Json), f ∈ gs → c ∈ renderFields I ascii gs := by
    intro gs hgs
    induction gs with
    | nil => cases hgs
    | cons g gs ih =>
      obtain ⟨k, y⟩ := g
      simp only [renderFields, renderString, List.mem_cons, List.mem_append]
      rcases List.mem_cons.mp hgs with rfl | hgs
      · rcases hc with hc | hc
        · exact Or.inr (Or.inl (Or.inl (Or.inr hc)))
        · exact Or.inr (Or.inr (Or.inr (Or.inl hc)))
      · exact Or.inr (Or.inr (Or.inr (Or.inr (ih hgs))))
  cases fields with
  | nil => cases hf
  | cons g gs =>
    obtain ⟨k, y⟩ := g
    simp only [render, renderString, List.mem_cons, List.mem_append]
    rcases List.mem_cons.mp hf with rfl | hf
    · rcases hc with hc | hc
      · exact Or.inr (Or.inl (Or.inl (Or.inr hc)))
      · exact Or.inr (Or.inr (Or.inr (Or.inl hc)))
    · exact Or.inr (Or.inr (Or.inr (Or.inr (hitems gs hf))))

theorem encodable_of_render {I : Interpreter} (v : Json) (n : Nat) (hr : v.refusal n = none)
    (h : utf8Encodable (render I false v) = true) : v.encodable = true := by
  induction v using partsInduction generalizing n with
  | null | bool | int => rfl
  | float x =>
    by_contra hx
    have hinf : x.isFinite64 = false := by simpa [encodable] using hx
    simp [refusal, hinf] at hr
  | str s =>
    refine utf8Encodable_of_subset h fun c hc hsur => ?_
    simp only [render, renderString, List.mem_cons, List.mem_append]
    exact Or.inl (Or.inr (mem_escapeString hc hsur))
  | arr xs ih =>
    cases n with
    | zero => simp [refusal] at hr
    | succ n =>
      simp only [refusal, refusalItems_eq_none] at hr
      simp only [encodable, encodableItems_iff]
      intro x hx
      exact ih x hx n (hr x hx) (utf8Encodable_of_subset h fun c hc _ => mem_render_arr hx hc)
  | obj fields ih =>
    cases n with
    | zero => simp [refusal] at hr
    | succ n =>
      replace hr := refusalFields_eq_none.mp (refusal_obj.mp hr).2
      simp only [encodable, encodableFields_iff]
      intro f hf
      refine ⟨utf8Encodable_of_subset h fun c hc hsur =>
        mem_render_obj hf (Or.inl (mem_escapeString hc hsur)), ?_⟩
      exact ih f hf n (hr f hf) (utf8Encodable_of_subset h fun c hc _ =>
        mem_render_obj hf (Or.inr hc))

/-! ## Canonical text -/

/-- `json.dumps(...).encode("utf-8")` -/
def dumpsBytes (I : Interpreter) (value : Json) : Except PyError Bytes := do
  let text ← dumps I false value
  utf8Encode text

/-- What `dumpsBytes` has printed. -/
theorem dumpsBytes_eq_ok {I : Interpreter} {v : Json} {b : Bytes} :
    dumpsBytes I v = .ok b ↔ v.sortKeys.refusal I.dumpsNesting = none ∧
      utf8Encode (render I false v.sortKeys) = .ok b := by
  unfold dumpsBytes dumps
  cases v.sortKeys.refusal I.dumpsNesting with
  | some e => simp [Effect.error_bind, Effect.error_ne_ok]
  | none => simp [Effect.ok_bind]

theorem encodable_of_dumpsBytes {I : Interpreter} {v : Json} {b : Bytes}
    (h : dumpsBytes I v = .ok b) : v.sortKeys.encodable = true := by
  obtain ⟨hr, hb⟩ := dumpsBytes_eq_ok.mp h
  exact encodable_of_render v.sortKeys I.dumpsNesting hr (utf8Encode_eq_ok.mp hb).1

/-- A value that was printed, read back from the bytes with white space after
them, is the canonical form of the value. -/
theorem loads_dumpsBytes {I : Interpreter} {H : Hooks} (hI : I.Lawful) {v : Json} {b : Bytes}
    (hs : v.strict = true) (hd : v.readDepth ≤ I.loadsNesting) (h : dumpsBytes I v = .ok b)
    {text tail : PyStr} (htext : utf8Encode text = .ok b) (htail : skipSpace tail = []) :
    loads I H (text ++ tail) = .ok v.sortKeys := by
  obtain ⟨hr, hb⟩ := dumpsBytes_eq_ok.mp h
  have htext : text = render I false v.sortKeys := by
    have h₁ := utf8Decode_encode htext
    have h₂ := utf8Decode_encode hb
    exact Except.ok.inj (h₁.symm.trans h₂)
  rw [htext]
  exact loads_render hI (strict_sortKeys v hs) (encodable_of_dumpsBytes h) hr
    (readDepth_sortKeys v ▸ hd) htail

/-! ## Canonical text determines the value -/

mutual
/-- Equality with exact types.  The order of an object's items does not count. -/
def same : Json → Json → Bool
  | null, null => true
  | bool a, bool b => a = b
  | int i, int j => i = j
  | float x, float y => x = y
  | str s, str t => s = t
  | arr xs, arr ys => xs.length = ys.length && sameItems xs ys
  | obj xs, obj ys => xs.length = ys.length && sameFields xs ys
  | _, _ => false

def sameItems : List Json → List Json → Bool
  | [], _ => true
  | _ :: _, [] => false
  | x :: xs, y :: ys => same x y && sameItems xs ys

def sameFields : List (PyStr × Json) → List (PyStr × Json) → Bool
  | [], _ => true
  | (k, x) :: xs, ys =>
    (match ys.lookup k with
      | some y => same x y
      | none => false) && sameFields xs ys
end

theorem sameItems_of_forall {xs ys : List Json} (hlen : xs.length = ys.length)
    (h : ∀ p ∈ xs.zip ys, p.1.same p.2 = true) : sameItems xs ys = true := by
  induction xs generalizing ys with
  | nil => rfl
  | cons x xs ih =>
    cases ys with
    | nil => cases hlen
    | cons y ys =>
      rw [sameItems, h (x, y) (by simp), ih (Nat.succ.inj hlen) fun p hp =>
        h p (List.mem_cons_of_mem _ hp)]
      rfl

theorem sameFields_of_forall {xs ys : List (PyStr × Json)}
    (h : ∀ f ∈ xs, ∃ y, ys.lookup f.1 = some y ∧ f.2.same y = true) :
    sameFields xs ys = true := by
  induction xs with
  | nil => rfl
  | cons f xs ih =>
    obtain ⟨k, x⟩ := f
    obtain ⟨y, hy, hxy⟩ := h (k, x) List.mem_cons_self
    simp only at hy hxy
    simp only [sameFields, hy, hxy, ih fun g hg => h g (List.mem_cons_of_mem _ hg), Bool.and_self]

theorem sameFields_cons {k : PyStr} {x : Json} {xs ys : List (PyStr × Json)} :
    sameFields ((k, x) :: xs) ys = true ↔
      (∃ y, ys.lookup k = some y ∧ x.same y = true) ∧ sameFields xs ys = true := by
  simp only [sameFields, Bool.and_eq_true]
  cases ys.lookup k <;> simp

theorem sortItems_eq_map (xs : List Json) : sortItems xs = xs.map sortKeys := by
  induction xs with
  | nil => rfl
  | cons x xs ih => rw [sortItems, List.map_cons, ih]

/-- Values of one canonical form differ in the order of items only. -/
theorem same_of_sortKeys_eq (x y : Json) (hy : y.strict = true) (h : x.sortKeys = y.sortKeys) :
    x.same y = true := by
  induction x using partsInduction generalizing y with
  | null | bool | int | float | str =>
    cases y <;> simp_all [sortKeys, same]
  | arr xs ih =>
    cases y with
    | arr ys =>
      simp only [sortKeys, arr.injEq, sortItems_eq_map] at h
      simp only [strict, strictItems_iff] at hy
      have hlen : xs.length = ys.length := by simpa using congrArg List.length h
      have hitems : sameItems xs ys = true := by
        refine sameItems_of_forall hlen fun p hp => ?_
        obtain ⟨i, hi, hpi⟩ := List.mem_iff_getElem.mp hp
        have hxi : i < xs.length := by simp at hi; omega
        have hyi : i < ys.length := hlen ▸ hxi
        have hp' : p = (xs[i], ys[i]) := by rw [← hpi, List.getElem_zip]
        have hsort : xs[i].sortKeys = ys[i].sortKeys := by
          have := List.getElem_of_eq h (by simpa using hxi)
          simpa using this
        rw [hp']
        exact ih _ (List.getElem_mem hxi) _ (hy _ (List.getElem_mem hyi)) hsort
      simp [same, hlen, hitems]
    | _ => simp [sortKeys] at h
  | obj xs ih =>
    cases y with
    | obj ys =>
      simp only [sortKeys, obj.injEq] at h
      simp only [strict, Bool.and_eq_true, decide_eq_true_eq, strictFields_iff] at hy
      have hperm : (sortFields xs).Perm (sortFields ys) :=
        ((List.perm_insertionSort keyLE _).symm.trans (h ▸ List.Perm.refl _)).trans
          (List.perm_insertionSort keyLE _)
      have hlen : xs.length = ys.length := by
        have := congrArg List.length (map_fst_sortFields xs)
        have := congrArg List.length (map_fst_sortFields ys)
        have := hperm.length_eq
        simp only [List.length_map] at *
        omega
      have hfields : sameFields xs ys = true := by
        refine sameFields_of_forall fun f hf => ?_
        have hmem : (f.1, f.2.sortKeys) ∈ sortFields xs := mem_sortFields.mpr ⟨f.2, hf, rfl⟩
        obtain ⟨z, hz, hfz⟩ := mem_sortFields.mp (hperm.mem_iff.mp hmem)
        exact ⟨z, lookup_of_nodup hy.1 hz, ih f hf z (hy.2 _ hz) hfz⟩
      simp [same, hlen, hfields]
    | _ => simp [sortKeys] at h

/-- Where floats print apart, some reader reads every one back, and has room for any depth. -/
theorem exists_lawful {I : Interpreter} (hI : I.PrintsApart) (depth : Nat) :
    ∃ J : Interpreter, J.Lawful ∧ J.reprFloat = I.reprFloat ∧ depth ≤ J.loadsNesting := by
  classical
  let readFloat : PyStr → PyFloat := fun s =>
    if h : ∃ x : PyFloat, x.isFinite64 = true ∧ I.reprFloat x = s then h.choose else .negZero
  have hread : ∀ s, (readFloat s).isFinite64 = true := by
    intro s
    simp only [readFloat]
    split_ifs with h
    · exact h.choose_spec.1
    · rfl
  refine ⟨{ I with
    readFloat
    loadsNesting := max depth 4
    readFloat_float := fun s => Or.inl (hread s)
    loadsNesting_ge := le_max_right _ _ }, fun x hx => ?_, rfl, le_max_left _ _⟩
  have h : ∃ y : PyFloat, y.isFinite64 = true ∧ I.reprFloat y = I.reprFloat x := ⟨x, hx, rfl⟩
  simp only [readFloat, dif_pos h]
  exact hI _ _ h.choose_spec.1 hx h.choose_spec.2

mutual
theorem render_congr {I J : Interpreter} (h : J.reprFloat = I.reprFloat) (ascii : Bool) :
    ∀ v : Json, render J ascii v = render I ascii v
  | null | bool true | bool false | int _ | str _ | arr [] | obj [] => rfl
  | float x => by rw [render, render, h]
  | arr (x :: xs) => by rw [render, render, render_congr h ascii x, renderItems_congr h ascii xs]
  | obj ((k, x) :: fields) => by
    rw [render, render, render_congr h ascii x, renderFields_congr h ascii fields]

theorem renderItems_congr {I J : Interpreter} (h : J.reprFloat = I.reprFloat) (ascii : Bool) :
    ∀ xs : List Json, renderItems J ascii xs = renderItems I ascii xs
  | [] => rfl
  | x :: xs => by
    rw [renderItems, renderItems, render_congr h ascii x, renderItems_congr h ascii xs]

theorem renderFields_congr {I J : Interpreter} (h : J.reprFloat = I.reprFloat) (ascii : Bool) :
    ∀ fields : List (PyStr × Json), renderFields J ascii fields = renderFields I ascii fields
  | [] => rfl
  | (k, x) :: fields => by
    rw [renderFields, renderFields, render_congr h ascii x, renderFields_congr h ascii fields]
end

/-- Different values print differently. -/
theorem render_injective {I : Interpreter} (hI : I.PrintsApart) {ascii : Bool} {v w : Json}
    {m : Nat} (hv : v.strict = true ∧ v.encodable = true ∧ v.refusal m = none)
    (hw : w.strict = true ∧ w.encodable = true ∧ w.refusal m = none)
    (h : render I ascii v = render I ascii w) : v = w := by
  obtain ⟨J, hJ, hrepr, hroom⟩ := exists_lawful hI (max v.readDepth w.readDepth)
  let H : Hooks := ⟨decodeError, decodeError, []⟩
  have hreads : ∀ u : Json, u.strict = true ∧ u.encodable = true ∧ u.refusal m = none →
      u.readDepth ≤ J.loadsNesting → loads J H (render I ascii u) = .ok u := by
    intro u hu hd
    have hload : loads J H (render J ascii u ++ []) = .ok u :=
      loads_render hJ hu.1 hu.2.1 hu.2.2 hd rfl
    rwa [List.append_nil, render_congr hrepr] at hload
  have hv' := hreads v hv ((le_max_left _ _).trans hroom)
  have hw' := hreads w hw ((le_max_right _ _).trans hroom)
  exact Except.ok.inj (hv'.symm.trans ((congrArg _ h).trans hw'))

/-- The canonical bytes of a value determine it, up to the order of items. -/
theorem dumpsBytes_injective {I : Interpreter} (hI : I.PrintsApart) {v w : Json} {b : Bytes}
    (hv : v.strict = true) (hw : w.strict = true) (hbv : dumpsBytes I v = .ok b)
    (hbw : dumpsBytes I w = .ok b) : v.same w = true := by
  obtain ⟨hrv, htv⟩ := dumpsBytes_eq_ok.mp hbv
  obtain ⟨hrw, htw⟩ := dumpsBytes_eq_ok.mp hbw
  have htext : render I false v.sortKeys = render I false w.sortKeys :=
    Except.ok.inj ((utf8Decode_encode htv).symm.trans (utf8Decode_encode htw))
  refine same_of_sortKeys_eq v w hw (render_injective hI (m := I.dumpsNesting) ?_ ?_ htext)
  · exact ⟨strict_sortKeys v hv, encodable_of_dumpsBytes hbv, hrv⟩
  · exact ⟨strict_sortKeys w hw, encodable_of_dumpsBytes hbw, hrw⟩

end EdgeFort.Json
