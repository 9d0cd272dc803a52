/-
What is written of a value: it can be printed and read back, and `sort_keys` changes
nothing of it once more if the strings of the keys are in the order of the keys.
-/
import EdgeFort.Python.Object

namespace EdgeFort

open Effect

variable {I : Interpreter}

namespace PyObject

/-- Induction on a value by its parts. -/
@[elab_as_elim] theorem partsInduction {P : PyObject → Prop} (null : P null)
    (bool : ∀ b, P (bool b)) (int : ∀ i, P (int i)) (float : ∀ x, P (float x))
    (str : ∀ s, P (str s)) (list : ∀ items, (∀ v ∈ items, P v) → P (list items))
    (dict : ∀ items, (∀ f ∈ items, P f.2) → P (dict items))
    (foreign : ∀ typeName, P (foreign typeName)) (v : PyObject) : P v := by
  refine @PyObject.rec P (fun items => ∀ v ∈ items, P v) (fun items => ∀ f ∈ items, P f.2)
    (fun f => P f.2) null bool int float str list dict foreign ?_ ?_ ?_ ?_ ?_ v
  · exact fun v hv => absurd hv List.not_mem_nil
  · exact fun v items hv hitems => List.forall_mem_cons.mpr ⟨hv, hitems⟩
  · exact fun f hf => absurd hf List.not_mem_nil
  · exact fun f items hf hitems => List.forall_mem_cons.mpr ⟨hf, hitems⟩
  · exact fun _ _ hv => hv

/-! ## What is written of the parts -/

theorem writtenItems_eq_ok {n : Nat} {items : List PyObject} {xs : List Json} :
    writtenItems I n items = .ok xs ↔
      List.Forall₂ (fun v x => written I n v = .ok x) items xs := by
  induction items generalizing xs with
  | nil =>
    rw [List.forall₂_nil_left_iff]
    exact ⟨fun h => (Except.ok.inj h).symm, fun h => congrArg _ h.symm⟩
  | cons v items ih =>
    simp only [writtenItems, bind_eq_ok, pure_eq_ok, List.forall₂_cons_left_iff, ih]
    constructor
    · rintro ⟨x, hx, ys, hys, rfl⟩
      exact ⟨x, ys, hx, hys, rfl⟩
    · rintro ⟨x, ys, hx, hys, rfl⟩
      exact ⟨x, hx, ys, hys, rfl⟩

/-- An item of a dict and what is written for it. -/
def WrittenAs (I : Interpreter) (n : Nat) (f : PyKey × PyObject) (g : PyStr × Json) : Prop :=
  f.1.text I = .ok g.1 ∧ written I n f.2 = .ok g.2

/-- An item with its value written. -/
def writtenItem (I : Interpreter) (n : Nat) (f : PyKey × PyObject) : PyKey × Except PyError Json :=
  (f.1, written I n f.2)

theorem writeItems_eq_ok {n : Nat} {items : List (PyKey × PyObject)}
    {fields : List (PyStr × Json)} :
    writeItems I (items.map (writtenItem I n)) = .ok fields ↔
      List.Forall₂ (WrittenAs I n) items fields := by
  induction items generalizing fields with
  | nil =>
    rw [List.forall₂_nil_left_iff]
    exact ⟨fun h => (Except.ok.inj h).symm, fun h => congrArg _ h.symm⟩
  | cons f items ih =>
    simp only [List.map_cons, writtenItem, writeItems, bind_eq_ok, pure_eq_ok,
      List.forall₂_cons_left_iff, WrittenAs]
    constructor
    · rintro ⟨name, hname, x, hx, fields, hfields, rfl⟩
      exact ⟨(name, x), fields, ⟨hname, hx⟩, ih.mp hfields, rfl⟩
    · rintro ⟨⟨name, x⟩, fields, ⟨hname, hx⟩, hfields, rfl⟩
      exact ⟨name, hname, x, hx, fields, ih.mpr hfields, rfl⟩

theorem writtenFields_eq_map (n : Nat) (items : List (PyKey × PyObject)) :
    writtenFields I n items = items.map (writtenItem I n) := by
  induction items with
  | nil => rfl
  | cons f items ih =>
    rw [writtenFields, ih, List.map_cons]
    rfl

/-- Sorting looks at the keys only. -/
theorem sortItems_writtenItem (n : Nat) (items : List (PyKey × PyObject)) :
    sortItems (items.map (writtenItem I n)) =
      (sortItems items).map (List.map (writtenItem I n)) := by
  have hkeys : (items.map (writtenItem I n)).map Prod.fst = items.map Prod.fst := by
    rw [List.map_map]
    rfl
  have hsort := List.map_insertionSort (fun f g : PyKey × PyObject => f.1.le g.1 = true)
    (fun f g : PyKey × Except PyError Json => f.1.le g.1 = true) (writtenItem I n) items
    fun _ _ _ _ => Iff.rfl
  unfold sortItems
  dsimp only
  rw [hkeys, List.length_map, ← hsort]
  split_ifs <;> rfl

/-- Keys that `sorted` compares: at most one, strings, or numbers. -/
def Comparable (keys : List PyKey) : Prop :=
  keys.length ≤ 1 ∨ (∀ k ∈ keys, k.isStr = true) ∨ ∀ k ∈ keys, k.num?.isSome = true

theorem sortItems_eq_ok {β : Type} {items sorted : List (PyKey × β)}
    (h : sortItems items = .ok sorted) :
    sorted.Perm items ∧ Comparable (items.map Prod.fst) ∧
      (items.length ≤ 1 ∨ sorted = items.insertionSort fun f g => f.1.le g.1 = true) := by
  unfold sortItems at h
  dsimp only at h
  split_ifs at h with hlen hkeys
  · obtain rfl := Except.ok.inj h
    exact ⟨List.Perm.refl _, Or.inl (by rwa [List.length_map]), Or.inl hlen⟩
  · obtain rfl := Except.ok.inj h
    simp only [Bool.or_eq_true, List.all_eq_true] at hkeys
    exact ⟨List.perm_insertionSort _ _, Or.inr hkeys, Or.inr rfl⟩

theorem written_list {n : Nat} {items : List PyObject} {w : Json}
    (h : written I n (list items) = .ok w) : ∃ m xs, n = m + 1 ∧ w = .arr xs ∧
      List.Forall₂ (fun v x => written I m v = .ok x) items xs := by
  cases n with
  | zero => cases h
  | succ m =>
    simp only [written, bind_eq_ok, pure_eq_ok, writtenItems_eq_ok] at h
    obtain ⟨xs, hxs, rfl⟩ := h
    exact ⟨m, xs, rfl, rfl, hxs⟩

theorem written_dict_succ {m : Nat} {items : List (PyKey × PyObject)} {w : Json} :
    written I (m + 1) (dict items) = .ok w ↔ Json.sorts m items.length = true ∧
      ∃ sorted fields, w = .obj fields ∧ sortItems items = .ok sorted ∧
        List.Forall₂ (WrittenAs I m) sorted fields := by
  simp only [written, bind_eq_ok, pure_eq_ok, raiseIf_eq_ok, Bool.not_eq_false,
    writtenFields_eq_map, sortItems_writtenItem, map_eq_ok]
  constructor
  · rintro ⟨_, hsorts, _, ⟨sorted, hsorted, rfl⟩, fields, hfields, rfl⟩
    exact ⟨hsorts, sorted, fields, rfl, hsorted, writeItems_eq_ok.mp hfields⟩
  · rintro ⟨hsorts, sorted, fields, rfl, hsorted, hfields⟩
    exact ⟨(), hsorts, _, ⟨sorted, hsorted, rfl⟩, fields, writeItems_eq_ok.mpr hfields, rfl⟩

theorem written_dict {n : Nat} {items : List (PyKey × PyObject)} {w : Json}
    (h : written I n (dict items) = .ok w) : ∃ m sorted fields, n = m + 1 ∧ w = .obj fields ∧
      Json.sorts m items.length = true ∧ sortItems items = .ok sorted ∧
        List.Forall₂ (WrittenAs I m) sorted fields := by
  cases n with
  | zero => cases h
  | succ m =>
    obtain ⟨hsorts, sorted, fields, rfl, hw⟩ := written_dict_succ.mp h
    exact ⟨m, sorted, fields, rfl, rfl, hsorts, hw⟩

/-! ## What is written can be printed -/

theorem exists_of_forall₂ {α β : Type} {R : α → β → Prop} {l : List α} {m : List β}
    (h : List.Forall₂ R l m) {y : β} (hy : y ∈ m) : ∃ x ∈ l, R x y := by
  induction h with
  | nil => cases hy
  | cons hR _ ih =>
    rcases List.mem_cons.mp hy with rfl | hy
    · exact ⟨_, List.mem_cons_self, hR⟩
    · obtain ⟨x, hx, hRx⟩ := ih hy
      exact ⟨x, List.mem_cons_of_mem _ hx, hRx⟩

/-- What is written for a dict comes from its items. -/
theorem mem_fields {n : Nat} {items sorted : List (PyKey × PyObject)}
    {fields : List (PyStr × Json)} (hsorted : sortItems items = .ok sorted)
    (hfields : List.Forall₂ (WrittenAs I n) sorted fields) {g : PyStr × Json} (hg : g ∈ fields) :
    ∃ f ∈ items, WrittenAs I n f g := by
  obtain ⟨f, hf, hfg⟩ := exists_of_forall₂ hfields hg
  exact ⟨f, (sortItems_eq_ok hsorted).1.mem_iff.mp hf, hfg⟩

/-- Every item of a dict is written. -/
theorem mem_items {n : Nat} {items sorted : List (PyKey × PyObject)}
    {fields : List (PyStr × Json)} (hsorted : sortItems items = .ok sorted)
    (hfields : List.Forall₂ (WrittenAs I n) sorted fields) {f : PyKey × PyObject}
    (hf : f ∈ items) : ∃ g ∈ fields, WrittenAs I n f g :=
  exists_of_forall₂ hfields.flip ((sortItems_eq_ok hsorted).1.mem_iff.mpr hf)

theorem refusal_written {n : Nat} {v : PyObject} {w : Json} (h : written I n v = .ok w) :
    w.refusal n = none := by
  induction v using partsInduction generalizing n w with
  | null | bool | str =>
    simp only [written] at h
    obtain rfl := Except.ok.inj h
    unfold Json.refusal
    rfl
  | int i =>
    simp only [written] at h
    split_ifs at h with hi
    obtain rfl := Except.ok.inj h
    simp only [Json.refusal, if_neg hi]
  | float x =>
    simp only [written] at h
    split_ifs at h with hx
    obtain rfl := Except.ok.inj h
    simp only [Json.refusal, if_pos hx]
  | list items ih =>
    obtain ⟨m, xs, rfl, rfl, hxs⟩ := written_list h
    rw [Json.refusal, Json.refusalItems_eq_none]
    intro x hx
    obtain ⟨v, hv, hvx⟩ := exists_of_forall₂ hxs hx
    exact ih v hv hvx
  | dict items ih =>
    obtain ⟨m, sorted, fields, rfl, rfl, hsorts, hsorted, hfields⟩ := written_dict h
    have hlen : fields.length = items.length :=
      hfields.length_eq.symm.trans (sortItems_eq_ok hsorted).1.length_eq
    rw [Json.refusal_obj, hlen, Json.refusalFields_eq_none]
    refine ⟨hsorts, fun g hg => ?_⟩
    obtain ⟨f, hf, -, hvalue⟩ := mem_fields hsorted hfields hg
    exact ih f hf hvalue
  | foreign => simp [written] at h

/-- Canonical bytes are the text of what is written, which can be printed and has an
encoding. -/
theorem canonicalBytes_eq_ok {v : PyObject} {b : Bytes} :
    v.canonicalBytes I = .ok b ↔ ∃ w, v.written I I.dumpsNesting = .ok w ∧ w.encodable = true ∧
      utf8Encode (Json.render I false w) = .ok b := by
  unfold canonicalBytes
  simp only [bind_eq_ok]
  refine exists_congr fun w => and_congr_right fun hw => ⟨fun h => ⟨?_, h⟩, fun h => h.2⟩
  exact Json.encodable_of_render w I.dumpsNesting (refusal_written hw) (utf8Encode_eq_ok.mp h).1

/-! ## Its keys differ -/

theorem name_of_text {k : PyKey} {s : PyStr} (h : k.text I = .ok s) : name I k = s := by
  rw [name, h]

theorem names_fields {n : Nat} {sorted : List (PyKey × PyObject)} {fields : List (PyStr × Json)}
    (h : List.Forall₂ (WrittenAs I n) sorted fields) :
    fields.map Prod.fst = sorted.map fun f => name I f.1 := by
  induction h with
  | nil => rfl
  | cons hR _ ih => rw [List.map_cons, List.map_cons, ih, name_of_text hR.1]

theorem nodup_names (hI : I.PrintsApart) {keys : List PyKey} (hcompare : Comparable keys)
    (hdistinct : keys.Pairwise fun a b => a.pyEq b = false)
    (htext : ∀ k ∈ keys, ∃ s, k.text I = .ok s) : (keys.map (name I)).Nodup := by
  have hpair : ∀ a ∈ keys, ∀ b ∈ keys,
      (a.isStr = true ∧ b.isStr = true ∨ a.num?.isSome = true ∧ b.num?.isSome = true) →
      a.pyEq b = false → name I a ≠ name I b := by
    intro a ha b hb hab hne heq
    obtain ⟨s, hs⟩ := htext a ha
    obtain ⟨t, ht⟩ := htext b hb
    rw [name_of_text hs, name_of_text ht] at heq
    rw [PyKey.pyEq_of_text hI hab hs (heq ▸ ht)] at hne
    cases hne
  rw [List.Nodup, List.pairwise_map]
  rcases hcompare with hlen | hstr | hnum
  · cases keys with
    | nil => exact List.Pairwise.nil
    | cons k keys =>
      have hnil : keys = [] := by
        rw [List.length_cons] at hlen
        exact List.length_eq_zero_iff.mp (by omega)
      rw [hnil]
      exact List.pairwise_singleton _ _
  · exact hdistinct.imp_of_mem fun ha hb h =>
      hpair _ ha _ hb (Or.inl ⟨hstr _ ha, hstr _ hb⟩) h
  · exact hdistinct.imp_of_mem fun ha hb h =>
      hpair _ ha _ hb (Or.inr ⟨hnum _ ha, hnum _ hb⟩) h

theorem distinctItems_iff {items : List PyObject} :
    distinctItems items = true ↔ ∀ v ∈ items, v.distinct = true := by
  induction items with
  | nil => simp [distinctItems]
  | cons v items ih => simp [distinctItems, ih]

theorem distinctFields_iff {items : List (PyKey × PyObject)} :
    distinctFields items = true ↔ ∀ f ∈ items, f.2.distinct = true := by
  induction items with
  | nil => simp [distinctFields]
  | cons f items ih => simp [distinctFields, ih]

theorem strict_written (hI : I.PrintsApart) {n : Nat} {v : PyObject} {w : Json}
    (hv : v.distinct = true) (h : written I n v = .ok w) : w.strict = true := by
  induction v using partsInduction generalizing n w with
  | null | bool | str =>
    simp only [written] at h
    obtain rfl := Except.ok.inj h
    unfold Json.strict
    rfl
  | int i =>
    simp only [written] at h
    split_ifs at h
    obtain rfl := Except.ok.inj h
    rfl
  | float x =>
    simp only [written] at h
    split_ifs at h with hx
    obtain rfl := Except.ok.inj h
    rw [Json.strict, decide_eq_true_eq]
    rintro rfl
    cases hx
  | list items ih =>
    obtain ⟨m, xs, rfl, rfl, hxs⟩ := written_list h
    rw [distinct, distinctItems_iff] at hv
    rw [Json.strict, Json.strictItems_iff]
    intro x hx
    obtain ⟨v, hmem, hvx⟩ := exists_of_forall₂ hxs hx
    exact ih v hmem (hv v hmem) hvx
  | dict items ih =>
    obtain ⟨m, sorted, fields, rfl, rfl, -, hsorted, hfields⟩ := written_dict h
    rw [distinct, Bool.and_eq_true, decide_eq_true_eq, distinctFields_iff] at hv
    rw [Json.strict, Bool.and_eq_true, decide_eq_true_eq, Json.strictFields_iff]
    obtain ⟨hperm, hcompare, -⟩ := sortItems_eq_ok hsorted
    constructor
    · have hnames : (fields.map Prod.fst).Perm ((items.map Prod.fst).map (name I)) := by
        rw [names_fields hfields, List.map_map]
        exact hperm.map fun f => name I f.1
      refine hnames.nodup_iff.mpr (nodup_names hI hcompare hv.1 fun k hk => ?_)
      -- every item was written, so its key has a string
      obtain ⟨f, hf, rfl⟩ := List.mem_map.mp hk
      obtain ⟨g, -, htext, -⟩ := mem_items hsorted hfields hf
      exact ⟨g.1, htext⟩
    · intro g hg
      obtain ⟨f, hf, -, hvalue⟩ := mem_fields hsorted hfields hg
      exact ih f hf (hv.2 f hf) hvalue
  | foreign => simp [written] at h

/-! ## The order of its keys -/

theorem keysInOrderItems_iff {items : List PyObject} :
    keysInOrderItems I items = true ↔ ∀ v ∈ items, v.keysInOrder I = true := by
  induction items with
  | nil => simp [keysInOrderItems]
  | cons v items ih => simp [keysInOrderItems, ih]

theorem keysInOrderFields_iff {items : List (PyKey × PyObject)} :
    keysInOrderFields I items = true ↔ ∀ f ∈ items, f.2.keysInOrder I = true := by
  induction items with
  | nil => simp [keysInOrderFields]
  | cons f items ih => simp [keysInOrderFields, ih]

/-- Sorting the strings of the keys changes nothing exactly where they are in order. -/
theorem sortKeys_written {n : Nat} {v : PyObject} {w : Json} (h : written I n v = .ok w) :
    w.sortKeys = w ↔ v.keysInOrder I = true := by
  induction v using partsInduction generalizing n w with
  | null | bool | str =>
    simp only [written] at h
    obtain rfl := Except.ok.inj h
    simp [Json.sortKeys, keysInOrder]
  | int i =>
    simp only [written] at h
    split_ifs at h
    obtain rfl := Except.ok.inj h
    simp [Json.sortKeys, keysInOrder]
  | float x =>
    simp only [written] at h
    split_ifs at h
    obtain rfl := Except.ok.inj h
    simp [Json.sortKeys, keysInOrder]
  | list items ih =>
    obtain ⟨m, xs, rfl, rfl, hxs⟩ := written_list h
    rw [Json.sortKeys, Json.arr.injEq, Json.sortItems_eq_self, keysInOrder, keysInOrderItems_iff]
    constructor
    · intro hself v hv
      obtain ⟨x, hx, hvx⟩ := exists_of_forall₂ hxs.flip hv
      exact (ih v hv hvx).mp (hself x hx)
    · intro horder x hx
      obtain ⟨v, hv, hvx⟩ := exists_of_forall₂ hxs hx
      exact (ih v hv hvx).mpr (horder v hv)
  | dict items ih =>
    obtain ⟨m, sorted, fields, rfl, rfl, -, hsorted, hfields⟩ := written_dict h
    have hordered : (sorted.map fun f => name I f.1).Pairwise (· ≤ ·) ↔
        fields.Pairwise Json.keyLE := by
      rw [← names_fields hfields, List.pairwise_map]
      rfl
    rw [Json.sortKeys, Json.obj.injEq, keysInOrder, hsorted, Bool.and_eq_true, decide_eq_true_eq,
      keysInOrderFields_iff, hordered]
    constructor
    · intro hself
      have hpairwise : fields.Pairwise Json.keyLE := by
        rw [← hself]
        exact List.pairwise_insertionSort _ _
      have hfixed := Json.sortFields_eq_of_sorted hpairwise hself
      refine ⟨hpairwise, fun f hf => ?_⟩
      obtain ⟨g, hg, -, hvalue⟩ := mem_items hsorted hfields hf
      exact (ih f hf hvalue).mp (Json.sortFields_eq_self.mp hfixed g hg)
    · rintro ⟨hpairwise, horder⟩
      have hfixed : Json.sortFields fields = fields := by
        refine Json.sortFields_eq_self.mpr fun g hg => ?_
        obtain ⟨f, hf, -, hvalue⟩ := mem_fields hsorted hfields hg
        exact (ih f hf hvalue).mpr (horder f hf)
      rw [hfixed, hpairwise.insertionSort_eq]
  | foreign => simp [written] at h

/-! ## More room -/

theorem forall₂_imp_mem {α β : Type} {R S : α → β → Prop} {l : List α} {m : List β}
    (h : List.Forall₂ R l m) (himp : ∀ x ∈ l, ∀ y, R x y → S x y) : List.Forall₂ S l m := by
  induction h with
  | nil => exact .nil
  | cons hR _ ih =>
    exact .cons (himp _ List.mem_cons_self _ hR) (ih fun x hx => himp x (List.mem_cons_of_mem _ hx))

/-- What is written for a value is also written with more room. -/
theorem written_mono {m n : Nat} {v : PyObject} {w : Json} (h : written I m v = .ok w)
    (hmn : m ≤ n) : written I n v = .ok w := by
  induction v using partsInduction generalizing m n w with
  | null | bool | str | int | float => simpa only [written] using h
  | list items ih =>
    obtain ⟨m, xs, rfl, rfl, hxs⟩ := written_list h
    obtain ⟨n, rfl⟩ : ∃ k, n = k + 1 := ⟨n - 1, by omega⟩
    have hitems : writtenItems I n items = .ok xs := writtenItems_eq_ok.mpr
      (forall₂_imp_mem hxs fun v hv x hx => ih v hv hx (Nat.le_of_succ_le_succ hmn))
    rw [written, hitems]
    rfl
  | dict items ih =>
    obtain ⟨m, sorted, fields, rfl, rfl, hsorts, hsorted, hfields⟩ := written_dict h
    obtain ⟨n, rfl⟩ : ∃ k, n = k + 1 := ⟨n - 1, by omega⟩
    refine written_dict_succ.mpr
      ⟨Json.sorts_mono hsorts (Nat.le_of_succ_le_succ hmn), sorted, fields, rfl, hsorted, ?_⟩
    refine forall₂_imp_mem hfields fun f hf g hg => ⟨hg.1, ?_⟩
    exact ih f ((sortItems_eq_ok hsorted).1.mem_iff.mp hf) hg.2 (Nat.le_of_succ_le_succ hmn)
  | foreign => simp [written] at h

theorem writtenItems_eq_error {n : Nat} {items : List PyObject} {e : PyError}
    (h : writtenItems I n items = .error e) : ∃ v ∈ items, written I n v = .error e := by
  induction items with
  | nil => cases h
  | cons v items ih =>
    cases hv : written I n v with
    | error e' =>
      rw [writtenItems, hv, error_bind] at h
      exact ⟨v, List.mem_cons_self, hv.trans (congrArg _ (Except.error.inj h))⟩
    | ok x =>
      cases hitems : writtenItems I n items with
      | error e' =>
        rw [writtenItems, hv, ok_bind, hitems, error_bind] at h
        obtain ⟨u, hu, hu'⟩ := ih (hitems.trans (congrArg _ (Except.error.inj h)))
        exact ⟨u, List.mem_cons_of_mem _ hu, hu'⟩
      | ok xs =>
        rw [writtenItems, hv, ok_bind, hitems] at h
        cases h

theorem writeItems_eq_error {n : Nat} {items : List (PyKey × PyObject)} {e : PyError}
    (h : writeItems I (items.map (writtenItem I n)) = .error e) :
    ∃ f ∈ items, f.1.text I = .error e ∨ written I n f.2 = .error e := by
  induction items with
  | nil => cases h
  | cons f items ih =>
    rw [List.map_cons, writtenItem, writeItems] at h
    cases htext : f.1.text I with
    | error e' =>
      rw [htext, error_bind] at h
      exact ⟨f, List.mem_cons_self, Or.inl (htext.trans (congrArg _ (Except.error.inj h)))⟩
    | ok name =>
      rw [htext, ok_bind] at h
      cases hv : written I n f.2 with
      | error e' =>
        rw [hv, error_bind] at h
        exact ⟨f, List.mem_cons_self, Or.inr (hv.trans (congrArg _ (Except.error.inj h)))⟩
      | ok x =>
        rw [hv, ok_bind] at h
        cases hitems : writeItems I (items.map (writtenItem I n)) with
        | error e' =>
          rw [hitems, error_bind] at h
          obtain ⟨g, hg, hg'⟩ := ih (hitems.trans (congrArg _ (Except.error.inj h)))
          exact ⟨g, List.mem_cons_of_mem _ hg, hg'⟩
        | ok fields =>
          rw [hitems] at h
          cases h

/-- A value that is written with some room lacks nothing else with less. -/
theorem error_written {m n : Nat} {v : PyObject} {w : Json} {e : PyError}
    (h : written I n v = .ok w) (he : written I m v = .error e) : e.cls = .recursionError := by
  induction v using partsInduction generalizing m n w e with
  | null | bool | str | int | float =>
    simp only [written] at h he
    rw [h] at he
    cases he
  | list items ih =>
    obtain ⟨n, xs, rfl, rfl, hxs⟩ := written_list h
    cases m with
    | zero =>
      rw [written] at he
      cases he
      rfl
    | succ m =>
      cases hitems : writtenItems I m items with
      | error e' =>
        rw [written, hitems, error_bind] at he
        cases he
        obtain ⟨v, hv, hve⟩ := writtenItems_eq_error hitems
        obtain ⟨x, -, hx⟩ := exists_of_forall₂ hxs.flip hv
        exact ih v hv hx hve
      | ok ys =>
        rw [written, hitems] at he
        cases he
  | dict items ih =>
    obtain ⟨n, sorted, fields, rfl, rfl, -, hsorted, hfields⟩ := written_dict h
    cases m with
    | zero =>
      rw [written] at he
      cases he
      rfl
    | succ m =>
      rw [written] at he
      by_cases hsorts : Json.sorts m items.length = false
      · rw [raiseIf_pos hsorts, error_bind] at he
        cases he
        rfl
      rw [raiseIf_neg hsorts, ok_bind] at he
      have hmap : (Except.ok sorted : Except PyError _).map (List.map (writtenItem I m)) =
          .ok (sorted.map (writtenItem I m)) := rfl
      rw [writtenFields_eq_map, sortItems_writtenItem, hsorted, hmap, ok_bind] at he
      cases hwrite : writeItems I (sorted.map (writtenItem I m)) with
      | error e' =>
        rw [hwrite, error_bind] at he
        cases he
        obtain ⟨f, hf, hfe⟩ := writeItems_eq_error hwrite
        obtain ⟨g, -, htext, hvalue⟩ := exists_of_forall₂ hfields.flip hf
        rcases hfe with hfe | hfe
        · rw [htext] at hfe
          cases hfe
        · exact ih f ((sortItems_eq_ok hsorted).1.mem_iff.mp hf) hvalue hfe
      | ok fs =>
        rw [hwrite] at he
        cases he
  | foreign => simp [written] at h

/-! ## Values that were read -/

end PyObject

mutual
/-- A value that `json.loads` returns. -/
def Json.toObject : Json → PyObject
  | .null => .null
  | .bool b => .bool b
  | .int i => .int i
  | .float x => .float x
  | .str s => .str s
  | .arr xs => .list (itemsToObject xs)
  | .obj fields => .dict (fieldsToObject fields)

def Json.itemsToObject : List Json → List PyObject
  | [] => []
  | x :: xs => x.toObject :: itemsToObject xs

def Json.fieldsToObject : List (PyStr × Json) → List (PyKey × PyObject)
  | [] => []
  | (k, x) :: fields => (.str k, x.toObject) :: fieldsToObject fields
end

namespace PyObject

/-- A value, or the error that refuses it. -/
def ofRefusal {β : Type} (v : β) : Option PyError → Except PyError β
  | some e => .error e
  | none => .ok v

theorem ofRefusal_or {β γ δ : Type} (v : β) (w : γ) (f : β → γ → δ) (a b : Option PyError) :
    (do let x ← ofRefusal v a; let y ← ofRefusal w b; return f x y) =
      ofRefusal (f v w) (a.or b) := by
  cases a <;> cases b <;> rfl

/-- An item of a read object, and what is written for its value. -/
def readItem (n : Nat) (g : PyStr × Json) : PyKey × Except PyError Json :=
  (.str g.1, ofRefusal g.2 (g.2.refusal n))

theorem sortItems_readItem (n : Nat) (fields : List (PyStr × Json)) :
    sortItems (fields.map (readItem n)) =
      .ok ((fields.insertionSort Json.keyLE).map (readItem n)) := by
  have hstr : ((fields.map (readItem n)).map Prod.fst).all PyKey.isStr = true := by
    rw [List.all_eq_true]
    intro k hk
    obtain ⟨r, hr, rfl⟩ := List.mem_map.mp hk
    obtain ⟨g, -, rfl⟩ := List.mem_map.mp hr
    rfl
  have hle : ∀ f ∈ fields, ∀ g ∈ fields,
      (Json.keyLE f g ↔ (readItem n f).1.le (readItem n g).1 = true) := by
    intro f _ g _
    exact decide_eq_true_iff.symm
  have hsort := List.map_insertionSort Json.keyLE (fun f g : PyKey × Except PyError Json =>
    f.1.le g.1 = true) (readItem n) fields hle
  unfold sortItems
  dsimp only
  rw [hstr, List.length_map, Bool.true_or, if_pos rfl, hsort]
  split_ifs with hlen
  · match fields, hlen with
    | [], _ | [_], _ => rfl
  · rfl

theorem writeItems_readItem (n : Nat) (fields : List (PyStr × Json)) :
    writeItems I (fields.map (readItem n)) = ofRefusal fields (Json.refusalFields n fields) := by
  induction fields with
  | nil => rfl
  | cons g fields ih =>
    obtain ⟨k, x⟩ := g
    rw [List.map_cons, readItem, writeItems, ih]
    exact ofRefusal_or x fields (fun x fields => (k, x) :: fields) _ _

theorem fieldsToObject_eq_map (fields : List (PyStr × Json)) :
    Json.fieldsToObject fields = fields.map fun g => (.str g.1, g.2.toObject) := by
  induction fields with
  | nil => rfl
  | cons g fields ih => rw [Json.fieldsToObject, ih, List.map_cons]

theorem length_fieldsToObject (fields : List (PyStr × Json)) :
    (Json.fieldsToObject fields).length = fields.length := by
  rw [fieldsToObject_eq_map, List.length_map]

/-- The model of `json.dumps` on values with any keys agrees with the one on values
that were read. -/
theorem written_toObject (n : Nat) (v : Json) :
    written I n v.toObject = ofRefusal v.sortKeys (v.sortKeys.refusal n) := by
  induction v using Json.partsInduction generalizing n with
  | null | bool | str => simp [Json.toObject, written, Json.sortKeys, Json.refusal, ofRefusal]
  | int i =>
    simp only [Json.toObject, written, Json.sortKeys, Json.refusal]
    split_ifs <;> rfl
  | float x =>
    simp only [Json.toObject, written, Json.sortKeys, Json.refusal]
    split_ifs <;> rfl
  | arr xs ih =>
    cases n with
    | zero => rfl
    | succ n =>
      have hitems : writtenItems I n (Json.itemsToObject xs) =
          ofRefusal (Json.sortItems xs) (Json.refusalItems n (Json.sortItems xs)) := by
        induction xs with
        | nil => rfl
        | cons x xs ihxs =>
          obtain ⟨hx, hxs⟩ := List.forall_mem_cons.mp ih
          rw [Json.itemsToObject, writtenItems, hx, ihxs hxs]
          exact ofRefusal_or x.sortKeys (Json.sortItems xs) List.cons _ _
      rw [Json.toObject, written, hitems, Json.sortKeys, Json.refusal]
      cases Json.refusalItems n (Json.sortItems xs) <;> rfl
  | obj fields ih =>
    cases n with
    | zero => rfl
    | succ n =>
      have hfields : writtenFields I n (Json.fieldsToObject fields) =
          (Json.sortFields fields).map (readItem n) := by
        induction fields with
        | nil => rfl
        | cons f fields ihfs =>
          obtain ⟨hf, hfs⟩ := List.forall_mem_cons.mp ih
          rw [Json.fieldsToObject, writtenFields, hf, ihfs hfs]
          rfl
      have hlen : (Json.fieldsToObject fields).length =
          ((Json.sortFields fields).insertionSort Json.keyLE).length := by
        rw [List.length_insertionSort, Json.length_sortFields, length_fieldsToObject]
      rw [Json.toObject, written, hfields, sortItems_readItem, ok_bind, writeItems_readItem,
        Json.sortKeys, Json.refusal, hlen]
      split_ifs with hsorts
      · rw [raiseIf_neg (by rw [hsorts]; decide), ok_bind]
        cases Json.refusalFields n ((Json.sortFields fields).insertionSort Json.keyLE) <;> rfl
      · rw [raiseIf_pos (Bool.eq_false_of_not_eq_true hsorts)]
        rfl

/-- What is written of a read value is its canonical form. -/
theorem written_toObject_ok {n : Nat} {v w : Json} (h : written I n v.toObject = .ok w) :
    w = v.sortKeys := by
  rw [written_toObject] at h
  cases hr : v.sortKeys.refusal n with
  | some e =>
    rw [hr] at h
    cases h
  | none =>
    rw [hr] at h
    exact (Except.ok.inj h).symm

theorem fields_of_read {n : Nat} {fields gs : List (PyStr × Json)}
    (h : List.Forall₂ (WrittenAs I n) (Json.fieldsToObject fields) gs) :
    gs = Json.sortFields fields := by
  induction fields generalizing gs with
  | nil => exact List.forall₂_nil_left_iff.mp h
  | cons f fields ih =>
    obtain ⟨⟨key, w⟩, rest, ⟨hkey, hw⟩, hrest, rfl⟩ := List.forall₂_cons_left_iff.mp h
    obtain rfl := Except.ok.inj hkey
    rw [Json.sortFields, ih hrest, ← written_toObject_ok hw]

theorem canonicalBytes_toObject (v : Json) :
    canonicalBytes I v.toObject = Json.dumpsBytes I v := by
  rw [canonicalBytes, written_toObject, Json.dumpsBytes, Json.dumps]
  cases v.sortKeys.refusal I.dumpsNesting <;> rfl

/-! ## Copies -/

theorem copyDepthItems_le {n : Nat} {items : List PyObject} :
    copyDepthItems items ≤ n ↔ ∀ v ∈ items, v.copyDepth ≤ n := by
  induction items with
  | nil => simp [copyDepthItems]
  | cons v items ih => simp [copyDepthItems, ih]

theorem copyDepthFields_le {n : Nat} {items : List (PyKey × PyObject)} :
    copyDepthFields items ≤ n ↔ ∀ f ∈ items, 3 ≤ n ∧ f.2.copyDepth ≤ n := by
  induction items with
  | nil => simp [copyDepthFields]
  | cons f items ih => rw [copyDepthFields, Nat.max_le, Nat.max_le, ih, List.forall_mem_cons]

theorem itemsToObject_eq_map (xs : List Json) : Json.itemsToObject xs = xs.map Json.toObject := by
  induction xs with
  | nil => rfl
  | cons x xs ih => rw [Json.itemsToObject, ih, List.map_cons]

/-- What is written of a value and read back takes as many calls to copy as the value. -/
theorem copyDepth_written {n : Nat} {v : PyObject} {w : Json} (h : written I n v = .ok w) :
    w.toObject.copyDepth = v.copyDepth := by
  induction v using partsInduction generalizing n w with
  | null | bool | str =>
    simp only [written] at h
    obtain rfl := Except.ok.inj h
    rfl
  | int | float =>
    simp only [written] at h
    split_ifs at h
    obtain rfl := Except.ok.inj h
    rfl
  | list items ih =>
    obtain ⟨m, xs, rfl, rfl, hxs⟩ := written_list h
    rw [Json.toObject, itemsToObject_eq_map, copyDepth, copyDepth]
    refine congrArg (· + 2) (eq_of_forall_ge_iff fun k => ?_)
    rw [copyDepthItems_le, copyDepthItems_le, List.forall_mem_map]
    constructor
    · intro hk v hv
      obtain ⟨x, hx, hvx⟩ := exists_of_forall₂ hxs.flip hv
      exact ih v hv hvx ▸ hk x hx
    · intro hk x hx
      obtain ⟨v, hv, hvx⟩ := exists_of_forall₂ hxs hx
      exact ih v hv hvx ▸ hk v hv
  | dict items ih =>
    obtain ⟨m, sorted, fields, rfl, rfl, -, hsorted, hfields⟩ := written_dict h
    rw [Json.toObject, fieldsToObject_eq_map, copyDepth, copyDepth]
    refine congrArg (· + 2) (eq_of_forall_ge_iff fun k => ?_)
    rw [copyDepthFields_le, copyDepthFields_le, List.forall_mem_map]
    refine ⟨fun hk f hf => ?_, fun hk g hg => ?_⟩
    · obtain ⟨g, hg, -, hvalue⟩ := mem_items hsorted hfields hf
      exact ih f hf hvalue ▸ hk g hg
    · obtain ⟨f, hf, -, hvalue⟩ := mem_fields hsorted hfields hg
      exact ih f hf hvalue ▸ hk f hf
  | foreign => simp [written] at h

end PyObject

end EdgeFort
