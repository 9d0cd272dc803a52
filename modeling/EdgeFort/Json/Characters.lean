/-
The characters of a JSON text.

Outside its strings a text has printable ASCII only, and in ASCII mode inside them
too.  So a value whose strings have a UTF-8 encoding has a text that has one.
-/
import EdgeFort.Json.Canonical
import Mathlib.Data.List.Infix

namespace EdgeFort
namespace Json

open Effect

/-- Printable ASCII. -/
def isPlain (c : CodePoint) : Bool := 0x20 ≤ c.val && c.val < 0x7F

theorem isPlain_iff {c : CodePoint} : isPlain c = true ↔ 0x20 ≤ c.val ∧ c.val < 0x7F := by
  simp only [isPlain, Bool.and_eq_true, decide_eq_true_eq]

theorem isPlain_of_isDigit {c : CodePoint} (h : isDigit c = true) : isPlain c = true := by
  have := isDigit_val h
  exact isPlain_iff.mpr (by omega)

theorem Literal.WellFormed.plain {l : Literal} (h : l.WellFormed) : ∀ c ∈ l.text, isPlain c = true := by
  have hdigits : ∀ {ds : PyStr}, (∀ d ∈ ds, isDigit d = true) → ∀ d ∈ ds, isPlain d = true :=
    fun hds d hd => isPlain_of_isDigit (hds d hd)
  have hsign : ∀ c ∈ l.sign, isPlain c = true := by
    rcases h.sign with hs | hs
    · rw [hs]
      exact List.forall_mem_nil _
    · rw [hs]
      exact List.forall_mem_singleton.mpr (by decide)
  have hwhole : ∀ c ∈ l.whole, isPlain c = true := by
    rcases h.whole with hw | ⟨c, ds, hw, -, hds⟩
    · rw [hw]
      exact List.forall_mem_singleton.mpr (by decide)
    · rw [hw]
      exact hdigits hds
  have hfraction : ∀ c ∈ l.fraction, isPlain c = true := by
    rcases h.fraction with hf | ⟨d, ds, hf, hds⟩
    · rw [hf]
      exact List.forall_mem_nil _
    · rw [hf]
      exact List.forall_mem_cons.mpr ⟨by decide, hdigits hds⟩
  have hexponent : ∀ c ∈ l.exponent, isPlain c = true := by
    rcases h.exponent with he | ⟨m, sign, d, ds, he, hm, hs, hds⟩
    · rw [he]
      exact List.forall_mem_nil _
    · rw [he]
      refine List.forall_mem_cons.mpr ⟨?_, List.forall_mem_append.mpr ⟨?_, hdigits hds⟩⟩
      · simp only [isExponentMark, Bool.or_eq_true, decide_eq_true_eq] at hm
        exact isPlain_iff.mpr (by omega)
      · rcases hs with hs | ⟨s, hs, hsign⟩
        · rw [hs]
          exact List.forall_mem_nil _
        · simp only [isSign, Bool.or_eq_true, decide_eq_true_eq] at hsign
          rw [hs, List.forall_mem_singleton]
          exact isPlain_iff.mpr (by omega)
  simp only [Literal.text, List.forall_mem_append]
  exact ⟨⟨⟨hsign, hwhole⟩, hfraction⟩, hexponent⟩

variable {I : Interpreter} {ascii : Bool} {q : CodePoint → Prop}

theorem forall_mem_renderString (hplain : ∀ c, isPlain c = true → q c) {s : PyStr}
    (hs : ∀ c ∈ escapeString ascii s, q c) : ∀ c ∈ renderString ascii s, q c := by
  have hquote : q quote := hplain quote (by decide)
  rw [renderString]
  exact List.forall_mem_append.mpr ⟨List.forall_mem_cons.mpr ⟨hquote, hs⟩,
    List.forall_mem_singleton.mpr hquote⟩

theorem forall_mem_renderItems (hplain : ∀ c, isPlain c = true → q c) {xs : List Json}
    (hxs : ∀ x ∈ xs, ∀ c ∈ render I ascii x, q c) : ∀ c ∈ renderItems I ascii xs, q c := by
  induction xs with
  | nil => exact List.forall_mem_singleton.mpr (hplain _ (by decide))
  | cons x xs ih =>
    obtain ⟨hx, hxs⟩ := List.forall_mem_cons.mp hxs
    exact List.forall_mem_cons.mpr ⟨hplain _ (by decide),
      List.forall_mem_append.mpr ⟨hx, ih hxs⟩⟩

theorem forall_mem_renderFields (hplain : ∀ c, isPlain c = true → q c) {fields : List (PyStr × Json)}
    (hfields : ∀ f ∈ fields, (∀ c ∈ escapeString ascii f.1, q c) ∧
      ∀ c ∈ render I ascii f.2, q c) : ∀ c ∈ renderFields I ascii fields, q c := by
  induction fields with
  | nil => exact List.forall_mem_singleton.mpr (hplain _ (by decide))
  | cons f fields ih =>
    obtain ⟨⟨hk, hx⟩, hfields⟩ := List.forall_mem_cons.mp hfields
    exact List.forall_mem_cons.mpr ⟨hplain _ (by decide), List.forall_mem_append.mpr
      ⟨forall_mem_renderString hplain hk, List.forall_mem_cons.mpr ⟨hplain _ (by decide),
        List.forall_mem_append.mpr ⟨hx, ih hfields⟩⟩⟩⟩

/-- What holds of printable ASCII and of the characters of printed strings holds of
every character of a text. -/
theorem forall_mem_render {p : PyStr → Bool} (hplain : ∀ c, isPlain c = true → q c)
    (hstring : ∀ s, p s = true → ∀ c ∈ escapeString ascii s, q c) (v : Json)
    (hv : v.stringsAll p = true) : ∀ c ∈ render I ascii v, q c := by
  have hword : ∀ {w : PyStr}, w.all isPlain = true → ∀ c ∈ w, q c := fun hw c hc =>
    hplain c (List.all_eq_true.mp hw c hc)
  induction v using partsInduction with
  | null => exact hword (show (py "null").all isPlain = true by decide)
  | bool b =>
    cases b with
    | true => exact hword (show (py "true").all isPlain = true by decide)
    | false => exact hword (show (py "false").all isPlain = true by decide)
  | int i =>
    rw [render, ← intLiteral_text]
    exact fun c hc => hplain c ((intLiteral_wellFormed i).plain c hc)
  | float x =>
    obtain ⟨l, hl, -, htext⟩ := I.repr_literal x hv
    rw [render, htext]
    exact fun c hc => hplain c (hl.plain c hc)
  | str s => exact forall_mem_renderString hplain (hstring s hv)
  | arr xs ih =>
    simp only [stringsAll, stringsAllItems_iff] at hv
    have hitems := forall_mem_renderItems hplain fun x hx => ih x hx (hv x hx)
    cases xs with
    | nil => exact List.forall_mem_cons.mpr ⟨hplain _ (by decide), hitems⟩
    | cons x xs =>
      obtain ⟨-, hitems⟩ := List.forall_mem_cons.mp hitems
      exact List.forall_mem_cons.mpr ⟨hplain _ (by decide), hitems⟩
  | obj fields ih =>
    simp only [stringsAll, stringsAllFields_iff] at hv
    have hfields := forall_mem_renderFields (I := I) hplain fun f hf =>
      ⟨hstring f.1 (hv f hf).1, ih f hf (hv f hf).2⟩
    cases fields with
    | nil => exact List.forall_mem_cons.mpr ⟨hplain _ (by decide), hfields⟩
    | cons f fields =>
      obtain ⟨-, hfields⟩ := List.forall_mem_cons.mp hfields
      exact List.forall_mem_cons.mpr ⟨hplain _ (by decide), hfields⟩

/-! ## A value whose strings have an encoding prints to bytes -/

theorem isPlain_hexDigit {d : Nat} (h : d < 16) : isPlain (hexDigit d) = true := by
  have hall : ∀ d < 16, isPlain (hexDigit d) = true := by decide
  exact hall d h

theorem isPlain_of_mem_unicodeEscape {n : Nat} : ∀ c ∈ unicodeEscape n, isPlain c = true := by
  have hhex : ∀ m, isPlain (hexDigit (m % 16)) = true := fun m =>
    isPlain_hexDigit (Nat.mod_lt _ (by decide))
  simp only [unicodeEscape, List.forall_mem_cons]
  exact ⟨by decide, by decide, hhex _, hhex _, hhex _, hhex _, List.forall_mem_nil _⟩

/-- A character is printed as plain ones or as itself, in ASCII mode only if it is
plain. -/
theorem mem_escapeChar {c d : CodePoint} (h : d ∈ escapeChar ascii c) :
    isPlain d = true ∨ ascii = false ∧ d = c ∧ 0x20 ≤ c.val := by
  unfold escapeChar at h
  split at h
  · rename_i l hl
    have hall : ∀ p ∈ shortEscapes, isPlain (chr p.2) = true := by decide
    obtain ⟨l₁, l₂, hl, -⟩ := List.lookup_eq_some_iff.mp hl
    have hplain := hall (c.val, l) (by rw [hl]; simp)
    rcases List.mem_cons.mp h with rfl | h
    · exact Or.inl (by decide)
    · exact Or.inl (List.mem_singleton.mp h ▸ hplain)
  · split_ifs at h with hescape hlow
    · exact Or.inl (isPlain_of_mem_unicodeEscape d h)
    · rcases List.mem_append.mp h with h | h
      · exact Or.inl (isPlain_of_mem_unicodeEscape d h)
      · exact Or.inl (isPlain_of_mem_unicodeEscape d h)
    · obtain rfl := List.mem_singleton.mp h
      cases ascii with
      | false =>
        simp only [Bool.false_and, Bool.or_false, decide_eq_true_eq, Nat.not_lt] at hescape
        exact Or.inr ⟨rfl, rfl, hescape⟩
      | true =>
        simp only [Bool.true_and, Bool.or_eq_true, decide_eq_true_eq] at hescape
        exact Or.inl (isPlain_iff.mpr (by omega))

/-- In ASCII mode a text is printable ASCII. -/
theorem isPlain_of_mem_render {p : PyStr → Bool} {v : Json} (hv : v.stringsAll p = true) :
    ∀ c ∈ render I true v, isPlain c = true := by
  refine forall_mem_render (fun _ h => h) (fun s _ c hc => ?_) v hv
  obtain ⟨d, -, hd⟩ := List.mem_flatMap.mp hc
  rcases mem_escapeChar hd with h | ⟨h, -⟩
  · exact h
  · cases h

/-- No control character stands in a text. -/
theorem not_control_of_mem_render {p : PyStr → Bool} {v : Json} (hv : v.stringsAll p = true) :
    ∀ c ∈ render I ascii v, 0x20 ≤ c.val := by
  refine forall_mem_render (fun c hc => (isPlain_iff.mp hc).1) (fun s _ c hc => ?_) v hv
  obtain ⟨d, -, hd⟩ := List.mem_flatMap.mp hc
  rcases mem_escapeChar hd with h | ⟨-, rfl, h⟩
  · exact (isPlain_iff.mp h).1
  · exact h

theorem utf8Encodable_render {v : Json} (hv : v.encodable = true) :
    utf8Encodable (render I false v) = true := by
  have hall : ∀ c ∈ render I false v, isSurrogate c = false := by
    have hplain : ∀ c, isPlain c = true → isSurrogate c = false := fun c hc => by
      have := isPlain_iff.mp hc
      simp only [isSurrogate, Bool.and_eq_false_iff, decide_eq_false_iff_not]
      omega
    refine forall_mem_render hplain (fun s hs c hc => ?_) v
      (stringsAll_of_encodable (fun _ h => h) v hv)
    obtain ⟨d, hd, hc⟩ := List.mem_flatMap.mp hc
    rcases mem_escapeChar hc with h | ⟨-, rfl, -⟩
    · exact hplain c h
    · simpa [utf8Encodable] using List.all_eq_true.mp hs c hd
  simpa [utf8Encodable] using hall

/-- Sorting keys makes no difference to whether a value can be printed. -/
theorem refusal_sortKeys {v : Json} {n : Nat} (h : v.refusal n = none) :
    v.sortKeys.refusal n = none := by
  induction v using partsInduction generalizing n with
  | null | bool | int | float | str => exact h
  | arr xs ih =>
    cases n with
    | zero => cases h
    | succ n =>
      simp only [refusal, refusalItems_eq_none] at h
      simp only [sortKeys, refusal, refusalItems_eq_none]
      intro y hy
      obtain ⟨x, hx, rfl⟩ := mem_sortItems.mp hy
      exact ih x hx (h x hx)
  | obj fields ih =>
    cases n with
    | zero => cases h
    | succ n =>
      obtain ⟨hsorts, h⟩ := refusal_obj.mp h
      rw [refusalFields_eq_none] at h
      rw [sortKeys, refusal_obj, List.length_insertionSort, length_sortFields,
        refusalFields_eq_none]
      refine ⟨hsorts, fun g hg => ?_⟩
      obtain ⟨x, hx, hgx⟩ := mem_sortFields.mp (mem_insertionSort.mp hg)
      rw [hgx]
      exact ih _ hx (h _ hx)

/-- A value that can be printed, and whose strings have an encoding, has a canonical
text. -/
theorem exists_dumpsBytes {v : Json} (hv : v.encodable = true)
    (hr : v.refusal I.dumpsNesting = none) : ∃ b, dumpsBytes I v = .ok b :=
  ⟨_, dumpsBytes_eq_ok.mpr ⟨refusal_sortKeys hr,
    utf8Encode_eq_ok.mpr ⟨utf8Encodable_render (encodable_sortKeys v hv), rfl⟩⟩⟩

/-! ## A text holds the texts of its parts -/

theorem render_infix_renderFields {fields : List (PyStr × Json)} {f : PyStr × Json}
    (hf : f ∈ fields) : render I ascii f.2 <:+: renderFields I ascii fields := by
  induction fields with
  | nil => cases hf
  | cons g fields ih =>
    obtain ⟨k, x⟩ := g
    rcases List.mem_cons.mp hf with rfl | hf
    · exact ⟨comma :: (renderString ascii k ++ [colon]), renderFields I ascii fields, by
        simp [renderFields]⟩
    · refine (ih hf).trans ⟨comma :: (renderString ascii k ++ colon :: render I ascii x), [], ?_⟩
      simp [renderFields]

theorem render_infix_obj {fields : List (PyStr × Json)} {f : PyStr × Json} (hf : f ∈ fields) :
    render I ascii f.2 <:+: render I ascii (obj fields) := by
  cases fields with
  | nil => cases hf
  | cons g fields =>
    obtain ⟨k, x⟩ := g
    rcases List.mem_cons.mp hf with rfl | hf
    · exact ⟨openBrace :: (renderString ascii k ++ [colon]), renderFields I ascii fields, by
        simp [render]⟩
    · refine (render_infix_renderFields hf).trans
        ⟨openBrace :: (renderString ascii k ++ colon :: render I ascii x), [], ?_⟩
      simp [render]

theorem length_le_renderString (ascii : Bool) (s : PyStr) : s.length ≤ (renderString ascii s).length := by
  have hpos : ∀ c, 1 ≤ (escapeChar ascii c).length := by
    intro c
    unfold escapeChar
    split
    · simp
    · split_ifs <;> simp [unicodeEscape]
  have hle : s.length ≤ (escapeString ascii s).length := by
    induction s with
    | nil => exact Nat.zero_le _
    | cons c s ih =>
      simp only [escapeString, List.flatMap_cons, List.length_append, List.length_cons] at ih ⊢
      have := hpos c
      omega
  simp only [renderString, List.length_append, List.length_cons, List.length_nil]
  omega

/-! ## The length of an object's text -/

/-- The length of the text of an item, with the colon and a comma. -/
def itemLength (I : Interpreter) (ascii : Bool) (f : PyStr × Json) : Nat :=
  (renderString ascii f.1).length + (render I ascii f.2).length + 2

theorem length_renderFields (fields : List (PyStr × Json)) :
    (renderFields I ascii fields).length = (fields.map (itemLength I ascii)).sum + 1 := by
  induction fields with
  | nil => rfl
  | cons f fields ih =>
    obtain ⟨k, x⟩ := f
    simp only [renderFields, List.length_cons, List.length_append, ih, List.map_cons,
      List.sum_cons, itemLength]
    omega

theorem length_render_obj {fields : List (PyStr × Json)} (hne : fields ≠ []) :
    (render I ascii (obj fields)).length = (fields.map (itemLength I ascii)).sum + 1 := by
  cases fields with
  | nil => exact absurd rfl hne
  | cons f fields =>
    obtain ⟨k, x⟩ := f
    simp only [render, List.length_cons, List.length_append, length_renderFields, List.map_cons,
      List.sum_cons, itemLength]
    omega

/-- The order of the items makes no difference to the length. -/
theorem length_render_sortKeys {fields : List (PyStr × Json)} (hne : fields ≠ []) :
    (render I ascii (obj fields).sortKeys).length =
      (fields.map fun f => itemLength I ascii (f.1, f.2.sortKeys)).sum + 1 := by
  have hperm : ((sortFields fields).insertionSort keyLE).Perm (sortFields fields) :=
    List.perm_insertionSort keyLE _
  have hmap : ∀ gs : List (PyStr × Json), (sortFields gs).map (itemLength I ascii) =
      gs.map fun f => itemLength I ascii (f.1, f.2.sortKeys) := by
    intro gs
    induction gs with
    | nil => rfl
    | cons g gs ih =>
      obtain ⟨k, x⟩ := g
      rw [sortFields, List.map_cons, List.map_cons, ih]
  have hne' : (sortFields fields).insertionSort keyLE ≠ [] := by
    intro h
    rw [h] at hperm
    have hlen := congrArg List.length (map_fst_sortFields fields)
    rw [← hperm.nil_eq] at hlen
    exact hne (List.eq_nil_of_length_eq_zero (by simpa using hlen.symm))
  rw [sortKeys, length_render_obj hne', (hperm.map _).sum_eq, hmap]

/-- A field of an object is not longer than the bytes of its canonical text. -/
theorem length_field_le_dumpsBytes {fields : List (PyStr × Json)} {k s : PyStr}
    (hf : (k, str s) ∈ fields) {b : Bytes} (hb : dumpsBytes I (obj fields) = .ok b) :
    s.length ≤ b.length := by
  obtain ⟨-, hb⟩ := dumpsBytes_eq_ok.mp hb
  obtain ⟨-, rfl⟩ := utf8Encode_eq_ok.mp hb
  have hsorted : (k, str s) ∈ (sortFields fields).insertionSort keyLE :=
    mem_insertionSort.mpr (mem_sortFields.mpr ⟨str s, hf, rfl⟩)
  have htext : (renderString false s).length ≤ (render I false (obj fields).sortKeys).length :=
    (render_infix_obj hsorted).length_le
  have hbytes : ∀ t : PyStr, t.length ≤ (t.flatMap utf8EncodeChar).length := by
    intro t
    induction t with
    | nil => exact Nat.zero_le _
    | cons c t ih =>
      have hpos : 1 ≤ (utf8EncodeChar c).length := by
        unfold utf8EncodeChar
        split_ifs <;> simp
      simp only [List.flatMap_cons, List.length_append, List.length_cons]
      omega
  have hstring := length_le_renderString false s
  have := hbytes (render I false (obj fields).sortKeys)
  omega

end Json
end EdgeFort
