/-
Text nested deeper than `json.loads` recurses.

The scanner reads the parts of a container from left to right, so what stands before the
first part that is too deep is read back, and the whole is refused there.
-/
import EdgeFort.Json.Loads

namespace EdgeFort.Json

open Effect

variable {I : Interpreter} {H : Hooks} {ascii : Bool}
  {value : PyStr → Except PyError (Json × PyStr)}

/-- `RecursionError` -/
def Recurses {α : Type} (answer : Except PyError α) : Prop :=
  ∃ e, answer = .error e ∧ e.cls = .recursionError

theorem Recurses.bind {α β : Type} {answer : Except PyError α} (h : Recurses answer)
    (f : α → Except PyError β) : Recurses (answer >>= f) := by
  obtain ⟨e, rfl, he⟩ := h
  exact ⟨e, rfl, he⟩

/-- A reader runs out of recursion on the text of a value. -/
def Overflows (I : Interpreter) (ascii : Bool) (value : PyStr → Except PyError (Json × PyStr))
    (v : Json) : Prop :=
  ∀ rest, numberEnds rest = true → Recurses (value (render I ascii v ++ rest))

/-! ## Loops over parts, one of them too deep -/

theorem scanItems_overflows {xs : List Json} {x : Json}
    (hread : ∀ y ∈ x :: xs, ReadsBack I ascii value y ∨ Overflows I ascii value y)
    (hstart : ∀ y ∈ x :: xs, Starts I ascii y) (hdeep : ∃ y ∈ x :: xs, Overflows I ascii value y)
    (rest : PyStr) {n : Nat} (hn : xs.length < n) :
    Recurses (scanItems value n (render I ascii x ++ (renderItems I ascii xs ++ rest))) := by
  obtain ⟨n, rfl⟩ : ∃ m, n = m + 1 := ⟨n - 1, by omega⟩
  induction xs generalizing x n with
  | nil =>
    obtain ⟨y, hy, hdeep⟩ := hdeep
    obtain rfl := List.mem_singleton.mp hy
    exact (hdeep _ (numberEnds_renderItems I ascii [] rest)).bind _
  | cons y ys ih =>
    by_cases hx : Overflows I ascii value x
    · exact (hx _ (numberEnds_renderItems I ascii (y :: ys) rest)).bind _
    · have hback := (hread x List.mem_cons_self).resolve_right hx
      have htail : ∃ z ∈ y :: ys, Overflows I ascii value z := by
        obtain ⟨z, hz, hdeepz⟩ := hdeep
        exact ⟨z, (List.mem_cons.mp hz).resolve_left fun e => hx (e ▸ hdeepz), hdeepz⟩
      obtain ⟨n, rfl⟩ : ∃ m, n = m + 1 := ⟨n - 1, by simp at hn; omega⟩
      rw [scanItems_cons hback (hstart y (by simp))]
      exact (ih (fun z hz => hread z (List.mem_cons_of_mem _ hz))
        (fun z hz => hstart z (List.mem_cons_of_mem _ hz)) htail n (by simpa using hn)).bind _

theorem scanField_overflows {f : PyStr × Json} (hkey : readableString ascii f.1 = true)
    (hstart : Starts I ascii f.2) (hdeep : Overflows I ascii value f.2)
    (fields : List (PyStr × Json)) (rest : PyStr) :
    Recurses (scanField value (itemsText I ascii f fields rest)) := by
  rw [itemsText, scanField_value hkey hstart]
  exact (hdeep _ (numberEnds_renderFields I ascii fields rest)).bind _

theorem scanFields_overflows {fields : List (PyStr × Json)} {f : PyStr × Json}
    (hkey : ∀ g ∈ f :: fields, readableString ascii g.1 = true)
    (hread : ∀ g ∈ f :: fields, ReadsBack I ascii value g.2 ∨ Overflows I ascii value g.2)
    (hstart : ∀ g ∈ f :: fields, Starts I ascii g.2)
    (hdeep : ∃ g ∈ f :: fields, Overflows I ascii value g.2) (rest : PyStr) {n : Nat}
    (hn : fields.length < n) : Recurses (scanFields value n (itemsText I ascii f fields rest)) := by
  obtain ⟨n, rfl⟩ : ∃ m, n = m + 1 := ⟨n - 1, by omega⟩
  induction fields generalizing f n with
  | nil =>
    obtain ⟨g, hg, hdeep⟩ := hdeep
    obtain rfl := List.mem_singleton.mp hg
    exact (scanField_overflows (hkey g hg) (hstart g hg) hdeep [] rest).bind _
  | cons g gs ih =>
    have hkeyf := hkey f List.mem_cons_self
    have hstartf := hstart f List.mem_cons_self
    by_cases hf : Overflows I ascii value f.2
    · exact (scanField_overflows hkeyf hstartf hf (g :: gs) rest).bind _
    · have hback := (hread f List.mem_cons_self).resolve_right hf
      have htail : ∃ h ∈ g :: gs, Overflows I ascii value h.2 := by
        obtain ⟨h, hh, hdeeph⟩ := hdeep
        exact ⟨h, (List.mem_cons.mp hh).resolve_left fun e => hf (e ▸ hdeeph), hdeeph⟩
      obtain ⟨n, rfl⟩ : ∃ m, n = m + 1 := ⟨n - 1, by simp at hn; omega⟩
      rw [scanFields_cons hkeyf hback hstartf]
      exact (ih (fun h hh => hkey h (List.mem_cons_of_mem _ hh))
        (fun h hh => hread h (List.mem_cons_of_mem _ hh))
        (fun h hh => hstart h (List.mem_cons_of_mem _ hh)) htail n (by simpa using hn)).bind _

theorem scanArray_overflows {xs : List Json}
    (hread : ∀ y ∈ xs, ReadsBack I ascii value y ∨ Overflows I ascii value y)
    (hstart : ∀ y ∈ xs, Starts I ascii y) (hdeep : ∃ y ∈ xs, Overflows I ascii value y)
    (rest : PyStr) : Recurses (scanArray value ((render I ascii (arr xs)).tail ++ rest)) := by
  cases xs with
  | nil =>
    obtain ⟨y, hy, -⟩ := hdeep
    cases hy
  | cons x xs =>
    obtain ⟨n, hn, harray⟩ := scanArray_cons value (hstart x List.mem_cons_self) xs rest
    rw [harray]
    exact (scanItems_overflows hread hstart hdeep rest hn).bind _

theorem scanObject_overflows {fields : List (PyStr × Json)}
    (hkey : ∀ f ∈ fields, readableString ascii f.1 = true)
    (hread : ∀ f ∈ fields, ReadsBack I ascii value f.2 ∨ Overflows I ascii value f.2)
    (hstart : ∀ f ∈ fields, Starts I ascii f.2)
    (hdeep : ∃ f ∈ fields, Overflows I ascii value f.2) (room : Nat) (rest : PyStr) :
    Recurses (scanObject H room value ((render I ascii (obj fields)).tail ++ rest)) := by
  cases fields with
  | nil =>
    obtain ⟨f, hf, -⟩ := hdeep
    cases hf
  | cons f fields =>
    obtain ⟨n, hn, hmembers⟩ := scanMembers_cons I ascii value f fields rest
    rw [scanObject, hmembers]
    exact (scanFields_overflows hkey hread hstart hdeep rest hn).bind _

/-- Every field is read, and no level is left for the hook. -/
theorem scanObject_no_room {fields : List (PyStr × Json)}
    (hkey : ∀ f ∈ fields, readableString ascii f.1 = true)
    (hread : ∀ f ∈ fields, ReadsBack I ascii value f.2)
    (hstart : ∀ f ∈ fields, Starts I ascii f.2) (rest : PyStr) :
    Recurses (scanObject H 0 value ((render I ascii (obj fields)).tail ++ rest)) := by
  rw [scanObject, scanMembers_render hkey hread hstart]
  exact ⟨_, rfl, rfl⟩

/-! ## Every value -/

theorem exists_deep_item {n : Nat} {xs : List Json} (h : n < readDepthItems xs) :
    ∃ x ∈ xs, n < x.readDepth := by
  by_contra hall
  simp only [not_exists, not_and, not_lt] at hall
  exact absurd (readDepthItems_le.mpr hall) (not_le.mpr h)

theorem exists_deep_field {n : Nat} {fields : List (PyStr × Json)} (h : n < readDepthFields fields) :
    ∃ f ∈ fields, n < f.2.readDepth := by
  by_contra hall
  simp only [not_exists, not_and, not_lt] at hall
  exact absurd (readDepthFields_le.mpr hall) (not_le.mpr h)

/-- The text of a value that is deeper than the room left is refused. -/
theorem scanValue_overflows (hI : I.Lawful) (v : Json) {m n : Nat} (hs : v.strict = true)
    (he : v.readable ascii = true) (hr : v.refusal m = none) (hd : n < v.readDepth) :
    Overflows I ascii (scanValue I H n) v := by
  induction v using partsInduction generalizing m n with
  | null | bool | int | float | str => exact absurd hd (Nat.not_lt_zero n)
  | arr xs ih =>
    intro rest _
    have hshape : render I ascii (arr xs) = openBracket :: (render I ascii (arr xs)).tail := by
      cases xs <;> rfl
    rw [hshape]
    rcases m with _ | m
    · simp [refusal] at hr
    rcases n with _ | n
    · exact ⟨_, rfl, rfl⟩
    simp only [strict, strictItems_iff] at hs
    simp only [readable, stringsAll, stringsAllItems_iff] at he
    simp only [refusal, refusalItems_eq_none] at hr
    have hover : ∀ y ∈ xs, n < y.readDepth → Overflows I ascii (scanValue I H n) y :=
      fun y hy => ih y hy (hs y hy) (he y hy) (hr y hy)
    obtain ⟨x, hx, hdeep⟩ := exists_deep_item (Nat.lt_of_succ_lt_succ hd)
    refine scanArray_overflows (fun y hy => ?_) (fun y hy => starts_of_readable (he y hy))
      ⟨x, hx, hover x hx hdeep⟩ rest
    exact (le_or_gt y.readDepth n).imp
      (scanValue_render hI y m n (hs y hy) (he y hy) (hr y hy)) (hover y hy)
  | obj fields ih =>
    intro rest _
    have hshape : render I ascii (obj fields) = openBrace :: (render I ascii (obj fields)).tail := by
      cases fields <;> rfl
    rw [hshape]
    rcases m with _ | m
    · simp [refusal] at hr
    rcases n with _ | n
    · exact ⟨_, rfl, rfl⟩
    simp only [strict, Bool.and_eq_true, decide_eq_true_eq, strictFields_iff] at hs
    simp only [readable, stringsAll, stringsAllFields_iff] at he
    replace hr := refusalFields_eq_none.mp (refusal_obj.mp hr).2
    have hkey : ∀ f ∈ fields, readableString ascii f.1 = true := fun f hf => (he f hf).1
    have hstart : ∀ f ∈ fields, Starts I ascii f.2 := fun f hf => starts_of_readable (he f hf).2
    have hback : ∀ f ∈ fields, f.2.readDepth ≤ n → ReadsBack I ascii (scanValue I H n) f.2 :=
      fun f hf => scanValue_render hI f.2 m n (hs.2 f hf) (he f hf).2 (hr f hf)
    have hover : ∀ f ∈ fields, n < f.2.readDepth → Overflows I ascii (scanValue I H n) f.2 :=
      fun f hf => ih f hf (hs.2 f hf) (he f hf).2 (hr f hf)
    rcases le_or_gt (readDepthFields fields) n with hflat | hdeep
    · obtain rfl : n = 0 := by
        simp only [readDepth, Nat.add_lt_add_iff_right, lt_max_iff] at hd
        omega
      exact scanObject_no_room hkey (fun f hf => hback f hf (readDepthFields_le.mp hflat f hf))
        hstart rest
    · obtain ⟨g, hg, hdg⟩ := exists_deep_field hdeep
      exact scanObject_overflows hkey
        (fun f hf => (le_or_gt f.2.readDepth n).imp (hback f hf) (hover f hf)) hstart
        ⟨g, hg, hover g hg hdg⟩ n rest

/-- A printed value that is deeper than `json.loads` recurses is refused, whatever white space
follows it. -/
theorem decode_overflows (hI : I.Lawful) {v : Json} {m : Nat} (hs : v.strict = true)
    (he : v.readable ascii = true) (hr : v.refusal m = none) (hd : I.loadsNesting < v.readDepth)
    {tail : PyStr} (htail : skipSpace tail = []) :
    Recurses (decode I H (render I ascii v ++ tail)) := by
  have hover : Overflows I ascii (scanValue I H I.loadsNesting) v :=
    scanValue_overflows hI v hs he hr hd
  have hstarts : Starts I ascii v := starts_of_readable he
  rw [decode, hstarts.skipSpace tail]
  exact (hover tail (numberEnds_of_space htail)).bind _

theorem loads_overflows (hI : I.Lawful) {v : Json} {m : Nat} (hs : v.strict = true)
    (he : v.encodable = true) (hr : v.refusal m = none) (hd : I.loadsNesting < v.readDepth)
    {tail : PyStr} (htail : skipSpace tail = []) :
    Recurses (loads I H (render I false v ++ tail)) := by
  rw [loads_eq_decode (readable_of_encodable he)]
  exact decode_overflows hI hs (readable_of_encodable he) hr hd htail

end EdgeFort.Json
