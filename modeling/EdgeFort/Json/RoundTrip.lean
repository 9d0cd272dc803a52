/-
Printed JSON text reads back as the value it was printed from.

The argument is by the structure of the value.  A container hands the reader of
its parts down, so the loops over items and fields are treated once, for any
reader that reads each part back.
-/
import EdgeFort.Json.Text

namespace EdgeFort

namespace Json

mutual
/-- Whether the floats of a value are finite and its strings, keys included, have a
property. -/
def stringsAll (p : PyStr → Bool) : Json → Bool
  | float x => x.isFinite64
  | str s => p s
  | arr xs => stringsAllItems p xs
  | obj xs => stringsAllFields p xs
  | _ => true

def stringsAllItems (p : PyStr → Bool) : List Json → Bool
  | [] => true
  | x :: xs => x.stringsAll p && stringsAllItems p xs

def stringsAllFields (p : PyStr → Bool) : List (PyStr × Json) → Bool
  | [] => true
  | (k, x) :: xs => p k && x.stringsAll p && stringsAllFields p xs
end

/-- Whether a printed value reads back: in ASCII mode no string of it holds a pair
of surrogates. -/
def readable (ascii : Bool) (v : Json) : Bool := v.stringsAll (readableString ascii)

mutual
theorem stringsAll_of_encodable {p : PyStr → Bool} (hp : ∀ s, utf8Encodable s = true → p s = true) :
    ∀ v : Json, v.encodable = true → v.stringsAll p = true
  | null, _ | bool _, _ | int _, _ => rfl
  | float _, h => h
  | str s, h => hp s h
  | arr xs, h => stringsAllItems_of_encodable hp xs h
  | obj xs, h => stringsAllFields_of_encodable hp xs h

theorem stringsAllItems_of_encodable {p : PyStr → Bool}
    (hp : ∀ s, utf8Encodable s = true → p s = true) :
    ∀ xs : List Json, encodableItems xs = true → stringsAllItems p xs = true
  | [], _ => rfl
  | x :: xs, h => by
    simp only [encodableItems, Bool.and_eq_true] at h
    rw [stringsAllItems, stringsAll_of_encodable hp x h.1, stringsAllItems_of_encodable hp xs h.2]
    rfl

theorem stringsAllFields_of_encodable {p : PyStr → Bool}
    (hp : ∀ s, utf8Encodable s = true → p s = true) :
    ∀ xs : List (PyStr × Json), encodableFields xs = true → stringsAllFields p xs = true
  | [], _ => rfl
  | (k, x) :: xs, h => by
    simp only [encodableFields, Bool.and_eq_true] at h
    rw [stringsAllFields, hp k h.1.1, stringsAll_of_encodable hp x h.1.2,
      stringsAllFields_of_encodable hp xs h.2]
    rfl
end

theorem readable_of_encodable {ascii : Bool} {v : Json} (h : v.encodable = true) :
    v.readable ascii = true :=
  stringsAll_of_encodable (fun _ => readableString_of_utf8Encodable) v h

mutual
/-- How many levels of recursion `json.loads` takes for the text of a value: one for each
container inside another, and one more for the hook that builds an object. -/
def readDepth : Json → Nat
  | arr xs => readDepthItems xs + 1
  | obj fields => max (readDepthFields fields) 1 + 1
  | _ => 0

def readDepthItems : List Json → Nat
  | [] => 0
  | x :: xs => max x.readDepth (readDepthItems xs)

def readDepthFields : List (PyStr × Json) → Nat
  | [] => 0
  | (_, x) :: fields => max x.readDepth (readDepthFields fields)
end

end Json

/-- A finite float reads back from its text. -/
def Interpreter.Lawful (I : Interpreter) : Prop :=
  ∀ x : PyFloat, x.isFinite64 = true → I.readFloat (I.reprFloat x) = x

/-- Distinct finite floats print differently. -/
def Interpreter.PrintsApart (I : Interpreter) : Prop :=
  ∀ x y : PyFloat, x.isFinite64 = true → y.isFinite64 = true → I.reprFloat x = I.reprFloat y →
    x = y

theorem Interpreter.Lawful.printsApart {I : Interpreter} (hI : I.Lawful) : I.PrintsApart :=
  fun x y hx hy h => (hI x hx).symm.trans (h ▸ hI y hy)

namespace Json

variable {I : Interpreter} {H : Hooks} {ascii : Bool}

/-! ## The hook of an object -/

theorem firstDuplicate_eq_none {seen ks : List PyStr} :
    firstDuplicate seen ks = none ↔ ks.Nodup ∧ ∀ k ∈ ks, k ∉ seen := by
  induction ks generalizing seen with
  | nil => simp [firstDuplicate]
  | cons k ks ih =>
    by_cases h : k ∈ seen
    · simp [firstDuplicate, h]
    · simp only [firstDuplicate, if_neg h, ih, List.nodup_cons, List.mem_cons, not_or,
        forall_eq_or_imp]
      constructor
      · rintro ⟨hnd, hks⟩
        exact ⟨⟨fun hk => (hks k hk).1 rfl, hnd⟩, h, fun k' hk' => (hks k' hk').2⟩
      · rintro ⟨⟨hk, hnd⟩, -, hks⟩
        exact ⟨hnd, fun k' hk' => ⟨fun e => hk (e ▸ hk'), hks k' hk'⟩⟩

theorem buildObject_ok {fields : List (PyStr × Json)} (h : (fields.map Prod.fst).Nodup) :
    buildObject H fields = .ok (obj fields) := by
  have hnone := firstDuplicate_eq_none.mpr ⟨h, fun k _ => List.not_mem_nil (a := k)⟩
  rw [buildObject, hnone]

theorem buildObject_eq_ok {fields : List (PyStr × Json)} {v : Json} :
    buildObject H fields = .ok v ↔ (fields.map Prod.fst).Nodup ∧ v = obj fields := by
  constructor
  · intro h
    unfold buildObject at h
    split at h
    · cases h
    · rename_i hnone
      exact ⟨(firstDuplicate_eq_none.mp hnone).1, (Except.ok.inj h).symm⟩
  · rintro ⟨hnd, rfl⟩
    exact buildObject_ok hnd

theorem callHook_eq_ok {α : Type} {room : Nat} {during : PyStr} {answer : Except PyError α}
    {v : α} : callHook room during answer = .ok v ↔ 0 < room ∧ answer = .ok v := by
  rcases room with _ | _ | room <;> cases answer <;> simp [callHook]

/-! ## Loops over parts that read back -/

/-- A reader reads a value back, up to a text that cannot extend a number. -/
def ReadsBack (I : Interpreter) (ascii : Bool) (value : PyStr → Except PyError (Json × PyStr))
    (v : Json) : Prop :=
  ∀ rest, numberEnds rest = true → value (render I ascii v ++ rest) = .ok (v, rest)

theorem skipSpace_cons {c : CodePoint} {s : PyStr} (h : isSpace c = false) :
    skipSpace (c :: s) = c :: s := by
  simp [skipSpace, h]

theorem numberEnds_renderItems (I : Interpreter) (ascii : Bool) (xs : List Json) (rest : PyStr) :
    numberEnds (renderItems I ascii xs ++ rest) = true := by
  cases xs <;> rfl

theorem numberEnds_renderFields (I : Interpreter) (ascii : Bool)
    (fields : List (PyStr × Json)) (rest : PyStr) :
    numberEnds (renderFields I ascii fields ++ rest) = true := by
  cases fields <;> rfl

variable {value : PyStr → Except PyError (Json × PyStr)}

/-- What a value's text starts with is no space, no byte order mark and no end of an
array. -/
def Starts (I : Interpreter) (ascii : Bool) (v : Json) : Prop :=
  ∃ c t, render I ascii v = c :: t ∧ isSpace c = false ∧ c ≠ chr 0xFEFF ∧ c ≠ closeBracket

theorem Starts.skipSpace {v : Json} (h : Starts I ascii v) (rest : PyStr) :
    skipSpace (render I ascii v ++ rest) = render I ascii v ++ rest := by
  obtain ⟨c, t, hr, hc, -⟩ := h
  rw [hr]
  exact skipSpace_cons hc

/-- One round of the loop over items: an item is read back, and the loop goes on. -/
theorem scanItems_cons {x y : Json} (hread : ReadsBack I ascii value x) (hstart : Starts I ascii y)
    (ys : List Json) (rest : PyStr) (n : Nat) :
    scanItems value (n + 1) (render I ascii x ++ (renderItems I ascii (y :: ys) ++ rest)) = (do
      let (xs, rest) ← scanItems value n (render I ascii y ++ (renderItems I ascii ys ++ rest))
      return (x :: xs, rest)) := by
  have hx := hread _ (numberEnds_renderItems I ascii (y :: ys) rest)
  have hy := hstart.skipSpace (renderItems I ascii ys ++ rest)
  have hcomma : skipSpace (renderItems I ascii (y :: ys) ++ rest) =
      comma :: (render I ascii y ++ (renderItems I ascii ys ++ rest)) := by
    rw [renderItems, List.cons_append, List.append_assoc]
    exact skipSpace_cons rfl
  have hne : comma ≠ closeBracket := by decide
  rw [scanItems, hx, Effect.ok_bind]
  simp only [hcomma, if_neg hne, if_true, hy]

theorem scanItems_render {xs : List Json} {x : Json}
    (hread : ∀ y ∈ x :: xs, ReadsBack I ascii value y)
    (hstart : ∀ y ∈ x :: xs, Starts I ascii y) (rest : PyStr) {n : Nat} (hn : xs.length < n) :
    scanItems value n (render I ascii x ++ (renderItems I ascii xs ++ rest)) =
      .ok (x :: xs, rest) := by
  obtain ⟨n, rfl⟩ : ∃ m, n = m + 1 := ⟨n - 1, by omega⟩
  induction xs generalizing x n with
  | nil =>
    have hx := hread x List.mem_cons_self _ (numberEnds_renderItems I ascii [] rest)
    rw [scanItems, hx]
    rfl
  | cons y ys ih =>
    obtain ⟨n, rfl⟩ : ∃ m, n = m + 1 := ⟨n - 1, by simp at hn; omega⟩
    have hys := ih (fun z hz => hread z (List.mem_cons_of_mem _ hz))
      (fun z hz => hstart z (List.mem_cons_of_mem _ hz)) n (by simpa using hn)
    rw [scanItems_cons (hread x List.mem_cons_self) (hstart y (by simp)), hys]
    rfl

/-- The text of an item, up to its value. -/
theorem scanField_value {k : PyStr} {x : Json} (hk : readableString ascii k = true)
    (hstart : Starts I ascii x) (rest : PyStr) :
    scanField value (renderString ascii k ++ colon :: (render I ascii x ++ rest)) = (do
      let (x, rest) ← value (render I ascii x ++ rest)
      return ((k, x), rest)) := by
  have hkey : scanString (escapeString ascii k ++ quote :: colon :: (render I ascii x ++ rest)) = _ :=
    scanString_renderString hk _
  have hspace : skipSpace (colon :: (render I ascii x ++ rest)) =
      colon :: (render I ascii x ++ rest) := skipSpace_cons rfl
  simp only [renderString, List.cons_append, List.append_assoc, List.nil_append, scanField,
    if_true, hkey, Effect.ok_bind, hspace, hstart.skipSpace]

theorem scanField_render {k : PyStr} {x : Json} (hk : readableString ascii k = true)
    (hread : ReadsBack I ascii value x) (hstart : Starts I ascii x) {rest : PyStr}
    (hrest : numberEnds rest = true) :
    scanField value (renderString ascii k ++ colon :: (render I ascii x ++ rest)) =
      .ok ((k, x), rest) := by
  rw [scanField_value hk hstart, hread rest hrest]
  rfl

/-- The text of the first item of a list and of those after it. -/
def itemsText (I : Interpreter) (ascii : Bool) (f : PyStr × Json) (fields : List (PyStr × Json))
    (rest : PyStr) : PyStr :=
  renderString ascii f.1 ++ colon :: (render I ascii f.2 ++ (renderFields I ascii fields ++ rest))

theorem scanFields_cons {f g : PyStr × Json} (hkey : readableString ascii f.1 = true)
    (hread : ReadsBack I ascii value f.2) (hstart : Starts I ascii f.2)
    (gs : List (PyStr × Json)) (rest : PyStr) (n : Nat) :
    scanFields value (n + 1) (itemsText I ascii f (g :: gs) rest) = (do
      let (fields, rest) ← scanFields value n (itemsText I ascii g gs rest)
      return (f :: fields, rest)) := by
  have hf := scanField_render hkey hread hstart (numberEnds_renderFields I ascii (g :: gs) rest)
  have hcomma : skipSpace (renderFields I ascii (g :: gs) ++ rest) =
      comma :: itemsText I ascii g gs rest := by
    rw [renderFields, itemsText]
    simp only [List.cons_append, List.append_assoc]
    exact skipSpace_cons rfl
  have hquote : skipSpace (itemsText I ascii g gs rest) = itemsText I ascii g gs rest :=
    skipSpace_cons rfl
  have hne : comma ≠ closeBrace := by decide
  rw [itemsText, scanFields, hf, Effect.ok_bind]
  simp only [hcomma, if_neg hne, if_true, hquote]

theorem scanFields_render {fields : List (PyStr × Json)} {f : PyStr × Json}
    (hkey : ∀ g ∈ f :: fields, readableString ascii g.1 = true)
    (hread : ∀ g ∈ f :: fields, ReadsBack I ascii value g.2)
    (hstart : ∀ g ∈ f :: fields, Starts I ascii g.2) (rest : PyStr) {n : Nat}
    (hn : fields.length < n) :
    scanFields value n (itemsText I ascii f fields rest) = .ok (f :: fields, rest) := by
  obtain ⟨n, rfl⟩ : ∃ m, n = m + 1 := ⟨n - 1, by omega⟩
  induction fields generalizing f n with
  | nil =>
    have hf := scanField_render (hkey f List.mem_cons_self) (hread f List.mem_cons_self)
      (hstart f List.mem_cons_self) (numberEnds_renderFields I ascii [] rest)
    rw [itemsText, scanFields, hf]
    rfl
  | cons g gs ih =>
    obtain ⟨n, rfl⟩ : ∃ m, n = m + 1 := ⟨n - 1, by simp at hn; omega⟩
    have hgs := ih (fun h hh => hkey h (List.mem_cons_of_mem _ hh))
      (fun h hh => hread h (List.mem_cons_of_mem _ hh))
      (fun h hh => hstart h (List.mem_cons_of_mem _ hh)) n (by simpa using hn)
    rw [scanFields_cons (hkey f List.mem_cons_self) (hread f List.mem_cons_self)
      (hstart f List.mem_cons_self), hgs]
    rfl

/-! ## Scalars -/

theorem dropPrefix?_cons_ne {c d : CodePoint} (h : c ≠ d) (s w : PyStr) :
    (c :: s).dropPrefix? (d :: w) = none := by
  simp [List.dropPrefix?, h]

/-- What a number starts with starts no other kind of value. -/
theorem scanConstant_number {c : CodePoint} (h : isDigit c = true ∨ c.val = 0x2D) (s : PyStr) :
    scanConstant (c :: s) = none := by
  have hne : ∀ n : Nat, 0x39 < n → n < 0x110000 → c ≠ chr n := by
    rintro n hout hn rfl
    have hval := h.imp_left isDigit_val
    rw [chr_val hn] at hval
    omega
  have hn : (c :: s).dropPrefix? (py "null") = none :=
    dropPrefix?_cons_ne (hne 0x6E (by omega) (by omega)) s _
  have ht : (c :: s).dropPrefix? (py "true") = none :=
    dropPrefix?_cons_ne (hne 0x74 (by omega) (by omega)) s _
  have hf : (c :: s).dropPrefix? (py "false") = none :=
    dropPrefix?_cons_ne (hne 0x66 (by omega) (by omega)) s _
  simp only [scanConstant, hn, ht, hf, Option.map_none, Option.or_none]

theorem scanNonFinite_literal {l : Literal} (h : l.WellFormed) (rest : PyStr) :
    scanNonFinite (l.text ++ rest) = none := by
  obtain ⟨d, ds, hl, hd⟩ := h.whole_cons
  have hval := isDigit_val hd
  have hne : ∀ n : Nat, (n < 0x30 ∨ 0x39 < n) → n < 0x110000 → d ≠ chr n := by
    rintro n hout hn rfl
    rw [chr_val hn] at hval
    omega
  have hminus : ∀ c : CodePoint, c ≠ chr 0x49 →
      ∀ s : PyStr, (chr 0x2D :: c :: s).dropPrefix? (py "-Infinity") = none :=
    fun c hc s => dropPrefix?_cons_ne hc s _
  have hword : ∀ (c : CodePoint) (s : PyStr), c ≠ chr 0x4E → c ≠ chr 0x49 →
      (c :: s).dropPrefix? (py "NaN") = none ∧ (c :: s).dropPrefix? (py "Infinity") = none :=
    fun c s hN hI => ⟨dropPrefix?_cons_ne hN s _, dropPrefix?_cons_ne hI s _⟩
  rcases h.sign with hs | hs
  · obtain ⟨hnan, hinf⟩ := hword d (ds ++ l.fraction ++ l.exponent ++ rest)
      (hne 0x4E (by omega) (by omega)) (hne 0x49 (by omega) (by omega))
    have hneg : (d :: (ds ++ l.fraction ++ l.exponent ++ rest)).dropPrefix? (py "-Infinity") =
        none := dropPrefix?_cons_ne (hne 0x2D (by omega) (by omega)) _ _
    simp only [List.append_assoc] at hnan hinf hneg
    simp [scanNonFinite, Literal.text, hs, hl, hnan, hinf, hneg]
  · obtain ⟨hnan, hinf⟩ := hword (chr 0x2D) (d :: (ds ++ l.fraction ++ l.exponent ++ rest))
      (by decide) (by decide)
    have hneg := hminus d (hne 0x49 (by omega) (by omega))
      (ds ++ l.fraction ++ l.exponent ++ rest)
    simp only [List.append_assoc] at hnan hinf hneg
    simp [scanNonFinite, Literal.text, hs, hl, hnan, hinf, hneg]

variable {room : Nat} {inner : Option (PyStr → Except PyError (Json × PyStr))}

theorem scanOnce_literal {l : Literal} (h : l.WellFormed) (rest : PyStr) :
    scanOnce I H room inner (l.text ++ rest) = scanNumber I (l.text ++ rest) := by
  have hinf := scanNonFinite_literal h rest
  obtain ⟨c, t, ht, hc⟩ := h.text_cons
  have hconst := scanConstant_number hc (t ++ rest)
  have hval := hc.imp_left isDigit_val
  have hne : ∀ n : Nat, (n < 0x2D ∨ 0x39 < n) → n < 0x110000 → c ≠ chr n := by
    rintro n hout hn rfl
    rw [chr_val hn] at hval
    omega
  have hquote : c ≠ quote := hne 0x22 (by omega) (by omega)
  have hbrace : c ≠ openBrace := hne 0x7B (by omega) (by omega)
  have hbracket : c ≠ openBracket := hne 0x5B (by omega) (by omega)
  rw [ht, List.cons_append] at hinf ⊢
  simp only [scanOnce, if_neg hquote, if_neg hbrace, if_neg hbracket, hconst, hinf]

theorem scanOnce_int {i : Int} (hi : (decimal i.natAbs).length ≤ maxStrDigits) {rest : PyStr}
    (hrest : numberEnds rest = true) :
    scanOnce I H room inner (intRepr i ++ rest) = .ok (int i, rest) := by
  have hscan := scanLiteral_text (intLiteral_wellFormed i) hrest
  have hlen : ¬maxStrDigits < (intLiteral i).whole.length := Nat.not_lt.mpr hi
  have hfloat : (intLiteral i).isFloat = false := rfl
  rw [← intLiteral_text, scanOnce_literal (intLiteral_wellFormed i), scanNumber, hscan]
  simp only [hfloat, Bool.false_eq_true, if_false, if_neg hlen, intValue_intLiteral]

theorem scanOnce_float (hI : I.Lawful) {x : PyFloat} (hx : x.isFinite64 = true) {rest : PyStr}
    (hrest : numberEnds rest = true) :
    scanOnce I H room inner (I.reprFloat x ++ rest) = .ok (float x, rest) := by
  obtain ⟨l, hl, hfloat, htext⟩ := I.repr_literal x hx
  have hread := hI x hx
  rw [htext] at hread ⊢
  rw [scanOnce_literal hl, scanNumber, scanLiteral_text hl hrest]
  simp only [hfloat, if_true, hread]

theorem dropPrefix?_append (w s : PyStr) : (w ++ s).dropPrefix? w = some s :=
  List.dropPrefix?_eq_some_iff.mpr ⟨w, rfl, beq_self_eq_true w⟩

theorem scanOnce_word {w rest : PyStr} {p : Json × PyStr}
    (hw : ∃ c t, w = c :: t ∧ c ≠ quote ∧ c ≠ openBrace ∧ c ≠ openBracket)
    (h : scanConstant (w ++ rest) = some p) : scanOnce I H room inner (w ++ rest) = .ok p := by
  obtain ⟨c, t, rfl, hq, hbrace, hbracket⟩ := hw
  rw [List.cons_append] at h ⊢
  simp only [scanOnce, if_neg hq, if_neg hbrace, if_neg hbracket, h]

theorem scanOnce_null (rest : PyStr) :
    scanOnce I H room inner (render I ascii null ++ rest) = .ok (null, rest) := by
  have hdrop := dropPrefix?_append (py "null") rest
  rw [render]
  refine scanOnce_word ⟨_, _, rfl, by decide, by decide, by decide⟩ ?_
  simp only [scanConstant, hdrop, Option.map_some, Option.some_or]

theorem scanOnce_bool (b : Bool) (rest : PyStr) :
    scanOnce I H room inner (render I ascii (bool b) ++ rest) = .ok (bool b, rest) := by
  cases b with
  | true =>
    have hdrop := dropPrefix?_append (py "true") rest
    have hnull : (py "true" ++ rest).dropPrefix? (py "null") = none :=
      dropPrefix?_cons_ne (by decide) _ _
    rw [render]
    refine scanOnce_word ⟨_, _, rfl, by decide, by decide, by decide⟩ ?_
    simp only [scanConstant, hdrop, hnull, Option.map_some, Option.map_none, Option.none_or,
      Option.some_or]
  | false =>
    have hdrop := dropPrefix?_append (py "false") rest
    have hnull : (py "false" ++ rest).dropPrefix? (py "null") = none :=
      dropPrefix?_cons_ne (by decide) _ _
    have htrue : (py "false" ++ rest).dropPrefix? (py "true") = none :=
      dropPrefix?_cons_ne (by decide) _ _
    rw [render]
    refine scanOnce_word ⟨_, _, rfl, by decide, by decide, by decide⟩ ?_
    simp only [scanConstant, hdrop, hnull, htrue, Option.map_some, Option.map_none,
      Option.none_or]

theorem scanOnce_str {s : PyStr} (hs : readableString ascii s = true) (rest : PyStr) :
    scanOnce I H room inner (renderString ascii s ++ rest) = .ok (str s, rest) := by
  have hscan : scanString (escapeString ascii s ++ quote :: rest) = _ :=
    scanString_renderString hs rest
  simp only [renderString, List.cons_append, List.append_assoc, List.nil_append, scanOnce,
    if_true, hscan]
  rfl

/-! ## Every value -/

/-- No printed value starts with a space or ends an array. -/
theorem starts_of_readable {v : Json} (hv : v.readable ascii = true) :
    Starts I ascii v := by
  have hliteral : ∀ l : Literal, l.WellFormed → ∃ c t, l.text = c :: t ∧
      isSpace c = false ∧ c ≠ chr 0xFEFF ∧ c ≠ closeBracket := by
    intro l hl
    obtain ⟨c, t, ht, hc⟩ := hl.text_cons
    have hval := hc.imp_left isDigit_val
    have hne : ∀ n : Nat, 0x39 < n → n < 0x110000 → c ≠ chr n := by
      rintro n hout hn rfl
      rw [chr_val hn] at hval
      omega
    refine ⟨c, t, ht, ?_, hne _ (by omega) (by omega), hne _ (by omega) (by omega)⟩
    simp only [isSpace, Bool.or_eq_false_iff, decide_eq_false_iff_not]
    omega
  match v with
  | null => exact ⟨_, _, rfl, by decide, by decide, by decide⟩
  | bool true => exact ⟨_, _, rfl, by decide, by decide, by decide⟩
  | bool false => exact ⟨_, _, rfl, by decide, by decide, by decide⟩
  | int i =>
    rw [Starts, render, ← intLiteral_text]
    exact hliteral _ (intLiteral_wellFormed i)
  | float x =>
    obtain ⟨l, hl, -, htext⟩ := I.repr_literal x (by simpa [readable, stringsAll] using hv)
    rw [Starts, render, htext]
    exact hliteral l hl
  | str s => exact ⟨_, _, rfl, by decide, by decide, by decide⟩
  | arr [] => exact ⟨_, _, rfl, by decide, by decide, by decide⟩
  | arr (x :: xs) => exact ⟨_, _, rfl, by decide, by decide, by decide⟩
  | obj [] => exact ⟨_, _, rfl, by decide, by decide, by decide⟩
  | obj ((k, x) :: fields) => exact ⟨_, _, rfl, by decide, by decide, by decide⟩

/-- The items of an array, after its bracket. -/
theorem scanArray_cons (value : PyStr → Except PyError (Json × PyStr)) {x : Json}
    (hstart : Starts I ascii x) (xs : List Json) (rest : PyStr) :
    ∃ n, xs.length < n ∧ scanArray value ((render I ascii (arr (x :: xs))).tail ++ rest) = (do
      let (ys, rest) ← scanItems value n (render I ascii x ++ (renderItems I ascii xs ++ rest))
      return (arr ys, rest)) := by
  obtain ⟨c, t, hr, hc, -, hne⟩ := hstart
  have hlen : ∀ ys : List Json, ys.length ≤ (renderItems I ascii ys).length := by
    intro ys
    induction ys with
    | nil => exact Nat.zero_le _
    | cons y ys ih =>
      rw [renderItems, List.length_cons, List.length_cons, List.length_append]
      omega
  have hxs := hlen xs
  refine ⟨(t ++ (renderItems I ascii xs ++ rest)).length + 1, ?_, ?_⟩
  · simp only [List.length_append]
    omega
  · simp only [render, List.tail_cons, hr, List.cons_append, List.append_assoc]
    rw [scanArray, skipSpace_cons hc]
    simp only [if_neg hne]

theorem scanArray_render {xs : List Json} (hread : ∀ y ∈ xs, ReadsBack I ascii value y)
    (hstart : ∀ y ∈ xs, Starts I ascii y) (rest : PyStr) :
    scanArray value ((render I ascii (arr xs)).tail ++ rest) = .ok (arr xs, rest) := by
  cases xs with
  | nil => rfl
  | cons x xs =>
    obtain ⟨n, hn, harray⟩ := scanArray_cons value (hstart x List.mem_cons_self) xs rest
    rw [harray, scanItems_render hread hstart rest hn]
    rfl

/-- The items of an object, after its brace. -/
theorem scanMembers_cons (I : Interpreter) (ascii : Bool)
    (value : PyStr → Except PyError (Json × PyStr)) (f : PyStr × Json)
    (fields : List (PyStr × Json)) (rest : PyStr) :
    ∃ n, fields.length < n ∧
      scanMembers value ((render I ascii (obj (f :: fields))).tail ++ rest) =
        scanFields value n (itemsText I ascii f fields rest) := by
  have hlen : ∀ gs : List (PyStr × Json), gs.length ≤ (renderFields I ascii gs).length := by
    intro gs
    induction gs with
    | nil => exact Nat.zero_le _
    | cons g gs ih =>
      rw [renderFields]
      simp only [List.length_cons, List.length_append]
      omega
  have hfs := hlen fields
  have htext : (render I ascii (obj (f :: fields))).tail ++ rest = itemsText I ascii f fields rest := by
    rw [render, List.tail_cons, itemsText, List.append_assoc, List.cons_append, List.append_assoc]
  obtain ⟨t, ht⟩ : ∃ t, itemsText I ascii f fields rest = quote :: t := ⟨_, rfl⟩
  have hspace : skipSpace (quote :: t) = quote :: t := skipSpace_cons rfl
  have hne : quote ≠ closeBrace := by decide
  refine ⟨t.length + 1, ?_, ?_⟩
  · have hcount := congrArg List.length ht
    simp only [itemsText, renderString, List.length_append, List.length_cons] at hcount
    omega
  · rw [htext, ht, scanMembers]
    simp only [hspace, if_neg hne]

theorem scanMembers_render {fields : List (PyStr × Json)}
    (hkey : ∀ f ∈ fields, readableString ascii f.1 = true)
    (hread : ∀ f ∈ fields, ReadsBack I ascii value f.2)
    (hstart : ∀ f ∈ fields, Starts I ascii f.2) (rest : PyStr) :
    scanMembers value ((render I ascii (obj fields)).tail ++ rest) = .ok (fields, rest) := by
  cases fields with
  | nil => rfl
  | cons f fields =>
    obtain ⟨n, hn, hmembers⟩ := scanMembers_cons I ascii value f fields rest
    rw [hmembers, scanFields_render hkey hread hstart rest hn]

theorem scanObject_render {fields : List (PyStr × Json)}
    (hkey : ∀ f ∈ fields, readableString ascii f.1 = true)
    (hread : ∀ f ∈ fields, ReadsBack I ascii value f.2)
    (hstart : ∀ f ∈ fields, Starts I ascii f.2) (hnd : (fields.map Prod.fst).Nodup)
    (hroom : 0 < room) (rest : PyStr) :
    scanObject H room value ((render I ascii (obj fields)).tail ++ rest) =
      .ok (obj fields, rest) := by
  have hcall : callHook room "getting the repr of an object" (buildObject H fields) =
      .ok (obj fields) := callHook_eq_ok.mpr ⟨hroom, buildObject_ok hnd⟩
  rw [scanObject, scanMembers_render hkey hread hstart, Effect.ok_bind]
  simp only [hcall]
  rfl

theorem sorts_of_pos {n : Nat} (h : 1 ≤ n) (count : Nat) : sorts n count = true := by
  rw [sorts, decide_eq_true h, Bool.true_or]

theorem sorts_mono {m n count : Nat} (h : sorts m count = true) (hmn : m ≤ n) :
    sorts n count = true := by
  simp only [sorts, Bool.or_eq_true, decide_eq_true_eq] at h ⊢
  omega

theorem refusal_obj {n : Nat} {fields : List (PyStr × Json)} :
    (obj fields).refusal (n + 1) = none ↔
      sorts n fields.length = true ∧ refusalFields n fields = none := by
  rw [refusal]
  by_cases h : sorts n fields.length = true
  · rw [if_pos h]
    exact (and_iff_right h).symm
  · rw [if_neg h]
    exact iff_of_false (Option.some_ne_none _) fun h' => h h'.1

mutual
/-- A value that can be printed reads back as itself: no object repeats a key, its
parts are readable, `dumps` does not refuse it, and `loads` has room for its depth. -/
theorem scanValue_render (hI : I.Lawful) : ∀ (v : Json) (m n : Nat), v.strict = true →
    v.readable ascii = true → v.refusal m = none → v.readDepth ≤ n →
    ReadsBack I ascii (scanValue I H n) v
  | null, _, n, _, _, _, _ => fun rest _ => by
    cases n <;> exact scanOnce_null rest
  | bool b, _, n, _, _, _, _ => fun rest _ => by
    cases n <;> exact scanOnce_bool b rest
  | int i, _, n, _, _, hr, _ => fun rest hrest => by
    have hi : (decimal i.natAbs).length ≤ maxStrDigits := by
      by_contra hlt
      simp [refusal, Nat.lt_of_not_le hlt] at hr
    cases n <;> exact scanOnce_int hi hrest
  | float x, _, n, _, he, _, _ => fun rest hrest => by
    have hx : x.isFinite64 = true := by simpa [readable, stringsAll] using he
    cases n <;> exact scanOnce_float hI hx hrest
  | str s, _, n, _, he, _, _ => fun rest _ => by
    have hs : readableString ascii s = true := by simpa [readable, stringsAll] using he
    cases n <;> exact scanOnce_str hs rest
  | arr xs, 0, _, _, _, hr, _ => by simp [refusal] at hr
  | obj fields, 0, _, _, _, hr, _ => by simp [refusal] at hr
  | arr xs, m + 1, 0, _, _, _, hd => by simp [readDepth] at hd
  | obj fields, m + 1, 0, _, _, _, hd => by simp [readDepth] at hd
  | arr xs, m + 1, n + 1, hs, he, hr, hd => fun rest _ => by
    have hxs := scanItems_each hI xs m n (by simpa [strict] using hs)
      (by simpa [readable, stringsAll] using he) (by simpa [refusal] using hr)
      (by simpa [readDepth] using hd)
    have harr := scanArray_render (fun y hy => (hxs y hy).1) (fun y hy => (hxs y hy).2) rest
    have hshape : render I ascii (arr xs) = openBracket :: (render I ascii (arr xs)).tail := by
      cases xs <;> rfl
    rw [hshape]
    exact harr
  | obj fields, m + 1, n + 1, hs, he, hr, hd => fun rest _ => by
    simp only [strict, Bool.and_eq_true, decide_eq_true_eq] at hs
    simp only [readDepth, Nat.add_le_add_iff_right, Nat.max_le] at hd
    have hfs := scanFields_each hI fields m n hs.2 (by simpa [readable, stringsAll] using he)
      (refusal_obj.mp hr).2 hd.1
    have hobj := scanObject_render (H := H) (fun f hf => (hfs f hf).1)
      (fun f hf => (hfs f hf).2.1) (fun f hf => (hfs f hf).2.2) hs.1 hd.2 rest
    have hshape : render I ascii (obj fields) =
        openBrace :: (render I ascii (obj fields)).tail := by
      cases fields <;> rfl
    rw [hshape]
    exact hobj

theorem scanItems_each (hI : I.Lawful) : ∀ (xs : List Json) (m n : Nat), strictItems xs = true →
    stringsAllItems (readableString ascii) xs = true → refusalItems m xs = none →
    readDepthItems xs ≤ n →
    ∀ y ∈ xs, ReadsBack I ascii (scanValue I H n) y ∧ Starts I ascii y
  | [], _, _, _, _, _, _, y, hy => absurd hy List.not_mem_nil
  | x :: xs, m, n, hs, he, hr, hd, y, hy => by
    simp only [strictItems, Bool.and_eq_true] at hs
    simp only [stringsAllItems, Bool.and_eq_true] at he
    simp only [refusalItems, Option.or_eq_none_iff] at hr
    simp only [readDepthItems, Nat.max_le] at hd
    rcases List.mem_cons.mp hy with heq | hy
    · rw [heq]
      exact ⟨scanValue_render hI x m n hs.1 he.1 hr.1 hd.1, starts_of_readable he.1⟩
    · exact scanItems_each hI xs m n hs.2 he.2 hr.2 hd.2 y hy

theorem scanFields_each (hI : I.Lawful) : ∀ (fields : List (PyStr × Json)) (m n : Nat),
    strictFields fields = true → stringsAllFields (readableString ascii) fields = true →
    refusalFields m fields = none → readDepthFields fields ≤ n →
    ∀ f ∈ fields, readableString ascii f.1 = true ∧
      ReadsBack I ascii (scanValue I H n) f.2 ∧ Starts I ascii f.2
  | [], _, _, _, _, _, _, f, hf => absurd hf List.not_mem_nil
  | (k, x) :: fields, m, n, hs, he, hr, hd, f, hf => by
    simp only [strictFields, Bool.and_eq_true] at hs
    simp only [stringsAllFields, Bool.and_eq_true] at he
    simp only [refusalFields, Option.or_eq_none_iff] at hr
    simp only [readDepthFields, Nat.max_le] at hd
    rcases List.mem_cons.mp hf with heq | hf
    · rw [heq]
      exact ⟨he.1.1, scanValue_render hI x m n hs.1 he.1.2 hr.1 hd.1, starts_of_readable he.1.2⟩
    · exact scanFields_each hI fields m n hs.2 he.2 hr.2 hd.2 f hf
end

/-- White space ends a number. -/
theorem numberEnds_of_space {tail : PyStr} (htail : skipSpace tail = []) :
    numberEnds tail = true := by
  cases tail with
  | nil => rfl
  | cons c tail =>
    have hc : isSpace c = true := by
      by_contra h
      rw [skipSpace_cons (Bool.eq_false_iff.mpr h)] at htail
      cases htail
    simp only [isSpace, Bool.or_eq_true, decide_eq_true_eq] at hc
    simp only [numberEnds, isDigit, isExponentMark, Bool.not_eq_true', Bool.or_eq_false_iff,
      Bool.and_eq_false_iff, decide_eq_false_iff_not]
    omega

/-- A printed value is read back, whatever white space follows it. -/
theorem decode_render (hI : I.Lawful) {v : Json} {m : Nat} (hs : v.strict = true)
    (he : v.readable ascii = true) (hr : v.refusal m = none) (hd : v.readDepth ≤ I.loadsNesting)
    {tail : PyStr} (htail : skipSpace tail = []) : decode I H (render I ascii v ++ tail) = .ok v := by
  have hstarts : Starts I ascii v := starts_of_readable he
  have hskip := hstarts.skipSpace tail
  have hreads : ReadsBack I ascii (scanValue I H I.loadsNesting) v :=
    scanValue_render hI v m I.loadsNesting hs he hr hd
  have hscan := hreads tail (numberEnds_of_space htail)
  rw [decode, hskip, hscan, Effect.ok_bind]
  exact if_pos htail

/-- A printed value starts with no byte order mark. -/
theorem loads_eq_decode {v : Json} (he : v.readable ascii = true) (tail : PyStr) :
    loads I H (render I ascii v ++ tail) = decode I H (render I ascii v ++ tail) := by
  have hstarts : Starts I ascii v := starts_of_readable he
  obtain ⟨c, t, ht, -, hne, -⟩ := hstarts
  have hbom : (render I ascii v ++ tail).head? ≠ some (chr 0xFEFF) := by
    rw [ht]
    exact fun e => hne (Option.some.inj e)
  rw [loads, if_neg hbom]

theorem loads_readable (hI : I.Lawful) {v : Json} {m : Nat} (hs : v.strict = true)
    (he : v.readable ascii = true) (hr : v.refusal m = none) (hd : v.readDepth ≤ I.loadsNesting)
    {tail : PyStr} (htail : skipSpace tail = []) : loads I H (render I ascii v ++ tail) = .ok v := by
  rw [loads_eq_decode he]
  exact decode_render hI hs he hr hd htail

theorem loads_render (hI : I.Lawful) {v : Json} {m : Nat} (hs : v.strict = true)
    (he : v.encodable = true) (hr : v.refusal m = none) (hd : v.readDepth ≤ I.loadsNesting)
    {tail : PyStr} (htail : skipSpace tail = []) : loads I H (render I ascii v ++ tail) = .ok v :=
  loads_readable hI hs (readable_of_encodable he) hr hd htail

end Json

/-! ## A lawful interpreter -/

namespace Sample

open Json

/-- A literal that holds numerator and denominator. -/
def fractionLiteral (q : Rat) : Literal where
  sign := (intLiteral q.num).sign
  whole := (intLiteral q.num).whole
  fraction := [chr 0x2E, digit 0]
  exponent := chr 0x65 :: decimal q.den

def zeroPointFive : Literal := ⟨[], [digit 0], [chr 0x2E, digit 5], []⟩

def minusZero : Literal := ⟨[chr 0x2D], [digit 0], [chr 0x2E, digit 0], []⟩

def floatLiteral : PyFloat → Literal
  | .finite q => if q = 1 / 2 then zeroPointFive else fractionLiteral q
  | _ => minusZero

def readLiteral (l : Literal) : PyFloat :=
  let x := .finite (mkRat l.intValue (decimalValue l.exponent.tail))
  if l = zeroPointFive then .finite (1 / 2)
  else if l = minusZero then .negZero
  else if x.isFinite64 then x
  else .inf false

theorem isDigit_of_mem_singleton {d : Nat} (hd : d < 10) :
    ∀ e ∈ [digit d], isDigit e = true := fun _ he =>
  List.mem_singleton.mp he ▸ isDigit_digit hd

theorem fractionLiteral_wellFormed (q : Rat) : (fractionLiteral q).WellFormed where
  sign := (intLiteral_wellFormed q.num).sign
  whole := (intLiteral_wellFormed q.num).whole
  fraction := Or.inr ⟨digit 0, [], rfl, isDigit_of_mem_singleton (by omega)⟩
  exponent := by
    obtain ⟨d, ds, hd, -⟩ := decimal_cons q.den_ne_zero
    refine Or.inr ⟨chr 0x65, [], d, ds, ?_, rfl, Or.inl rfl, fun e he => ?_⟩
    · rw [fractionLiteral, hd]
      rfl
    · exact isDigit_of_mem_decimal (hd ▸ he)

theorem floatLiteral_wellFormed (x : PyFloat) : (floatLiteral x).WellFormed := by
  have hminus : minusZero.WellFormed :=
    ⟨Or.inr rfl, Or.inl rfl, Or.inr ⟨digit 0, [], rfl, isDigit_of_mem_singleton (by omega)⟩,
      Or.inl rfl⟩
  have hhalf : zeroPointFive.WellFormed :=
    ⟨Or.inl rfl, Or.inl rfl, Or.inr ⟨digit 5, [], rfl, isDigit_of_mem_singleton (by omega)⟩,
      Or.inl rfl⟩
  cases x with
  | finite q =>
    simp only [floatLiteral]
    split_ifs
    · exact hhalf
    · exact fractionLiteral_wellFormed q
  | _ => exact hminus

theorem readLiteral_floatLiteral {x : PyFloat} (hx : x.isFinite64 = true) :
    readLiteral (floatLiteral x) = x := by
  cases x with
  | nan => cases hx
  | inf s => cases hx
  | negZero => rfl
  | finite q =>
    by_cases hq : q = 1 / 2
    · simp only [floatLiteral, readLiteral, if_true, hq]
    · have hne : ∀ l : Literal, l.exponent = [] → fractionLiteral q ≠ l := by
        rintro l hl rfl
        cases hl
      have hnum : (fractionLiteral q).intValue = q.num := intValue_intLiteral q.num
      have hden : decimalValue (fractionLiteral q).exponent.tail = q.den := decimalValue_decimal _
      simp only [floatLiteral, if_neg hq, readLiteral, if_neg (hne zeroPointFive rfl),
        if_neg (hne minusZero rfl), hnum, hden, Rat.mkRat_self, hx, if_true]

/-- Floats print apart and read back.  One half prints as it does in Python. -/
def interpreter : Interpreter where
  reprFloat x := (floatLiteral x).text
  readFloat s :=
    match scanLiteral s with
    | some (l, _) => readLiteral l
    | none => .negZero
  dumpsNesting := 900
  loadsNesting := 900
  repr_literal x hx := by
    refine ⟨floatLiteral x, floatLiteral_wellFormed x, ?_, rfl⟩
    cases x with
    | nan => cases hx
    | inf s => cases hx
    | negZero => rfl
    | finite q =>
      simp only [floatLiteral]
      split_ifs <;> rfl
  readFloat_float s := by
    cases scanLiteral s with
    | none => exact Or.inl rfl
    | some p =>
      simp only [readLiteral]
      split_ifs with hhalf hminus hfloat
      · exact Or.inl (by decide +kernel)
      · exact Or.inl rfl
      · exact Or.inl hfloat
      · exact Or.inr ⟨false, rfl⟩
  dumpsNesting_ge := by decide
  loadsNesting_ge := by decide

theorem interpreter_lawful : interpreter.Lawful := by
  intro x hx
  have hscan : scanLiteral ((floatLiteral x).text ++ []) = _ :=
    scanLiteral_text (floatLiteral_wellFormed x) rfl
  rw [List.append_nil] at hscan
  simp only [interpreter, hscan]
  exact readLiteral_floatLiteral hx

/-- The same reader and printer, with no more room than the program needs. -/
def shallowInterpreter : Interpreter :=
  { interpreter with
    dumpsNesting := 4
    loadsNesting := 4
    dumpsNesting_ge := le_refl 4
    loadsNesting_ge := le_refl 4 }

theorem shallowInterpreter_lawful : shallowInterpreter.Lawful := interpreter_lawful

end Sample

end EdgeFort
