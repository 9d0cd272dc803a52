/-
`json.loads` of bytes, and what `json.loads` never returns: an object that
repeats a key, a NaN, or a value nested deeper than it recurses.
-/
import EdgeFort.Json.Canonical

namespace EdgeFort.Json

/-! ## The encoding of a byte string -/

inductive Encoding where
  | utf8
  | utf8Sig
  | utf16 (littleEndian : Bool)
  | utf32 (littleEndian : Bool)
  deriving DecidableEq, Repr

/-- `detect_encoding`, with the bytes left to decode: a byte order mark is
dropped by the codec it selects. -/
def detectEncoding (b : Bytes) : Encoding × Bytes :=
  if [0x00, 0x00, 0xFE, 0xFF].isPrefixOf b then (.utf32 false, b.drop 4)
  else if [0xFF, 0xFE, 0x00, 0x00].isPrefixOf b then (.utf32 true, b.drop 4)
  else if [0xFE, 0xFF].isPrefixOf b then (.utf16 false, b.drop 2)
  else if [0xFF, 0xFE].isPrefixOf b then (.utf16 true, b.drop 2)
  else if [0xEF, 0xBB, 0xBF].isPrefixOf b then (.utf8Sig, b.drop 3)
  else
    match b with
    | b₀ :: b₁ :: b₂ :: b₃ :: _ =>
      if b₀ = 0 then (if b₁ = 0 then (.utf32 false, b) else (.utf16 false, b))
      else if b₁ = 0 then (if b₂ = 0 ∧ b₃ = 0 then (.utf32 true, b) else (.utf16 true, b))
      else (.utf8, b)
    | [b₀, b₁] =>
      if b₀ = 0 then (.utf16 false, b) else if b₁ = 0 then (.utf16 true, b) else (.utf8, b)
    | _ => (.utf8, b)

/-- The 16-bit units of a byte string. -/
def utf16Units (littleEndian : Bool) : Bytes → Option (List Nat)
  | [] => some []
  | [_] => none
  | a :: b :: rest =>
    (utf16Units littleEndian rest).map
      ((if littleEndian then b.toNat * 256 + a.toNat else a.toNat * 256 + b.toNat) :: ·)

/-- Units to code points: a pair of surrogates is joined, a lone one passes. -/
def joinUnits : List Nat → PyStr
  | [] => []
  | [n] => [chr n]
  | n :: m :: rest =>
    if 0xD800 ≤ n ∧ n ≤ 0xDBFF ∧ 0xDC00 ≤ m ∧ m ≤ 0xDFFF then
      chr (0x10000 + (n - 0xD800) * 1024 + (m - 0xDC00)) :: joinUnits rest
    else chr n :: joinUnits (m :: rest)

def utf32Chars (littleEndian : Bool) : Bytes → Option PyStr
  | [] => some []
  | a :: b :: c :: d :: rest =>
    let n := if littleEndian then
        ((d.toNat * 256 + c.toNat) * 256 + b.toNat) * 256 + a.toNat
      else ((a.toNat * 256 + b.toNat) * 256 + c.toNat) * 256 + d.toNat
    if n < 0x110000 then (utf32Chars littleEndian rest).map (chr n :: ·) else none
  | _ => none

/-- `b.decode(detect_encoding(b), 'surrogatepass')` -/
def decodeText (b : Bytes) : Except PyError PyStr :=
  let chars := match detectEncoding b with
    | (.utf8, b) | (.utf8Sig, b) => utf8Chars true b
    | (.utf16 littleEndian, b) => (utf16Units littleEndian b).map joinUnits
    | (.utf32 littleEndian, b) => utf32Chars littleEndian b
  match chars with
  | some s => .ok s
  | none => .error decodeFailure

/-- `json.loads(b)` of bytes. -/
def loadsBytes (I : Interpreter) (H : Hooks) (b : Bytes) : Except PyError Json := do
  let s ← decodeText b
  decode I H s

/-- Bytes that start with two printed ASCII characters are read as UTF-8. -/
theorem detectEncoding_utf8 {a b : UInt8} {rest : Bytes} (ha : a ≠ 0) (hb : b ≠ 0)
    (ha' : a.toNat < 0x80) : detectEncoding (a :: b :: rest) = (.utf8, a :: b :: rest) := by
  have hne : ∀ n : UInt8, 0x80 ≤ n.toNat → (n == a) = false := by
    intro n hn
    simp only [beq_eq_false_iff_ne, ne_eq]
    rintro rfl
    omega
  have hzero : ((0 : UInt8) == a) = false := by
    simp only [beq_eq_false_iff_ne, ne_eq]
    exact fun e => ha e.symm
  have hmark : ∀ w : Bytes, (w.head? = some 0x00 ∨ w.head? = some 0xFF ∨ w.head? = some 0xFE ∨
      w.head? = some 0xEF) → w.isPrefixOf (a :: b :: rest) = false := by
    intro w hw
    cases w with
    | nil => simp at hw
    | cons c w =>
      have hca : (c == a) = false := by
        simp only [List.head?_cons, Option.some.injEq] at hw
        rcases hw with rfl | rfl | rfl | rfl
        · exact hzero
        · exact hne _ (by decide)
        · exact hne _ (by decide)
        · exact hne _ (by decide)
      simp [List.isPrefixOf, hca]
  unfold detectEncoding
  rw [hmark [0x00, 0x00, 0xFE, 0xFF] (by simp), hmark [0xFF, 0xFE, 0x00, 0x00] (by simp),
    hmark [0xFE, 0xFF] (by simp), hmark [0xFF, 0xFE] (by simp), hmark [0xEF, 0xBB, 0xBF] (by simp)]
  simp only [Bool.false_eq_true, if_false]
  rcases rest with _ | ⟨c, _ | ⟨d, rest⟩⟩ <;> simp [ha, hb]

variable {I : Interpreter} {H : Hooks} {value : PyStr → Except PyError (Json × PyStr)}

/-- The bytes of a printed object are read as its text. -/
theorem loadsBytes_eq_decode {f : PyStr × Json} {fields : List (PyStr × Json)} {b : Bytes}
    (hb : utf8Encode (render I false (obj (f :: fields))) = .ok b) :
    loadsBytes I H b = decode I H (render I false (obj (f :: fields)) ++ []) := by
  obtain ⟨hencodable, rfl⟩ := utf8Encode_eq_ok.mp hb
  have htext : decodeText ((render I false (obj (f :: fields))).flatMap utf8EncodeChar) =
      .ok (render I false (obj (f :: fields))) := by
    have hdetect : ∀ rest : Bytes, detectEncoding (0x7B :: 0x22 :: rest) =
        (.utf8, 0x7B :: 0x22 :: rest) :=
      fun rest => detectEncoding_utf8 (by decide) (by decide) (by decide)
    have hstart : ∃ rest, (render I false (obj (f :: fields))).flatMap utf8EncodeChar =
        0x7B :: 0x22 :: rest := ⟨_, rfl⟩
    obtain ⟨rest, hrest⟩ := hstart
    have hchars : utf8Chars true ((render I false (obj (f :: fields))).flatMap utf8EncodeChar) =
        some (render I false (obj (f :: fields))) := utf8Chars_flatMap hencodable
    rw [hrest] at hchars ⊢
    rw [decodeText, hdetect rest]
    dsimp only
    rw [hchars]
  rw [List.append_nil, loadsBytes, htext, Effect.ok_bind]

/-- A printed object reads back from its bytes. -/
theorem loadsBytes_render_obj (hI : I.Lawful) {f : PyStr × Json} {fields : List (PyStr × Json)}
    {b : Bytes} {m : Nat} (hs : (obj (f :: fields)).strict = true)
    (he : (obj (f :: fields)).encodable = true)
    (hr : (obj (f :: fields)).refusal m = none)
    (hd : (obj (f :: fields)).readDepth ≤ I.loadsNesting)
    (hb : utf8Encode (render I false (obj (f :: fields))) = .ok b) :
    loadsBytes I H b = .ok (obj (f :: fields)) := by
  rw [loadsBytes_eq_decode hb]
  exact decode_render hI hs (readable_of_encodable he) hr hd rfl

/-! ## What is read -/

/-- Whatever a reader reads has the property. -/
def ReadsOnly (P : Json → Prop) (value : PyStr → Except PyError (Json × PyStr)) : Prop :=
  ∀ s v rest, value s = .ok (v, rest) → P v

variable {P : Json → Prop} {room : Nat}

theorem scanItems_reads (h : ReadsOnly P value) :
    ∀ (n : Nat) (s : PyStr) (xs : List Json) (rest : PyStr),
      scanItems value n s = .ok (xs, rest) → ∀ x ∈ xs, P x := by
  intro n
  induction n with
  | zero => exact fun s xs rest h => absurd h Effect.error_ne_ok
  | succ n ih =>
    intro s xs rest hscan
    rw [scanItems, Effect.bind_eq_ok] at hscan
    obtain ⟨⟨x, s'⟩, hx, hscan⟩ := hscan
    have hfirst := h s x s' hx
    simp only at hscan
    split at hscan
    · cases hscan
    · split_ifs at hscan
      · simp only [Except.ok.injEq, Prod.mk.injEq] at hscan
        rw [← hscan.1, List.forall_mem_singleton]
        exact hfirst
      · simp only [Effect.bind_eq_ok, Effect.pure_eq_ok, Prod.mk.injEq] at hscan
        obtain ⟨⟨ys, t⟩, hys, rfl, -⟩ := hscan
        exact List.forall_mem_cons.mpr ⟨hfirst, ih _ _ _ hys⟩

theorem scanField_reads (h : ReadsOnly P value) {s rest : PyStr} {f : PyStr × Json}
    (hscan : scanField value s = .ok (f, rest)) : P f.2 := by
  unfold scanField at hscan
  split at hscan
  · cases hscan
  · split_ifs at hscan
    simp only [Effect.bind_eq_ok] at hscan
    obtain ⟨⟨k, t⟩, -, hscan⟩ := hscan
    simp only at hscan
    split at hscan
    · cases hscan
    · split_ifs at hscan
      simp only [Effect.bind_eq_ok, Effect.pure_eq_ok, Prod.mk.injEq] at hscan
      obtain ⟨⟨x, t⟩, hx, rfl, -⟩ := hscan
      exact h _ _ _ hx

theorem scanFields_reads (h : ReadsOnly P value) :
    ∀ (n : Nat) (s : PyStr) (fields : List (PyStr × Json)) (rest : PyStr),
      scanFields value n s = .ok (fields, rest) → ∀ f ∈ fields, P f.2 := by
  intro n
  induction n with
  | zero => exact fun s xs rest h => absurd h Effect.error_ne_ok
  | succ n ih =>
    intro s fields rest hscan
    rw [scanFields, Effect.bind_eq_ok] at hscan
    obtain ⟨⟨f, s'⟩, hf, hscan⟩ := hscan
    have hfirst := scanField_reads h hf
    simp only at hscan
    split at hscan
    · cases hscan
    · split_ifs at hscan
      · simp only [Except.ok.injEq, Prod.mk.injEq] at hscan
        rw [← hscan.1, List.forall_mem_singleton]
        exact hfirst
      · simp only [Effect.bind_eq_ok, Effect.pure_eq_ok, Prod.mk.injEq] at hscan
        obtain ⟨⟨fs, t⟩, hfs, rfl, -⟩ := hscan
        exact List.forall_mem_cons.mpr ⟨hfirst, ih _ _ _ hfs⟩

/-- A container of values with the property, of an object only where the hook has room. -/
def Contains (P : Json → Prop) (room : Nat) (v : Json) : Prop :=
  (∃ xs, v = arr xs ∧ ∀ x ∈ xs, P x) ∨
    ∃ fields, v = obj fields ∧ 0 < room ∧ (fields.map Prod.fst).Nodup ∧ ∀ f ∈ fields, P f.2

theorem scanArray_reads (h : ReadsOnly P value) : ReadsOnly (Contains P room) (scanArray value) := by
  intro s v rest hscan
  unfold scanArray at hscan
  split at hscan
  · cases hscan
  · split_ifs at hscan
    · simp only [Except.ok.injEq, Prod.mk.injEq] at hscan
      exact Or.inl ⟨[], hscan.1.symm, List.forall_mem_nil _⟩
    · simp only [Effect.bind_eq_ok, Effect.pure_eq_ok, Prod.mk.injEq] at hscan
      obtain ⟨⟨xs, t⟩, hxs, rfl, -⟩ := hscan
      exact Or.inl ⟨xs, rfl, scanItems_reads h _ _ _ _ hxs⟩

theorem scanMembers_reads (h : ReadsOnly P value) {s rest : PyStr} {fields : List (PyStr × Json)}
    (hscan : scanMembers value s = .ok (fields, rest)) : ∀ f ∈ fields, P f.2 := by
  unfold scanMembers at hscan
  split at hscan
  · cases hscan
  · split_ifs at hscan
    · simp only [Except.ok.injEq, Prod.mk.injEq] at hscan
      rw [← hscan.1]
      exact List.forall_mem_nil _
    · exact scanFields_reads h _ _ _ _ hscan

theorem scanObject_reads (h : ReadsOnly P value) :
    ReadsOnly (Contains P room) (scanObject H room value) := by
  intro s v rest hscan
  simp only [scanObject, Effect.bind_eq_ok, Effect.pure_eq_ok, Prod.mk.injEq, callHook_eq_ok,
    buildObject_eq_ok] at hscan
  obtain ⟨⟨fields, t⟩, hfs, _, ⟨hroom, hnd, rfl⟩, rfl, -⟩ := hscan
  exact Or.inr ⟨fields, rfl, hroom, hnd, scanMembers_reads h hfs⟩

/-- A value without parts, and not a NaN. -/
def Leaf (v : Json) : Prop := v.strict = true ∧ v.readDepth = 0

theorem scanNumber_reads : ReadsOnly Leaf (scanNumber I) := by
  intro s v rest hscan
  unfold scanNumber at hscan
  split at hscan
  · cases hscan
  · split_ifs at hscan
    · simp only [Except.ok.injEq, Prod.mk.injEq] at hscan
      rw [← hscan.1]
      simp [Leaf, strict, readDepth, I.readFloat_ne_nan]
    · simp only [Except.ok.injEq, Prod.mk.injEq] at hscan
      rw [← hscan.1]
      exact ⟨rfl, rfl⟩

theorem scanConstant_reads {s : PyStr} {p : Json × PyStr} (h : scanConstant s = some p) :
    Leaf p.1 := by
  simp only [scanConstant, Option.or_eq_some_iff, Option.map_eq_some_iff] at h
  rcases h with ⟨t, -, rfl⟩ | ⟨-, ⟨t, -, rfl⟩ | ⟨-, t, -, rfl⟩⟩ <;> exact ⟨rfl, rfl⟩

/-- `scan_once` reads a value without parts, or a container by the reader inside it. -/
theorem scanOnce_reads {inner : Option (PyStr → Except PyError (Json × PyStr))}
    (h : ∀ value ∈ inner, ReadsOnly P value) :
    ReadsOnly (fun v => Leaf v ∨ inner.isSome ∧ Contains P (room - 1) v)
      (scanOnce I H room inner) := by
  intro s v rest hscan
  unfold scanOnce at hscan
  split at hscan
  · cases hscan
  · split_ifs at hscan with hquote hbrace hbracket
    · simp only [Effect.bind_eq_ok, Effect.pure_eq_ok, Prod.mk.injEq] at hscan
      obtain ⟨_, -, rfl, -⟩ := hscan
      exact Or.inl ⟨rfl, rfl⟩
    · split at hscan
      · cases hscan
      · exact Or.inr ⟨rfl, scanObject_reads (h _ rfl) _ _ _ hscan⟩
    · split at hscan
      · cases hscan
      · exact Or.inr ⟨rfl, scanArray_reads (h _ rfl) _ _ _ hscan⟩
    · left
      split at hscan
      · rename_i p _ hconst
        rw [Except.ok.inj hscan] at hconst
        exact scanConstant_reads hconst
      · exact absurd (callHook_eq_ok.mp hscan).2 Effect.error_ne_ok
      · exact scanNumber_reads _ _ _ hscan

/-- What is read is strict, and nested no deeper than there is room. -/
theorem scanValue_reads (n : Nat) :
    ReadsOnly (fun v => v.strict = true ∧ v.readDepth ≤ n) (scanValue I H n) := by
  induction n with
  | zero =>
    intro s v rest hscan
    have hnone : ∀ value ∈ (none : Option (PyStr → Except PyError (Json × PyStr))),
        ReadsOnly (fun _ => False) value := fun value hvalue => nomatch hvalue
    rcases scanOnce_reads hnone _ _ _ hscan with ⟨hstrict, hdepth⟩ | ⟨hsome, -⟩
    · exact ⟨hstrict, hdepth.le⟩
    · cases hsome
  | succ n ih =>
    intro s v rest hscan
    have hinner : ∀ value ∈ some (scanValue I H n),
        ReadsOnly (fun v => v.strict = true ∧ v.readDepth ≤ n) value :=
      fun value hvalue => Option.some.inj hvalue ▸ ih
    rcases scanOnce_reads hinner _ _ _ hscan with
      ⟨hstrict, hdepth⟩ | ⟨-, ⟨xs, rfl, hxs⟩ | ⟨fields, rfl, hroom, hnodup, hfields⟩⟩
    · exact ⟨hstrict, hdepth.le.trans (Nat.zero_le _)⟩
    · rw [strict, strictItems_iff, readDepth, Nat.add_le_add_iff_right, readDepthItems_le]
      exact ⟨fun x hx => (hxs x hx).1, fun x hx => (hxs x hx).2⟩
    · rw [strict, Bool.and_eq_true, decide_eq_true_eq, strictFields_iff, readDepth,
        Nat.add_le_add_iff_right, Nat.max_le, readDepthFields_le]
      exact ⟨⟨hnodup, fun f hf => (hfields f hf).1⟩, fun f hf => (hfields f hf).2, hroom⟩

theorem decode_reads {s : PyStr} {v : Json} (h : decode I H s = .ok v) :
    v.strict = true ∧ v.readDepth ≤ I.loadsNesting := by
  simp only [decode, Effect.bind_eq_ok] at h
  obtain ⟨⟨w, rest⟩, hw, h⟩ := h
  simp only at h
  split_ifs at h
  have hv := Effect.pure_eq_ok.mp h
  exact hv ▸ scanValue_reads _ _ _ _ hw

theorem loads_strict {s : PyStr} {v : Json} (h : loads I H s = .ok v) : v.strict = true := by
  unfold loads at h
  split_ifs at h
  exact (decode_reads h).1

theorem loadsBytes_strict {b : Bytes} {v : Json} (h : loadsBytes I H b = .ok v) :
    v.strict = true := by
  obtain ⟨s, -, hs⟩ := Effect.bind_eq_ok.mp h
  exact (decode_reads hs).1

/-- What is read is nested no deeper than `json.loads` recurses. -/
theorem readDepth_loadsBytes {b : Bytes} {v : Json} (h : loadsBytes I H b = .ok v) :
    v.readDepth ≤ I.loadsNesting := by
  obtain ⟨s, -, hs⟩ := Effect.bind_eq_ok.mp h
  exact (decode_reads hs).2

end EdgeFort.Json
