/-
The grammar of JSON text, and that the scanner accepts nothing else.

`Text t v` says that `t` is a text of the value `v`.  An object's keys are
compared as the strings they denote, so two spellings of one key count as a
repetition.  `NaN` and the infinities are not in the grammar.
-/
import EdgeFort.Json.RoundTrip

namespace EdgeFort.Json

open Effect

/-- White space. -/
def Space (w : PyStr) : Prop := ∀ c ∈ w, isSpace c = true

/-- The text of a string after its opening quote. -/
inductive StringText : PyStr → PyStr → Prop
  | done : StringText [quote] []
  | plain {c : CodePoint} {t s : PyStr} : c ≠ quote → c ≠ backslash → 0x20 ≤ c.val →
      StringText t s → StringText (c :: t) (c :: s)
  | short {l c : CodePoint} {t s : PyStr} : shortUnescape l = some c →
      StringText t s → StringText (backslash :: l :: t) (c :: s)
  | unicode {hex : PyStr} {n : Nat} {t s : PyStr} : takeHex hex = some (n, []) →
      StringText t s → StringText (backslash :: chr 0x75 :: (hex ++ t)) (chr n :: s)
  | pair {high low : PyStr} {n m : Nat} {t s : PyStr} : takeHex high = some (n, []) →
      takeHex low = some (m, []) → 0xD800 ≤ n → n ≤ 0xDBFF → 0xDC00 ≤ m → m ≤ 0xDFFF →
      StringText t s →
      StringText (backslash :: chr 0x75 :: (high ++ backslash :: chr 0x75 :: (low ++ t)))
        (chr (0x10000 + (n - 0xD800) * 1024 + (m - 0xDC00)) :: s)

mutual
/-- The text of a value. -/
inductive Text (I : Interpreter) : PyStr → Json → Prop
  | null : Text I (py "null") null
  | true : Text I (py "true") (bool true)
  | false : Text I (py "false") (bool false)
  | int {l : Literal} : l.WellFormed → l.isFloat = false → Text I l.text (int l.intValue)
  | float {l : Literal} : l.WellFormed → l.isFloat = true →
      Text I l.text (float (I.readFloat l.text))
  | str {t s : PyStr} : StringText t s → Text I (quote :: t) (str s)
  | emptyArr {w : PyStr} : Space w → Text I (openBracket :: (w ++ [closeBracket])) (arr [])
  | arr {w t : PyStr} {xs : List Json} : Space w → Items I t xs →
      Text I (openBracket :: (w ++ t)) (arr xs)
  | emptyObj {w : PyStr} : Space w → Text I (openBrace :: (w ++ [closeBrace])) (obj [])
  | obj {w t : PyStr} {fields : List (PyStr × Json)} : Space w → Fields I t fields →
      (fields.map Prod.fst).Nodup → Text I (openBrace :: (w ++ t)) (obj fields)

/-- The text of an array's items and its end. -/
inductive Items (I : Interpreter) : PyStr → List Json → Prop
  | last {t w : PyStr} {x : Json} : Text I t x → Space w → Items I (t ++ (w ++ [closeBracket])) [x]
  | cons {t w w' ts : PyStr} {x : Json} {xs : List Json} : Text I t x → Space w → Space w' →
      Items I ts xs → Items I (t ++ (w ++ comma :: (w' ++ ts))) (x :: xs)

/-- The text of an object's items and its end. -/
inductive Fields (I : Interpreter) : PyStr → List (PyStr × Json) → Prop
  | last {k t w w' w'' : PyStr} {key : PyStr} {x : Json} : StringText k key → Space w →
      Space w' → Text I t x → Space w'' →
      Fields I (quote :: (k ++ (w ++ colon :: (w' ++ (t ++ (w'' ++ [closeBrace]))))) ) [(key, x)]
  | cons {k t w w' w'' v ts : PyStr} {key : PyStr} {x : Json} {fields : List (PyStr × Json)} :
      StringText k key → Space w → Space w' → Text I t x → Space w'' → Space v →
      Fields I ts fields →
      Fields I (quote :: (k ++ (w ++ colon :: (w' ++ (t ++ (w'' ++ comma :: (v ++ ts)))))))
        ((key, x) :: fields)
end

/-! ## Strings -/

theorem skipSpace_split (s : PyStr) : ∃ w, Space w ∧ s = w ++ skipSpace s :=
  ⟨s.takeWhile isSpace, List.all_eq_true.mp List.all_takeWhile,
    (List.takeWhile_append_dropWhile (p := isSpace)).symm⟩

theorem takeHex_split {s rest : PyStr} {n : Nat} (h : takeHex s = some (n, rest)) :
    ∃ hex, s = hex ++ rest ∧ takeHex hex = some (n, []) := by
  match s with
  | a :: b :: c :: d :: t =>
    simp only [takeHex, Option.bind_eq_bind, Option.bind_eq_some_iff, Option.pure_def,
      Option.some.injEq, Prod.mk.injEq] at h
    obtain ⟨a', ha, b', hb, c', hc, d', hd, hn, rfl⟩ := h
    refine ⟨[a, b, c, d], rfl, ?_⟩
    simp [takeHex, ha, hb, hc, hd, hn]
  | [] | [_] | [_, _] | [_, _, _] => cases h

theorem takeUnicodeEscape_split {s digits : PyStr} (h : takeUnicodeEscape s = some digits) :
    s = backslash :: chr 0x75 :: digits := by
  match s with
  | a :: b :: rest =>
    simp only [takeUnicodeEscape] at h
    split_ifs at h with hab
    rw [hab.1, hab.2, Option.some.inj h]
  | [] | [_] => cases h

/-- What the scanner takes for an escape, with any string text after it, is string
text. -/
theorem scanEscape_text {s rest : PyStr} {c : CodePoint} (h : scanEscape s = .ok (c, rest)) :
    ∃ e, s = e ++ rest ∧ ∀ t v, StringText t v → StringText (backslash :: (e ++ t)) (c :: v) := by
  cases s with
  | nil => cases h
  | cons u s =>
    unfold scanEscape at h
    by_cases hu : u.val = 0x75
    · have hu' : u = chr 0x75 := Fin.ext hu
      simp only [hu, if_true] at h
      cases hhex : takeHex s with
      | none => simp [hhex] at h
      | some p =>
        obtain ⟨n, s'⟩ := p
        simp only [hhex] at h
        obtain ⟨hex, rfl, hn⟩ := takeHex_split hhex
        have hlone : chr n = c → s' = rest → ∃ e, u :: (hex ++ s') = e ++ rest ∧
            ∀ t v, StringText t v → StringText (backslash :: (e ++ t)) (c :: v) := by
          rintro rfl rfl
          exact ⟨u :: hex, rfl, fun t v ht => hu' ▸ .unicode hn ht⟩
        unfold joinSurrogates at h
        split_ifs at h with hhigh
        · cases hdigits : takeUnicodeEscape s' with
          | none =>
            simp only [hdigits, Except.ok.injEq, Prod.mk.injEq] at h
            exact hlone h.1 h.2
          | some digits =>
            simp only [hdigits] at h
            cases hlow : takeHex digits with
            | none => simp [hlow] at h
            | some p =>
              obtain ⟨m, s''⟩ := p
              simp only [hlow] at h
              split_ifs at h with hm
              · -- a pair of escapes, joined
                simp only [Except.ok.injEq, Prod.mk.injEq] at h
                obtain ⟨low, rfl, hm'⟩ := takeHex_split hlow
                have hs' := takeUnicodeEscape_split hdigits
                refine ⟨u :: (hex ++ backslash :: chr 0x75 :: low), ?_, fun t v ht => ?_⟩
                · rw [hs', h.2]
                  simp
                · rw [← h.1, hu']
                  have hpair := StringText.pair hn hm' hhigh.1 hhigh.2 hm.1 hm.2 ht
                  simpa using hpair
              · simp only [Except.ok.injEq, Prod.mk.injEq] at h
                exact hlone h.1 h.2
        · simp only [Except.ok.injEq, Prod.mk.injEq] at h
          exact hlone h.1 h.2
    · simp only [if_neg hu] at h
      cases hshort : shortUnescape u with
      | none => simp [hshort] at h
      | some d =>
        simp only [hshort, Except.ok.injEq, Prod.mk.injEq] at h
        obtain ⟨rfl, rfl⟩ := h
        exact ⟨[u], rfl, fun t v ht => .short hshort ht⟩

theorem scanChars_text : ∀ (n : Nat) (s v rest : PyStr), scanChars n s = .ok (v, rest) →
    ∃ t, s = t ++ rest ∧ StringText t v := by
  intro n
  induction n with
  | zero => exact fun s v rest h => by cases h
  | succ n ih =>
    intro s v rest h
    cases s with
    | nil => cases h
    | cons c s =>
      rw [scanChars] at h
      split_ifs at h with hq hb hc
      · cases h
        exact ⟨[quote], by rw [hq]; rfl, .done⟩
      · simp only [bind_eq_ok, pure_eq_ok, Prod.mk.injEq] at h
        obtain ⟨⟨d, s'⟩, hescape, ⟨v', rest'⟩, hchars, rfl, rfl⟩ := h
        obtain ⟨e, rfl, htext⟩ := scanEscape_text hescape
        obtain ⟨t, rfl, ht⟩ := ih _ _ _ hchars
        exact ⟨backslash :: (e ++ t), by rw [hb]; simp, htext t v' ht⟩
      · simp only [bind_eq_ok, pure_eq_ok, Prod.mk.injEq] at h
        obtain ⟨⟨v', rest'⟩, hchars, rfl, rfl⟩ := h
        obtain ⟨t, rfl, ht⟩ := ih _ _ _ hchars
        exact ⟨c :: t, rfl, .plain hq hb (Nat.le_of_not_lt hc) ht⟩

theorem scanString_text {s v rest : PyStr} (h : scanString s = .ok (v, rest)) :
    ∃ t, s = t ++ rest ∧ StringText t v := scanChars_text _ _ _ _ h

/-! ## Numbers -/

theorem takeWhile_digits_split (s : PyStr) :
    s = s.takeWhile isDigit ++ s.dropWhile isDigit ∧ ∀ d ∈ s.takeWhile isDigit, isDigit d = true :=
  ⟨(List.takeWhile_append_dropWhile (p := isDigit)).symm, List.all_eq_true.mp List.all_takeWhile⟩

theorem takeMinus_split (s : PyStr) : s = (takeMinus s).1 ++ (takeMinus s).2 ∧
    ((takeMinus s).1 = [] ∨ (takeMinus s).1 = [chr 0x2D]) := by
  cases s with
  | nil => exact ⟨rfl, Or.inl rfl⟩
  | cons c s =>
    by_cases hc : c.val = 0x2D
    · have hc' : c = chr 0x2D := Fin.ext hc
      rw [hc', takeMinus_minus]
      exact ⟨rfl, Or.inr rfl⟩
    · simp [takeMinus, hc]

theorem takeWhole_split {s w r : PyStr} (h : takeWhole s = some (w, r)) :
    s = w ++ r ∧ (w = [digit 0] ∨
      ∃ c ds, w = c :: ds ∧ c ≠ digit 0 ∧ ∀ d ∈ c :: ds, isDigit d = true) := by
  cases s with
  | nil => cases h
  | cons c s =>
    obtain ⟨hsplit, hdigits⟩ := takeWhile_digits_split s
    unfold takeWhole at h
    dsimp only at h
    split_ifs at h with hzero hdigit
    · have hc' : c = digit 0 := Fin.ext hzero
      cases h
      exact ⟨rfl, Or.inl (by rw [hc'])⟩
    · cases h
      refine ⟨by rw [List.cons_append, ← hsplit], Or.inr ⟨c, _, rfl, ?_, ?_⟩⟩
      · rintro rfl
        exact hzero rfl
      · exact List.forall_mem_cons.mpr ⟨hdigit, hdigits⟩

theorem takeFraction_split (s : PyStr) : s = (takeFraction s).1 ++ (takeFraction s).2 ∧
    ((takeFraction s).1 = [] ∨ ∃ d ds, (takeFraction s).1 = chr 0x2E :: d :: ds ∧
      ∀ e ∈ d :: ds, isDigit e = true) := by
  unfold takeFraction
  split
  · rename_i c d s
    obtain ⟨hsplit, hdigits⟩ := takeWhile_digits_split s
    split_ifs with hdot
    · simp only [Bool.and_eq_true, decide_eq_true_eq] at hdot
      have hc' : c = chr 0x2E := Fin.ext hdot.1
      refine ⟨?_, Or.inr ⟨d, _, by rw [hc'], List.forall_mem_cons.mpr ⟨hdot.2, hdigits⟩⟩⟩
      simp only [List.cons_append, ← hsplit]
    · exact ⟨rfl, Or.inl rfl⟩
  · exact ⟨rfl, Or.inl rfl⟩

theorem takeSign_split (s : PyStr) : s = (takeSign s).1 ++ (takeSign s).2 ∧
    ((takeSign s).1 = [] ∨ ∃ c, (takeSign s).1 = [c] ∧ isSign c = true) := by
  cases s with
  | nil => exact ⟨rfl, Or.inl rfl⟩
  | cons c s =>
    by_cases hc : isSign c = true
    · simp [takeSign, hc]
    · simp [takeSign, hc]

theorem takeExponent_split (s : PyStr) : s = (takeExponent s).1 ++ (takeExponent s).2 ∧
    ((takeExponent s).1 = [] ∨ ∃ c sign d ds, (takeExponent s).1 = c :: (sign ++ d :: ds) ∧
      isExponentMark c = true ∧ (sign = [] ∨ ∃ s, sign = [s] ∧ isSign s = true) ∧
      ∀ e ∈ d :: ds, isDigit e = true) := by
  cases s with
  | nil => exact ⟨rfl, Or.inl rfl⟩
  | cons c s =>
    obtain ⟨hsign, hsign'⟩ := takeSign_split s
    unfold takeExponent
    dsimp only
    split_ifs with hmark
    · simp only [Bool.and_eq_true] at hmark
      cases hs : (takeSign s).2 with
      | nil => simp [hs] at hmark
      | cons d s' =>
        have hd : isDigit d = true := by simpa [hs] using hmark.2
        obtain ⟨hsplit, hdigits⟩ := takeWhile_digits_split s'
        have htake : (d :: s').takeWhile isDigit = d :: s'.takeWhile isDigit := by simp [hd]
        have hdrop : (d :: s').dropWhile isDigit = s'.dropWhile isDigit := by simp [hd]
        rw [htake, hdrop]
        refine ⟨?_, Or.inr ⟨c, _, d, _, rfl, hmark.1, hsign',
          List.forall_mem_cons.mpr ⟨hd, hdigits⟩⟩⟩
        rw [hs] at hsign
        simp only [List.cons_append, List.append_assoc, ← hsplit]
        rw [← hsign]
    · exact ⟨rfl, Or.inl rfl⟩

/-- A scanned literal is one of the grammar, and what it was scanned from. -/
theorem scanLiteral_wellFormed {s rest : PyStr} {l : Literal} (h : scanLiteral s = some (l, rest)) :
    l.WellFormed ∧ s = l.text ++ rest := by
  obtain ⟨hminus, hsign⟩ := takeMinus_split s
  unfold scanLiteral at h
  cases hw : takeWhole (takeMinus s).2 with
  | none => simp [hw] at h
  | some p =>
    obtain ⟨w, r⟩ := p
    simp only [hw, Option.some.injEq, Prod.mk.injEq] at h
    obtain ⟨rfl, rfl⟩ := h
    obtain ⟨hsplit, hwhole⟩ := takeWhole_split hw
    obtain ⟨hfraction, hdigits⟩ := takeFraction_split r
    obtain ⟨hexponent, hmark⟩ := takeExponent_split (takeFraction r).2
    refine ⟨⟨hsign, hwhole, hdigits, hmark⟩, ?_⟩
    simp only [Literal.text, List.append_assoc]
    rw [← hexponent, ← hfraction, ← hsplit]
    exact hminus

/-! ## Values -/

variable {I : Interpreter} {H : Hooks} {value : PyStr → Except PyError (Json × PyStr)}

/-- A reader takes texts of the grammar only. -/
def ReadsText (I : Interpreter) (value : PyStr → Except PyError (Json × PyStr)) : Prop :=
  ∀ s v rest, value s = .ok (v, rest) → ∃ t, s = t ++ rest ∧ Text I t v

theorem scanItems_text (h : ReadsText I value) :
    ∀ (n : Nat) (s : PyStr) (xs : List Json) (rest : PyStr),
      scanItems value n s = .ok (xs, rest) → ∃ t, s = t ++ rest ∧ Items I t xs := by
  intro n
  induction n with
  | zero => exact fun s xs rest h => absurd h error_ne_ok
  | succ n ih =>
    intro s xs rest hscan
    rw [scanItems, bind_eq_ok] at hscan
    obtain ⟨⟨x, s'⟩, hx, hscan⟩ := hscan
    obtain ⟨t, rfl, ht⟩ := h s x s' hx
    obtain ⟨w, hw, hs'⟩ := skipSpace_split s'
    simp only at hscan
    cases hskip : skipSpace s' with
    | nil => simp [hskip] at hscan
    | cons c u =>
      rw [hskip] at hs'
      simp only [hskip] at hscan
      split_ifs at hscan with hclose hcomma
      · simp only [Except.ok.injEq, Prod.mk.injEq] at hscan
        obtain ⟨rfl, rfl⟩ := hscan
        exact ⟨t ++ (w ++ [closeBracket]), by rw [hs', hclose]; simp, .last ht hw⟩
      · simp only [bind_eq_ok, pure_eq_ok, Prod.mk.injEq] at hscan
        obtain ⟨⟨ys, u'⟩, hys, rfl, rfl⟩ := hscan
        obtain ⟨w', hw', hu⟩ := skipSpace_split u
        obtain ⟨ts, hts, hitems⟩ := ih _ _ _ hys
        refine ⟨t ++ (w ++ comma :: (w' ++ ts)), ?_, .cons ht hw hw' hitems⟩
        rw [hs', hcomma, hu, hts]
        simp

theorem scanArray_text (h : ReadsText I value) {s rest : PyStr} {v : Json}
    (hscan : scanArray value s = .ok (v, rest)) :
    ∃ t, s = t ++ rest ∧ Text I (openBracket :: t) v := by
  obtain ⟨w, hw, hs⟩ := skipSpace_split s
  unfold scanArray at hscan
  cases hskip : skipSpace s with
  | nil => simp [hskip] at hscan
  | cons c u =>
    rw [hskip] at hs
    simp only [hskip] at hscan
    split_ifs at hscan with hclose
    · simp only [Except.ok.injEq, Prod.mk.injEq] at hscan
      obtain ⟨rfl, rfl⟩ := hscan
      exact ⟨w ++ [closeBracket], by rw [hs, hclose]; simp, .emptyArr hw⟩
    · simp only [bind_eq_ok, pure_eq_ok, Prod.mk.injEq] at hscan
      obtain ⟨⟨xs, u'⟩, hxs, rfl, rfl⟩ := hscan
      obtain ⟨t, ht, hitems⟩ := scanItems_text h _ _ _ _ hxs
      exact ⟨w ++ t, by rw [hs, ht]; simp, .arr hw hitems⟩

/-- A key, a colon and a value, with any white space between them. -/
theorem scanField_text (h : ReadsText I value) {s rest : PyStr} {f : PyStr × Json}
    (hscan : scanField value s = .ok (f, rest)) :
    ∃ k w w' t, s = quote :: (k ++ (w ++ colon :: (w' ++ (t ++ rest)))) ∧ StringText k f.1 ∧
      Space w ∧ Space w' ∧ Text I t f.2 := by
  cases s with
  | nil => cases hscan
  | cons c s =>
    unfold scanField at hscan
    dsimp only at hscan
    split_ifs at hscan with hquote
    simp only [bind_eq_ok] at hscan
    obtain ⟨⟨key, u⟩, hkey, hscan⟩ := hscan
    obtain ⟨k, rfl, hk⟩ := scanString_text hkey
    obtain ⟨w, hw, hu⟩ := skipSpace_split u
    simp only at hscan
    cases hskip : skipSpace u with
    | nil => simp [hskip] at hscan
    | cons d u' =>
      rw [hskip] at hu
      simp only [hskip] at hscan
      split_ifs at hscan with hcolon
      simp only [bind_eq_ok, pure_eq_ok, Prod.mk.injEq] at hscan
      obtain ⟨⟨x, r⟩, hx, rfl, rfl⟩ := hscan
      obtain ⟨w', hw', hu'⟩ := skipSpace_split u'
      obtain ⟨t, ht, htext⟩ := h _ _ _ hx
      refine ⟨k, w, w', t, ?_, hk, hw, hw', htext⟩
      rw [hquote, hu, hcolon, hu', ht]

theorem scanFields_text (h : ReadsText I value) :
    ∀ (n : Nat) (s : PyStr) (fields : List (PyStr × Json)) (rest : PyStr),
      scanFields value n s = .ok (fields, rest) → ∃ t, s = t ++ rest ∧ Fields I t fields := by
  intro n
  induction n with
  | zero => exact fun s fields rest h => absurd h error_ne_ok
  | succ n ih =>
    intro s fields rest hscan
    rw [scanFields, bind_eq_ok] at hscan
    obtain ⟨⟨f, s'⟩, hf, hscan⟩ := hscan
    obtain ⟨k, w, w', t, rfl, hk, hw, hw', ht⟩ := scanField_text h hf
    obtain ⟨w'', hw'', hs'⟩ := skipSpace_split s'
    simp only at hscan
    cases hskip : skipSpace s' with
    | nil => simp [hskip] at hscan
    | cons c u =>
      rw [hskip] at hs'
      simp only [hskip] at hscan
      split_ifs at hscan with hclose hcomma
      · simp only [Except.ok.injEq, Prod.mk.injEq] at hscan
        obtain ⟨rfl, rfl⟩ := hscan
        refine ⟨_, ?_, Fields.last hk hw hw' ht hw''⟩
        rw [hs', hclose]
        simp
      · simp only [bind_eq_ok, pure_eq_ok, Prod.mk.injEq] at hscan
        obtain ⟨⟨fs, u'⟩, hfs, rfl, rfl⟩ := hscan
        obtain ⟨v, hv, hu⟩ := skipSpace_split u
        obtain ⟨ts, hts, hfields⟩ := ih _ _ _ hfs
        refine ⟨_, ?_, Fields.cons hk hw hw' ht hw'' hv hfields⟩
        rw [hs', hcomma, hu, hts]
        simp

theorem scanMembers_text (h : ReadsText I value) {s rest : PyStr} {fields : List (PyStr × Json)}
    (hscan : scanMembers value s = .ok (fields, rest)) (hnd : (fields.map Prod.fst).Nodup) :
    ∃ t, s = t ++ rest ∧ Text I (openBrace :: t) (obj fields) := by
  obtain ⟨w, hw, hs⟩ := skipSpace_split s
  unfold scanMembers at hscan
  cases hskip : skipSpace s with
  | nil => simp [hskip] at hscan
  | cons c u =>
    rw [hskip] at hs
    simp only [hskip] at hscan
    split_ifs at hscan with hclose
    · simp only [Except.ok.injEq, Prod.mk.injEq] at hscan
      obtain ⟨rfl, rfl⟩ := hscan
      exact ⟨w ++ [closeBrace], by rw [hs, hclose]; simp, .emptyObj hw⟩
    · obtain ⟨t, ht, htext⟩ := scanFields_text h _ _ _ _ hscan
      exact ⟨w ++ t, by rw [hs, ht]; simp, .obj hw htext hnd⟩

variable {room : Nat}

theorem scanObject_text (h : ReadsText I value) {s rest : PyStr} {v : Json}
    (hscan : scanObject H room value s = .ok (v, rest)) :
    ∃ t, s = t ++ rest ∧ Text I (openBrace :: t) v := by
  simp only [scanObject, bind_eq_ok, pure_eq_ok, Prod.mk.injEq, callHook_eq_ok,
    buildObject_eq_ok] at hscan
  obtain ⟨⟨fields, u⟩, hfields, _, ⟨-, hnd, rfl⟩, rfl, rfl⟩ := hscan
  exact scanMembers_text h hfields hnd

theorem scanConstant_text {s : PyStr} {p : Json × PyStr} (h : scanConstant s = some p) :
    ∃ t, s = t ++ p.2 ∧ Text I t p.1 := by
  have hword : ∀ {w u : PyStr}, s.dropPrefix? w = some u → s = w ++ u := by
    intro w u hu
    obtain ⟨w', hs, hw⟩ := List.dropPrefix?_eq_some_iff.mp hu
    rw [hs, eq_of_beq hw]
  simp only [scanConstant, Option.or_eq_some_iff, Option.map_eq_some_iff] at h
  rcases h with ⟨rest, hrest, rfl⟩ | ⟨-, ⟨rest, hrest, rfl⟩ | ⟨-, rest, hrest, rfl⟩⟩
  · exact ⟨_, hword hrest, .null⟩
  · exact ⟨_, hword hrest, .true⟩
  · exact ⟨_, hword hrest, .false⟩

theorem scanNumber_text : ReadsText I (scanNumber I) := by
  intro s v rest hscan
  unfold scanNumber at hscan
  cases hl : scanLiteral s with
  | none => simp [hl] at hscan
  | some p =>
    obtain ⟨l, r⟩ := p
    obtain ⟨hwf, hs⟩ := scanLiteral_wellFormed hl
    simp only [hl] at hscan
    split_ifs at hscan with hfloat hdigits
    · simp only [Except.ok.injEq, Prod.mk.injEq] at hscan
      obtain ⟨rfl, rfl⟩ := hscan
      exact ⟨l.text, hs, .float hwf hfloat⟩
    · simp only [Except.ok.injEq, Prod.mk.injEq] at hscan
      obtain ⟨rfl, rfl⟩ := hscan
      exact ⟨l.text, hs, .int hwf (Bool.eq_false_iff.mpr hfloat)⟩

theorem scanOnce_text {inner : Option (PyStr → Except PyError (Json × PyStr))}
    (h : ∀ value ∈ inner, ReadsText I value) : ReadsText I (scanOnce I H room inner) := by
  intro s v rest hscan
  cases s with
  | nil => cases hscan
  | cons c s =>
    unfold scanOnce at hscan
    dsimp only at hscan
    split_ifs at hscan with hquote hbrace hbracket
    · simp only [bind_eq_ok, pure_eq_ok, Prod.mk.injEq] at hscan
      obtain ⟨⟨key, u⟩, hkey, rfl, rfl⟩ := hscan
      obtain ⟨k, rfl, hk⟩ := scanString_text hkey
      exact ⟨quote :: k, by rw [hquote]; rfl, .str hk⟩
    · cases inner with
      | none => cases hscan
      | some value =>
        obtain ⟨t, ht, htext⟩ := scanObject_text (h value rfl) hscan
        exact ⟨openBrace :: t, by rw [hbrace, ht]; rfl, htext⟩
    · cases inner with
      | none => cases hscan
      | some value =>
        obtain ⟨t, ht, htext⟩ := scanArray_text (h value rfl) hscan
        exact ⟨openBracket :: t, by rw [hbracket, ht]; rfl, htext⟩
    · split at hscan
      · rename_i p _ hconst
        rw [Except.ok.inj hscan] at hconst
        exact scanConstant_text hconst
      · exact absurd (callHook_eq_ok.mp hscan).2 error_ne_ok
      · exact scanNumber_text _ _ _ hscan

theorem scanValue_text (n : Nat) : ReadsText I (scanValue I H n) := by
  induction n with
  | zero => exact scanOnce_text fun value hv => nomatch hv
  | succ n ih => exact scanOnce_text fun value hv => Option.some.inj hv ▸ ih

/-- What `json.loads` accepts is one text of the grammar, with white space around it. -/
theorem loads_text {s : PyStr} {v : Json} (h : loads I H s = .ok v) :
    ∃ w t w', s = w ++ (t ++ w') ∧ Space w ∧ Space w' ∧ Text I t v := by
  unfold loads at h
  split_ifs at h
  simp only [decode, bind_eq_ok] at h
  obtain ⟨⟨u, rest⟩, hu, h⟩ := h
  simp only at h
  split_ifs at h with hrest
  obtain rfl := pure_eq_ok.mp h
  obtain ⟨w, hw, hs⟩ := skipSpace_split s
  obtain ⟨w', hw', hrest'⟩ := skipSpace_split rest
  obtain ⟨t, ht, htext⟩ := scanValue_text _ _ _ _ hu
  rw [hrest, List.append_nil] at hrest'
  exact ⟨w, t, rest, by rw [← ht, ← hs], hw, hrest' ▸ hw', htext⟩

end EdgeFort.Json
