/-
What `json.loads` raises.

A text that is short enough for every integer in it raises `JSONDecodeError`, what a hook
raises, or `RecursionError`.
-/
import EdgeFort.Json.Grammar

namespace EdgeFort.Json

open Effect

variable {I : Interpreter} {H : Hooks} {value : PyStr → Except PyError (Json × PyStr)}

/-- What reading a text may raise. -/
def LoadsError (H : Hooks) (e : PyError) : Prop :=
  e.cls = .jsonDecodeError ∨ e.cls = .recursionError ∨ (∃ key, e = H.duplicateKey key) ∨
    ∃ name, e = H.constant name

theorem loadsError_decode (text : PyStr) : LoadsError H (decodeError text) := Or.inl rfl

/-- A reader that raises nothing else on texts of at most `n` characters. -/
def RaisesLoads (H : Hooks) (n : Nat) (value : PyStr → Except PyError (Json × PyStr)) : Prop :=
  ∀ s, s.length ≤ n → RaisesOnly (LoadsError H) (value s)

/-! ## Strings -/

theorem joinSurrogates_raises (n : Nat) (rest : PyStr) :
    RaisesOnly (LoadsError H) (joinSurrogates n rest) := by
  unfold joinSurrogates
  split_ifs
  · split
    · exact raisesOnly_ok
    · split
      · exact raisesOnly_error.mpr (loadsError_decode _)
      · split_ifs <;> exact raisesOnly_ok
  · exact raisesOnly_ok

theorem scanEscape_raises (s : PyStr) : RaisesOnly (LoadsError H) (scanEscape s) := by
  unfold scanEscape
  split
  · exact raisesOnly_error.mpr (loadsError_decode _)
  · split_ifs
    · split
      · exact raisesOnly_error.mpr (loadsError_decode _)
      · exact joinSurrogates_raises _ _
    · split
      · exact raisesOnly_error.mpr (loadsError_decode _)
      · exact raisesOnly_ok

theorem scanChars_raises (n : Nat) (s : PyStr) : RaisesOnly (LoadsError H) (scanChars n s) := by
  induction n generalizing s with
  | zero => exact raisesOnly_error.mpr (loadsError_decode _)
  | succ n ih =>
    cases s with
    | nil => exact raisesOnly_error.mpr (loadsError_decode _)
    | cons c rest =>
      rw [scanChars]
      split_ifs
      · exact raisesOnly_ok
      · exact raisesOnly_bind.mpr ⟨scanEscape_raises _, fun p _ =>
          raisesOnly_bind.mpr ⟨ih _, fun _ _ => raisesOnly_ok⟩⟩
      · exact raisesOnly_error.mpr (loadsError_decode _)
      · exact raisesOnly_bind.mpr ⟨ih _, fun _ _ => raisesOnly_ok⟩

/-! ## Containers -/

theorem length_skipSpace (s : PyStr) : (skipSpace s).length ≤ s.length :=
  (List.dropWhile_sublist _).length_le

/-- What a reader leaves is no longer than what it was given. -/
theorem ReadsText.length_le (h : ReadsText I value) {s rest : PyStr} {v : Json}
    (hv : value s = .ok (v, rest)) : rest.length ≤ s.length := by
  obtain ⟨t, rfl, -⟩ := h s v rest hv
  rw [List.length_append]
  omega

variable {n : Nat}

theorem scanItems_raises (h : RaisesLoads H n value) (hread : ReadsText I value) (k : Nat)
    (s : PyStr) (hs : s.length ≤ n) : RaisesOnly (LoadsError H) (scanItems value k s) := by
  induction k generalizing s with
  | zero => exact raisesOnly_error.mpr (loadsError_decode _)
  | succ k ih =>
    rw [scanItems, raisesOnly_bind]
    refine ⟨h s hs, fun p hx => ?_⟩
    obtain ⟨x, s'⟩ := p
    have hs' := hread.length_le hx
    have hskip := length_skipSpace s'
    dsimp only
    cases hc : skipSpace s' with
    | nil => exact raisesOnly_error.mpr (loadsError_decode _)
    | cons c rest =>
      rw [hc, List.length_cons] at hskip
      have hrest := length_skipSpace rest
      dsimp only
      split_ifs
      · exact raisesOnly_ok
      · exact raisesOnly_bind.mpr ⟨ih _ (by omega), fun _ _ => raisesOnly_ok⟩
      · exact raisesOnly_error.mpr (loadsError_decode _)

theorem scanArray_raises (h : RaisesLoads H n value) (hread : ReadsText I value) :
    RaisesLoads H n (scanArray value) := by
  intro s hs
  have hskip := length_skipSpace s
  unfold scanArray
  cases hc : skipSpace s with
  | nil => exact raisesOnly_error.mpr (loadsError_decode _)
  | cons c rest =>
    rw [hc] at hskip
    dsimp only
    split_ifs
    · exact raisesOnly_ok
    · exact raisesOnly_bind.mpr ⟨scanItems_raises h hread _ _ (by omega), fun _ _ => raisesOnly_ok⟩

theorem scanField_raises (h : RaisesLoads H n value) {s : PyStr} (hs : s.length ≤ n) :
    RaisesOnly (LoadsError H) (scanField value s) := by
  cases s with
  | nil => exact raisesOnly_error.mpr (loadsError_decode _)
  | cons c rest =>
    rw [scanField]
    split_ifs
    · refine raisesOnly_bind.mpr ⟨scanChars_raises _ _, fun p hkey => ?_⟩
      obtain ⟨key, rest'⟩ := p
      obtain ⟨t, ht, -⟩ := scanString_text hkey
      have hskip := length_skipSpace rest'
      rw [List.length_cons, ht, List.length_append] at hs
      dsimp only
      cases hc : skipSpace rest' with
      | nil => exact raisesOnly_error.mpr (loadsError_decode _)
      | cons c rest =>
        rw [hc, List.length_cons] at hskip
        have hrest := length_skipSpace rest
        dsimp only
        split_ifs
        · exact raisesOnly_bind.mpr ⟨h _ (by omega), fun _ _ => raisesOnly_ok⟩
        · exact raisesOnly_error.mpr (loadsError_decode _)
    · exact raisesOnly_error.mpr (loadsError_decode _)

theorem scanFields_raises (h : RaisesLoads H n value) (hread : ReadsText I value) (m : Nat)
    (s : PyStr) (hs : s.length ≤ n) : RaisesOnly (LoadsError H) (scanFields value m s) := by
  induction m generalizing s with
  | zero => exact raisesOnly_error.mpr (loadsError_decode _)
  | succ m ih =>
    rw [scanFields, raisesOnly_bind]
    refine ⟨scanField_raises h hs, fun p hf => ?_⟩
    obtain ⟨f, s'⟩ := p
    obtain ⟨k, w, w', t, ht, -⟩ := scanField_text hread hf
    have hskip := length_skipSpace s'
    simp only [ht, List.length_cons, List.length_append] at hs
    dsimp only
    cases hc : skipSpace s' with
    | nil => exact raisesOnly_error.mpr (loadsError_decode _)
    | cons c rest =>
      rw [hc, List.length_cons] at hskip
      have hrest := length_skipSpace rest
      dsimp only
      split_ifs
      · exact raisesOnly_ok
      · exact raisesOnly_bind.mpr ⟨ih _ (by omega), fun _ _ => raisesOnly_ok⟩
      · exact raisesOnly_error.mpr (loadsError_decode _)

theorem buildObject_raises (fields : List (PyStr × Json)) :
    RaisesOnly (LoadsError H) (buildObject H fields) := by
  unfold buildObject
  split
  · exact raisesOnly_error.mpr (Or.inr (Or.inr (Or.inl ⟨_, rfl⟩)))
  · exact raisesOnly_ok

theorem scanMembers_raises (h : RaisesLoads H n value) (hread : ReadsText I value) {s : PyStr}
    (hs : s.length ≤ n) : RaisesOnly (LoadsError H) (scanMembers value s) := by
  have hskip := length_skipSpace s
  unfold scanMembers
  cases hc : skipSpace s with
  | nil => exact raisesOnly_error.mpr (loadsError_decode _)
  | cons c rest =>
    rw [hc] at hskip
    dsimp only
    split_ifs
    · exact raisesOnly_ok
    · exact scanFields_raises h hread _ _ (by omega)

/-- Calling a hook adds nothing but `RecursionError`. -/
theorem callHook_raises {α : Type} {room : Nat} {during : PyStr} {answer : Except PyError α}
    (h : RaisesOnly (LoadsError H) answer) :
    RaisesOnly (LoadsError H) (callHook room during answer) := by
  rcases room with _ | _ | room
  · exact raisesOnly_error.mpr (Or.inr (Or.inl rfl))
  · cases answer with
    | error e => exact raisesOnly_error.mpr (Or.inr (Or.inl rfl))
    | ok v => exact raisesOnly_ok
  · exact h

variable {room : Nat}

theorem scanObject_raises (h : RaisesLoads H n value) (hread : ReadsText I value) :
    RaisesLoads H n (scanObject H room value) := by
  intro s hs
  refine raisesOnly_bind.mpr ⟨scanMembers_raises h hread hs, fun p _ => ?_⟩
  exact raisesOnly_bind.mpr ⟨callHook_raises (buildObject_raises _), fun _ _ => raisesOnly_ok⟩

/-! ## Values -/

theorem scanNumber_raises (hn : n ≤ maxStrDigits) : RaisesLoads H n (scanNumber I) := by
  intro s hs
  unfold scanNumber
  cases hl : scanLiteral s with
  | none => exact raisesOnly_error.mpr (loadsError_decode _)
  | some p =>
    obtain ⟨l, rest⟩ := p
    obtain ⟨-, hsplit⟩ := scanLiteral_wellFormed hl
    have hlen := congrArg List.length hsplit
    dsimp only
    split_ifs with hfloat hdigits
    · exact raisesOnly_ok
    · simp only [Literal.text, List.length_append] at hlen
      omega
    · exact raisesOnly_ok

theorem scanOnce_raises (hn : n ≤ maxStrDigits)
    {inner : Option (PyStr → Except PyError (Json × PyStr))}
    (h : ∀ value ∈ inner, RaisesLoads H n value ∧ ReadsText I value) :
    RaisesLoads H n (scanOnce I H room inner) := by
  intro s hs
  cases s with
  | nil => exact raisesOnly_error.mpr (loadsError_decode _)
  | cons c s =>
    have hlen : s.length ≤ n := by
      rw [List.length_cons] at hs
      omega
    unfold scanOnce
    dsimp only
    split_ifs with hquote hbrace hbracket
    · exact raisesOnly_bind.mpr ⟨scanChars_raises _ _, fun _ _ => raisesOnly_ok⟩
    · cases inner with
      | none => exact raisesOnly_error.mpr (Or.inr (Or.inl rfl))
      | some value =>
        obtain ⟨hraises, hread⟩ := h value rfl
        exact scanObject_raises hraises hread s hlen
    · cases inner with
      | none => exact raisesOnly_error.mpr (Or.inr (Or.inl rfl))
      | some value =>
        obtain ⟨hraises, hread⟩ := h value rfl
        exact scanArray_raises hraises hread s hlen
    · split
      · exact raisesOnly_ok
      · exact callHook_raises (raisesOnly_error.mpr (Or.inr (Or.inr (Or.inr ⟨_, rfl⟩))))
      · exact scanNumber_raises hn _ hs

theorem scanValue_raises (hn : n ≤ maxStrDigits) (k : Nat) : RaisesLoads H n (scanValue I H k) := by
  induction k with
  | zero => exact scanOnce_raises hn fun value hv => nomatch hv
  | succ k ih =>
    exact scanOnce_raises hn fun value hv => Option.some.inj hv ▸ ⟨ih, scanValue_text k⟩

theorem loads_raises {s : PyStr} (hs : s.length ≤ maxStrDigits) :
    RaisesOnly (LoadsError H) (loads I H s) := by
  unfold loads
  split_ifs
  · exact raisesOnly_error.mpr (loadsError_decode _)
  · have hskip := length_skipSpace s
    refine raisesOnly_bind.mpr ⟨scanValue_raises (le_refl _) _ _ (by omega), fun p _ => ?_⟩
    dsimp only
    split_ifs
    · exact raisesOnly_ok
    · exact raisesOnly_error.mpr (loadsError_decode _)

end EdgeFort.Json
