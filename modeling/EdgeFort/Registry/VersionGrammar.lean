/-
The language of version strings, and what a version is as a file name.

The pattern of `validate_semver` says more than its grammar: `\d` matches the decimal
digits of every script, and `$` also matches before a newline that ends the string.
-/
import EdgeFort.Registry.Publish

namespace EdgeFort

open Effect

namespace Version

/-! ## The grammar -/

/-- `0`, or an ASCII digit 1-9 and further digits. -/
inductive IsNumber (digit : CodePoint → Bool) : PyStr → Prop
  | zero : IsNumber digit [chr 0x30]
  | positive {c : CodePoint} {s : PyStr} : 0x31 ≤ c.val → c.val ≤ 0x39 →
      (∀ d ∈ s, digit d = true) → IsNumber digit (c :: s)

/-- Nothing, or a sign and a label. -/
inductive IsSuffix : PyStr → Prop
  | none : IsSuffix []
  | label {c : CodePoint} {s : PyStr} : c.val = 0x2D ∨ c.val = 0x2B → s ≠ [] →
      (∀ d ∈ s, isSuffixChar d = true) → IsSuffix (c :: s)

def dot : PyStr := [chr 0x2E]

/-- `N.N.N` and a suffix, then `tail`. -/
def Reads (digit : CodePoint → Bool) (tail s : PyStr) : Prop :=
  ∃ major minor patch suffix, IsNumber digit major ∧ IsNumber digit minor ∧
    IsNumber digit patch ∧ IsSuffix suffix ∧
    s = major ++ dot ++ minor ++ dot ++ patch ++ suffix ++ tail

/-- The version strings. -/
def IsVersion (s : PyStr) : Prop := Reads isAsciiDigit [] s

/-- What `\d` and `$` let through besides: a decimal digit outside ASCII after the first of
a number, or a newline at the end. -/
def Loose (s : PyStr) : Prop :=
  (Reads isDecimal [] s ∨ Reads isDecimal [chr 0x0A] s) ∧
    ∃ c ∈ s, c.val = 0x0A ∨ isDecimal c = true ∧ isAsciiDigit c = false

variable {digit p : CodePoint → Bool} {s rest tail : PyStr}

/-! ## What the matcher consumes -/

theorem IsNumber.mono {digit' : CodePoint → Bool} (h : IsNumber digit s)
    (hd : ∀ d ∈ s, digit d = true → digit' d = true) : IsNumber digit' s := by
  cases h with
  | zero => exact .zero
  | positive hge hle hs =>
    exact .positive hge hle fun d hmem => hd d (List.mem_cons_of_mem _ hmem) (hs d hmem)

theorem dropWhile_append_of_stop (hs : ∀ c ∈ s, p c = true)
    (hrest : ∀ c ∈ rest.head?, p c = false) : (s ++ rest).dropWhile p = rest := by
  induction s with
  | nil =>
    cases rest with
    | nil => rfl
    | cons c rest =>
      exact List.dropWhile_cons_of_neg (Bool.eq_false_iff.mp (hrest c rfl))
  | cons c s ih =>
    rw [List.cons_append, List.dropWhile_cons_of_pos (hs c List.mem_cons_self)]
    exact ih fun d hd => hs d (List.mem_cons_of_mem _ hd)

theorem takeNumber_append (h : IsNumber isDecimal s)
    (hrest : ∀ c ∈ rest.head?, isDecimal c = false) : takeNumber (s ++ rest) = some rest := by
  cases h with
  | zero => rfl
  | positive hge hle hs =>
    rename_i c s
    have hzero : ¬c.val = 0x30 := by omega
    have hdigit : isAsciiDigit c = true := by
      simp only [isAsciiDigit, Bool.and_eq_true, decide_eq_true_eq]
      omega
    rw [List.cons_append, takeNumber, if_neg hzero, if_pos hdigit,
      dropWhile_append_of_stop hs hrest]

theorem takeNumber_eq_some (h : takeNumber s = some rest) :
    ∃ n, IsNumber isDecimal n ∧ s = n ++ rest := by
  unfold takeNumber at h
  split at h
  · cases h
  · rename_i c s
    split_ifs at h with hzero hdigit
    · obtain rfl := Option.some.inj h
      exact ⟨[c], by rw [show c = chr 0x30 from Fin.ext hzero]; exact .zero, rfl⟩
    · obtain rfl := Option.some.inj h
      simp only [isAsciiDigit, Bool.and_eq_true, decide_eq_true_eq] at hdigit
      refine ⟨c :: s.takeWhile isDecimal, .positive (by omega) hdigit.2 ?_, ?_⟩
      · exact List.all_eq_true.mp List.all_takeWhile
      · rw [List.cons_append, List.takeWhile_append_dropWhile]

theorem takeDot_eq_some : takeDot s = some rest ↔ s = dot ++ rest := by
  cases s with
  | nil => simp [takeDot, dot]
  | cons c s =>
    simp only [takeDot, dot, List.singleton_append, List.cons.injEq]
    rw [show c = chr 0x2E ↔ c.val = 0x2E from Fin.ext_iff]
    split_ifs with h <;> simp [h]

theorem atEnd_iff : atEnd s = true ↔ s = [] ∨ s = [chr 0x0A] := by
  match s with
  | [] => simp [atEnd]
  | [c] =>
    simp only [atEnd, decide_eq_true_eq, reduceCtorEq, false_or, List.cons.injEq, and_true]
    exact (Fin.ext_iff (b := chr 0x0A)).symm
  | _ :: _ :: _ => simp [atEnd]

theorem atEnd_stop (h : atEnd s = true) (hp : p (chr 0x0A) = false) :
    ∀ c ∈ s.head?, p c = false := by
  rcases atEnd_iff.mp h with rfl | rfl
  · nofun
  · intro c hc
    obtain rfl := Option.some.inj hc
    exact hp

theorem matchSuffix_iff : matchSuffix s = true ↔
    ∃ suffix tail, IsSuffix suffix ∧ atEnd tail = true ∧ s = suffix ++ tail := by
  constructor
  · intro h
    unfold matchSuffix at h
    split at h
    · rename_i c d rest
      split_ifs at h with hsign
      obtain ⟨hd, hend⟩ := Bool.and_eq_true_iff.mp h
      refine ⟨c :: d :: rest.takeWhile isSuffixChar, _, .label ?_ (List.cons_ne_nil _ _) ?_,
        hend, ?_⟩
      · simpa using hsign
      · exact List.forall_mem_cons.mpr ⟨hd, List.all_eq_true.mp List.all_takeWhile⟩
      · rw [List.cons_append, List.cons_append, List.takeWhile_append_dropWhile]
    · exact ⟨[], _, .none, h, rfl⟩
  · rintro ⟨suffix, tail, hsuffix, htail, rfl⟩
    cases hsuffix with
    | none =>
      rcases atEnd_iff.mp htail with rfl | rfl
      · rfl
      · rfl
    | label hsign hne hs =>
      rename_i c s
      cases s with
      | nil => exact absurd rfl hne
      | cons d s =>
        obtain ⟨hd, hs⟩ := List.forall_mem_cons.mp hs
        have hstop := atEnd_stop htail (p := isSuffixChar) (by decide)
        have hsign' : (decide (c.val = 0x2D) || decide (c.val = 0x2B)) = true := by
          simpa using hsign
        rw [List.cons_append, List.cons_append, matchSuffix, if_pos hsign',
          dropWhile_append_of_stop hs hstop, hd, htail]
        rfl

theorem dot_stop (rest : PyStr) : ∀ c ∈ (dot ++ rest).head?, isDecimal c = false := by
  intro c hc
  obtain rfl := Option.some.inj hc
  decide

theorem IsSuffix.stop (h : IsSuffix s) (htail : atEnd tail = true) :
    ∀ c ∈ (s ++ tail).head?, isDecimal c = false := by
  cases h with
  | none => exact atEnd_stop htail (by decide)
  | label hsign =>
    intro c hc
    obtain rfl := Option.some.inj hc
    rcases hsign with hsign | hsign
    · rw [show _ = chr 0x2D from Fin.ext hsign]
      decide
    · rw [show _ = chr 0x2B from Fin.ext hsign]
      decide

/-- The language of `_SEMVER`. -/
theorem semverMatch_iff : semverMatch s = true ↔
    ∃ tail, atEnd tail = true ∧ Reads isDecimal tail s := by
  constructor
  · intro h
    unfold semverMatch at h
    split at h
    · rename_i rest hrest
      simp only [Option.bind_eq_bind, Option.bind_eq_some_iff] at hrest
      obtain ⟨s₄, ⟨s₃, ⟨s₂, ⟨s₁, h₁, h₂⟩, h₃⟩, h₄⟩, h₅⟩ := hrest
      obtain ⟨major, hmajor, rfl⟩ := takeNumber_eq_some h₁
      obtain rfl := takeDot_eq_some.mp h₂
      obtain ⟨minor, hminor, rfl⟩ := takeNumber_eq_some h₃
      obtain rfl := takeDot_eq_some.mp h₄
      obtain ⟨patch, hpatch, rfl⟩ := takeNumber_eq_some h₅
      obtain ⟨suffix, tail, hsuffix, htail, rfl⟩ := matchSuffix_iff.mp h
      exact ⟨tail, htail, major, minor, patch, suffix, hmajor, hminor, hpatch, hsuffix,
        by simp only [List.append_assoc]⟩
    · cases h
  · rintro ⟨tail, htail, major, minor, patch, suffix, hmajor, hminor, hpatch, hsuffix, rfl⟩
    simp only [semverMatch, List.append_assoc, takeNumber_append hmajor (dot_stop _),
      Option.bind_eq_bind, Option.bind_some, takeDot_eq_some.mpr rfl,
      takeNumber_append hminor (dot_stop _), takeNumber_append hpatch (hsuffix.stop htail)]
    exact matchSuffix_iff.mpr ⟨suffix, tail, hsuffix, htail, rfl⟩

theorem validateSemver_ok : validateSemver s = .ok () ↔ semverMatch s = true := by
  rw [validateSemver, raiseIf_eq_ok, Bool.not_eq_false]

/-! ## The characters of a version -/

/-- A character the grammar names. -/
def IsPlain (c : CodePoint) : Prop := isSuffixChar c = true ∨ c.val = 0x2B

theorem IsNumber.isPlain (h : IsNumber isAsciiDigit s) : ∀ c ∈ s, IsPlain c := by
  have hdigit : ∀ c : CodePoint, isAsciiDigit c = true → IsPlain c :=
    fun c hc => Or.inl (by simp [isSuffixChar, hc])
  cases h with
  | zero => simpa using hdigit _ (by decide)
  | positive hge hle hs =>
    refine List.forall_mem_cons.mpr ⟨hdigit _ ?_, fun d hd => hdigit d (hs d hd)⟩
    simp only [isAsciiDigit, Bool.and_eq_true, decide_eq_true_eq]
    omega

theorem IsSuffix.isPlain (h : IsSuffix s) : ∀ c ∈ s, IsPlain c := by
  cases h with
  | none => nofun
  | label hsign _ hs =>
    refine List.forall_mem_cons.mpr ⟨?_, fun d hd => Or.inl (hs d hd)⟩
    rcases hsign with hsign | hsign
    · exact Or.inl (by simp [isSuffixChar, hsign])
    · exact Or.inr hsign

theorem IsVersion.isPlain (h : IsVersion s) : ∀ c ∈ s, IsPlain c := by
  obtain ⟨major, minor, patch, suffix, hmajor, hminor, hpatch, hsuffix, rfl⟩ := h
  have hdot : ∀ c ∈ dot, IsPlain c := by
    simp only [dot, List.mem_singleton, forall_eq]
    exact Or.inl (by decide)
  simp only [List.append_nil, List.forall_mem_append]
  exact ⟨⟨⟨⟨⟨hmajor.isPlain, hdot⟩, hminor.isPlain⟩, hdot⟩, hpatch.isPlain⟩, hsuffix.isPlain⟩

theorem IsVersion.semverMatch (h : IsVersion s) : semverMatch s = true := by
  obtain ⟨major, minor, patch, suffix, hmajor, hminor, hpatch, hsuffix, rfl⟩ := h
  have hdecimal : ∀ d : CodePoint, isAsciiDigit d = true → isDecimal d = true := by
    intro d hd
    simp only [isAsciiDigit, Bool.and_eq_true, decide_eq_true_eq] at hd
    refine List.any_eq_true.mpr ⟨0x30, by decide, ?_⟩
    simpa using ⟨hd.1, hd.2⟩
  exact semverMatch_iff.mpr ⟨[], rfl, major, minor, patch, suffix,
    hmajor.mono fun d _ => hdecimal d, hminor.mono fun d _ => hdecimal d,
    hpatch.mono fun d _ => hdecimal d, hsuffix, rfl⟩

theorem IsVersion.not_loose (h : IsVersion s) : ¬Loose s := by
  rintro ⟨-, c, hc, hloose⟩
  have hplain := h.isPlain c hc
  simp only [IsPlain, isSuffixChar, isAsciiLetter, Bool.or_eq_true, Bool.and_eq_true,
    decide_eq_true_eq] at hplain
  rcases hloose with hnewline | ⟨hdecimal, hdigit⟩
  · simp only [hnewline, isAsciiDigit, Bool.and_eq_true, decide_eq_true_eq] at hplain
    omega
  · obtain ⟨z, hz, hc⟩ := List.any_eq_true.mp hdecimal
    simp only [Bool.and_eq_true, decide_eq_true_eq] at hc
    have hzeros : ∀ z ∈ decimalZeros, z = 0x30 ∨ 0x100 ≤ z := by decide
    simp only [hdigit, Bool.false_eq_true, false_or] at hplain
    simp only [isAsciiDigit, Bool.and_eq_false_iff, decide_eq_false_iff_not] at hdigit
    rcases hzeros z hz with rfl | hz <;> omega

/-- The matcher accepts the versions and the loose readings. -/
theorem semverMatch_cases : semverMatch s = true ↔ IsVersion s ∨ Loose s := by
  constructor
  · intro h
    obtain ⟨tail, htail, hreads⟩ := semverMatch_iff.mp h
    have hread : Reads isDecimal [] s ∨ Reads isDecimal [chr 0x0A] s := by
      rcases atEnd_iff.mp htail with rfl | rfl
      · exact Or.inl hreads
      · exact Or.inr hreads
    by_cases hbad : ∃ c ∈ s, c.val = 0x0A ∨ isDecimal c = true ∧ isAsciiDigit c = false
    · exact Or.inr ⟨hread, hbad⟩
    · left
      obtain ⟨major, minor, patch, suffix, hmajor, hminor, hpatch, hsuffix, rfl⟩ := hreads
      have hdigit : ∀ n : PyStr, (∀ d ∈ n, d ∈ major ++ dot ++ minor ++ dot ++ patch ++ suffix ++ tail) →
          ∀ d ∈ n, isDecimal d = true → isAsciiDigit d = true := by
        intro n hn d hd hdecimal
        by_contra hnot
        exact hbad ⟨d, hn d hd, Or.inr ⟨hdecimal, Bool.eq_false_iff.mpr hnot⟩⟩
      have htail : tail = [] := by
        rcases atEnd_iff.mp htail with rfl | rfl
        · rfl
        · exact absurd ⟨chr 0x0A, List.mem_append_right _ List.mem_cons_self, Or.inl rfl⟩ hbad
      refine ⟨major, minor, patch, suffix, hmajor.mono (hdigit _ ?_), hminor.mono (hdigit _ ?_),
        hpatch.mono (hdigit _ ?_), hsuffix, by rw [htail]⟩
      all_goals
        intro d hd
        simp [hd]
  · rintro (h | ⟨h | h, -⟩)
    · exact h.semverMatch
    · exact semverMatch_iff.mpr ⟨[], rfl, h⟩
    · exact semverMatch_iff.mpr ⟨[chr 0x0A], rfl, h⟩

/-! ## The path of an entry -/

/-- The components of a relative path: what stands between the slashes, but for nothing
and `.`. -/
def pathParts (name : PyStr) : List PyStr :=
  (name.splitOn (chr 0x2F)).filter fun part => part ≠ [] ∧ part ≠ [chr 0x2E]

/-- `root / name`, by components. -/
def joinPath (root : List PyStr) (name : PyStr) : List PyStr :=
  if name.head? = some (chr 0x2F) then pathParts name else root ++ pathParts name

/-- `Registry._dir` -/
def dirPath (root : List PyStr) (version : PyStr) : Except PyError (List PyStr) := do
  let name ← safeVersion version
  return joinPath root name

/-- Category `Cc`. -/
def isControl (c : CodePoint) : Bool := c.val < 0x20 || (0x7F ≤ c.val && c.val ≤ 0x9F)

/-- A file name that stays in its directory and apart from the registry's own entries. -/
structure SafeName (s : PyStr) : Prop where
  component : ∀ root, dirPath root s = .ok (root ++ [s])
  visible : Publish.hidden s = false
  separators : ∀ c ∈ s, c.val ≠ 0x2F ∧ c.val ≠ 0x5C
  controls : ∀ c ∈ s, isControl c = false
  lock : s ≠ ".registry.lock"
  staging : ¬Publish.stagePrefix <+: s

/-- The scan for a sequence number passes an entry of this name only if it verifies under
the name and keeps the number apart. -/
def Scanned (s : PyStr) : Prop :=
  ∀ (R : Registry) (seq : Int) (version : PyStr) (root : List (PyStr × Node)) (entry : Node),
    (s, entry) ∈ root → R.assertReleaseSequenceAvailable seq version root = .ok () →
      ∃ existing, R.verifyDirectory entry s = .ok existing ∧
        ¬(existing.releaseSequence = seq ∧ existing.version ≠ version)

/-- `validate_semver` accepts just the versions, and what it accepts is a safe name the
scan sees. -/
structure VersionContract (s : PyStr) : Prop where
  accepts : validateSemver s = .ok () ↔ IsVersion s
  safe : validateSemver s = .ok () → SafeName s
  scanned : validateSemver s = .ok () → Scanned s

theorem IsVersion.head (h : IsVersion s) : ∃ c rest, s = c :: rest ∧ c.val ≠ 0x2E := by
  obtain ⟨major, minor, patch, suffix, hmajor, -, -, -, rfl⟩ := h
  cases hmajor with
  | zero => exact ⟨_, _, rfl, by decide⟩
  | positive hge hle hs => exact ⟨_, _, rfl, by omega⟩

theorem IsVersion.visible (h : IsVersion s) : Publish.hidden s = false := by
  obtain ⟨c, rest, rfl, hc⟩ := h.head
  simp only [Publish.hidden, List.head?_cons, Option.some.injEq, decide_eq_false_iff_not]
  exact fun he => hc (congrArg Fin.val he)

theorem IsPlain.safe {c : CodePoint} (h : IsPlain c) :
    (c.val ≠ 0x2F ∧ c.val ≠ 0x5C) ∧ isControl c = false := by
  simp only [IsPlain, isSuffixChar, isAsciiDigit, isAsciiLetter, Bool.or_eq_true,
    Bool.and_eq_true, decide_eq_true_eq] at h
  simp only [isControl, Bool.or_eq_false_iff, Bool.and_eq_false_iff, decide_eq_false_iff_not]
  omega

theorem pathParts_of_component (hslash : ∀ c ∈ s, c.val ≠ 0x2F) (hne : s ≠ [])
    (hdot : s ≠ [chr 0x2E]) : pathParts s = [s] := by
  have hsplit : s.splitOn (chr 0x2F) = [s] := by
    refine List.splitOnP_eq_singleton fun c hc => ?_
    exact beq_eq_false_iff_ne.mpr fun he => hslash c hc (congrArg Fin.val he)
  rw [pathParts, hsplit, List.filter_cons_of_pos (by simp [hne, hdot]), List.filter_nil]

theorem IsVersion.safeName (h : IsVersion s) : SafeName s := by
  have hsafe : ∀ c ∈ s, _ := fun c hc => (h.isPlain c hc).safe
  obtain ⟨d, rest, hs, hd⟩ := h.head
  have hne : s ≠ [] := by
    rw [hs]
    exact List.cons_ne_nil _ _
  have hdot : s ≠ [chr 0x2E] := by
    rw [hs]
    exact fun he => hd (congrArg Fin.val (List.cons.inj he).1)
  exact {
    component := by
      intro root
      have hslash : ¬s.head? = some (chr 0x2F) := by
        intro he
        exact (hsafe _ (List.mem_of_head? he)).1.1 rfl
      rw [dirPath, safeVersion_ok_iff.mpr ⟨h.semverMatch, rfl⟩, ok_bind, joinPath, if_neg hslash,
        pathParts_of_component (fun c hc => (hsafe c hc).1.1) hne hdot]
      rfl
    visible := h.visible
    separators := fun c hc => (hsafe c hc).1
    controls := fun c hc => (hsafe c hc).2
    lock := by
      rintro rfl
      exact absurd h.visible (by decide)
    staging := by
      rintro ⟨t, rfl⟩
      cases h.visible }

/-- The scan skips only the names that start with a dot. -/
theorem scanned_of_visible (h : Publish.hidden s = false) : Scanned s := by
  intro R seq version root entry hmem hscan
  induction root with
  | nil => cases hmem
  | cons e root ih =>
    obtain ⟨name, n⟩ := e
    simp only [Registry.assertReleaseSequenceAvailable, bind_eq_ok] at hscan
    obtain ⟨_, hentry, hrest⟩ := hscan
    rcases List.mem_cons.mp hmem with he | hmem
    · obtain ⟨rfl, rfl⟩ := Prod.mk.inj he
      have hdot : ¬s.head? = some (chr 0x2E) := by simpa [Publish.hidden] using h
      rw [Registry.checkEntry, if_neg hdot, bind_eq_ok] at hentry
      obtain ⟨_, -, hverify⟩ := hentry
      split at hverify
      · cases hverify
      · rename_i existing hexisting
        exact ⟨existing, hexisting, raiseIf_eq_ok.mp hverify⟩
    · exact ih hmem hrest

/-- The contract holds of a string just when the pattern does not read it loosely. -/
theorem semver_contract (s : PyStr) : VersionContract s ↔ ¬Loose s := by
  constructor
  · intro h hloose
    have haccepted := validateSemver_ok.mpr (semverMatch_cases.mpr (Or.inr hloose))
    exact (h.accepts.mp haccepted).not_loose hloose
  · intro hloose
    have haccepts : validateSemver s = .ok () ↔ IsVersion s := by
      rw [validateSemver_ok, semverMatch_cases]
      exact ⟨fun h => h.resolve_right hloose, Or.inl⟩
    exact ⟨haccepts, fun h => (haccepts.mp h).safeName,
      fun h => scanned_of_visible (haccepts.mp h).visible⟩

/-- "1.0.0" and a newline is accepted as a version. -/
theorem semver_accepts_newline : validateSemver (py "1.0.0\n") = .ok () ∧
    ¬VersionContract (py "1.0.0\n") := by
  have haccepted : validateSemver (py "1.0.0\n") = .ok () :=
    validateSemver_ok.mpr (by decide +kernel)
  refine ⟨haccepted, fun h => ?_⟩
  have hplain := (h.accepts.mp haccepted).isPlain (chr 0x0A) (by decide)
  exact absurd hplain.safe.2 (by decide)

end Version
end EdgeFort
