/-
`bytes.splitlines`: a line ends at `\n`, `\r` or `\r\n`, or at the end of the bytes.
-/
import EdgeFort.Python.Utf8
import Mathlib.Data.List.Basic

namespace EdgeFort

/-- A line and what ends it: nothing, at the end of the bytes. -/
structure Line where
  body : Bytes
  ending : Bytes
  deriving DecidableEq, Repr

namespace Line

/-- The line with `keepends=True`. -/
def text (l : Line) : Bytes := l.body ++ l.ending

/-- A line that `\n` ends. -/
def ended (body : Bytes) : Line := ⟨body, [0x0A]⟩

end Line

def isBreak (x : UInt8) : Bool := x = 0x0A || x = 0x0D

/-- The lines of `x` and what some lines are of. -/
def pushByte (x : UInt8) : List Line → List Line
  | [] => [⟨[x], []⟩]
  | l :: lines => ⟨x :: l.body, l.ending⟩ :: lines

/-- `b.splitlines(keepends=True)`, each end kept apart. -/
def splitLines : Bytes → List Line
  | [] => []
  | 0x0D :: 0x0A :: rest => ⟨[], [0x0D, 0x0A]⟩ :: splitLines rest
  | x :: rest =>
    if isBreak x then ⟨[], [x]⟩ :: splitLines rest else pushByte x (splitLines rest)

/-- The lines of `b.splitlines()`, without their ends. -/
def bodies (b : Bytes) : List Bytes := (splitLines b).map Line.body

/-- Every line as it stands in the bytes, one after the other. -/
def joinLines (lines : List Line) : Bytes := lines.flatMap Line.text

/-- Bytes that are empty or end with `\n`. -/
def Terminated (b : Bytes) : Prop := b = [] ∨ b.getLast? = some 0x0A

instance (b : Bytes) : Decidable (Terminated b) := inferInstanceAs (Decidable (_ ∨ _))

/-- Bytes without a line break. -/
def Unbroken (b : Bytes) : Prop := ∀ x ∈ b, isBreak x = false

variable {b c : Bytes} {x : UInt8}

/-- Text without control characters is encoded without line breaks. -/
theorem unbroken_utf8Encode {s : PyStr} {encoded : Bytes} (h : utf8Encode s = .ok encoded)
    (hs : ∀ c ∈ s, 0x20 ≤ c.val) : Unbroken encoded := by
  obtain ⟨-, rfl⟩ := utf8Encode_eq_ok.mp h
  intro x hx
  obtain ⟨c, hc, hx⟩ := List.mem_flatMap.mp hx
  have hc' := hs c hc
  have hlt := c.isLt
  have hge : 0x20 ≤ x.toNat := by
    unfold utf8EncodeChar at hx
    split_ifs at hx <;> simp only [List.mem_cons, List.not_mem_nil, or_false] at hx
    · rw [hx, byte_toNat (by omega)]
      exact hc'
    · rcases hx with rfl | rfl <;> rw [byte_toNat (by omega)] <;> omega
    · rcases hx with rfl | rfl | rfl <;> rw [byte_toNat (by omega)] <;> omega
    · rcases hx with rfl | rfl | rfl | rfl <;> rw [byte_toNat (by omega)] <;> omega
  by_contra hbreak
  simp only [isBreak, Bool.or_eq_false_iff, decide_eq_false_iff_not, not_and_or, not_not] at hbreak
  rcases hbreak with rfl | rfl
  · exact absurd hge (by decide)
  · exact absurd hge (by decide)

/-! ## The lines make up the bytes -/

theorem splitLines_crlf (rest : Bytes) :
    splitLines (0x0D :: 0x0A :: rest) = ⟨[], [0x0D, 0x0A]⟩ :: splitLines rest := rfl

theorem splitLines_cons {rest : Bytes} (h : ∀ t, x :: rest ≠ 0x0D :: 0x0A :: t) :
    splitLines (x :: rest) =
      if isBreak x then ⟨[], [x]⟩ :: splitLines rest else pushByte x (splitLines rest) := by
  rw [splitLines]
  intro t hx hrest
  exact h t (by rw [hx, hrest])

theorem splitLines_unbroken {rest : Bytes} (hx : isBreak x = false) :
    splitLines (x :: rest) = pushByte x (splitLines rest) := by
  rw [splitLines_cons, hx, if_neg Bool.false_ne_true]
  intro t h
  rw [(List.cons.inj h).1] at hx
  cases hx

theorem joinLines_cons (l : Line) (lines : List Line) :
    joinLines (l :: lines) = l.text ++ joinLines lines := List.flatMap_cons

theorem joinLines_pushByte (x : UInt8) (lines : List Line) :
    joinLines (pushByte x lines) = x :: joinLines lines := by
  cases lines <;> rfl

theorem joinLines_splitLines (b : Bytes) : joinLines (splitLines b) = b := by
  induction b using splitLines.induct with
  | case1 => rfl
  | case2 rest ih =>
    rw [splitLines_crlf, joinLines_cons, ih]
    rfl
  | case3 x rest h hx ih =>
    rw [splitLines, if_pos hx, joinLines_cons, ih]
    · rfl
    · exact h
  | case4 x rest h hx ih =>
    rw [splitLines, if_neg hx, joinLines_pushByte, ih]
    exact h

theorem splitLines_eq_nil : splitLines b = [] ↔ b = [] := by
  constructor
  · intro h
    rw [← joinLines_splitLines b, h]
    rfl
  · rintro rfl
    rfl

/-- The first line, and the bytes that have the other lines. -/
theorem splitLines_eq_cons {l : Line} {lines : List Line} (h : splitLines b = l :: lines) :
    Unbroken l.body ∧ l.text ≠ [] ∧ (l.ending = [] → lines = []) ∧
      ∃ rest, b = l.text ++ rest ∧ splitLines rest = lines := by
  induction b using splitLines.induct generalizing l lines with
  | case1 => cases h
  | case2 rest ih =>
    rw [splitLines_crlf] at h
    cases h
    exact ⟨by simp [Unbroken], by simp [Line.text], nofun, rest, rfl, rfl⟩
  | case3 x rest hcr hx ih =>
    rw [splitLines, if_pos hx] at h
    · cases h
      exact ⟨by simp [Unbroken], by simp [Line.text], nofun, rest, rfl, rfl⟩
    · exact hcr
  | case4 x rest hcr hx ih =>
    have hbreak : isBreak x = false := Bool.eq_false_iff.mpr hx
    rw [splitLines_unbroken hbreak] at h
    cases hrest : splitLines rest with
    | nil =>
      rw [hrest, pushByte] at h
      cases h
      rw [splitLines_eq_nil] at hrest
      exact ⟨by simpa [Unbroken] using hbreak, by simp [Line.text], fun _ => rfl, [],
        by simp [hrest, Line.text], rfl⟩
    | cons l' lines' =>
      rw [hrest, pushByte] at h
      cases h
      obtain ⟨hbody, -, hending, t, ht, hlines⟩ := ih hrest
      refine ⟨?_, by simp [Line.text], hending, t, ?_, hlines⟩
      · simp only [Unbroken, List.forall_mem_cons]
        exact ⟨hbreak, hbody⟩
      · rw [ht]
        rfl

/-- The lines from some line on are the lines of their own text. -/
theorem splitLines_joinLines_drop (b : Bytes) (n : Nat) :
    splitLines (joinLines ((splitLines b).drop n)) = (splitLines b).drop n := by
  have h : ∀ (n : Nat) (b : Bytes), ∃ rest, splitLines rest = (splitLines b).drop n := by
    intro n
    induction n with
    | zero => exact fun b => ⟨b, rfl⟩
    | succ n ih =>
      intro b
      cases hb : splitLines b with
      | nil => exact ⟨[], rfl⟩
      | cons l lines =>
        obtain ⟨-, -, -, rest, -, hrest⟩ := splitLines_eq_cons hb
        obtain ⟨t, ht⟩ := ih rest
        exact ⟨t, by rw [ht, hrest, List.drop_succ_cons]⟩
  obtain ⟨rest, hrest⟩ := h n b
  rw [← hrest, joinLines_splitLines]

theorem unbroken_body {l : Line} (h : l ∈ splitLines b) : Unbroken l.body := by
  obtain ⟨n, hn, hl⟩ := List.getElem_of_mem h
  have hdrop : splitLines (joinLines ((splitLines b).drop n)) = l :: (splitLines b).drop (n + 1) := by
    rw [splitLines_joinLines_drop, List.drop_eq_getElem_cons hn, hl]
  exact (splitLines_eq_cons hdrop).1

/-! ## Lines that `\n` ends -/

theorem splitLines_ended {body : Bytes} (h : Unbroken body) (rest : Bytes) :
    splitLines (body ++ 0x0A :: rest) = Line.ended body :: splitLines rest := by
  induction body with
  | nil => rfl
  | cons x body ih =>
    obtain ⟨hx, hbody⟩ := List.forall_mem_cons.mp h
    rw [List.cons_append, splitLines_unbroken hx, ih hbody]
    rfl

theorem splitLines_ended_lines {lines : List Bytes} (h : ∀ body ∈ lines, Unbroken body) :
    splitLines (lines.flatMap (· ++ [0x0A])) = lines.map Line.ended := by
  induction lines with
  | nil => rfl
  | cons body lines ih =>
    obtain ⟨hbody, hlines⟩ := List.forall_mem_cons.mp h
    rw [List.flatMap_cons, List.append_assoc, List.singleton_append, splitLines_ended hbody,
      ih hlines, List.map_cons]

theorem Terminated.tail {rest : Bytes} (h : Terminated (x :: rest)) : Terminated rest := by
  rcases h with h | h
  · cases h
  · cases rest with
    | nil => exact Or.inl rfl
    | cons y rest => exact Or.inr (by rwa [List.getLast?_cons_cons] at h)

theorem terminated_append_ended (b body : Bytes) : Terminated (b ++ (body ++ [0x0A])) := by
  right
  rw [← List.append_assoc, List.getLast?_concat]

theorem Terminated.of_append (h : Terminated (b ++ c)) : Terminated c := by
  induction b with
  | nil => exact h
  | cons x b ih => exact ih h.tail

/-- What follows terminated bytes has lines of its own. -/
theorem splitLines_append (h : Terminated b) (c : Bytes) :
    splitLines (b ++ c) = splitLines b ++ splitLines c := by
  induction b using splitLines.induct with
  | case1 => rfl
  | case2 rest ih =>
    rw [splitLines_crlf, List.cons_append, List.cons_append, splitLines_crlf, ih h.tail.tail,
      List.cons_append]
  | case3 x rest hcr hx ih =>
    have hcr' : ∀ t, x :: (rest ++ c) ≠ 0x0D :: 0x0A :: t := by
      intro t heq
      obtain ⟨hx', hrest⟩ := List.cons.inj heq
      cases rest with
      | nil =>
        rcases h with h | h
        · cases h
        · rw [hx'] at h
          cases h
      | cons y rest => exact hcr rest hx' (by rw [(List.cons.inj hrest).1])
    rw [List.cons_append, splitLines_cons hcr', if_pos hx, splitLines, if_pos hx, ih h.tail,
      List.cons_append]
    exact hcr
  | case4 x rest hcr hx ih =>
    have hbreak : isBreak x = false := Bool.eq_false_iff.mpr hx
    rw [List.cons_append, splitLines_unbroken hbreak, splitLines_unbroken hbreak, ih h.tail]
    cases hrest : splitLines rest with
    | cons l lines => rfl
    | nil =>
      -- the byte is the last one, and no line break
      rw [splitLines_eq_nil] at hrest
      subst hrest
      rcases h with h | h
      · cases h
      · cases h
        cases hbreak

/-- Every line of terminated bytes has an end. -/
theorem ending_ne_nil (h : Terminated b) {l : Line} (hl : l ∈ splitLines b) : l.ending ≠ [] := by
  generalize hlines : splitLines b = lines at hl
  induction lines generalizing b with
  | nil => cases hl
  | cons l' lines ih =>
    obtain ⟨hbody, hne, hending, rest, hb, hrest⟩ := splitLines_eq_cons hlines
    rcases List.mem_cons.mp hl with rfl | hl
    · intro hnil
      have hnil' : rest = [] := by
        rw [hending hnil] at hrest
        exact splitLines_eq_nil.mp hrest
      rw [hnil', List.append_nil] at hb
      rcases h with h | h
      · exact hne (hb ▸ h)
      · have hmem := List.mem_of_getLast? h
        rw [hb, Line.text, hnil, List.append_nil] at hmem
        cases hbody _ hmem
    · rw [hb] at h
      exact ih h.of_append hrest hl

theorem terminated_joinLines (lines : List Line) {l : Line} (hl : l.ending = [0x0A]) :
    Terminated (joinLines (lines ++ [l])) := by
  rw [joinLines, List.flatMap_append, List.flatMap_singleton, Line.text, hl]
  exact terminated_append_ended _ l.body

/-- Bytes that are added change the last line only. -/
theorem dropLast_splitLines (b c : Bytes) :
    (splitLines b).dropLast <+: splitLines (b ++ c) := by
  have hcons : ∀ (l : Line) {lines more : List Line}, lines.dropLast <+: more →
      (l :: lines).dropLast <+: l :: more := by
    intro l lines more h
    cases lines with
    | nil => exact List.nil_prefix
    | cons => exact List.cons_prefix_cons.mpr ⟨rfl, h⟩
  induction b using splitLines.induct with
  | case1 => exact List.nil_prefix
  | case2 rest ih =>
    rw [splitLines_crlf, List.cons_append, List.cons_append, splitLines_crlf]
    exact hcons _ ih
  | case3 x rest hcr hx ih =>
    cases rest with
    | nil =>
      rw [splitLines_cons fun t h => List.cons_ne_nil _ _ (List.cons.inj h).2.symm, if_pos hx]
      exact List.nil_prefix
    | cons y rest =>
      have hcr' : ∀ t, x :: (y :: rest ++ c) ≠ 0x0D :: 0x0A :: t := by
        intro t h
        obtain ⟨hx', hrest⟩ := List.cons.inj h
        exact hcr rest hx' (by rw [(List.cons.inj hrest).1])
      rw [List.cons_append, splitLines_cons hcr', if_pos hx, splitLines, if_pos hx]
      · exact hcons _ ih
      · exact hcr
  | case4 x rest hcr hx ih =>
    have hbreak : isBreak x = false := Bool.eq_false_iff.mpr hx
    rw [List.cons_append, splitLines_unbroken hbreak, splitLines_unbroken hbreak]
    rcases hrest : splitLines rest with _ | ⟨l, _ | ⟨l', lines⟩⟩
    · exact List.nil_prefix
    · exact List.nil_prefix
    · rw [hrest, List.dropLast_cons_cons] at ih
      obtain ⟨more, hmore⟩ := ih
      rw [← hmore]
      exact List.cons_prefix_cons.mpr ⟨rfl, List.prefix_append _ _⟩

/-- The lines that `\n` ends stay when bytes are added. -/
theorem splitLines_sublist (b c : Bytes) :
    ((splitLines b).filter fun l => l.ending = [0x0A]).Sublist (splitLines (b ++ c)) := by
  rcases List.eq_nil_or_concat (splitLines b) with hnil | ⟨lines, l, hlast⟩
  · rw [hnil]
    exact List.nil_sublist _
  · rw [List.concat_eq_append] at hlast
    by_cases hl : l.ending = [0x0A]
    · have hterm : Terminated b := by
        rw [← joinLines_splitLines b, hlast]
        exact terminated_joinLines lines hl
      rw [splitLines_append hterm]
      exact List.filter_sublist.trans (List.sublist_append_left _ _)
    · have hprefix := dropLast_splitLines b c
      rw [hlast, List.dropLast_concat] at hprefix
      rw [hlast, List.filter_append, List.filter_cons_of_neg (by simpa using hl), List.filter_nil,
        List.append_nil]
      exact List.filter_sublist.trans hprefix.sublist

/-! ## What follows the last line break -/

/-- The lines that have an end. -/
def endedLines (b : Bytes) : List Line := (splitLines b).filter fun l => l.ending ≠ []

/-- What follows the last line break. -/
def unended (b : Bytes) : Bytes := joinLines ((splitLines b).filter fun l => l.ending = [])

theorem splitLines_ended_unended (b : Bytes) :
    splitLines b = endedLines b ++ (splitLines b).filter fun l => l.ending = [] := by
  have hall : ∀ (lines : List Line) (b : Bytes), splitLines b = lines →
      lines = (lines.filter fun l => l.ending ≠ []) ++ lines.filter fun l => l.ending = [] := by
    intro lines
    induction lines with
    | nil => exact fun _ _ => rfl
    | cons l lines ih =>
      intro b hb
      obtain ⟨-, -, hending, rest, -, hrest⟩ := splitLines_eq_cons hb
      by_cases hl : l.ending = []
      · rw [hending hl, List.filter_cons_of_neg (by simpa using hl), List.filter_nil,
          List.filter_cons_of_pos (by simpa using hl), List.filter_nil]
        rfl
      · rw [List.filter_cons_of_pos (by simpa using hl), List.filter_cons_of_neg (by simpa using hl),
          List.cons_append, ← ih rest hrest]
  exact hall _ b rfl

/-- Lines that go leave the others with an end. -/
theorem filter_drop_ended {n : Nat} (hn : n ≤ (endedLines b).length) :
    ((splitLines b).drop n).filter (fun l => l.ending ≠ []) = (endedLines b).drop n := by
  have hall : ∀ l ∈ (endedLines b).drop n, decide (l.ending ≠ []) = true :=
    fun l hl => (List.mem_filter.mp (List.mem_of_mem_drop hl)).2
  have hnone : ∀ l ∈ (splitLines b).filter fun l => l.ending = [],
      ¬decide (l.ending ≠ []) = true := by
    intro l hl
    simpa using (List.mem_filter.mp hl).2
  rw [splitLines_ended_unended b, List.drop_append_of_le_length hn, List.filter_append,
    List.filter_eq_self.mpr hall, List.filter_eq_nil_iff.mpr hnone, List.append_nil]

/-- A line that is added is put behind what follows the last line break. -/
theorem splitLines_append_ended (b : Bytes) (hc : Unbroken c) (hne : c ≠ []) :
    splitLines (b ++ (c ++ [0x0A])) = endedLines b ++ [Line.ended (unended b ++ c)] := by
  have hline : splitLines (c ++ [0x0A]) = [Line.ended c] := splitLines_ended hc []
  unfold endedLines unended
  induction b using splitLines.induct with
  | case1 => exact hline
  | case2 rest ih =>
    rw [splitLines_crlf, List.cons_append, List.cons_append, splitLines_crlf, ih]
    rfl
  | case3 x rest hcr hx ih =>
    have hcr' : ∀ t, x :: (rest ++ (c ++ [0x0A])) ≠ 0x0D :: 0x0A :: t := by
      intro t heq
      obtain ⟨hx', hrest⟩ := List.cons.inj heq
      cases rest with
      | nil =>
        obtain ⟨y, c, rfl⟩ := List.exists_cons_of_ne_nil hne
        have hy := hc y List.mem_cons_self
        rw [(List.cons.inj hrest).1] at hy
        cases hy
      | cons y rest => exact hcr rest hx' (by rw [(List.cons.inj hrest).1])
    rw [List.cons_append, splitLines_cons hcr', if_pos hx, splitLines, if_pos hx, ih]
    · rfl
    · exact hcr
  | case4 x rest hcr hx ih =>
    have hbreak : isBreak x = false := Bool.eq_false_iff.mpr hx
    rw [List.cons_append, splitLines_unbroken hbreak, splitLines_unbroken hbreak, ih]
    cases hrest : splitLines rest with
    | nil => rfl
    | cons l lines =>
      obtain ⟨-, -, hending, -⟩ := splitLines_eq_cons hrest
      by_cases hl : l.ending = []
      · rw [hending hl]
        simp [pushByte, hl, joinLines, Line.text, Line.ended]
      · simp [pushByte, hl]

theorem unended_terminated (h : Terminated b) : unended b = [] := by
  rw [unended, List.filter_eq_nil_iff.mpr fun l hl => by simpa using ending_ne_nil h hl]
  rfl

/-! ## Lengths -/

/-- A line written with `\n` takes as many bytes as before, or one more if it had no end. -/
theorem length_ended (b : Bytes) : ((bodies b).flatMap (· ++ [0x0A])).length ≤ b.length + 1 := by
  unfold bodies
  generalize hlines : splitLines b = lines
  induction lines generalizing b with
  | nil => simp
  | cons l lines ih =>
    obtain ⟨-, -, hending, rest, hb, hrest⟩ := splitLines_eq_cons hlines
    have hle := ih rest hrest
    rw [hb, List.map_cons, List.flatMap_cons]
    simp only [Line.text, List.length_append, List.length_singleton]
    cases hl : l.ending with
    | nil => simp [hending hl]
    | cons y ending =>
      rw [List.length_cons]
      omega

theorem length_ended_terminated (h : Terminated b) :
    ((bodies b).flatMap (· ++ [0x0A])).length ≤ b.length := by
  have hlines : ∀ lines : List Line, (∀ l ∈ lines, l.ending ≠ []) →
      ((lines.map Line.body).flatMap (· ++ [0x0A])).length ≤ (joinLines lines).length := by
    intro lines hne
    induction lines with
    | nil => exact le_refl _
    | cons l lines ih =>
      obtain ⟨hl, hlines⟩ := List.forall_mem_cons.mp hne
      have hpos := List.length_pos_iff.mpr hl
      have hrest := ih hlines
      rw [joinLines_cons, List.map_cons, List.flatMap_cons]
      simp only [Line.text, List.length_append, List.length_singleton]
      omega
  have hle := hlines (splitLines b) fun l hl => ending_ne_nil h hl
  rwa [joinLines_splitLines] at hle

end EdgeFort
