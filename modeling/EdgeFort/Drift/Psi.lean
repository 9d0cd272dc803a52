/-
The drift profile (`drift.py`), over exact numbers.

A profile cuts each column at the quantiles of a reference and scores a batch by the
population stability index of its counts.  The two outer quantiles are replaced by
infinities, so only the quantiles strictly inside a column's range cut it.
-/
import EdgeFort.Drift.Histogram
import EdgeFort.Drift.Quantile
import EdgeFort.Numpy.Array
import Mathlib.Analysis.SpecialFunctions.Log.Basic

namespace EdgeFort
namespace Drift

open Effect Histogram Quantile

structure PSIProfile where
  edges : List (List (Edge ℚ))
  expected : List (List ℚ)
  epsilon : ℚ
  deriving DecidableEq

structure DriftReport where
  meanPsi : ℝ
  maxPsi : ℝ
  fractionOverThreshold : ℝ

/-! ## `fit` -/

/-- `x[:, j]`, of finite values. -/
def column (x : NdArray PyFloat) (j : Nat) : List ℚ :=
  x.rows.map fun row => (row.getD j (.finite 0)).rat?.getD 0

/-- `np.linspace(0, 1, bins + 1)` -/
def levels (bins : Nat) : List ℚ := (List.range (bins + 1)).map fun k : Nat => (k : ℚ) / bins

/-- `np.sort` -/
def sort (xs : List ℚ) : List ℚ := xs.insertionSort (· ≤ ·)

/-- `np.unique` -/
def unique (q : List ℚ) : List ℚ := sort q.dedup

/-- `q[0] = -np.inf; q[-1] = np.inf` -/
def openEnds (q : List ℚ) : List (Edge ℚ) := ((q.map edge).set 0 ⊥).set (q.length - 1) ⊤

/-- The edges of one column. -/
def fitEdges (col : List ℚ) (bins : Nat) : List (Edge ℚ) :=
  let q := unique ((levels bins).map (quantile (sort col)))
  let q := if q.length < 2 then [col.headD 0 - 1 / 1000000, col.headD 0 + 1 / 1000000] else q
  openEnds q

/-- `counts / total` -/
def shares (counts : List Nat) (total : Nat) : List ℚ := counts.map fun c : Nat => (c : ℚ) / total

/-- The expected proportions of one column. -/
def fitExpected (edges : List (Edge ℚ)) (col : List ℚ) : List ℚ :=
  let counts := histogram edges col
  shares counts counts.sum

/-- `PSIProfile.fit` -/
def fit (x : NdArray PyFloat) (bins : Nat) : Except PyError PSIProfile :=
  match x.shape with
  | [n, d] =>
    if n < 20 ∨ ¬x.data.all PyFloat.isfinite = true then
      .error (raise .validationError "invalid drift reference")
    else
      let columns := (List.range d).map (column x)
      let edges := columns.map fun col => fitEdges col bins
      .ok {
        edges
        expected := (edges.zip columns).map fun (e, col) => fitExpected e col
        epsilon := 1 / 1000000 }
  | _ => .error (raise .validationError "invalid drift reference")

/-! ## `score` -/

/-- The proportions of a batch's column. -/
def actual (edges : List (Edge ℚ)) (col : List ℚ) : List ℚ :=
  let counts := histogram edges col
  shares counts (max 1 counts.sum)

/-- `(a - e) * np.log(a / e)` -/
noncomputable def psiTerm (a e : ℚ) : ℝ := ((a - e : ℚ) : ℝ) * Real.log ((a / e : ℚ) : ℝ)

/-- The index of one column, both proportions clipped from below. -/
noncomputable def columnPsi (epsilon : ℚ) (expected act : List ℚ) : ℝ :=
  ((act.zip expected).map fun (a, e) => psiTerm (max a epsilon) (max e epsilon)).sum

noncomputable def psis (P : PSIProfile) (x : NdArray PyFloat) : List ℝ :=
  (P.edges.zip P.expected).zipIdx.map fun ((edges, expected), j) =>
    columnPsi P.epsilon expected (actual edges (column x j))

open Classical in
/-- The report over the columns; `max` raises for none. -/
noncomputable def report (v : List ℝ) (threshold : ℚ) : Except PyError DriftReport :=
  match v with
  | [] => .error (raise .valueError (py "zero-size array to reduction operation " ++
      py "maximum which has no identity"))
  | p :: rest => .ok {
      meanPsi := (p :: rest).sum / (p :: rest).length
      maxPsi := rest.foldl max p
      fractionOverThreshold :=
        ((p :: rest).filter fun r => decide ((threshold : ℝ) < r)).length / (p :: rest).length }

/-- `PSIProfile.score` -/
noncomputable def score (P : PSIProfile) (x : NdArray PyFloat) (threshold : ℚ) :
    Except PyError DriftReport :=
  match x.shape with
  | [n, d] =>
    if n = 0 ∨ d ≠ P.edges.length ∨ ¬x.data.all PyFloat.isfinite = true then
      .error (raise .validationError "invalid drift batch")
    else report (psis P x) threshold
  | _ => .error (raise .validationError "invalid drift batch")

/-! ## The edges of a column -/

variable {col q : List ℚ} {bins : Nat}

theorem pairwise_sort (xs : List ℚ) : (sort xs).Pairwise (· ≤ ·) := List.pairwise_insertionSort _ _

theorem mem_sort {xs : List ℚ} {v : ℚ} : v ∈ sort xs ↔ v ∈ xs := List.mem_insertionSort _

theorem length_sort (xs : List ℚ) : (sort xs).length = xs.length := List.length_insertionSort _ _

theorem mem_unique {v : ℚ} : v ∈ unique q ↔ v ∈ q := mem_sort.trans List.mem_dedup

theorem pairwise_unique (q : List ℚ) : (unique q).Pairwise (· < ·) := by
  have hnodup : (unique q).Nodup := (List.perm_insertionSort _ _).nodup_iff.mpr q.nodup_dedup
  exact ((pairwise_sort q.dedup).and hnodup).imp fun h => lt_of_le_of_ne h.1 h.2

theorem mem_levels {p : ℚ} : p ∈ levels bins ↔ ∃ k ≤ bins, p = (k : ℚ) / bins := by
  simp only [levels, List.mem_map, List.mem_range, Nat.lt_succ_iff]
  exact ⟨fun ⟨k, hk, h⟩ => ⟨k, hk, h.symm⟩, fun ⟨k, hk, h⟩ => ⟨k, hk, h.symm⟩⟩

theorem level_mem {k : Nat} (hk : k ≤ bins) : 0 ≤ (k : ℚ) / bins ∧ (k : ℚ) / bins ≤ 1 :=
  ⟨by positivity, div_le_one_of_le₀ (by exact_mod_cast hk) (Nat.cast_nonneg _)⟩

theorem openEnds_eq (a b : ℚ) (m : List ℚ) : openEnds (a :: (m ++ [b])) = upTo ⊥ m := by
  simp [openEnds, upTo]

/-- The column takes two values. -/
def Varies (col : List ℚ) : Prop := ∃ a ∈ col, ∃ b ∈ col, a ≠ b

theorem Varies.smallest_lt_largest (h : Varies col) :
    sort col ≠ [] ∧ smallest (sort col) < largest (sort col) := by
  have hbounds : ∀ v ∈ col, smallest (sort col) ≤ v ∧ v ≤ largest (sort col) := by
    intro v hv
    obtain ⟨i, hi, rfl⟩ := List.getElem_of_mem (mem_sort.mpr hv)
    rw [← List.getD_eq_getElem _ 0 hi]
    exact ⟨getD_mono (pairwise_sort col) (Nat.zero_le i) hi,
      getD_mono (pairwise_sort col) (by omega) (by omega)⟩
  obtain ⟨a, ha, b, hb, hne⟩ := h
  refine ⟨List.ne_nil_of_mem (mem_sort.mpr ha), ?_⟩
  by_contra hnot
  have hsame : ∀ v ∈ col, v = smallest (sort col) := fun v hv =>
    le_antisymm ((hbounds v hv).2.trans (not_lt.mp hnot)) (hbounds v hv).1
  exact hne ((hsame a ha).trans (hsame b hb).symm)

/-- The value below the place of the `k`th of `bins` quantiles, and the one above it. -/
def below (col : List ℚ) (bins k : Nat) : ℚ :=
  (sort col).getD ⌊place col.length ((k : ℚ) / bins)⌋₊ 0

def above (col : List ℚ) (bins k : Nat) : ℚ :=
  (sort col).getD ⌈place col.length ((k : ℚ) / bins)⌉₊ 0

/-- Some quantile lies strictly inside the column's range: the value below its place is
not the largest of the column and the value above not the smallest. -/
def Interior (col : List ℚ) (bins : Nat) : Prop :=
  ∃ k, 0 < k ∧ k < bins ∧ smallest (sort col) < above col bins k ∧
    below col bins k < largest (sort col)

theorem interior_iff (bins : Nat) (hcol : Varies col) : Interior col bins ↔
    ∃ v ∈ (levels bins).map (quantile (sort col)),
      smallest (sort col) < v ∧ v < largest (sort col) := by
  obtain ⟨hne, hlt⟩ := hcol.smallest_lt_largest
  have hquantile : ∀ k ≤ bins, (smallest (sort col) < quantile (sort col) ((k : ℚ) / bins) ∧
      quantile (sort col) ((k : ℚ) / bins) < largest (sort col)) ↔
      smallest (sort col) < above col bins k ∧ below col bins k < largest (sort col) := by
    intro k hk
    rw [quantile_interior (pairwise_sort col) hne (level_mem hk).1 (level_mem hk).2, length_sort]
    rfl
  constructor
  · rintro ⟨k, -, hk, hinside⟩
    exact ⟨_, List.mem_map_of_mem (mem_levels.mpr ⟨k, hk.le, rfl⟩),
      (hquantile k hk.le).mpr hinside⟩
  · rintro ⟨v, hv, hinside⟩
    obtain ⟨p, hp, rfl⟩ := List.mem_map.mp hv
    obtain ⟨k, hk, rfl⟩ := mem_levels.mp hp
    refine ⟨k, Nat.pos_of_ne_zero ?_, lt_of_le_of_ne hk ?_, (hquantile k hk).mp hinside⟩
    · rintro rfl
      rw [Nat.cast_zero, zero_div, quantile_zero] at hinside
      exact lt_irrefl _ hinside.1
    · rintro rfl
      rcases Nat.eq_zero_or_pos k with rfl | hpos
      · rw [Nat.cast_zero, zero_div, quantile_zero] at hinside
        exact lt_irrefl _ hinside.1
      · rw [div_self (by exact_mod_cast hpos.ne'), quantile_one] at hinside
        exact lt_irrefl _ hinside.2

/-- The edges of a column that varies run from minus to plus infinity over the quantiles
strictly inside its range. -/
theorem fitEdges_eq (bins : Nat) (hcol : Varies col) : ∃ m : List ℚ, fitEdges col bins = upTo ⊥ m ∧
    m.Pairwise (· < ·) ∧ (m ≠ [] ↔ Interior col bins) := by
  obtain ⟨hne, hlt⟩ := hcol.smallest_lt_largest
  have hinterior := interior_iff bins hcol
  simp only [fitEdges]
  generalize hq : (levels bins).map (quantile (sort col)) = qs at hinterior ⊢
  have hmem : ∀ v ∈ unique qs, smallest (sort col) ≤ v ∧ v ≤ largest (sort col) := by
    intro v hv
    rw [mem_unique, ← hq] at hv
    obtain ⟨p, hp, rfl⟩ := List.mem_map.mp hv
    obtain ⟨k, hk, rfl⟩ := mem_levels.mp hp
    exact quantile_mem (pairwise_sort col) hne (level_mem hk).1 (level_mem hk).2
  rcases Nat.eq_zero_or_pos bins with rfl | hbins
  · have hone : qs = [smallest (sort col)] := by
      rw [← hq, ← quantile_zero]
      simp [levels]
    subst hone
    refine ⟨[], by simp [unique, sort, openEnds, upTo], List.Pairwise.nil, ?_⟩
    rw [hinterior]
    simp
  · have hlo : smallest (sort col) ∈ unique qs := by
      rw [mem_unique, ← hq, ← quantile_zero]
      exact List.mem_map_of_mem (mem_levels.mpr ⟨0, Nat.zero_le _, by simp⟩)
    have hhi : largest (sort col) ∈ unique qs := by
      rw [mem_unique, ← hq, ← quantile_one]
      refine List.mem_map_of_mem (mem_levels.mpr ⟨bins, le_refl _, ?_⟩)
      rw [div_self (by exact_mod_cast hbins.ne')]
    obtain ⟨m, hm, hinside⟩ := ends_of_strict (pairwise_unique qs) hlo hhi hlt hmem
    have hpairwise := pairwise_unique qs
    rw [hm] at hpairwise
    have hlen : ¬(unique qs).length < 2 := by
      rw [hm]
      simp
    refine ⟨m, ?_, ?_, ?_⟩
    · rw [if_neg hlen, hm, openEnds_eq]
    · exact (List.pairwise_append.mp (List.pairwise_cons.mp hpairwise).2).1
    · rw [hinterior]
      constructor
      · intro hmne
        obtain ⟨v, hv⟩ := List.exists_mem_of_ne_nil m hmne
        refine ⟨v, mem_unique.mp ?_, hinside v hv⟩
        rw [hm]
        exact List.mem_cons_of_mem _ (List.mem_append_left _ hv)
      · rintro ⟨v, hv, hgt, hlt⟩ rfl
        have hv := mem_unique.mpr hv
        rw [hm] at hv
        simp only [List.nil_append, List.mem_cons, List.not_mem_nil, or_false] at hv
        rcases hv with rfl | rfl
        · exact lt_irrefl _ hgt
        · exact lt_irrefl _ hlt

/-! ## The index -/

variable {a e epsilon : ℚ} {expected act : List ℚ}

theorem psiTerm_nonneg (ha : 0 < a) (he : 0 < e) : 0 ≤ psiTerm a e := by
  rcases le_total e a with hle | hle
  · refine mul_nonneg (by exact_mod_cast sub_nonneg.mpr hle) (Real.log_nonneg ?_)
    exact_mod_cast (one_le_div he).mpr hle
  · refine mul_nonneg_of_nonpos_of_nonpos (by exact_mod_cast sub_nonpos.mpr hle) ?_
    refine Real.log_nonpos ?_ ?_
    · exact_mod_cast (div_pos ha he).le
    · exact_mod_cast (div_le_one he).mpr hle

theorem psiTerm_pos (he : 0 < e) (hlt : e < a) : 0 < psiTerm a e := by
  refine mul_pos (by exact_mod_cast sub_pos.mpr hlt) (Real.log_pos ?_)
  exact_mod_cast (one_lt_div he).mpr hlt

theorem psiTerm_self (a : ℚ) : psiTerm a a = 0 := by simp [psiTerm]

/-- The index is positive where one bin's share exceeds what is expected. -/
theorem columnPsi_pos (hepsilon : 0 < epsilon) {i : Nat} (ha : act[i]? = some a)
    (he : expected[i]? = some e) (hlt : max e epsilon < a) :
    0 < columnPsi epsilon expected act := by
  have hterm : ∀ r ∈ (act.zip expected).map fun (a, e) => psiTerm (max a epsilon) (max e epsilon),
      0 ≤ r := by
    intro r hr
    obtain ⟨⟨x, y⟩, -, rfl⟩ := List.mem_map.mp hr
    exact psiTerm_nonneg (lt_max_of_lt_right hepsilon) (lt_max_of_lt_right hepsilon)
  have hpair : (act.zip expected)[i]? = some (a, e) := by
    rw [List.getElem?_zip_eq_some]
    exact ⟨ha, he⟩
  have hmem := List.mem_map_of_mem
    (f := fun (a, e) => psiTerm (max a epsilon) (max e epsilon)) (List.mem_of_getElem? hpair)
  have hpos : 0 < psiTerm (max a epsilon) (max e epsilon) := by
    rw [max_eq_left ((le_max_right e epsilon).trans hlt.le)]
    exact psiTerm_pos (lt_max_of_lt_right hepsilon) hlt
  exact lt_of_lt_of_le hpos (List.single_le_sum hterm _ hmem)

/-- Equal proportions have index zero. -/
theorem columnPsi_self (epsilon : ℚ) (expected : List ℚ) :
    columnPsi epsilon expected expected = 0 := by
  refine List.sum_eq_zero fun r hr => ?_
  obtain ⟨⟨x, y⟩, hxy, rfl⟩ := List.mem_map.mp hr
  obtain ⟨i, hi⟩ := List.getElem?_of_mem hxy
  obtain ⟨hx, hy⟩ := List.getElem?_zip_eq_some.mp hi
  have hsame : x = y := Option.some.inj (hx.symm.trans hy)
  rw [hsame]
  exact psiTerm_self _

/-! ## The proportions of a column -/

variable {m : List ℚ}

theorem sum_shares (counts : List Nat) (total : Nat) :
    (shares counts total).sum = (counts.sum : ℚ) / total := by
  induction counts with
  | nil => simp [shares]
  | cons c counts ih =>
    simp only [shares, List.map_cons, List.sum_cons, Nat.cast_add, add_div] at ih ⊢
    rw [ih]

theorem shares_nonneg (counts : List Nat) (total : Nat) : ∀ p ∈ shares counts total, 0 ≤ p := by
  intro p hp
  obtain ⟨c, -, rfl⟩ := List.mem_map.mp hp
  positivity

theorem sum_fitExpected (hm : m.Pairwise (· < ·)) (hcol : col ≠ []) :
    (fitExpected (upTo ⊥ m) col).sum = 1 := by
  rw [fitExpected, sum_shares, sum_histogram col hm, div_self]
  exact_mod_cast (List.length_pos_of_ne_nil hcol).ne'

/-- Two bins cannot both hold all of a column. -/
theorem exists_expected_lt_one (hm : m.Pairwise (· < ·)) (hne : m ≠ []) (hcol : col ≠ []) :
    ∃ i v p, InBin (upTo ⊥ m) i v ∧ (fitExpected (upTo ⊥ m) col)[i]? = some p ∧ p < 1 := by
  cases m with
  | nil => exact absurd rfl hne
  | cons c cuts =>
    have hpos : 0 < (col.length : ℚ) := by exact_mod_cast List.length_pos_of_ne_nil hcol
    have hsum := sum_histogram col hm
    have hlen := length_histogram_upTo ⊥ (c :: cuts) col
    have hshare : ∀ i k : Nat, (histogram (upTo ⊥ (c :: cuts)) col)[i]? = some k →
        (fitExpected (upTo ⊥ (c :: cuts)) col)[i]? = some ((k : ℚ) / col.length) := by
      intro i k hk
      rw [fitExpected, shares, List.getElem?_map, hk, hsum]
      rfl
    rw [histogram_upTo_cons] at hsum hlen hshare
    generalize hrest : histogram (upTo (edge c) cuts) col = counts at hsum hlen hshare
    generalize (col.countP fun v => ⊥ ≤ edge v ∧ v < c) = k at hsum hshare
    cases counts with
    | nil => simp at hlen
    | cons k' counts =>
      simp only [List.sum_cons] at hsum
      have hlength := List.length_pos_of_ne_nil hcol
      by_cases hk : k < col.length
      · refine ⟨0, c - 1, _, inBin_zero_cons.mpr ⟨bot_le_edge _, by linarith⟩, hshare 0 k rfl, ?_⟩
        rw [div_lt_one hpos]
        exact_mod_cast hk
      · refine ⟨1, c, _, inBin_succ_cons.mpr ?_, hshare 1 k' rfl, ?_⟩
        · obtain ⟨hc, -⟩ := List.pairwise_cons.mp hm
          cases cuts with
          | nil => exact inBin_zero_nil.mpr (le_refl _)
          | cons d cuts => exact inBin_zero_cons.mpr ⟨le_refl _, hc d List.mem_cons_self⟩
        · rw [div_lt_one hpos]
          exact_mod_cast (by omega : k' < col.length)

/-- A value alone takes all of its bin. -/
theorem actual_singleton (hm : m.Pairwise (· < ·)) {i : Nat} {v : ℚ} (hv : InBin (upTo ⊥ m) i v) :
    (actual (upTo ⊥ m) [v])[i]? = some 1 := by
  have hone := histogram_singleton hv (fun c _ => bot_le_edge c) hm
  rw [actual, shares, List.getElem?_map, hone, sum_histogram [v] hm]
  simp

/-! ## Profiles -/

variable {x : NdArray PyFloat} {P : PSIProfile} {n d j : Nat}

theorem fit_ok (hx : x.shape = [n, d]) (hfit : fit x bins = .ok P) :
    (20 ≤ n ∧ x.data.all PyFloat.isfinite = true) ∧ P.epsilon = 1 / 1000000 ∧
      P.edges.length = d ∧ P.expected.length = d ∧ ∀ j < d,
        P.edges[j]? = some (fitEdges (column x j) bins) ∧
        P.expected[j]? = some (fitExpected (fitEdges (column x j) bins) (column x j)) := by
  unfold fit at hfit
  rw [hx] at hfit
  simp only at hfit
  split_ifs at hfit with hcheck
  obtain rfl := Except.ok.inj hfit
  rw [not_or, not_lt, not_not] at hcheck
  refine ⟨hcheck, rfl, by simp, by simp, fun j hj => ?_⟩
  simp [List.zip_map', hj]

/-- A batch of one row, with `v` in column `j`. -/
def batchOf (d j : Nat) (v : ℚ) : NdArray PyFloat :=
  .ofRow ((List.replicate d (.finite 0)).set j (.finite v))

theorem column_batchOf (hj : j < d) (v : ℚ) : column (batchOf d j v) j = [v] := by
  simp [column, batchOf, hj, PyFloat.rat?]

theorem psis_getElem {edges : List (Edge ℚ)} {expected : List ℚ} (hedges : P.edges[j]? = some edges)
    (hexpected : P.expected[j]? = some expected) :
    (psis P x)[j]? = some (columnPsi P.epsilon expected (actual edges (column x j))) := by
  have hpair : (P.edges.zip P.expected)[j]? = some (edges, expected) :=
    List.getElem?_zip_eq_some.mpr ⟨hedges, hexpected⟩
  simp [psis, List.getElem?_map, List.getElem?_zipIdx, hpair]

theorem score_batchOf (hj : j < d) (hedges : P.edges.length = d) (hexpected : P.expected.length = d)
    (v threshold : ℚ) : ∃ r, score P (batchOf d j v) threshold = .ok r := by
  have hshape : (batchOf d j v).shape = [1, d] := by simp [batchOf]
  have hfinite : (batchOf d j v).data.all PyFloat.isfinite = true := by
    rw [List.all_eq_true]
    intro y hy
    rcases List.mem_or_eq_of_mem_set hy with hy | rfl
    · rw [List.eq_of_mem_replicate hy]
      rfl
    · rfl
  have hne : psis P (batchOf d j v) ≠ [] := by
    rw [← List.length_pos_iff]
    simp only [psis, List.length_map, List.length_zipIdx, List.length_zip]
    omega
  have hcheck : ¬((1 : Nat) = 0 ∨ d ≠ P.edges.length ∨
      ¬(batchOf d j v).data.all PyFloat.isfinite = true) := by
    simp [hedges, hfinite]
  rw [score, hshape]
  simp only
  rw [if_neg hcheck]
  cases hp : psis P (batchOf d j v) with
  | nil => exact absurd hp hne
  | cons p rest => exact ⟨_, rfl⟩

/-- Drift in a column can be observed: it has two bins, which partition the line, the
expected proportions are a distribution over them, and some batch the profile scores is
distributed otherwise and has an index other than zero. -/
structure Observable (P : PSIProfile) (j : Nat) (edges : List (Edge ℚ)) (expected : List ℚ) :
    Prop where
  bins : 3 ≤ edges.length
  partition : ∀ v : ℚ, ∃! i, InBin edges i v
  nonneg : ∀ p ∈ expected, 0 ≤ p
  sum_one : expected.sum = 1
  shifted : ∃ batch r, (∀ threshold, ∃ report, score P batch threshold = .ok report) ∧
    actual edges (column batch j) ≠ expected ∧ (psis P batch)[j]? = some r ∧ r ≠ 0

/-- A column that varies is observable if some quantile lies strictly inside its range. -/
theorem observable_of_interior (hx : x.shape = [n, d]) (hfit : fit x bins = .ok P) (hj : j < d)
    (hvaries : Varies (column x j)) (hinterior : Interior (column x j) bins) :
    Observable P j (fitEdges (column x j) bins)
      (fitExpected (fitEdges (column x j) bins) (column x j)) := by
  obtain ⟨-, hepsilon, hedges, hexpected, hcolumns⟩ := fit_ok hx hfit
  obtain ⟨hedge, hexp⟩ := hcolumns j hj
  obtain ⟨m, hm, hpairwise, hne⟩ := fitEdges_eq bins hvaries
  have hne := hne.mpr hinterior
  obtain ⟨a, ha, -⟩ := hvaries
  have hcol : column x j ≠ [] := List.ne_nil_of_mem ha
  rw [hm] at hedge hexp ⊢
  obtain ⟨i, v, p, hv, hp, hlt⟩ := exists_expected_lt_one hpairwise hne hcol
  have hone := actual_singleton hpairwise hv
  have hpsi : 0 < columnPsi P.epsilon (fitExpected (upTo ⊥ m) (column x j))
      (actual (upTo ⊥ m) [v]) := by
    refine columnPsi_pos ?_ hone hp (max_lt hlt ?_)
    · rw [hepsilon]
      norm_num
    · rw [hepsilon]
      norm_num
  refine ⟨?_, fun v => ?_, shares_nonneg _ _, sum_fitExpected hpairwise hcol, ?_⟩
  · rw [length_upTo]
    have := List.length_pos_of_ne_nil hne
    omega
  · exact existsUnique_inBin (bot_le_edge v) (fun c _ => bot_le_edge c) hpairwise
  · refine ⟨batchOf d j v, _, fun t => score_batchOf hj hedges hexpected v t, ?_,
      psis_getElem hedge hexp, ?_⟩
    · rw [column_batchOf hj]
      intro he
      rw [he] at hone
      rw [Option.some.inj (hone.symm.trans hp)] at hlt
      exact lt_irrefl p hlt
    · rw [column_batchOf hj]
      exact hpsi.ne'

theorem two_bins_iff (hvaries : Varies col) :
    3 ≤ (fitEdges col bins).length ↔ Interior col bins := by
  obtain ⟨m, hm, -, hne⟩ := fitEdges_eq bins hvaries
  rw [← hne, hm, length_upTo, ← List.length_pos_iff]
  omega

/-- In a fitted profile, drift in a column that varies can be observed just when some
quantile lies strictly inside the column's range. -/
theorem drift_observable (x : NdArray PyFloat) (bins : Nat) (P : PSIProfile) (n d j : Nat)
    (hx : x.shape = [n, d]) (hfit : fit x bins = .ok P) (hj : j < d)
    (hvaries : Varies (column x j)) :
    (∃ edges expected, P.edges[j]? = some edges ∧ P.expected[j]? = some expected ∧
      Observable P j edges expected) ↔ Interior (column x j) bins := by
  obtain ⟨-, -, -, -, hcolumns⟩ := fit_ok hx hfit
  obtain ⟨hedges, hexpected⟩ := hcolumns j hj
  constructor
  · rintro ⟨edges, expected, he, -, h⟩
    obtain rfl := Option.some.inj (he.symm.trans hedges)
    exact (two_bins_iff hvaries).mp h.bins
  · exact fun h => ⟨_, _, hedges, hexpected, observable_of_interior hx hfit hj hvaries h⟩

/-- Without such a quantile the index of the column is zero for every batch. -/
theorem psi_zero_of_not_interior (hx : x.shape = [n, d]) (hfit : fit x bins = .ok P) (hj : j < d)
    (hvaries : Varies (column x j)) (h : ¬Interior (column x j) bins) (batch : NdArray PyFloat)
    (hbatch : column batch j ≠ []) : (psis P batch)[j]? = some 0 := by
  obtain ⟨-, -, -, -, hcolumns⟩ := fit_ok hx hfit
  obtain ⟨hedges, hexpected⟩ := hcolumns j hj
  obtain ⟨m, hm, -, hne⟩ := fitEdges_eq bins hvaries
  obtain rfl : m = [] := by
    by_contra hnot
    exact h (hne.mp hnot)
  have hall : ∀ xs : List ℚ, histogram (upTo ⊥ []) xs = [xs.length] := by
    intro xs
    rw [histogram_upTo_nil, List.countP_eq_length.mpr fun v _ => decide_eq_true (bot_le_edge v)]
  have hone : ∀ xs : List ℚ, xs ≠ [] → fitExpected (upTo ⊥ []) xs = [1] ∧
      actual (upTo ⊥ []) xs = [1] := by
    intro xs hxs
    have hpos := List.length_pos_of_ne_nil hxs
    have hcast : (xs.length : ℚ) ≠ 0 := by exact_mod_cast hpos.ne'
    have hmax : max 1 xs.length = xs.length := by omega
    constructor
    · simp [fitExpected, hall, shares, div_self hcast]
    · simp [actual, hall, shares, hmax, div_self hcast]
  obtain ⟨a, ha, -⟩ := hvaries
  rw [psis_getElem hedges hexpected, hm, (hone _ (List.ne_nil_of_mem ha)).1, (hone _ hbatch).2,
    columnPsi_self]

/-! ## Columns of two values -/

namespace Sample

/-- One column, of zeros and then ones. -/
def binary (zeros ones : Nat) : NdArray PyFloat where
  shape := [zeros + ones, 1]
  data := List.replicate zeros (.finite 0) ++ List.replicate ones (.finite 1)
  size_eq := by simp

def halves : PSIProfile := ⟨[[⊥, edge (1 / 2), ⊤]], [[1 / 2, 1 / 2]], 1 / 1000000⟩

def oneBin : PSIProfile := ⟨[[⊥, ⊤]], [[1]], 1 / 1000000⟩

theorem fit_halves : fit (binary 10 10) 2 = .ok halves := by decide +kernel

theorem fit_oneBin : fit (binary 19 1) 10 = .ok oneBin := by decide +kernel

theorem varies_halves : Varies (column (binary 10 10) 0) :=
  ⟨0, by decide, 1, by decide, by decide⟩

theorem varies_oneBin : Varies (column (binary 19 1) 0) :=
  ⟨0, by decide, 1, by decide, by decide⟩

end Sample

theorem drift_observable_sample :
    (∃ edges expected, Sample.halves.edges[0]? = some edges ∧
      Sample.halves.expected[0]? = some expected ∧ Observable Sample.halves 0 edges expected) ↔
      Interior (column (Sample.binary 10 10) 0) 2 :=
  drift_observable (Sample.binary 10 10) 2 Sample.halves 20 1 0 rfl Sample.fit_halves (by decide)
    Sample.varies_halves

/-- A reference of nineteen zeros and a one leaves its column a single bin, and the index
of every batch is zero. -/
theorem drift_unobservable : fit (Sample.binary 19 1) 10 = .ok Sample.oneBin ∧
    Varies (column (Sample.binary 19 1) 0) ∧
    (¬∃ edges expected, Sample.oneBin.edges[0]? = some edges ∧
      Sample.oneBin.expected[0]? = some expected ∧ Observable Sample.oneBin 0 edges expected) ∧
    ∀ batch, column batch 0 ≠ [] → (psis Sample.oneBin batch)[0]? = some 0 := by
  have hedges : fitEdges (column (Sample.binary 19 1) 0) 10 = [⊥, ⊤] := by decide +kernel
  refine ⟨Sample.fit_oneBin, Sample.varies_oneBin, ?_, fun batch hbatch => ?_⟩
  · rintro ⟨edges, expected, he, -, h⟩
    have hbins := h.bins
    rw [← Option.some.inj he] at hbins
    simp at hbins
  · refine psi_zero_of_not_interior rfl Sample.fit_oneBin (by decide) Sample.varies_oneBin ?_
      batch hbatch
    rw [← two_bins_iff Sample.varies_oneBin, hedges]
    simp

end Drift
end EdgeFort
