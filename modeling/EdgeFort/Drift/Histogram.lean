/-
Histograms over explicit edges, as `np.histogram` counts them: each bin takes its lower
edge and not its upper one, the last bin takes both.

The edges cut a linear order between a lowest and a highest element of their own.  Edges
from the lowest to the highest cut it into disjoint bins that cover it.
-/
import Mathlib.Algebra.BigOperators.Group.List.Basic
import Mathlib.Algebra.GroupWithZero.Nat
import Mathlib.Order.WithBot
import Mathlib.Tactic.SplitIfs

namespace Histogram

/-- An edge: a value, or infinite on either side. -/
abbrev Edge (α : Type) := WithBot (WithTop α)

variable {α : Type}

def edge (v : α) : Edge α := ((v : WithTop α) : WithBot (WithTop α))

/-- Edges from a lowest one over some values to infinity. -/
def upTo (lo : Edge α) (cuts : List α) : List (Edge α) := lo :: (cuts.map edge ++ [⊤])

variable {lo : Edge α} {c v : α} {cuts : List α}

theorem upTo_nil : upTo lo ([] : List α) = [lo, ⊤] := rfl

theorem upTo_cons : upTo lo (c :: cuts) = lo :: upTo (edge c) cuts := rfl

theorem length_upTo : (upTo lo cuts).length = cuts.length + 2 := by simp [upTo]

variable [LinearOrder α]

@[simp] theorem edge_le {w : α} : edge v ≤ edge w ↔ v ≤ w := by simp [edge]

@[simp] theorem edge_lt {w : α} : edge v < edge w ↔ v < w := by simp [edge]

theorem bot_le_edge (v : α) : ⊥ ≤ edge v := bot_le

theorem edge_lt_top (v : α) : edge v < ⊤ :=
  WithBot.coe_lt_coe.mpr (WithTop.coe_lt_top v)

/-- The counts of the bins. -/
def histogram : List (Edge α) → List α → List Nat
  | lo :: hi :: rest, xs =>
    xs.countP (fun v => lo ≤ edge v ∧ (if rest = [] then edge v ≤ hi else edge v < hi)) ::
      histogram (hi :: rest) xs
  | _, _ => []

/-- Bin `i` of the edges holds the value. -/
def InBin (edges : List (Edge α)) (i : Nat) (v : α) : Prop :=
  ∃ lo hi, edges[i]? = some lo ∧ edges[i + 1]? = some hi ∧ lo ≤ edge v ∧ edge v < hi

theorem histogram_upTo_nil (lo : Edge α) (xs : List α) :
    histogram (upTo lo []) xs = [xs.countP fun v => lo ≤ edge v] := by
  simp [upTo_nil, histogram]

theorem histogram_upTo_cons (lo : Edge α) (c : α) (cuts xs : List α) :
    histogram (upTo lo (c :: cuts)) xs =
      (xs.countP fun v => lo ≤ edge v ∧ v < c) :: histogram (upTo (edge c) cuts) xs := by
  rw [upTo_cons, upTo]
  simp [histogram]

theorem length_histogram_upTo (lo : Edge α) (cuts xs : List α) :
    (histogram (upTo lo cuts) xs).length = cuts.length + 1 := by
  induction cuts generalizing lo with
  | nil => rw [histogram_upTo_nil]; rfl
  | cons c cuts ih => rw [histogram_upTo_cons, List.length_cons, ih, List.length_cons]

/-- Cutting a half-line at a value splits its count. -/
theorem countP_split (h : lo ≤ edge c) (xs : List α) :
    (xs.countP fun v => lo ≤ edge v) = (xs.countP fun v => lo ≤ edge v ∧ v < c) +
      xs.countP fun v => edge c ≤ edge v := by
  induction xs with
  | nil => rfl
  | cons v xs ih =>
    rw [List.countP_cons, List.countP_cons, List.countP_cons, ih]
    rcases lt_or_ge v c with hlt | hge
    · simp [hlt, not_le.mpr hlt]
      omega
    · have hlo : lo ≤ edge v := h.trans (edge_le.mpr hge)
      simp [hlo, hge, not_lt.mpr hge]
      omega

/-- The bins between ordered cuts take every value from the lowest edge on. -/
theorem sum_histogram_upTo (xs : List α) (hlo : ∀ c ∈ cuts, lo ≤ edge c)
    (hcuts : cuts.Pairwise (· < ·)) :
    (histogram (upTo lo cuts) xs).sum = xs.countP fun v => lo ≤ edge v := by
  induction cuts generalizing lo with
  | nil => rw [histogram_upTo_nil, List.sum_singleton]
  | cons c cuts ih =>
    obtain ⟨hc, hrest⟩ := List.pairwise_cons.mp hcuts
    rw [histogram_upTo_cons, List.sum_cons, ih (fun d hd => edge_le.mpr (hc d hd).le) hrest,
      countP_split (hlo c List.mem_cons_self)]

theorem sum_histogram (xs : List α) (hcuts : cuts.Pairwise (· < ·)) :
    (histogram (upTo ⊥ cuts) xs).sum = xs.length := by
  rw [sum_histogram_upTo xs (fun c _ => bot_le_edge c) hcuts, List.countP_eq_length]
  exact fun v _ => decide_eq_true (bot_le_edge v)

/-! ## The bins partition the line -/

theorem inBin_zero_nil : InBin (upTo lo []) 0 v ↔ lo ≤ edge v := by
  constructor
  · rintro ⟨l, h, hl, -, hle, -⟩
    obtain rfl := Option.some.inj hl
    exact hle
  · exact fun hle => ⟨lo, ⊤, rfl, rfl, hle, edge_lt_top v⟩

theorem inBin_zero_cons : InBin (upTo lo (c :: cuts)) 0 v ↔ lo ≤ edge v ∧ v < c := by
  constructor
  · rintro ⟨l, h, hl, hh, hle, hlt⟩
    obtain rfl := Option.some.inj hl
    obtain rfl := Option.some.inj hh
    exact ⟨hle, edge_lt.mp hlt⟩
  · exact fun ⟨hle, hlt⟩ => ⟨lo, edge c, rfl, rfl, hle, edge_lt.mpr hlt⟩

theorem inBin_succ_cons {i : Nat} :
    InBin (upTo lo (c :: cuts)) (i + 1) v ↔ InBin (upTo (edge c) cuts) i v := by
  rw [upTo_cons]
  exact Iff.rfl

theorem inBin_succ_nil {i : Nat} : ¬InBin (upTo lo ([] : List α)) (i + 1) v := by
  rintro ⟨l, h, -, hh, -⟩
  simp [upTo_nil] at hh

theorem InBin.le {i : Nat} (h : InBin (upTo lo cuts) i v) (hlo : ∀ c ∈ cuts, lo ≤ edge c)
    (hcuts : cuts.Pairwise (· < ·)) : lo ≤ edge v := by
  induction cuts generalizing lo i with
  | nil =>
    cases i with
    | zero => exact inBin_zero_nil.mp h
    | succ i => exact absurd h inBin_succ_nil
  | cons c cuts ih =>
    cases i with
    | zero => exact (inBin_zero_cons.mp h).1
    | succ i =>
      obtain ⟨hc, hrest⟩ := List.pairwise_cons.mp hcuts
      exact (hlo c List.mem_cons_self).trans
        (ih (inBin_succ_cons.mp h) (fun d hd => edge_le.mpr (hc d hd).le) hrest)

/-- A value from the lowest edge on is in just one bin. -/
theorem existsUnique_inBin (hv : lo ≤ edge v) (hlo : ∀ c ∈ cuts, lo ≤ edge c)
    (hcuts : cuts.Pairwise (· < ·)) : ∃! i, InBin (upTo lo cuts) i v := by
  induction cuts generalizing lo with
  | nil =>
    refine ⟨0, inBin_zero_nil.mpr hv, fun i hi => ?_⟩
    cases i with
    | zero => rfl
    | succ i => exact absurd hi inBin_succ_nil
  | cons c cuts ih =>
    obtain ⟨hc, hrest⟩ := List.pairwise_cons.mp hcuts
    have hle : ∀ d ∈ cuts, edge c ≤ edge d := fun d hd => edge_le.mpr (hc d hd).le
    rcases lt_or_ge v c with hlt | hge
    · refine ⟨0, inBin_zero_cons.mpr ⟨hv, hlt⟩, fun i hi => ?_⟩
      cases i with
      | zero => rfl
      | succ i =>
        have hcv := (inBin_succ_cons.mp hi).le hle hrest
        exact absurd (edge_le.mp hcv) (not_le.mpr hlt)
    · obtain ⟨i, hi, hunique⟩ := ih (edge_le.mpr hge) hle hrest
      refine ⟨i + 1, inBin_succ_cons.mpr hi, fun k hk => ?_⟩
      cases k with
      | zero => exact absurd (inBin_zero_cons.mp hk).2 (not_lt.mpr hge)
      | succ k => rw [hunique k (inBin_succ_cons.mp hk)]

/-- A value alone is counted in its bin. -/
theorem histogram_singleton {i : Nat} (h : InBin (upTo lo cuts) i v)
    (hlo : ∀ c ∈ cuts, lo ≤ edge c) (hcuts : cuts.Pairwise (· < ·)) :
    (histogram (upTo lo cuts) [v])[i]? = some 1 := by
  induction cuts generalizing lo i with
  | nil =>
    cases i with
    | zero => simp [histogram_upTo_nil, inBin_zero_nil.mp h]
    | succ i => exact absurd h inBin_succ_nil
  | cons c cuts ih =>
    rw [histogram_upTo_cons]
    cases i with
    | zero => simp [inBin_zero_cons.mp h]
    | succ i =>
      obtain ⟨hc, hrest⟩ := List.pairwise_cons.mp hcuts
      rw [List.getElem?_cons_succ]
      exact ih (inBin_succ_cons.mp h) (fun d hd => edge_le.mpr (hc d hd).le) hrest

end Histogram
