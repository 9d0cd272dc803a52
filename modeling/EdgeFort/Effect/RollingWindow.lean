/-
Rolling windows over a log of times.

All that a rolling window asks of a clock is that readings are in order and that taking
the window's length from two of them leaves them in order.  Exact arithmetic is such
a clock, and so is a subtraction that rounds.  The window of length `w` that ends at
`t` holds the times after `t - w` up to `t`.

A log that lets a time in only while its window holds fewer than `limit` earlier ones
never holds more than `limit` times in any interval that `w` covers: the last of them
was let in, and the others were in its window.
-/
import Mathlib.Algebra.Order.Group.Unbundled.Basic
import Mathlib.Algebra.Order.Group.Defs
import Mathlib.Data.List.Count
import Mathlib.Data.List.TakeWhile
import Mathlib.Order.Basic
import Mathlib.Tactic.SplitIfs

namespace Effect

/-- Readings of type `T` in order, and lengths of type `W` that can be taken from them. -/
class LawfulClock (T W : Type) [Preorder T] [HSub T W T] : Prop where
  total : ∀ s t : T, s ≤ t ∨ t ≤ s
  sub_mono : ∀ {s t : T} (w : W), s ≤ t → s - w ≤ t - w

/-- Exact arithmetic. -/
instance {G : Type} [AddCommGroup G] [LinearOrder G] [IsOrderedAddMonoid G] : LawfulClock G G where
  total := le_total
  sub_mono w h := sub_le_sub_right h w

variable {T W : Type} [Preorder T] [HSub T W T] {limit : Int} {w : W} {s t : T}
  {log gone kept readings : List T}

/-- What has left the window at a reading has left it at every later one. -/
theorem gone_later [LawfulClock T W] (hgone : ∀ s ∈ gone, s ≤ t - w) (u : T)
    (hu : ∀ v ∈ readings ++ [t], v ≤ u) : ∀ s ∈ gone, s ≤ u - w := by
  intro s hs
  have htu : t ≤ u := hu t (List.mem_append_right _ (List.mem_singleton_self t))
  exact (hgone s hs).trans (LawfulClock.sub_mono w htu)

variable [DecidableLE T]

/-! ## Logs in order -/

/-- What is left of a log in order once its old times are dropped from the front. -/
theorem lt_of_mem_dropWhile (W : Type) [HSub T W T] [LawfulClock T W] {c : T} (hlog : log.Pairwise (· ≤ ·))
    (hs : s ∈ log.dropWhile fun r => r ≤ c) : c < s := by
  induction log with
  | nil => cases hs
  | cons r log ih =>
    obtain ⟨hr, hlog⟩ := List.pairwise_cons.mp hlog
    by_cases hle : r ≤ c
    · rw [List.dropWhile_cons, if_pos (decide_eq_true hle)] at hs
      exact ih hlog hs
    · rw [List.dropWhile_cons, if_neg (by rwa [decide_eq_true_eq])] at hs
      have hlt : c < r := lt_of_le_not_ge ((LawfulClock.total W c r).resolve_right hle) hle
      rcases List.mem_cons.mp hs with rfl | hs
      · exact hlt
      · exact hlt.trans_le (hr s hs)

theorem le_of_mem_takeWhile {c : T} (hs : s ∈ log.takeWhile fun r => r ≤ c) : s ≤ c :=
  of_decide_eq_true (List.mem_takeWhile_imp (p := fun r => decide (r ≤ c)) hs)

/-! ## Windows -/

variable [DecidableLT T]

/-- How many times of a log are in the window of length `w` that ends at `t`. -/
def inWindow (w : W) (t : T) (log : List T) : Nat :=
  log.countP fun s => t - w < s ∧ s ≤ t

/-- A log whose window holds `kept` times after those that have left it. -/
theorem inWindow_append (hgone : ∀ s ∈ gone, s ≤ t - w) (hkept : ∀ s ∈ kept, t - w < s ∧ s ≤ t) :
    inWindow w t (gone ++ kept) = kept.length := by
  have hold : gone.countP (fun s => t - w < s ∧ s ≤ t) = 0 := by
    refine List.countP_eq_zero.mpr fun s hs => ?_
    rw [decide_eq_true_eq]
    exact fun h => (lt_irrefl _ (h.1.trans_le (hgone s hs)))
  have hnew : kept.countP (fun s => t - w < s ∧ s ≤ t) = kept.length := by
    refine List.countP_eq_length.mpr fun s hs => ?_
    rw [decide_eq_true_eq]
    exact hkept s hs
  rw [inWindow, List.countP_append, hold, hnew, Nat.zero_add]

/-- The logs that the rule "fewer than `limit` in the window" builds. -/
inductive Rationed (limit : Int) (w : W) : List T → Prop
  | nil : Rationed limit w []
  | snoc {log : List T} {t : T} : Rationed limit w log → (∀ s ∈ log, s ≤ t) →
      (inWindow w t log : Int) < limit → Rationed limit w (log ++ [t])

/-- Times that lie within one window of each other are at most `limit`, or none where
the limit is negative. -/
theorem Rationed.countP_le (h : Rationed limit w log) {I : T → Bool}
    (hI : ∀ s t, I s = true → I t = true → s ≤ t → t - w < s) :
    (log.countP I : Int) ≤ max limit 0 := by
  induction h with
  | nil => exact le_max_right limit 0
  | @snoc log t _ hle hfew ih =>
    rw [List.countP_append, List.countP_singleton]
    by_cases ht : I t = true
    · have hwindow : log.countP I ≤ inWindow w t log := by
        refine List.countP_mono_left fun s hs hin => ?_
        rw [decide_eq_true_eq]
        exact ⟨hI s t hin ht (hle s hs), hle s hs⟩
      rw [if_pos ht]
      omega
    · rw [if_neg ht]
      exact ih

/-- Between `a` and `b`, where `w` covers the interval, `a` included. -/
theorem Rationed.countP_Ico_le (h : Rationed limit w log) {a b : T}
    (hab : ∀ t, t < b → t - w < a) :
    (log.countP (fun s => a ≤ s ∧ s < b) : Int) ≤ max limit 0 := by
  refine h.countP_le fun s t hs ht _ => ?_
  rw [decide_eq_true_eq] at hs ht
  exact (hab t ht.2).trans_le hs.1

/-- Between `a` and `b`, where `w` covers the interval, `b` included. -/
theorem Rationed.countP_Ioc_le [LawfulClock T W] (h : Rationed limit w log) {a b : T}
    (hab : b - w ≤ a) :
    (log.countP (fun s => a < s ∧ s ≤ b) : Int) ≤ max limit 0 := by
  refine h.countP_le fun s t hs ht _ => ?_
  rw [decide_eq_true_eq] at hs ht
  exact ((LawfulClock.sub_mono w ht.2).trans hab).trans_lt hs.1

end Effect
