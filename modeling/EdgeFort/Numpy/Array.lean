/-
NumPy arrays: a shape and the values in C order.
-/
import EdgeFort.Python.Value
import Mathlib.Algebra.BigOperators.Group.List.Basic

namespace EdgeFort

structure NdArray (α : Type) where
  shape : List Nat
  data : List α
  size_eq : data.length = shape.prod

namespace NdArray

variable {α β : Type}

/-- `a.ndim` -/
def ndim (a : NdArray α) : Nat := a.shape.length

def map (f : α → β) (a : NdArray α) : NdArray β where
  shape := a.shape
  data := a.data.map f
  size_eq := by rw [List.length_map, a.size_eq]

/-- The rows of an array of rank 2. -/
def rows (a : NdArray α) : List (List α) :=
  match a.shape with
  | [r, c] => (List.range r).map fun i => (a.data.drop (i * c)).take c
  | _ => []

/-- The array of one row. -/
def ofRow (row : List α) : NdArray α where
  shape := [1, row.length]
  data := row
  size_eq := by simp

/-- The array of rank 1. -/
def ofList (xs : List α) : NdArray α where
  shape := [xs.length]
  data := xs
  size_eq := by simp

@[simp] theorem shape_ofRow (row : List α) : (ofRow row).shape = [1, row.length] := rfl

@[simp] theorem data_ofRow (row : List α) : (ofRow row).data = row := rfl

@[simp] theorem shape_map (f : α → β) (a : NdArray α) : (a.map f).shape = a.shape := rfl

@[simp] theorem data_map (f : α → β) (a : NdArray α) : (a.map f).data = a.data.map f := rfl

@[simp] theorem rows_ofRow (row : List α) : (ofRow row).rows = [row] := by
  simp [rows, List.range_succ]

theorem length_data {a : NdArray α} {r c : Nat} (h : a.shape = [r, c]) : a.data.length = r * c := by
  rw [a.size_eq, h]
  simp

theorem mem_rows {a : NdArray α} {r c : Nat} (h : a.shape = [r, c]) {row : List α} :
    row ∈ a.rows ↔ ∃ i < r, row = (a.data.drop (i * c)).take c := by
  rw [rows, h]
  simp only [List.mem_map, List.mem_range]
  exact ⟨fun ⟨i, hi, hrow⟩ => ⟨i, hi, hrow.symm⟩, fun ⟨i, hi, hrow⟩ => ⟨i, hi, hrow.symm⟩⟩

/-- Every row has one value for each column. -/
theorem length_of_mem_rows {a : NdArray α} {r c : Nat} (h : a.shape = [r, c]) {row : List α}
    (hrow : row ∈ a.rows) : row.length = c := by
  obtain ⟨i, hi, rfl⟩ := (mem_rows h).mp hrow
  have hsize := length_data h
  have hle : i * c + c ≤ r * c := by
    have := Nat.mul_le_mul_right c (Nat.succ_le_of_lt hi)
    rwa [Nat.succ_mul] at this
  rw [List.length_take, List.length_drop]
  omega

theorem mem_data_of_mem_rows {a : NdArray α} {row : List α} (hrow : row ∈ a.rows) {x : α}
    (hx : x ∈ row) : x ∈ a.data := by
  unfold rows at hrow
  split at hrow
  · obtain ⟨i, -, rfl⟩ := List.mem_map.mp hrow
    exact List.mem_of_mem_drop (List.mem_of_mem_take hx)
  · cases hrow

theorem length_rows {a : NdArray α} {r c : Nat} (h : a.shape = [r, c]) : a.rows.length = r := by
  rw [rows, h]
  simp

/-! ## Operations on rows -/

theorem length_flatten {c : Nat} {l : List (List α)} (hl : ∀ row ∈ l, row.length = c) :
    l.flatten.length = l.length * c := by
  rw [List.length_flatten, List.map_congr_left hl]
  simp

/-- The slices of the joined rows are the rows. -/
theorem slices_flatten {c : Nat} {l : List (List α)} (hl : ∀ row ∈ l, row.length = c) :
    (List.range l.length).map (fun i => (l.flatten.drop (i * c)).take c) = l := by
  induction l with
  | nil => rfl
  | cons row l ih =>
    obtain ⟨hrow, hl⟩ := List.forall_mem_cons.mp hl
    have hnext : ∀ i, ((row ++ l.flatten).drop ((i + 1) * c)).take c =
        (l.flatten.drop (i * c)).take c := by
      intro i
      rw [Nat.succ_mul, Nat.add_comm, ← List.drop_drop, List.drop_left' hrow]
    rw [List.length_cons, List.range_succ_eq_map, List.map_cons, List.map_map, List.flatten_cons,
      Nat.zero_mul, List.drop_zero, List.take_left' hrow]
    congr 1
    exact (List.map_congr_left fun i _ => hnext i).trans (ih hl)

theorem length_of_mem_map {f : List α → List β} (hf : ∀ row, (f row).length = row.length)
    {a : NdArray α} {r c : Nat} (h : a.shape = [r, c]) :
    ∀ row ∈ a.rows.map f, row.length = c := by
  intro _ hmap
  obtain ⟨row, hrow, rfl⟩ := List.mem_map.mp hmap
  rw [hf, length_of_mem_rows h hrow]

/-- An operation on each row that keeps its length. -/
def mapRows (f : List α → List β) (hf : ∀ row, (f row).length = row.length) (a : NdArray α)
    {r c : Nat} (h : a.shape = [r, c]) : NdArray β where
  shape := [r, c]
  data := (a.rows.map f).flatten
  size_eq := by
    rw [length_flatten (length_of_mem_map hf h), List.length_map, length_rows h]
    simp

theorem rows_mapRows {f : List α → List β} {hf : ∀ row, (f row).length = row.length}
    {a : NdArray α} {r c : Nat} (h : a.shape = [r, c]) :
    (a.mapRows f hf h).rows = a.rows.map f := by
  have hlength : (a.rows.map f).length = r := by rw [List.length_map, length_rows h]
  calc (a.mapRows f hf h).rows = (List.range r).map fun i =>
        ((a.rows.map f).flatten.drop (i * c)).take c := rfl
    _ = a.rows.map f := by
      rw [← hlength]
      exact slices_flatten (length_of_mem_map hf h)

end NdArray

end EdgeFort
