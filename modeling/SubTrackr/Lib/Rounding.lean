import Mathlib.Algebra.Order.Floor.Ring
import Mathlib.Tactic.Ring
import Mathlib.Tactic.Positivity

namespace Lib.Rounding

open List

variable {α : Type*} [Field α] [LinearOrder α] [IsStrictOrderedRing α] [FloorRing α] {unit x y : α}

local instance two_atLeastTwo : Nat.AtLeastTwo (nat_lit 2) := ⟨le_rfl⟩

/-- The nearest multiple of `1 / unit`, the greater one of two. -/
def halfUp (unit x : α) : α := (⌊x * unit + 1 / 2⌋ : ℤ) / unit

def OnGrid (unit x : α) : Prop := ∃ k : ℤ, x = k / unit

omit [LinearOrder α] [IsStrictOrderedRing α] [FloorRing α] in
theorem OnGrid.add (left : OnGrid unit x) (right : OnGrid unit y) : OnGrid unit (x + y) := by
  obtain ⟨k, rfl⟩ := left
  obtain ⟨l, rfl⟩ := right
  exact ⟨k + l, by rw [Int.cast_add, add_div]⟩

omit [LinearOrder α] [IsStrictOrderedRing α] [FloorRing α] in
theorem OnGrid.sub (left : OnGrid unit x) (right : OnGrid unit y) : OnGrid unit (x - y) := by
  obtain ⟨k, rfl⟩ := left
  obtain ⟨l, rfl⟩ := right
  exact ⟨k - l, by rw [Int.cast_sub, sub_div]⟩

omit [LinearOrder α] [IsStrictOrderedRing α] [FloorRing α] in
theorem OnGrid.zero : OnGrid unit 0 := ⟨0, by simp⟩

omit [LinearOrder α] [IsStrictOrderedRing α] [FloorRing α] in
theorem OnGrid.sum {xs : List α} (each : ∀ x ∈ xs, OnGrid unit x) : OnGrid unit xs.sum := by
  induction xs with
  | nil => exact .zero
  | cons x xs ih =>
    rw [sum_cons]
    exact (each x mem_cons_self).add (ih fun y mem => each y (mem_cons_of_mem _ mem))

omit [IsStrictOrderedRing α] in
theorem halfUp_onGrid : OnGrid unit (halfUp unit x) := ⟨_, rfl⟩

section

variable (pos : 0 < unit)

include pos

theorem halfUp_eq (grid : OnGrid unit x) : halfUp unit x = x := by
  obtain ⟨k, rfl⟩ := grid
  have floor : ⌊(k : α) / unit * unit + 1 / 2⌋ = k := by
    rw [div_mul_cancel₀ _ pos.ne', Int.floor_intCast_add, Int.floor_eq_zero_iff.mpr, add_zero]
    constructor <;> norm_num
  rw [halfUp, floor]

theorem le_halfUp_iff (grid : OnGrid unit y) : y ≤ halfUp unit x ↔ y ≤ x + 1 / (2 * unit) := by
  obtain ⟨k, rfl⟩ := grid
  have half : x + 1 / (2 * unit) = (x * unit + 1 / 2) / unit := by field_simp
  rw [half, halfUp, div_le_div_iff_of_pos_right pos, div_le_div_iff_of_pos_right pos, Int.cast_le, Int.le_floor]

theorem halfUp_le_iff (grid : OnGrid unit y) : halfUp unit x ≤ y ↔ x < y + 1 / (2 * unit) := by
  obtain ⟨k, rfl⟩ := grid
  have half : (k : α) / unit + 1 / (2 * unit) = (k + 1 / 2) / unit := by field_simp
  rw [half, halfUp, div_le_div_iff_of_pos_right pos, Int.cast_le, lt_div_iff₀ pos, ← Int.lt_add_one_iff, Int.floor_lt]
  push_cast
  constructor
  · intro below
    linarith
  · intro below
    linarith

theorem halfUp_nonneg (nonneg : 0 ≤ x) : 0 ≤ halfUp unit x := by
  apply div_nonneg _ pos.le
  have floor : 0 ≤ ⌊x * unit + 1 / 2⌋ := Int.floor_nonneg.mpr (by positivity)
  exact_mod_cast floor

theorem halfUp_error : |halfUp unit x - x| * unit ≤ 1 / 2 := by
  have scaled : (halfUp unit x - x) * unit = ⌊x * unit + 1 / 2⌋ - x * unit := by
    rw [halfUp, sub_mul, div_mul_cancel₀ _ pos.ne']
  have size : |halfUp unit x - x| * unit = |(halfUp unit x - x) * unit| := by
    rw [abs_mul, abs_of_pos pos]
  have lower := Int.floor_le (x * unit + 1 / 2)
  have upper := Int.lt_floor_add_one (x * unit + 1 / 2)
  rw [size, scaled, abs_le]
  constructor <;> linarith

omit [FloorRing α] in
theorem sum_error {round : α → α} (each : ∀ x, |round x - x| * unit ≤ 1 / 2) (xs : List α) :
    |(xs.map round).sum - xs.sum| * unit ≤ xs.length / 2 := by
  induction xs with
  | nil => simp
  | cons x xs ih =>
    have apart : (round x + (xs.map round).sum) - (x + xs.sum) =
        (round x - x) + ((xs.map round).sum - xs.sum) := by ring
    have total := mul_le_mul_of_nonneg_right (abs_add_le (round x - x) ((xs.map round).sum - xs.sum)) pos.le
    have first := each x
    rw [map_cons, sum_cons, sum_cons, apart, length_cons, Nat.cast_add_one]
    linarith

theorem sum_halfUp_error (xs : List α) : |(xs.map (halfUp unit)).sum - xs.sum| * unit ≤ xs.length / 2 :=
  sum_error pos (fun _ => halfUp_error pos) xs

end

/-- To the nearest multiple of `1 / unit`, and of two away from zero. -/
def halfAway (unit x : α) : α := if x < 0 then -halfUp unit |x| else halfUp unit |x|

section

variable (pos : 0 < unit)

include pos

theorem halfAway_neg (x : α) : halfAway unit (-x) = -halfAway unit x := by
  unfold halfAway
  rcases lt_trichotomy x 0 with below | rfl | above
  · rw [if_neg (by linarith), if_pos below, abs_neg, neg_neg]
  · simp [halfUp_eq pos .zero]
  · rw [if_pos (by linarith), if_neg (by linarith), abs_neg]

theorem halfAway_eq (grid : OnGrid unit x) : halfAway unit x = x := by
  unfold halfAway
  split
  · rename_i below
    have grid : OnGrid unit |x| := by
      rw [abs_of_neg below, ← zero_sub]
      exact OnGrid.zero.sub grid
    rw [halfUp_eq pos grid, abs_of_neg below, neg_neg]
  · rename_i above
    rw [abs_of_nonneg (not_lt.mp above), halfUp_eq pos grid]

omit [IsStrictOrderedRing α] pos in
theorem halfAway_onGrid : OnGrid unit (halfAway unit x) := by
  unfold halfAway
  split
  · rw [← zero_sub]
    exact OnGrid.zero.sub halfUp_onGrid
  · exact halfUp_onGrid

theorem halfAway_error : |halfAway unit x - x| * unit ≤ 1 / 2 := by
  have near := @halfUp_error _ _ _ _ _ unit |x| pos
  have same : |halfAway unit x - x| = |halfUp unit |x| - (|x|)| := by
    unfold halfAway
    split
    · rename_i below
      rw [abs_of_neg below, ← abs_neg]
      congr 1
      ring
    · rename_i above
      rw [abs_of_nonneg (not_lt.mp above)]
  rwa [same]

theorem sum_halfAway_error (xs : List α) : |(xs.map (halfAway unit)).sum - xs.sum| * unit ≤ xs.length / 2 :=
  sum_error pos (fun _ => halfAway_error pos) xs

end

end Lib.Rounding
