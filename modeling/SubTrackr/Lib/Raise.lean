import Mathlib.Algebra.Order.Group.MinMax
import Mathlib.Algebra.BigOperators.Group.List.Basic

namespace Lib

open List

section Raise

variable {α : Type} [LinearOrder α]

def raise (x : α) (levels : List α) : α := levels.foldl max x

@[simp] theorem raise_nil (x : α) : raise x [] = x := rfl

theorem raise_cons (x v : α) (levels : List α) : raise x (v :: levels) = raise (max x v) levels := rfl

theorem raise_append (x : α) (levels more : List α) : raise x (levels ++ more) = raise (raise x levels) more :=
  foldl_append ..

variable {x : α} {levels : List α}

theorem raise_le_iff {y : α} : raise x levels ≤ y ↔ x ≤ y ∧ ∀ v ∈ levels, v ≤ y := by
  induction levels generalizing x with
  | nil => simp
  | cons v levels ih =>
    rw [raise_cons, ih, max_le_iff, forall_mem_cons, and_assoc]

theorem le_raise (x : α) (levels : List α) : x ≤ raise x levels := (raise_le_iff.mp le_rfl).1

theorem level_le_raise {v : α} (mem : v ∈ levels) : v ≤ raise x levels :=
  (raise_le_iff.mp le_rfl).2 v mem

theorem le_raise_iff {y : α} : y ≤ raise x levels ↔ y ≤ x ∨ ∃ v ∈ levels, y ≤ v := by
  induction levels generalizing x with
  | nil => simp
  | cons v levels ih =>
    rw [raise_cons, ih, le_max_iff, or_assoc, exists_mem_cons_iff]

theorem raise_mono {y : α} (below : x ≤ y) (levels : List α) : raise x levels ≤ raise y levels := by
  rw [raise_le_iff]
  constructor
  · exact below.trans (le_raise y levels)
  · intro v mem
    exact level_le_raise mem

theorem raise_congr {levels' : List α} (same : ∀ v, v ∈ levels ↔ v ∈ levels') : raise x levels = raise x levels' := by
  apply eq_of_forall_ge_iff
  intro y
  rw [raise_le_iff, raise_le_iff]
  simp only [same]

theorem raise_raise_of_le {more : List α} (below : ∀ v ∈ levels, v ≤ raise x more) :
    raise (raise x levels) more = raise x more := by
  apply le_antisymm
  · rw [raise_le_iff]
    constructor
    · rw [raise_le_iff]
      exact ⟨le_raise x more, below⟩
    · intro v mem
      exact level_le_raise mem
  · exact raise_mono (le_raise x levels) more

variable [AddCommGroup α]

structure Arrival (α : Type) where
  amount : α
  levels : List α

def Arrival.apply (x : α) (a : Arrival α) : α := raise (x + a.amount) a.levels

/-- The levels of the second arrival, even with the amount of the first one on top, do not exceed what the first one
    makes of the total. -/
def Arrival.Clears (x : α) (a b : Arrival α) : Prop :=
  a.amount = 0 ∨ ∀ v ∈ b.levels, v + max a.amount 0 ≤ a.apply x

def Arrival.Compatible (x : α) (a b : Arrival α) : Prop :=
  (a.amount = 0 ∨ b.amount = 0) ∧ a.Clears x b ∧ b.Clears x a

theorem Arrival.Compatible.symm {a b : Arrival α} (compatible : a.Compatible x b) : b.Compatible x a :=
  ⟨compatible.1.symm, compatible.2.2, compatible.2.1⟩

variable {arrivals : List (Arrival α)}

theorem amount_sum (lone : arrivals.Pairwise fun a b => a.amount = 0 ∨ b.amount = 0) :
    (arrivals.map (·.amount)).sum = 0 ∨
      ∃ a ∈ arrivals, a.amount ≠ 0 ∧ (arrivals.map (·.amount)).sum = a.amount := by
  induction arrivals with
  | nil => exact .inl rfl
  | cons a arrivals ih =>
    rw [pairwise_cons] at lone
    rw [map_cons, sum_cons]
    by_cases zero : a.amount = 0
    · rw [zero, zero_add]
      rcases ih lone.2 with nothing | ⟨b, mem, nonzero, sum⟩
      · exact .inl nothing
      · exact .inr ⟨b, mem_cons_of_mem _ mem, nonzero, sum⟩
    · have rest : (arrivals.map (·.amount)).sum = 0 := by
        apply sum_eq_zero
        intro amount member
        obtain ⟨b, mem, rfl⟩ := mem_map.mp member
        exact (lone.1 b mem).resolve_left zero
      exact .inr ⟨a, mem_cons_self, zero, by rw [rest, add_zero]⟩

theorem foldl_apply_amounts (x : α) (amounts : List α) :
    (amounts.map fun amount => (⟨amount, []⟩ : Arrival α)).foldl Arrival.apply x = x + amounts.sum := by
  induction amounts generalizing x with
  | nil => simp
  | cons amount amounts ih =>
    rw [map_cons, foldl_cons, ih, sum_cons, ← add_assoc]
    rfl

theorem foldl_apply_levels (x : α) (levels : List α) :
    (levels.map fun level => (⟨0, [level]⟩ : Arrival α)).foldl Arrival.apply x = raise x levels := by
  induction levels generalizing x with
  | nil => rfl
  | cons level levels ih =>
    rw [map_cons, foldl_cons, ih, raise_cons, Arrival.apply, add_zero]
    rfl

theorem foldl_apply_of_zero (zero : ∀ a ∈ arrivals, a.amount = 0) :
    arrivals.foldl Arrival.apply x = raise x (arrivals.flatMap (·.levels)) := by
  induction arrivals generalizing x with
  | nil => rfl
  | cons a arrivals ih =>
    rw [forall_mem_cons] at zero
    rw [foldl_cons, ih zero.2, flatMap_cons, raise_append, Arrival.apply, zero.1, add_zero]

variable [IsOrderedAddMonoid α]

theorem raise_sub (x y : α) (levels : List α) : raise x levels - y = raise (x - y) (levels.map (· - y)) := by
  induction levels generalizing x with
  | nil => rfl
  | cons level levels ih => rw [raise_cons, ih, map_cons, raise_cons, max_sub_sub_right]

theorem raise_add_le {y amount : α} (start : x + amount ≤ y)
    (below : ∀ v ∈ levels, v + amount ≤ y) : raise x levels + amount ≤ y := by
  rw [← le_sub_iff_add_le, raise_le_iff]
  constructor
  · exact le_sub_iff_add_le.mpr start
  · intro v mem
    exact le_sub_iff_add_le.mpr (below v mem)

theorem Arrival.Clears.later {y : α} {a b : Arrival α} (clears : a.Clears x b) (grown : a.amount ≠ 0 → x ≤ y) :
    a.Clears y b := by
  rcases clears with zero | below
  · exact .inl zero
  · by_cases zero : a.amount = 0
    · exact .inl zero
    · right
      intro v mem
      exact (below v mem).trans (raise_mono (add_le_add_left (grown zero) _) _)

/-- Where at most one arrival adds an amount and clears the others' levels, the total is the same as if all the
    amounts came first. -/
theorem foldl_apply (compatible : arrivals.Pairwise (Arrival.Compatible x)) : arrivals.foldl Arrival.apply x =
      raise (x + (arrivals.map (·.amount)).sum) (arrivals.flatMap (·.levels)) := by
  induction arrivals generalizing x with
  | nil => simp
  | cons a arrivals ih =>
    rw [pairwise_cons] at compatible
    obtain ⟨first, rest⟩ := compatible
    have lone : arrivals.Pairwise fun a b => a.amount = 0 ∨ b.amount = 0 := rest.imp fun both => both.1
    have later : arrivals.Pairwise (Arrival.Compatible (a.apply x)) := by
      apply rest.imp_of_mem
      intro b c listedB listedC both
      have grown (d : Arrival α) (mem : d ∈ arrivals) : d.amount ≠ 0 → x ≤ a.apply x := by
        intro nonzero
        have zero := (first d mem).1.resolve_right nonzero
        unfold Arrival.apply
        rw [zero, add_zero]
        exact le_raise x a.levels
      exact ⟨both.1, both.2.1.later (grown b listedB), both.2.2.later (grown c listedC)⟩
    rw [foldl_cons, ih later, map_cons, sum_cons, flatMap_cons, raise_append]
    rcases amount_sum lone with nothing | ⟨b, mem, nonzero, sum⟩
    · rw [nothing, add_zero, add_zero]
      rfl
    · have zero := (first b mem).1.resolve_right nonzero
      have clears := (first b mem).2.2.resolve_left nonzero
      have covered : b.apply x ≤ raise (x + b.amount) (arrivals.flatMap (·.levels)) := by
        unfold Arrival.apply
        rw [raise_le_iff]
        constructor
        · exact le_raise ..
        · intro v level
          exact level_le_raise (mem_flatMap.mpr ⟨b, mem, level⟩)
      unfold Arrival.apply
      rw [sum, zero, add_zero, zero_add, raise_raise_of_le]
      · apply le_antisymm
        · rw [raise_le_iff]
          constructor
          · apply raise_add_le (le_raise ..)
            intro v level
            exact (add_le_add_right (le_max_left b.amount 0) v).trans ((clears v level).trans covered)
          · intro v level
            exact level_le_raise level
        · exact raise_mono (add_le_add_left (le_raise x a.levels) b.amount) _
      · intro v level
        have above : v ≤ v + max b.amount 0 := le_add_of_nonneg_right (le_max_right _ _)
        exact above.trans ((clears v level).trans covered)

theorem Arrival.clears_of_eq {a : Arrival α}
    (same : a.apply (raise x levels) = raise (a.apply x) levels) :
    a.amount = 0 ∨ ∀ v ∈ levels, v + max a.amount 0 ≤ a.apply x := by
  rcases lt_trichotomy a.amount 0 with negative | zero | pos
  · right
    intro v mem
    rw [max_eq_right negative.le, add_zero]
    have reached : raise x levels ≤ a.apply x ∨ raise x levels ≤ x := by
      rcases le_raise_iff.mp (le_refl (raise x levels)) with start | ⟨w, level, top⟩
      · exact .inr start
      · have above : raise x levels ≤ a.apply (raise x levels) := by
          rw [same]
          exact top.trans (level_le_raise level)
        rcases le_raise_iff.mp above with fallen | ⟨u, own, covered⟩
        · exact absurd fallen (not_le.mpr (add_lt_of_neg_right _ negative))
        · exact .inl (covered.trans (level_le_raise own))
    rcases reached with covered | start
    · exact (level_le_raise mem).trans covered
    · have top : raise x levels = x := le_antisymm start (le_raise x levels)
      rw [top] at same
      rw [same]
      exact level_le_raise mem
  · exact .inl zero
  · right
    intro v mem
    rw [max_eq_left pos.le]
    have grown : raise x levels + a.amount ≤ raise (a.apply x) levels := by
      rw [← same]
      exact le_raise _ _
    rcases le_raise_iff.mp grown with covered | ⟨u, level, covered⟩
    · exact (add_le_add_left (level_le_raise mem) a.amount).trans covered
    · have below : raise x levels + a.amount ≤ raise x levels := covered.trans (level_le_raise level)
      exact absurd below (not_le.mpr (lt_add_of_pos_right _ pos))

theorem foldl_apply_perm {order : List (Arrival α)} (permuted : order.Perm arrivals)
    (compatible : arrivals.Pairwise (Arrival.Compatible x)) :
    order.foldl Arrival.apply x = arrivals.foldl Arrival.apply x := by
  have ordered : order.Pairwise (Arrival.Compatible x) :=
    (permuted.pairwise_iff fun both => both.symm).mpr compatible
  rw [foldl_apply compatible, foldl_apply ordered, (permuted.map _).sum_eq]
  apply raise_congr
  intro v
  simp only [mem_flatMap, permuted.mem_iff]

end Raise

end Lib
