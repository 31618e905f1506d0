import Mathlib.Algebra.Order.BigOperators.Group.List
import Mathlib.Tactic.Abel
import Mathlib.Order.Interval.Finset.Nat

namespace Lib

open List

variable {κ α M : Type*} [DecidableEq κ] [AddCommMonoid M] {keys : List κ} (key : α → κ) (value : α → M)

def fiber (xs : List α) (k : κ) : M := ((xs.filter (key · = k)).map value).sum

theorem fiber_nil (k : κ) : fiber key value [] k = 0 := rfl

theorem fiber_cons (x : α) (xs : List α) (k : κ) :
    fiber key value (x :: xs) k = (if key x = k then value x else 0) + fiber key value xs k := by
  unfold fiber
  by_cases mine : key x = k
  · simp [mine]
  · simp [mine]

theorem fiber_concat (xs : List α) (x : α) (k : κ) :
    fiber key value (xs ++ [x]) k = fiber key value xs k + if key x = k then value x else 0 := by
  unfold fiber
  by_cases mine : key x = k
  · simp [mine]
  · simp [mine]

theorem fiber_of_absent {xs : List α} {k : κ} (absent : ∀ x ∈ xs, key x ≠ k) : fiber key value xs k = 0 := by
  have empty : xs.filter (key · = k) = [] := filter_eq_nil_iff.mpr fun x mem => by simpa using absent x mem
  rw [fiber, empty]
  rfl

theorem fiber_append (xs ys : List α) (k : κ) :
    fiber key value (xs ++ ys) k = fiber key value xs k + fiber key value ys k := by
  simp [fiber]

theorem fiber_perm {xs ys : List α} (perm : xs.Perm ys) (k : κ) : fiber key value xs k = fiber key value ys k :=
  ((perm.filter _).map value).sum_eq

theorem fiber_of_same {xs : List α} {k : κ} (same : ∀ x ∈ xs, key x = k) (j : κ) :
    fiber key value xs j = if k = j then (xs.map value).sum else 0 := by
  split
  · rename_i here
    rw [fiber, filter_eq_self.mpr fun x mem => by simp [same x mem, here]]
  · rename_i other
    exact fiber_of_absent key value fun x mem => same x mem ▸ other

theorem fiber_of_zero {xs : List α} (zero : ∀ x ∈ xs, value x = 0) (k : κ) : fiber key value xs k = 0 := by
  apply sum_eq_zero
  intro y member
  obtain ⟨x, mem, rfl⟩ := List.mem_map.mp member
  exact zero x (mem_filter.mp mem).1

theorem sum_indicator (nodup : keys.Nodup) (k : κ) (v : M) :
    (keys.map fun j => if k = j then v else 0).sum = if k ∈ keys then v else 0 := by
  induction keys with
  | nil => rfl
  | cons j keys ih =>
    obtain ⟨absent, nodup⟩ := nodup_cons.mp nodup
    rw [List.map_cons, List.sum_cons, ih nodup]
    by_cases same : k = j
    · subst same
      simp [absent]
    · simp [same]

theorem sum_fibers (nodup : keys.Nodup) (xs : List α) :
    (keys.map (fiber key value xs)).sum = ((xs.filter (key · ∈ keys)).map value).sum := by
  induction xs with
  | nil =>
    have zero : fiber key value [] = fun _ => 0 := funext fun k => fiber_nil key value k
    simp [zero]
  | cons x xs ih =>
    have parts : keys.map (fiber key value (x :: xs)) =
        keys.map fun k => (if key x = k then value x else 0) + fiber key value xs k :=
      map_congr_left fun k _ => fiber_cons key value x xs k
    rw [parts, sum_map_add, ih, sum_indicator nodup]
    by_cases mine : key x ∈ keys
    · simp [mine]
    · simp [mine]

theorem eq_of_fibers_eq {M : Type*} [AddCommMonoid M] [LinearOrder M] [IsOrderedCancelAddMonoid M] {ids : List κ}
    {xs ys : List M} (less : List.Forall₂ (· ≤ ·) xs ys) (length : xs.length = ids.length)
    (same : ∀ k, fiber Prod.fst Prod.snd (ids.zip xs) k = fiber Prod.fst Prod.snd (ids.zip ys) k) : xs = ys := by
  have length' : ys.length = ids.length := less.length_eq.symm.trans length
  have whole : ∀ zs : List M, zs.length = ids.length → (ids.dedup.map (fiber Prod.fst Prod.snd (ids.zip zs))).sum = zs.sum := by
    intro zs long
    have all : (ids.zip zs).filter (fun e => decide (e.1 ∈ ids.dedup)) = ids.zip zs :=
      filter_eq_self.mpr fun e mem => by simpa using (of_mem_zip mem).1
    rw [sum_fibers Prod.fst Prod.snd (nodup_dedup ids), all, map_snd_zip long.le]
  have sums : xs.sum = ys.sum := by
    rw [← whole xs length, ← whole ys length', funext same]
  clear whole same length length'
  induction less with
  | nil => rfl
  | cons first rest ih =>
    rw [List.sum_cons, List.sum_cons] at sums
    have below := rest.sum_le_sum
    have head := first.antisymm (le_of_add_le_add_right (sums.ge.trans (add_le_add_right below _)))
    rw [head] at sums ⊢
    rw [ih (add_left_cancel sums)]

end Lib

namespace Lib

variable {α ι : Type} [AddCommMonoid α] [LinearOrder α] [IsOrderedAddMonoid α] {cap a b : α}

theorem min_add_min (nonneg : 0 ≤ b) : min (min a cap + b) cap = min (a + b) cap := by
  rcases le_total a cap with low | high
  · rw [min_eq_left low]
  · have raised : cap ≤ cap + b := le_add_of_nonneg_right nonneg
    rw [min_eq_right high, min_eq_right raised, min_eq_right (raised.trans (add_le_add_left high b))]

theorem min_add_min_right (nonneg : 0 ≤ a) : min (a + min b cap) cap = min (a + b) cap := by
  rw [add_comm, min_add_min nonneg, add_comm]

theorem foldl_capped (f : ι → α) (xs : List ι) (nonneg : ∀ x ∈ xs, 0 ≤ f x) (fits : a ≤ cap) :
    xs.foldl (fun acc x => min (acc + f x) cap) a = min (a + (xs.map f).sum) cap := by
  induction xs generalizing a with
  | nil => simp [fits]
  | cons x xs ih =>
    have rest : 0 ≤ (xs.map f).sum := by
      apply List.sum_nonneg
      intro y mem
      obtain ⟨x, known, rfl⟩ := List.mem_map.mp mem
      exact nonneg x (List.mem_cons_of_mem _ known)
    rw [List.foldl_cons, ih (fun y known => nonneg y (List.mem_cons_of_mem _ known)) (min_le_right ..),
      min_add_min rest, List.map_cons, List.sum_cons, add_assoc]

theorem sum_capped (f : ι → α) (xs : List ι) (nonneg : ∀ x ∈ xs, 0 ≤ f x) (above : 0 ≤ cap) :
    min (xs.map fun x => min (f x) cap).sum cap = min (xs.map f).sum cap := by
  induction xs with
  | nil => rfl
  | cons x xs ih =>
    have first := nonneg x (.head _)
    have known : ∀ y ∈ xs, 0 ≤ f y := fun y mem => nonneg y (List.mem_cons_of_mem _ mem)
    have rest : 0 ≤ (xs.map fun x => min (f x) cap).sum := by
      apply List.sum_nonneg
      intro y mem
      obtain ⟨z, present, rfl⟩ := List.mem_map.mp mem
      exact le_min (known z present) above
    rw [List.map_cons, List.sum_cons, List.map_cons, List.sum_cons, min_add_min rest, ← min_add_min_right first,
      ih known, min_add_min_right first]

end Lib

namespace Lib.Running

variable {α : Type*} [AddCommGroup α] [PartialOrder α] [IsOrderedAddMonoid α] {before : α} {rs : List α}

def totals (before : α) : List α → List α
  | [] => []
  | r :: rest => (before + r) :: totals (before + r) rest

def excess (before : α) : List α → α
  | [] => 0
  | r :: rest => before + excess (before + r) rest

omit [PartialOrder α] [IsOrderedAddMonoid α] in
theorem sum_totals (before : α) (rs : List α) : (totals before rs).sum = rs.sum + excess before rs := by
  induction rs generalizing before with
  | nil => simp [totals, excess]
  | cons r rest ih =>
    rw [totals, excess, List.sum_cons, List.sum_cons, ih]
    abel

theorem excess_nonneg (pos : 0 ≤ before) (nonneg : ∀ r ∈ rs, 0 ≤ r) : 0 ≤ excess before rs := by
  induction rs generalizing before with
  | nil => exact le_refl _
  | cons r rest ih =>
    have first := nonneg r List.mem_cons_self
    exact add_nonneg pos (ih (add_nonneg pos first) fun r' mem => nonneg r' (List.mem_cons_of_mem _ mem))

theorem excess_eq_zero_iff (pos : 0 ≤ before) (nonneg : ∀ r ∈ rs, 0 ≤ r) :
    excess before rs = 0 ↔ rs = [] ∨ before = 0 ∧ ∀ r ∈ rs.dropLast, r = 0 := by
  induction rs generalizing before with
  | nil => simp [excess]
  | cons r rest ih =>
    have first := nonneg r List.mem_cons_self
    have others : ∀ r' ∈ rest, 0 ≤ r' := fun r' mem => nonneg r' (List.mem_cons_of_mem _ mem)
    rw [excess, add_eq_zero_iff_of_nonneg pos (excess_nonneg (add_nonneg pos first) others),
      ih (add_nonneg pos first) others]
    cases rest with
    | nil => simp
    | cons r' rest =>
      rw [List.dropLast_cons_cons, List.forall_mem_cons, add_eq_zero_iff_of_nonneg pos first]
      simp only [reduceCtorEq, false_or]
      tauto

theorem sum_totals_iff (nonneg : ∀ r ∈ rs, 0 ≤ r) : (totals 0 rs).sum = rs.sum ↔ ∀ r ∈ rs.dropLast, r = 0 := by
  rw [sum_totals, add_eq_left, excess_eq_zero_iff (le_refl 0) nonneg]
  constructor
  · rintro (rfl | ⟨-, zero⟩)
    · simp
    · exact zero
  · intro zero
    exact .inr ⟨rfl, zero⟩

omit [PartialOrder α] [IsOrderedAddMonoid α] in
theorem totals_eq (zero : ∀ r ∈ rs.dropLast, r = 0) : totals 0 rs = rs := by
  induction rs with
  | nil => rfl
  | cons r rest ih =>
    rw [totals, zero_add]
    cases rest with
    | nil => rfl
    | cons r' rest =>
      rw [List.dropLast_cons_cons, List.forall_mem_cons] at zero
      rw [zero.1, ih zero.2]

end Lib.Running

namespace Lib

def covered (intervals : List (ℕ × ℕ)) : Finset ℕ := intervals.foldr (fun p numbers => Finset.Ico p.1 p.2 ∪ numbers) ∅

theorem mem_covered {intervals : List (ℕ × ℕ)} {t : ℕ} : t ∈ covered intervals ↔ ∃ p ∈ intervals, p.1 ≤ t ∧ t < p.2 := by
  induction intervals with
  | nil => simp [covered]
  | cons p intervals ih =>
    change t ∈ Finset.Ico p.1 p.2 ∪ covered intervals ↔ _
    rw [Finset.mem_union, Finset.mem_Ico, ih]
    simp

theorem card_covered {intervals : List (ℕ × ℕ)} (disjoint : intervals.Pairwise fun p q => min p.2 q.2 ≤ max p.1 q.1) :
    (covered intervals).card = (intervals.map fun p => p.2 - p.1).sum := by
  induction intervals with
  | nil => rfl
  | cons p intervals ih =>
    obtain ⟨apart, disjoint⟩ := List.pairwise_cons.mp disjoint
    have none_shared : Disjoint (Finset.Ico p.1 p.2) (covered intervals) := by
      rw [Finset.disjoint_left]
      intro t here there
      obtain ⟨q, mem, above, below⟩ := mem_covered.mp there
      have := apart q mem
      have := Finset.mem_Ico.mp here
      omega
    change (Finset.Ico p.1 p.2 ∪ covered intervals).card = _
    rw [Finset.card_union_of_disjoint none_shared, Nat.card_Ico, ih disjoint, List.map_cons, List.sum_cons]

theorem sum_lengths_le {intervals : List (ℕ × ℕ)} {a b : ℕ} (inside : ∀ p ∈ intervals, a ≤ p.1 ∧ p.2 ≤ b)
    (disjoint : intervals.Pairwise fun p q => min p.2 q.2 ≤ max p.1 q.1) :
    (intervals.map fun p => p.2 - p.1).sum ≤ b - a := by
  have within : covered intervals ⊆ Finset.Ico a b := by
    intro t member
    obtain ⟨p, mem, above, below⟩ := mem_covered.mp member
    have := inside p mem
    exact Finset.mem_Ico.mpr (by omega)
  rw [← card_covered disjoint, ← Nat.card_Ico]
  exact Finset.card_le_card within

end Lib
