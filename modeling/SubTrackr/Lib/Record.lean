import Mathlib.Algebra.BigOperators.Group.Finset.Basic
import Mathlib.Order.Lattice.Nat

namespace Lib

open Option

structure Record (κ : Type) (ν : κ → Type) where
  keys : Finset κ
  get : (k : κ) → Option (ν k)
  listed (k : κ) : k ∈ keys ↔ (get k).isSome

namespace Record

variable {κ : Type} {ν μ : κ → Type}

@[ext] theorem ext {r s : Record κ ν} (same : ∀ k, r.get k = s.get k) : r = s := by
  obtain ⟨keys, get, mem⟩ := r
  obtain ⟨keys', get', mem'⟩ := s
  obtain rfl : get = get' := funext same
  obtain rfl : keys = keys' := by
    ext k
    rw [mem, mem']
  rfl

theorem absent {r : Record κ ν} {k : κ} (unlisted : k ∉ r.keys) : r.get k = none := by
  rw [r.listed, isSome_iff_ne_none, not_not] at unlisted
  exact unlisted

theorem present {r : Record κ ν} {k : κ} (known : k ∈ r.keys) : ∃ v, r.get k = some v :=
  isSome_iff_exists.mp ((r.listed k).mp known)

theorem mem_keys {r : Record κ ν} {k : κ} {v : ν k} (found : r.get k = some v) : k ∈ r.keys := by
  rw [r.listed, found]
  rfl

instance : EmptyCollection (Record κ ν) := ⟨⟨∅, fun _ => none, by simp⟩⟩

@[simp] theorem get_empty (k : κ) : (∅ : Record κ ν).get k = none := rfl
@[simp] theorem keys_empty : (∅ : Record κ ν).keys = ∅ := rfl

variable [DecidableEq κ]

def collect (keys : Finset κ) (find : (k : κ) → Option (ν k)) : Record κ ν where
  keys := keys.filter fun k => (find k).isSome
  get k := if k ∈ keys then find k else none
  listed k := by
    rw [Finset.mem_filter]
    split <;> simp [*]

@[simp] theorem get_collect (keys : Finset κ) (find : (k : κ) → Option (ν k)) (k : κ) :
    (collect keys find).get k = if k ∈ keys then find k else none := rfl

theorem get_collect_of {keys : Finset κ} {find : (k : κ) → Option (ν k)} {k : κ}
    (outside : k ∉ keys → find k = none) : (collect keys find).get k = find k := by
  rw [get_collect]
  split
  · rfl
  · rename_i unlisted
    rw [outside unlisted]

def map (f : (k : κ) → ν k → μ k) (r : Record κ ν) : Record κ μ := collect r.keys fun k => (r.get k).map (f k)

@[simp] theorem get_map (f : (k : κ) → ν k → μ k) (r : Record κ ν) (k : κ) : (r.map f).get k = (r.get k).map (f k) := by
  apply get_collect_of
  intro unlisted
  rw [absent unlisted, map_none]

def select (p : (k : κ) → ν k → Bool) (r : Record κ ν) : Record κ ν :=
  collect r.keys fun k => (r.get k).filter (p k)

@[simp] theorem get_select (p : (k : κ) → ν k → Bool) (r : Record κ ν) (k : κ) :
    (r.select p).get k = (r.get k).filter (p k) := by
  apply get_collect_of
  intro unlisted
  rw [absent unlisted, filter_none]

def assign (r s : Record κ ν) : Record κ ν := collect (r.keys ∪ s.keys) fun k => (s.get k).or (r.get k)

@[simp] theorem get_assign (r s : Record κ ν) (k : κ) : (r.assign s).get k = (s.get k).or (r.get k) := by
  apply get_collect_of
  intro unlisted
  rw [Finset.mem_union, not_or] at unlisted
  rw [absent unlisted.1, absent unlisted.2, or_none]

def put (r : Record κ ν) (k : κ) (v : ν k) : Record κ ν where
  keys := insert k r.keys
  get := Function.update r.get k (some v)
  listed j := by
    rw [Finset.mem_insert, r.listed]
    by_cases same : j = k
    · subst same
      simp
    · simp [same]

@[simp] theorem get_put_self (r : Record κ ν) (k : κ) (v : ν k) : (r.put k v).get k = some v :=
  Function.update_self ..

theorem get_put_of_ne (r : Record κ ν) {k j : κ} (v : ν k) (other : j ≠ k) : (r.put k v).get j = r.get j :=
  Function.update_of_ne other ..

def absorb (f : (k : κ) → Option (ν k) → μ k → ν k) (r : Record κ ν) (s : Record κ μ) : Record κ ν :=
  collect (r.keys ∪ s.keys) fun k => ((s.get k).map (f k (r.get k))).or (r.get k)

@[simp] theorem get_absorb (f : (k : κ) → Option (ν k) → μ k → ν k) (r : Record κ ν) (s : Record κ μ) (k : κ) :
    (r.absorb f s).get k = ((s.get k).map (f k (r.get k))).or (r.get k) := by
  apply get_collect_of
  intro unlisted
  rw [Finset.mem_union, not_or] at unlisted
  rw [absent unlisted.1, absent unlisted.2, map_none, or_none]

section Total

variable {α : Type} [AddCommMonoid α]

def total (r : Record κ fun _ => α) : α := ∑ k ∈ r.keys, (r.get k).getD 0

omit [DecidableEq κ] in
theorem total_eq_sum {r : Record κ fun _ => α} {keys : Finset κ} (covered : r.keys ⊆ keys) :
    r.total = ∑ k ∈ keys, (r.get k).getD 0 := by
  apply Finset.sum_subset covered
  intro k _ unlisted
  rw [absent unlisted, getD_none]

theorem total_congr {r s : Record κ fun _ => α} (same : ∀ k, (r.get k).getD 0 = (s.get k).getD 0) :
    r.total = s.total := by
  have covered : s.keys ⊆ r.keys ∪ s.keys := Finset.subset_union_right
  rw [total_eq_sum Finset.subset_union_left, total_eq_sum covered]
  exact Finset.sum_congr rfl fun k _ => same k

end Total

section Join

variable [∀ k, LinearOrder (ν k)]

def join (r s : Record κ ν) : Record κ ν :=
  collect (r.keys ∪ s.keys) fun k => (r.get k).merge max (s.get k)

@[simp] theorem get_join (r s : Record κ ν) (k : κ) : (r.join s).get k = (r.get k).merge max (s.get k) := by
  apply get_collect_of
  intro unlisted
  rw [Finset.mem_union, not_or] at unlisted
  rw [absent unlisted.1, absent unlisted.2, merge_none_left]

theorem join_comm (r s : Record κ ν) : r.join s = s.join r := by
  ext1 k
  rw [get_join, get_join, @Std.Commutative.comm _ (Option.merge max)]

@[simp] theorem empty_join (r : Record κ ν) : (∅ : Record κ ν).join r = r := by
  ext1 k
  rw [get_join, get_empty, merge_none_left]

theorem join_assoc (r s t : Record κ ν) : (r.join s).join t = r.join (s.join t) := by
  ext1 k
  simp only [get_join]
  rw [@Std.Associative.assoc _ (Option.merge max)]

@[simp] theorem join_self (r : Record κ ν) : r.join r = r := by
  ext1 k
  rw [get_join, @Std.IdempotentOp.idempotent _ (Option.merge max)]

end Join

section Largest

variable {r s : Record κ fun _ => ℕ}

def largest (r : Record κ fun _ => ℕ) : ℕ := r.keys.sup fun k => (r.get k).getD 0

omit [DecidableEq κ] in
@[simp] theorem largest_empty : (∅ : Record κ fun _ => ℕ).largest = 0 := rfl

omit [DecidableEq κ] in
omit [DecidableEq κ] in
theorem largest_le_iff {n : ℕ} : r.largest ≤ n ↔ ∀ k v, r.get k = some v → v ≤ n := by
  unfold largest
  rw [Finset.sup_le_iff]
  constructor
  · intro bounded k v found
    have := bounded k (mem_keys found)
    rwa [found] at this
  · intro bounded k known
    obtain ⟨v, found⟩ := present known
    rw [found]
    exact bounded k v found

omit [DecidableEq κ] in
theorem le_largest {k : κ} {v : ℕ} (found : r.get k = some v) : v ≤ r.largest := largest_le_iff.mp le_rfl k v found

omit [DecidableEq κ] in
theorem exists_of_lt_largest {n : ℕ} (above : n < r.largest) : ∃ k v, r.get k = some v ∧ n < v := by
  by_contra none
  push Not at none
  exact absurd (largest_le_iff.mpr none) (not_le.mpr above)

theorem largest_le_join (r s : Record κ fun _ => ℕ) : r.largest ≤ (r.join s).largest := by
  rw [largest_le_iff]
  intro k v found
  have joined := get_join r s k
  rw [found] at joined
  cases other : s.get k with
  | none =>
    rw [other, merge_none_right] at joined
    exact le_largest joined
  | some w =>
    rw [other, merge_some_some] at joined
    exact (le_max_left v w).trans (le_largest joined)

@[simp] theorem largest_join : (r.join s).largest = max r.largest s.largest := by
  apply le_antisymm
  · rw [largest_le_iff]
    intro k v found
    rw [get_join, merge_eq_some_iff] at found
    rcases found with ⟨left, -⟩ | ⟨-, right⟩ | ⟨a, b, left, right, rfl⟩
    · exact (le_largest left).trans (le_max_left ..)
    · exact (le_largest right).trans (le_max_right ..)
    · exact max_le_max (le_largest left) (le_largest right)
  · exact max_le (largest_le_join r s) (join_comm r s ▸ largest_le_join s r)

end Largest

end Record

end Lib
