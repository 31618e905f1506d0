import Mathlib.Algebra.BigOperators.Group.List.Basic
import Mathlib.Tactic.Linarith

namespace Lib

open List

variable {α : Type*}

structure Draw (α : Type*) [AddCommGroup α] [LinearOrder α] where
  take : α → α
  nonneg : ∀ r, 0 ≤ r → 0 ≤ take r
  le : ∀ r, 0 ≤ r → take r ≤ r
  mono : ∀ r g, 0 ≤ r → r ≤ g → take r ≤ take g
  left_mono : ∀ r g, 0 ≤ r → r ≤ g → r - take r ≤ g - take g

def totalDemand [Zero α] [Add α] : List (Option α) → Option α
  | [] => some 0
  | demand :: demands => demand.bind fun a => (totalDemand demands).map (a + ·)

theorem totalDemand_cons_eq_some [Zero α] [Add α] {demand : Option α} {demands : List (Option α)} {a : α} :
    totalDemand (demand :: demands) = some a ↔ ∃ b, demand = some b ∧ ∃ c, totalDemand demands = some c ∧ b + c = a := by
  simp [totalDemand, Option.bind_eq_some_iff]

theorem totalDemand_perm [AddCommMonoid α] {demands demands' : List (Option α)} (perm : demands.Perm demands') :
    totalDemand demands = totalDemand demands' := by
  induction perm with
  | nil => rfl
  | cons demand _ ih => rw [totalDemand, totalDemand, ih]
  | swap first second demands =>
    ext a
    simp only [totalDemand_cons_eq_some]
    constructor
    · rintro ⟨b, own, _, ⟨c, own', e, others, rfl⟩, rfl⟩
      exact ⟨c, own', b + e, ⟨b, own, e, others, rfl⟩, add_left_comm c b e⟩
    · rintro ⟨c, own', _, ⟨b, own, e, others, rfl⟩, rfl⟩
      exact ⟨b, own, c + e, ⟨c, own', e, others, rfl⟩, add_left_comm b c e⟩
  | trans _ _ ih ih' => exact ih.trans ih'

namespace Draw

section Group

variable [AddCommGroup α] [LinearOrder α] [IsOrderedAddMonoid α] {d : Draw α} {ds : List (Draw α)} {r g a : α}
  {demand : Option α} {demands : List (Option α)}

omit [IsOrderedAddMonoid α] in
theorem take_zero (d : Draw α) : d.take 0 = 0 := le_antisymm (d.le 0 le_rfl) (d.nonneg 0 le_rfl)

theorem left_nonneg (d : Draw α) (nonneg : 0 ≤ r) : 0 ≤ r - d.take r := sub_nonneg.mpr (d.le r nonneg)

def shares : List (Draw α) → α → List α
  | [], _ => []
  | d :: ds, r => d.take r :: shares ds (r - d.take r)

theorem sum_shares_bounds (nonneg : 0 ≤ r) : 0 ≤ (shares ds r).sum ∧ (shares ds r).sum ≤ r := by
  induction ds generalizing r with
  | nil => exact ⟨le_rfl, nonneg⟩
  | cons d ds ih =>
    obtain ⟨low, high⟩ := ih (d.left_nonneg nonneg)
    rw [shares, sum_cons]
    constructor
    · exact add_nonneg (d.nonneg r nonneg) low
    · calc d.take r + (shares ds (r - d.take r)).sum ≤ d.take r + (r - d.take r) := by gcongr
        _ = r := add_sub_cancel _ _

theorem sum_shares_mono (nonneg : 0 ≤ r) (more : r ≤ g) :
    (shares ds r).sum ≤ (shares ds g).sum ∧ r - (shares ds r).sum ≤ g - (shares ds g).sum := by
  induction ds generalizing r g with
  | nil => exact ⟨le_rfl, by simpa [shares] using more⟩
  | cons d ds ih =>
    obtain ⟨taken, left⟩ := ih (d.left_nonneg nonneg) (d.left_mono r g nonneg more)
    rw [shares, shares, sum_cons, sum_cons]
    constructor
    · exact add_le_add (d.mono r g nonneg more) taken
    · rwa [← sub_sub, ← sub_sub]

def all (ds : List (Draw α)) : Draw α where
  take r := (shares ds r).sum
  nonneg _ nonneg := (sum_shares_bounds nonneg).1
  le _ nonneg := (sum_shares_bounds nonneg).2
  mono _ _ nonneg more := (sum_shares_mono nonneg more).1
  left_mono _ _ nonneg more := (sum_shares_mono nonneg more).2

theorem sum_shares_zero (ds : List (Draw α)) : (shares ds 0).sum = 0 := (all ds).take_zero

omit [IsOrderedAddMonoid α] in
theorem shares_zero (ds : List (Draw α)) : shares ds 0 = ds.map (·.take 0) := by
  induction ds with
  | nil => rfl
  | cons d ds ih => rw [shares, d.take_zero, sub_zero, ih, map_cons, d.take_zero]

omit [IsOrderedAddMonoid α] in
theorem eq_zero_of_mem_shares_zero (mem : a ∈ shares ds 0) : a = 0 := by
  rw [shares_zero] at mem
  obtain ⟨d, -, rfl⟩ := mem_map.mp mem
  exact d.take_zero

omit [IsOrderedAddMonoid α] in
theorem length_shares (ds : List (Draw α)) (r : α) : (shares ds r).length = ds.length := by
  induction ds generalizing r with
  | nil => rfl
  | cons d ds ih => rw [shares, length_cons, ih, length_cons]

theorem shares_le (nonneg : 0 ≤ r) (more : r ≤ g) : List.Forall₂ (· ≤ ·) (shares ds r) (ds.map (·.take g)) := by
  induction ds generalizing r with
  | nil => exact .nil
  | cons d ds ih =>
    have less : r - d.take r ≤ g := (sub_le_self _ (d.nonneg r nonneg)).trans more
    exact .cons (d.mono r g nonneg more) (ih (d.left_nonneg nonneg) less)

structure Demands (d : Draw α) (demand : Option α) : Prop where
  nonneg : ∀ a, demand = some a → 0 ≤ a
  met : ∀ a r, demand = some a → a ≤ r → d.take r = a
  fixed : ∀ r g, 0 ≤ r → r < g → d.take r = d.take g → ∃ a, demand = some a ∧ a ≤ r

omit [IsOrderedAddMonoid α] in
theorem Demands.take_eq_iff (demands : Demands d demand) (nonneg : 0 ≤ r) (more : r < g) :
    d.take r = d.take g ↔ ∃ a, demand = some a ∧ a ≤ r := by
  constructor
  · exact demands.fixed r g nonneg more
  · rintro ⟨a, fixed, enough⟩
    rw [demands.met a r fixed enough, demands.met a g fixed (enough.trans more.le)]

omit [IsOrderedAddMonoid α] in
theorem Demands.take_eq_zero_iff (demands : Demands d demand) (pos : 0 < g) : d.take g = 0 ↔ demand = some 0 := by
  constructor
  · intro nothing
    obtain ⟨a, fixed, little⟩ := demands.fixed 0 g le_rfl pos (d.take_zero.trans nothing.symm)
    rw [fixed, le_antisymm little (demands.nonneg a fixed)]
  · intro fixed
    exact demands.met 0 g fixed pos.le

section

variable (each : List.Forall₂ Demands ds demands)

include each

theorem totalDemand_nonneg (fixed : totalDemand demands = some a) : 0 ≤ a := by
  induction each generalizing a with
  | nil =>
    cases fixed
    exact le_rfl
  | cons first _ ih =>
    obtain ⟨b, own, c, others, rfl⟩ := totalDemand_cons_eq_some.mp fixed
    exact add_nonneg (first.nonneg b own) (ih others)

theorem totalDemand_met (fixed : totalDemand demands = some a) (enough : a ≤ r) : (shares ds r).sum = a := by
  induction each generalizing a r with
  | nil =>
    cases fixed
    rfl
  | cons first rest ih =>
    obtain ⟨b, own, c, others, rfl⟩ := totalDemand_cons_eq_some.mp fixed
    have room : b ≤ r := (le_add_of_nonneg_right (totalDemand_nonneg rest others)).trans enough
    rw [shares, sum_cons, first.met b r own room, ih others (le_sub_iff_add_le'.mpr enough)]

theorem shares_eq_iff (nonneg : 0 ≤ r) (more : r < g) :
    shares ds r = ds.map (·.take g) ↔ ∃ a, totalDemand demands = some a ∧ a ≤ r := by
  induction each generalizing r with
  | nil => simp [shares, totalDemand, nonneg]
  | @cons d demand ds demands first rest ih =>
    have less : r - d.take r < g := (sub_le_self _ (d.nonneg r nonneg)).trans_lt more
    rw [shares, map_cons, List.cons.injEq, first.take_eq_iff nonneg more, ih (d.left_nonneg nonneg) less]
    constructor
    · rintro ⟨⟨b, own, room⟩, c, others, fits⟩
      rw [first.met b r own room] at fits
      exact ⟨b + c, totalDemand_cons_eq_some.mpr ⟨b, own, c, others, rfl⟩, le_sub_iff_add_le'.mp fits⟩
    · rintro ⟨a, fixed, enough⟩
      obtain ⟨b, own, c, others, rfl⟩ := totalDemand_cons_eq_some.mp fixed
      have room : b ≤ r := (le_add_of_nonneg_right (totalDemand_nonneg rest others)).trans enough
      refine ⟨⟨b, own, room⟩, c, others, ?_⟩
      rw [first.met b r own room]
      exact le_sub_iff_add_le'.mpr enough

theorem Demands.all : Demands (Draw.all ds) (totalDemand demands) := by
  constructor
  · intro a fixed
    exact totalDemand_nonneg each fixed
  · intro a r fixed enough
    exact totalDemand_met each fixed enough
  · intro r g nonneg more same
    change (shares _ r).sum = (shares _ g).sum at same
    induction each generalizing r g with
    | nil => exact ⟨0, rfl, nonneg⟩
    | @cons d demand ds demands first rest ih =>
      -- the first claim and the others both take more of more, so that both of them take the same
      have grows := d.mono r g nonneg more.le
      have left := d.left_mono r g nonneg more.le
      have others_grow : (shares ds _).sum ≤ (shares ds _).sum := (sum_shares_mono (d.left_nonneg nonneg) left).1
      rw [shares, shares, sum_cons, sum_cons] at same
      have own : d.take r = d.take g := by
        by_contra other
        exact (add_lt_add_of_lt_of_le (lt_of_le_of_ne grows other) others_grow).ne same
      obtain ⟨b, fixed, room⟩ := first.fixed r g nonneg more own
      rw [← own] at same
      obtain ⟨c, others, fits⟩ := ih (r - d.take r) (g - d.take r) (d.left_nonneg nonneg) (sub_lt_sub_right more _)
        (add_left_cancel same)
      rw [first.met b r fixed room] at fits
      exact ⟨b + c, totalDemand_cons_eq_some.mpr ⟨b, fixed, c, others, rfl⟩, le_sub_iff_add_le'.mp fits⟩

end

def ofAmount (a : α) (positive : 0 ≤ a) : Draw α where
  take r := min a r
  nonneg _ nonneg := le_min positive nonneg
  le _ _ := min_le_right ..
  mono _ _ _ more := min_le_min le_rfl more
  left_mono r g _ more := by
    rcases le_total r a with low | high
    · rw [min_eq_right low, sub_self]
      exact sub_nonneg.mpr (min_le_right ..)
    · rw [min_eq_left high, min_eq_left (high.trans more)]
      exact sub_le_sub_right more a

theorem ofAmount_demands (pos : 0 ≤ a) : Demands (ofAmount a pos) (some a) := by
  constructor
  · rintro b ⟨⟩
    exact pos
  · rintro b r ⟨⟩ enough
    exact min_eq_left enough
  · intro r g _ more same
    refine ⟨a, rfl, ?_⟩
    by_contra little
    rw [not_le] at little
    change min a r = min a g at same
    rw [min_eq_right little.le] at same
    exact (lt_min little more).ne same

end Group

section Ring

variable [Ring α] [LinearOrder α] [IsStrictOrderedRing α] {p : α}

def ofRate (p : α) (low : 0 ≤ p) (high : p ≤ 1) : Draw α where
  take r := r * p
  nonneg _ nonneg := mul_nonneg nonneg low
  le _ nonneg := mul_le_of_le_one_right nonneg high
  mono _ _ _ more := mul_le_mul_of_nonneg_right more low
  left_mono r g _ more := by
    have parts : ∀ x : α, x - x * p = x * (1 - p) := fun x => by rw [mul_sub, mul_one]
    rw [parts, parts]
    exact mul_le_mul_of_nonneg_right more (sub_nonneg.mpr high)

theorem ofRate_demands (low : 0 ≤ p) (high : p ≤ 1) : Demands (ofRate p low high) (if p = 0 then some 0 else none) := by
  constructor
  · intro a fixed
    split at fixed
    · cases fixed
      exact le_rfl
    · cases fixed
  · intro a r fixed _
    split at fixed
    · rename_i nothing
      cases fixed
      exact (congrArg (r * ·) nothing).trans (mul_zero r)
    · cases fixed
  · intro r g nonneg more same
    refine ⟨0, if_pos ?_, nonneg⟩
    by_contra some
    exact (mul_lt_mul_of_pos_right more (lt_of_le_of_ne low (Ne.symm some))).ne same

end Ring

end Draw

end Lib
