import Mathlib.Algebra.Order.BigOperators.Group.List
import Mathlib.Tactic.Linarith

namespace Lib.Budget

open List

variable {α : Type*} {rank : α → ℕ} {cost : α → ℤ} {items : List α} {item : α} {r r' : ℕ}

def upTo (rank : α → ℕ) (cost : α → ℤ) (items : List α) (r : ℕ) : ℤ :=
  ((items.filter fun item => rank item ≤ r).map cost).sum

theorem upTo_cons (item : α) (items : List α) (r : ℕ) :
    upTo rank cost (item :: items) r = (if rank item ≤ r then cost item else 0) + upTo rank cost items r := by
  unfold upTo
  by_cases within : rank item ≤ r
  · rw [filter_cons_of_pos (by simpa using within), if_pos within, map_cons, sum_cons]
  · rw [filter_cons_of_neg (by simpa using within), if_neg within, zero_add]

section

variable (nonneg : ∀ item ∈ items, 0 ≤ cost item)

include nonneg

theorem upTo_mono (le : r ≤ r') : upTo rank cost items r ≤ upTo rank cost items r' := by
  induction items with
  | nil => exact le_refl _
  | cons item items ih =>
    obtain ⟨first, others⟩ := forall_mem_cons.mp nonneg
    have rest := ih others
    rw [upTo_cons, upTo_cons]
    split
    · rw [if_pos (by omega)]
      omega
    · split
      · omega
      · omega

theorem upTo_le_sum : upTo rank cost items r ≤ (items.map cost).sum := by
  induction items with
  | nil => exact le_refl _
  | cons item items ih =>
    obtain ⟨first, others⟩ := forall_mem_cons.mp nonneg
    have rest := ih others
    rw [upTo_cons, map_cons, sum_cons]
    split
    · omega
    · omega

theorem upTo_add_le (mem : item ∈ items) (above : r < rank item) :
    upTo rank cost items r + cost item ≤ upTo rank cost items (rank item) := by
  induction items with
  | nil => cases mem
  | cons first items ih =>
    obtain ⟨pos, others⟩ := forall_mem_cons.mp nonneg
    rw [upTo_cons, upTo_cons]
    rcases mem_cons.mp mem with rfl | later
    · rw [if_neg (by omega), if_pos (le_refl _)]
      have rest := @upTo_mono _ rank cost items r (rank item) others (by omega)
      omega
    · have rest := ih others later
      split
      · rw [if_pos (by omega)]
        omega
      · split
        · omega
        · omega

theorem cost_le_upTo (mem : item ∈ items) : cost item ≤ upTo rank cost items (rank item) := by
  induction items with
  | nil => cases mem
  | cons first items ih =>
    obtain ⟨pos, others⟩ := forall_mem_cons.mp nonneg
    have rest : 0 ≤ upTo rank cost items (rank item) := by
      apply sum_nonneg
      intro x chosen
      obtain ⟨other, kept, rfl⟩ := mem_map.mp chosen
      exact others other (mem_filter.mp kept).1
    rw [upTo_cons]
    rcases mem_cons.mp mem with rfl | later
    · rw [if_pos (le_refl _)]
      omega
    · have rest := ih others later
      split
      · omega
      · omega

end

end Lib.Budget

namespace Lib

structure Ladder (ι α : Type*) where
  stage : ι → α
  cost : ι → ℤ
  items : List ι
  rank : α → ℕ
  top : α
  limit : ℤ
  positive : ∀ item ∈ items, 0 < cost item
  limit_pos : 0 < limit
  eq_top : ∀ a, rank top ≤ rank a → a = top
  rank_le_top : ∀ a, rank a ≤ rank top

namespace Ladder

/-- Where one is on a ladder, with the failed attempts of the stage and of all stages and the times one was moved off the
listed stages. -/
structure Position (α : Type*) where
  stage : α
  (attempts total strays : ℕ)

variable {ι α : Type*} [DecidableEq α] {L : Ladder ι α} {p q : Position α}

def budget (L : Ladder ι α) (a : α) : ℤ := ((L.items.find? fun item => L.stage item = a).map L.cost).getD L.limit

def isStray (L : Ladder ι α) (a : α) : Bool := a ≠ L.top && (L.items.find? fun item => L.stage item = a).isNone

def upTo (L : Ladder ι α) (a : α) : ℤ := Budget.upTo (fun item => L.rank (L.stage item)) L.cost L.items (L.rank a)

inductive Move (L : Ladder ι α) : Position α → Position α → Prop
  | wait (p : Position α) : Move L p p
  | fail (p : Position α) (within : (p.attempts + 1 : ℤ) < L.budget p.stage) :
      Move L p { p with attempts := p.attempts + 1, total := p.total + 1 }
  | advance (p : Position α) (item : ι) (listed : item ∈ L.items) (above : L.rank p.stage < L.rank (L.stage item)) :
      Move L p ⟨L.stage item, 0, p.total + 1, p.strays⟩
  | giveUp (p : Position α) : Move L p ⟨L.top, 0, p.total + 1, p.strays⟩
  | escalate (p : Position α) (a : α) (above : L.rank p.stage < L.rank a) :
      Move L p ⟨a, 0, p.total, p.strays + if L.isStray a then 1 else 0⟩

def Within (L : Ladder ι α) (p : Position α) : Prop :=
  p.stage = L.top ∨
    p.attempts < L.budget p.stage ∧ p.total + L.budget p.stage ≤ L.upTo p.stage + L.limit * p.strays + p.attempts

omit [DecidableEq α] in
theorem nonneg (L : Ladder ι α) : ∀ item ∈ L.items, 0 ≤ L.cost item := fun item mem => (L.positive item mem).le

omit [DecidableEq α] in
theorem upTo_mono {a b : α} (le : L.rank a ≤ L.rank b) : L.upTo a ≤ L.upTo b := Budget.upTo_mono L.nonneg le

theorem budget_cases (L : Ladder ι α) (a : α) : (∃ item ∈ L.items, L.stage item = a ∧ L.budget a = L.cost item ∧
      (L.items.find? fun item => L.stage item = a).isNone = false) ∨
    ((L.items.find? fun item => L.stage item = a).isNone = true ∧ L.budget a = L.limit) := by
  unfold budget
  cases found : L.items.find? fun item => L.stage item = a with
  | none => exact .inr ⟨rfl, rfl⟩
  | some item =>
    have same := List.find?_some found
    rw [decide_eq_true_eq] at same
    exact .inl ⟨item, List.mem_of_find?_eq_some found, same, rfl, rfl⟩

theorem known_of_mem {item : ι} (mem : item ∈ L.items) :
    (L.items.find? fun other => L.stage other = L.stage item).isNone = false := by
  cases found : L.items.find? fun other => L.stage other = L.stage item with
  | none =>
    have other := List.find?_eq_none.mp found item mem
    rw [decide_eq_true_eq] at other
    exact absurd rfl other
  | some _ => rfl

theorem budget_pos (L : Ladder ι α) (a : α) : 0 < L.budget a := by
  rcases L.budget_cases a with ⟨item, mem, -, own, -⟩ | ⟨-, other⟩
  · rw [own]
    exact L.positive item mem
  · rw [other]
    exact L.limit_pos

theorem upTo_add_budget_le {a b : α} (above : L.rank a < L.rank b) (aside : b ≠ L.top) :
    L.upTo a + L.budget b ≤ L.upTo b + L.limit * if L.isStray b then 1 else 0 := by
  unfold isStray
  rcases L.budget_cases b with ⟨item, mem, same, own, known⟩ | ⟨unknown, other⟩
  · rw [own, known]
    have climbed := @Budget.upTo_add_le _ (fun item => L.rank (L.stage item)) L.cost L.items item (L.rank a) L.nonneg mem
      (by rw [same]; exact above)
    unfold upTo
    rw [same] at climbed
    simpa using climbed
  · rw [other, unknown]
    have climbed := @upTo_mono _ _ L a b above.le
    simp [aside]
    omega

theorem Within.total_lt (within : L.Within p) (below : p.stage ≠ L.top) : p.total < L.upTo p.stage + L.limit * p.strays := by
  rcases within with top | ⟨left, spent⟩
  · exact absurd top below
  · omega

theorem within_start {item : ι} (mem : item ∈ L.items) : L.Within ⟨L.stage item, 0, 0, 0⟩ := by
  right
  rcases L.budget_cases (L.stage item) with ⟨own, member, same, budget, -⟩ | ⟨unknown, -⟩
  · have covered := @Budget.cost_le_upTo _ (fun item => L.rank (L.stage item)) L.cost L.items own L.nonneg member
    have pos := L.positive own member
    rw [same] at covered
    rw [budget]
    unfold upTo
    dsimp only
    constructor
    · omega
    · omega
  · rw [known_of_mem mem] at unknown
    cases unknown

theorem Move.rank_le (move : L.Move p q) : L.rank p.stage ≤ L.rank q.stage := by
  cases move with
  | wait => exact le_refl _
  | fail within => exact le_refl _
  | advance item mem above => exact above.le
  | giveUp => exact L.rank_le_top _
  | escalate a above => exact above.le

omit [DecidableEq α] in
theorem below_top {a b : α} (above : L.rank a < L.rank b) : a ≠ L.top := by
  intro top
  have le := L.rank_le_top b
  rw [top] at above
  omega

theorem Move.within (move : L.Move p q) (within : L.Within p) : L.Within q := by
  cases move with
  | wait => exact within
  | fail left =>
    rcases within with top | ⟨-, spent⟩
    · exact .inl top
    · right
      dsimp only
      push_cast
      constructor
      · exact left
      · omega
  | advance item mem above =>
    by_cases top : L.stage item = L.top
    · exact .inl top
    · right
      have before := within.total_lt (below_top above)
      have climbed := upTo_add_budget_le above top
      rw [isStray, known_of_mem mem, Bool.and_false, if_neg Bool.false_ne_true, mul_zero, add_zero] at climbed
      dsimp only
      push_cast
      constructor
      · exact L.budget_pos _
      · omega
  | giveUp => exact .inl rfl
  | escalate a above =>
    by_cases top : a = L.top
    · exact .inl top
    · right
      have before := within.total_lt (below_top above)
      have climbed := upTo_add_budget_le above top
      dsimp only
      push_cast
      rw [mul_add]
      constructor
      · exact L.budget_pos _
      · split at climbed
        · rename_i stray
          rw [if_pos stray]
          omega
        · rename_i known
          rw [if_neg known]
          omega

theorem Within.ends (within : L.Within p) (spent : (L.items.map L.cost).sum + L.limit * p.strays ≤ p.total) :
    p.stage = L.top := by
  by_contra below
  have total := within.total_lt below
  have bound := @Budget.upTo_le_sum _ (fun item => L.rank (L.stage item)) L.cost L.items (L.rank p.stage) L.nonneg
  unfold upTo at total
  omega

end Ladder

end Lib
