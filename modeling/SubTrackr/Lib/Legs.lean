import Mathlib.Data.List.Chain
import Mathlib.Data.List.Count
import Mathlib.Order.Lattice

namespace Lib

open List

variable {α : Type}

def legs (points : List α) : List (α × α) := points.zip points.tail

def covers [LinearOrder α] (x : α) (leg : α × α) : Bool := decide (leg.1 ≤ x ∧ x ≤ leg.2)

def inner (points : List α) : List α := points.tail.dropLast

theorem legs_cons_cons (a b : α) (points : List α) : legs (a :: b :: points) = (a, b) :: legs (b :: points) := rfl

theorem inner_cons_cons (a b c : α) (points : List α) :
    inner (a :: b :: c :: points) = b :: inner (b :: c :: points) := rfl

variable [LinearOrder α] {a b x : α} {points : List α}

section

variable (sorted : (a :: points).IsChain (· ≤ ·)) (mem : x ∈ a :: points)

include sorted mem

theorem first_le : a ≤ x := by
  rcases mem_cons.mp mem with rfl | later
  · exact le_rfl
  · exact rel_of_pairwise_cons sorted.pairwise later

theorem le_last :
    x ≤ (a :: points).getLast (cons_ne_nil a points) := by
  induction points generalizing a x with
  | nil => exact (mem_singleton.mp mem).le
  | cons b points ih =>
    obtain ⟨first, rest⟩ := isChain_cons_cons.mp sorted
    rw [getLast_cons (cons_ne_nil b points)]
    rcases mem_cons.mp mem with rfl | later
    · exact first.trans (ih rest (.head _))
    · exact ih rest later

end

theorem leg_le (sorted : points.IsChain (· ≤ ·)) {leg : α × α} (mem : leg ∈ legs points) : leg.1 ≤ leg.2 := by
  induction points with
  | nil => cases mem
  | cons a points ih =>
    cases points with
    | nil => cases mem
    | cons b points =>
      obtain ⟨first, rest⟩ := isChain_cons_cons.mp sorted
      rw [legs_cons_cons] at mem
      rcases mem_cons.mp mem with rfl | later
      · exact first
      · exact ih rest later

theorem count_before (sorted : (a :: points).IsChain (· ≤ ·)) (before : x < a) :
    (legs (a :: points)).countP (covers x) = 0 ∧ (inner (a :: points)).count x = 0 := by
  constructor
  · rw [countP_eq_zero]
    intro leg mem covered
    have starts : a ≤ leg.1 := first_le sorted (of_mem_zip mem).1
    have known := of_decide_eq_true covered
    exact absurd (starts.trans known.1) (not_le.mpr before)
  · rw [count_eq_zero]
    intro mem
    have known := first_le sorted (mem_cons_of_mem _ ((dropLast_sublist _).mem mem))
    exact absurd known (not_le.mpr before)

/-- A value between the first point and the last lies in one interval, and in one more for each time that it is an inner
    point. -/
theorem countP_legs (sorted : (a :: b :: points).IsChain (· ≤ ·)) (low : a ≤ x)
    (high : x ≤ (b :: points).getLast (cons_ne_nil b points)) :
    (legs (a :: b :: points)).countP (covers x) = 1 + (inner (a :: b :: points)).count x := by
  induction points generalizing a b with
  | nil =>
    have covered : covers x (a, b) = true := decide_eq_true ⟨low, high⟩
    simp [legs, inner, covered]
  | cons c points ih =>
    obtain ⟨first, rest⟩ := isChain_cons_cons.mp sorted
    rw [legs_cons_cons, inner_cons_cons, countP_cons, count_cons]
    rcases lt_trichotomy x b with before | here | beyond
    · obtain ⟨none, absent⟩ := count_before rest before
      have covered : covers x (a, b) = true := decide_eq_true ⟨low, before.le⟩
      simp [none, absent, covered, before.ne']
    · subst here
      have covered : covers x (a, x) = true := decide_eq_true ⟨low, le_rfl⟩
      rw [ih rest le_rfl high]
      simp only [covered, if_true, BEq.rfl]
      omega
    · have uncovered : covers x (a, b) = false := decide_eq_false fun known => absurd known.2 (not_le.mpr beyond)
      rw [ih rest beyond.le high]
      simp [uncovered, beyond.ne]

theorem countP_beyond (sorted : (a :: points).IsChain (· ≤ ·))
    (beyond : (a :: points).getLast (cons_ne_nil a points) < x) : (legs (a :: points)).countP (covers x) = 0 := by
  rw [countP_eq_zero]
  intro leg mem covered
  have ends := le_last sorted (mem_cons_of_mem _ (of_mem_zip mem).2)
  have known := of_decide_eq_true covered
  exact absurd (known.2.trans ends) (not_le.mpr beyond)

end Lib
