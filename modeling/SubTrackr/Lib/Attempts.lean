import Mathlib.Data.List.TakeDrop
import Mathlib.Order.MinMax

namespace Lib

open List

variable {α : Type*}

/-- What has been tried, and whether the last of it was accepted. Acceptance may depend on what was tried before. -/
def tryInOrder (accepts : List α → α → Bool) : (tried : List α) → List α → List α × Bool
  | tried, [] => (tried, false)
  | tried, x :: xs => if accepts tried x then (tried ++ [x], true) else tryInOrder accepts (tried ++ [x]) xs

variable {accepts : List α → α → Bool} {tried xs : List α} {p q : α → Bool} {n : ℕ}

theorem tryInOrder_cons_of_accepts {x : α} (accepted : accepts tried x = true) :
    tryInOrder accepts tried (x :: xs) = (tried ++ [x], true) := if_pos accepted

theorem tryInOrder_cons_of_refuses {x : α} (refused : accepts tried x = false) :
    tryInOrder accepts tried (x :: xs) = tryInOrder accepts (tried ++ [x]) xs := if_neg (by simp [refused])

theorem tryInOrder_of_refuses (refuses : ∀ tried x, accepts tried x = false) :
    tryInOrder accepts tried xs = (tried ++ xs, false) := by
  induction xs generalizing tried with
  | nil => rw [tryInOrder, append_nil]
  | cons x xs ih => rw [tryInOrder_cons_of_refuses (refuses tried x), ih, append_assoc, singleton_append]

/-- Taking first and filtering afterwards gives the same exactly where nothing that is taken fails the test, or nothing
    that is left meets it. -/
theorem filter_take_eq_iff :
    (xs.take n).filter p = (xs.filter p).take n ↔ (∀ x ∈ xs.take n, p x = true) ∨ ∀ x ∈ xs.drop n, p x = false := by
  have halves : xs.filter p = (xs.take n).filter p ++ (xs.drop n).filter p := by
    rw [← filter_append, take_append_drop]
  have short : ((xs.take n).filter p).length ≤ (xs.take n).length := length_filter_le ..
  have few : (xs.take n).length ≤ n := length_take_le n xs
  constructor
  · intro same
    by_contra neither
    push Not at neither
    obtain ⟨⟨x, taken, fails⟩, y, left, meets⟩ := neither
    have strict : ((xs.take n).filter p).length ≠ (xs.take n).length := by
      intro all
      exact fails (length_filter_eq_length_iff.mp all x taken)
    have more : y ∈ (xs.drop n).filter p := mem_filter.mpr ⟨left, by simpa using meets⟩
    have counted := congrArg List.length same
    rw [halves, length_take, length_append] at counted
    have pos := length_pos_of_mem more
    omega
  · intro fine
    rw [halves]
    rcases fine with all | none
    · rw [filter_eq_self.mpr all]
      by_cases enough : n ≤ xs.length
      · rw [take_append_of_le_length (length_take_of_le enough).ge, take_take, min_self]
      · rw [drop_eq_nil_of_le (by omega), filter_nil, append_nil, take_take, min_self]
    · have nothing : (xs.drop n).filter p = [] := filter_eq_nil_iff.mpr fun x left => by simp [none x left]
      rw [nothing, append_nil, take_of_length_le (short.trans few)]

end Lib
