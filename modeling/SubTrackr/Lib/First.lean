import Mathlib.Data.List.Basic
import Mathlib.Data.List.Count

namespace Lib

open List

variable {α : Type*} {p q : α → Bool} {f : α → α} {xs : List α}

def modifyFirst (p : α → Bool) (f : α → α) (xs : List α) : List α := xs.modify (xs.findIdx p) f

theorem modifyFirst_cons (p : α → Bool) (f : α → α) (x : α) (xs : List α) :
    modifyFirst p f (x :: xs) = if p x then f x :: xs else x :: modifyFirst p f xs := by
  unfold modifyFirst
  rw [findIdx_cons]
  cases meets : p x with
  | true => rfl
  | false => rfl

theorem forall_mem_modifyFirst {Q : α → Prop} (before : ∀ x ∈ xs, Q x) :
    (∀ x ∈ modifyFirst p f xs, Q x) ↔ ∀ x, xs.find? p = some x → Q (f x) := by
  induction xs with
  | nil => simp [modifyFirst]
  | cons x xs ih =>
    obtain ⟨first, others⟩ := forall_mem_cons.mp before
    rw [modifyFirst_cons, find?_cons]
    cases meets : p x with
    | true =>
      rw [if_pos rfl, forall_mem_cons]
      constructor
      · intro after x' found
        cases found
        exact after.1
      · intro after
        exact ⟨after x rfl, others⟩
    | false =>
      rw [if_neg Bool.false_ne_true, forall_mem_cons, ← ih others]
      constructor
      · intro after
        exact after.2
      · intro after
        exact ⟨first, after⟩

theorem countP_modifyFirst_le (none_gained : ∀ x, q (f x) = true → q x = true) :
    (modifyFirst p f xs).countP q ≤ xs.countP q := by
  induction xs with
  | nil => exact Nat.le_refl _
  | cons x xs ih =>
    rw [modifyFirst_cons]
    split
    · rw [countP_cons, countP_cons]
      have first := none_gained x
      split
      · rename_i after
        have before : (if q x = true then 1 else 0) = 1 := if_pos (first after)
        omega
      · omega
    · rw [countP_cons, countP_cons]
      omega

end Lib
