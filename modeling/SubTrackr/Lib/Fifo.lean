import Mathlib.Algebra.BigOperators.Group.List.Basic
import Mathlib.Algebra.Order.Ring.Int

namespace Lib

open List

variable {α β : Type}

def total (holds : α → Int) (queue : List α) : Int := (queue.map holds).sum

/-- Takes up to `asked` from a queue, front first, and says what it could not take. -/
def draw (holds : α → Int) (reduce : α → Int → α) : List α → Int → List α × Int
  | [], asked => ([], asked)
  | a :: queue, asked =>
    let taken := min (holds a) asked
    let rest := draw holds reduce queue (asked - taken)
    (reduce a taken :: rest.1, rest.2)

structure Drawable (holds : α → Int) (reduce : α → Int → α) : Prop where
  nonneg : ∀ a, 0 ≤ holds a
  reduced : ∀ a taken, 0 ≤ taken → taken ≤ holds a → holds (reduce a taken) = holds a - taken

variable {holds : α → Int} {reduce : α → Int → α}

@[simp] theorem total_nil : total holds [] = 0 := rfl

@[simp] theorem total_cons (a : α) (queue : List α) : total holds (a :: queue) = holds a + total holds queue :=
  sum_cons

@[simp] theorem total_append (queue more : List α) :
    total holds (queue ++ more) = total holds queue + total holds more := by
  unfold total
  rw [map_append, sum_append]

theorem total_nonneg (nonneg : ∀ a, 0 ≤ holds a) (queue : List α) : 0 ≤ total holds queue := by
  induction queue with
  | nil => exact le_rfl
  | cons a queue ih =>
    have first := nonneg a
    rw [total_cons]
    omega

theorem draw_take (drawable : Drawable holds reduce) (queue : List α) {asked : Int} (pos : 0 ≤ asked) (n : Nat) :
    total holds ((draw holds reduce queue asked).1.take n) =
      total holds (queue.take n) - min asked (total holds (queue.take n)) := by
  induction queue generalizing asked n with
  | nil =>
    have none : total holds (([] : List α).take n) = 0 := by rw [take_nil, total_nil]
    simp only [draw, none]
    omega
  | cons a queue ih =>
    cases n with
    | zero =>
      simp only [take_zero, total_nil]
      omega
    | succ n =>
      have first := drawable.nonneg a
      have rest := total_nonneg drawable.nonneg (queue.take n)
      have reduced := drawable.reduced a (min (holds a) asked) (by omega) (by omega)
      simp only [draw, take_succ_cons, total_cons, reduced]
      rw [ih (by omega)]
      omega

theorem draw_length (holds : α → Int) (reduce : α → Int → α) (queue : List α) (asked : Int) :
    (draw holds reduce queue asked).1.length = queue.length := by
  induction queue generalizing asked with
  | nil => rfl
  | cons a queue ih => simp only [draw, length_cons, ih]

theorem draw_mem (nonneg : ∀ a, 0 ≤ holds a) (queue : List α) {asked : Int} (pos : 0 ≤ asked) :
    ∀ b ∈ (draw holds reduce queue asked).1, ∃ a ∈ queue, ∃ taken, 0 ≤ taken ∧ taken ≤ holds a ∧ b = reduce a taken := by
  induction queue generalizing asked with
  | nil => exact fun _ mem => absurd mem not_mem_nil
  | cons a queue ih =>
    have first := nonneg a
    intro b mem
    rcases mem_cons.mp mem with here | later
    · exact ⟨a, .head _, min (holds a) asked, by omega, by omega, here⟩
    · rcases ih (by omega) b later with ⟨c, member, reduced⟩
      exact ⟨c, .tail _ member, reduced⟩

theorem draw_key {κ : Type} (key : α → κ) (kept : ∀ a taken, key (reduce a taken) = key a) (queue : List α)
    (asked : Int) : (draw holds reduce queue asked).1.map key = queue.map key := by
  induction queue generalizing asked with
  | nil => rfl
  | cons a queue ih => simp only [draw, map_cons, kept, ih]

section

variable (drawable : Drawable holds reduce)

include drawable

theorem draw_total (queue : List α) {asked : Int} (pos : 0 ≤ asked) :
    total holds (draw holds reduce queue asked).1 = total holds queue - min asked (total holds queue) := by
  have whole := draw_take drawable queue pos queue.length
  rwa [take_length, ← draw_length holds reduce queue asked, take_length] at whole

theorem draw_left (queue : List α) {asked : Int} (pos : 0 ≤ asked) :
    (draw holds reduce queue asked).2 = asked - min asked (total holds queue) := by
  induction queue generalizing asked with
  | nil =>
    simp only [draw, total_nil]
    omega
  | cons a queue ih =>
    have first := drawable.nonneg a
    have rest := total_nonneg drawable.nonneg queue
    simp only [draw, total_cons]
    rw [ih (by omega)]
    omega

theorem draw_nothing (untouched : ∀ a, reduce a 0 = a) (queue : List α)
    {asked : Int} (pos : 0 ≤ asked) (none : min asked (total holds queue) = 0) :
    (draw holds reduce queue asked).1 = queue := by
  induction queue generalizing asked with
  | nil => rfl
  | cons a queue ih =>
    have first := drawable.nonneg a
    have rest := total_nonneg drawable.nonneg queue
    rw [total_cons] at none
    have zero : min (holds a) asked = 0 := by omega
    simp only [draw, zero, untouched, Int.sub_zero]
    rw [ih pos (by omega)]

theorem draw_capped (queue : List α) {asked : Int} (pos : 0 ≤ asked) :
    (draw holds reduce queue (min asked (total holds queue))).1 = (draw holds reduce queue asked).1 := by
  induction queue generalizing asked with
  | nil => rfl
  | cons a queue ih =>
    have first := drawable.nonneg a
    have rest := total_nonneg drawable.nonneg queue
    have taken : min (holds a) (min asked (total holds (a :: queue))) = min (holds a) asked := by
      rw [total_cons]
      omega
    have left : min asked (total holds (a :: queue)) - min (holds a) asked =
        min (asked - min (holds a) asked) (total holds queue) := by
      rw [total_cons]
      omega
    simp only [draw, taken, left]
    rw [ih (by omega)]

end

theorem draw_map {holds' : β → Int} {reduce' : β → Int → β} (f : α → β) (nonneg : ∀ a, 0 ≤ holds a)
    (same : ∀ a, holds' (f a) = holds a)
    (reduces : ∀ a taken, 0 ≤ taken → taken ≤ holds a → f (reduce a taken) = reduce' (f a) taken)
    (queue : List α) {asked : Int} (pos : 0 ≤ asked) :
    (draw holds reduce queue asked).1.map f = (draw holds' reduce' (queue.map f) asked).1 := by
  induction queue generalizing asked with
  | nil => rfl
  | cons a queue ih =>
    have first := nonneg a
    simp only [draw, map_cons, same]
    rw [reduces a _ (by omega) (by omega), ih (by omega)]

end Lib
