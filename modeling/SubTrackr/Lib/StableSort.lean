import Mathlib.Data.List.Nodup
import Mathlib.Order.Lattice

namespace Lib

open List

variable {α κ : Type*} [LinearOrder κ] {key : α → κ} {l l' : List α}

/-- The sort by a key, which keeps items of one key in their order. -/
def sortBy (key : α → κ) (l : List α) : List α := l.mergeSort fun a b => decide (key a ≤ key b)

theorem sortBy_perm (key : α → κ) (l : List α) : (sortBy key l).Perm l := mergeSort_perm ..

theorem mem_sortBy {a : α} : a ∈ sortBy key l ↔ a ∈ l := mem_mergeSort

theorem key_trans (a b c : α) (first : decide (key a ≤ key b) = true) (second : decide (key b ≤ key c) = true) :
    decide (key a ≤ key c) = true :=
  decide_eq_true (le_trans (of_decide_eq_true first) (of_decide_eq_true second))

theorem key_total (a b : α) : (decide (key a ≤ key b) || decide (key b ≤ key a)) = true := by
  rw [Bool.or_eq_true, decide_eq_true_eq, decide_eq_true_eq]
  exact le_total _ _

theorem sortBy_sorted (key : α → κ) (l : List α) : (sortBy key l).Pairwise fun a b => key a ≤ key b :=
  (pairwise_mergeSort key_trans key_total l).imp fun le => of_decide_eq_true le

theorem filter_key_sortBy (key : α → κ) (l : List α) (k : κ) :
    (sortBy key l).filter (fun a => decide (key a = k)) = l.filter fun a => decide (key a = k) := by
  have tied : (l.filter fun a => decide (key a = k)).Pairwise fun a b => decide (key a ≤ key b) = true := by
    refine pairwise_of_forall_mem_list fun a first b second => decide_eq_true ?_
    have tie : key a = key b := (of_decide_eq_true (mem_filter.mp first).2).trans (of_decide_eq_true (mem_filter.mp second).2).symm
    exact le_of_eq tie
  have within : (l.filter fun a => decide (key a = k)) <+ sortBy key l :=
    sublist_mergeSort key_trans key_total tied filter_sublist
  have again := within.filter fun a => decide (key a = k)
  rw [filter_filter, filter_congr fun a _ => Bool.and_self _] at again
  exact (again.eq_of_length ((sortBy_perm key l).filter _).length_eq.symm).symm

/-- Sorted lists are the same where they have the same items of every key in the same order. -/
theorem eq_of_filter_key (sorted : l.Pairwise fun a b => key a ≤ key b) (sorted' : l'.Pairwise fun a b => key a ≤ key b)
    (same : ∀ k, l.filter (fun a => decide (key a = k)) = l'.filter fun a => decide (key a = k)) : l = l' := by
  induction l generalizing l' with
  | nil =>
    refine (eq_nil_iff_forall_not_mem.mpr fun b member => ?_).symm
    exact not_mem_nil (same (key b) ▸ mem_filter.mpr ⟨member, decide_eq_true rfl⟩ : b ∈ filter _ [])
  | cons a l ih =>
    have found {k : κ} {b : α} (member : b ∈ a :: l) (own : key b = k) : b ∈ l' :=
      (mem_filter.mp (same k ▸ mem_filter.mpr ⟨member, decide_eq_true own⟩)).1
    cases l' with
    | nil => exact absurd (found (.head _) rfl) not_mem_nil
    | cons b l' =>
      obtain ⟨least, tail⟩ := pairwise_cons.mp sorted
      obtain ⟨least', tail'⟩ := pairwise_cons.mp sorted'
      have first : key b ≤ key a := by
        rcases mem_cons.mp (found (.head _) rfl) with rfl | later
        · exact le_rfl
        · exact least' a later
      have second : key a ≤ key b := by
        have mem : b ∈ a :: l := by
          have own : b ∈ (b :: l').filter fun c => decide (key c = key b) := mem_filter.mpr ⟨.head _, decide_eq_true rfl⟩
          exact (mem_filter.mp (same (key b) ▸ own)).1
        rcases mem_cons.mp mem with rfl | later
        · exact le_rfl
        · exact least b later
      have tie := le_antisymm second first
      have heads := same (key b)
      rw [filter_cons, filter_cons, if_pos (decide_eq_true tie), if_pos (decide_eq_true rfl)] at heads
      obtain rfl := (cons.inj heads).1
      refine congrArg (cons a) (ih tail tail' fun k => ?_)
      have rest := same k
      rw [filter_cons, filter_cons] at rest
      split at rest
      · exact (cons.inj rest).2
      · exact rest

theorem sortBy_congr (same : ∀ k, l.filter (fun a => decide (key a = k)) = l'.filter fun a => decide (key a = k)) :
    sortBy key l = sortBy key l' := by
  refine eq_of_filter_key (sortBy_sorted key l) (sortBy_sorted key l') fun k => ?_
  rw [filter_key_sortBy, filter_key_sortBy, same]

theorem sortBy_filter (p : α → Bool) : sortBy key (l.filter p) = (sortBy key l).filter p := by
  refine eq_of_filter_key (sortBy_sorted key _) ((sortBy_sorted key l).filter p) fun k => ?_
  rw [filter_key_sortBy, filter_comm, filter_comm _ p, filter_key_sortBy]

end Lib
