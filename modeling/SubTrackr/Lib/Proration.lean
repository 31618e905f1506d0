import Mathlib.Algebra.Order.BigOperators.Group.List
import Mathlib.Tactic.Linarith
import Mathlib.Tactic.Ring

namespace Lib

open List

structure Slice where
  (start finish : ℕ)
  amount : ℤ

namespace Slice

variable {s : Slice} {t t' : ℕ}

def part (s : Slice) (t : ℕ) : ℤ :=
  if s.finish ≤ t then s.amount
  else if s.start ≤ t then s.amount * (t - s.start : ℕ) / (s.finish - s.start : ℕ)
  else 0

theorem part_of_finish_le (past : s.finish ≤ t) : s.part t = s.amount := if_pos past

theorem part_of_between (begun : s.start ≤ t) (unfinished : ¬ s.finish ≤ t) :
    s.part t = s.amount * (t - s.start : ℕ) / (s.finish - s.start : ℕ) :=
  (if_neg unfinished).trans (if_pos begun)

theorem part_of_le_start (proper : s.start < s.finish) (early : t ≤ s.start) : s.part t = 0 := by
  unfold part
  rw [if_neg (by omega)]
  split
  · rename_i begun
    rw [Nat.sub_eq_zero_of_le early, Nat.cast_zero, mul_zero, Int.zero_ediv]
  · rfl

theorem part_nonneg (nonneg : 0 ≤ s.amount) : 0 ≤ s.part t := by
  unfold part
  split
  · exact nonneg
  · split
    · exact Int.ediv_nonneg (mul_nonneg nonneg (Int.natCast_nonneg _)) (Int.natCast_nonneg _)
    · exact le_refl 0

theorem part_le (nonneg : 0 ≤ s.amount) : s.part t ≤ s.amount := by
  unfold part
  split
  · exact le_refl _
  · rename_i unfinished
    split
    · have short : ((t - s.start : ℕ) : ℤ) ≤ (s.finish - s.start : ℕ) := by exact_mod_cast (show _ ≤ _ by omega)
      apply Int.ediv_le_of_le_mul (by omega)
      exact mul_le_mul_of_nonneg_left short nonneg
    · exact nonneg

theorem part_mono (nonneg : 0 ≤ s.amount) (later : t ≤ t') : s.part t ≤ s.part t' := by
  by_cases past : s.finish ≤ t'
  · rw [part_of_finish_le past]
    exact part_le nonneg
  · by_cases begun : s.start ≤ t
    · have unfinished : ¬ s.finish ≤ t := by omega
      have begun' : s.start ≤ t' := begun.trans later
      rw [part_of_between begun unfinished, part_of_between begun' past]
      have longer : ((t - s.start : ℕ) : ℤ) ≤ (t' - s.start : ℕ) := by exact_mod_cast (show _ ≤ _ by omega)
      apply Int.ediv_le_ediv (by omega)
      exact mul_le_mul_of_nonneg_left longer nonneg
    · have unfinished : ¬ s.finish ≤ t := fun done => past (done.trans later)
      rw [part, if_neg unfinished, if_neg begun]
      exact part_nonneg nonneg

theorem part_eq_zero_iff (proper : s.start < s.finish) (nonneg : 0 ≤ s.amount) :
    s.part t = 0 ↔ s.amount * (t - s.start : ℕ) < (s.finish - s.start : ℕ) := by
  have length : (0 : ℤ) < (s.finish - s.start : ℕ) := by omega
  by_cases past : s.finish ≤ t
  · rw [part_of_finish_le past]
    have elapsed : ((s.finish - s.start : ℕ) : ℤ) ≤ (t - s.start : ℕ) := by omega
    constructor
    · intro zero
      rw [zero, zero_mul]
      exact length
    · intro less
      by_contra nonzero
      have whole : (1 : ℤ) * (t - s.start : ℕ) ≤ s.amount * (t - s.start : ℕ) :=
        mul_le_mul_of_nonneg_right (by omega) (Int.natCast_nonneg _)
      omega
  · by_cases begun : s.start ≤ t
    · rw [part_of_between begun past]
      have product : 0 ≤ s.amount * (t - s.start : ℕ) := mul_nonneg nonneg (Int.natCast_nonneg _)
      rw [Int.ediv_eq_iff_of_pos length, zero_mul, zero_add]
      exact and_iff_right product
    · have early : t - s.start = 0 := by omega
      rw [part_of_le_start proper (by omega), early, Nat.cast_zero, mul_zero]
      exact iff_of_true rfl length

variable {slices : List Slice} {t t' : ℕ}

def accrued (slices : List Slice) (t : ℕ) : ℤ := (slices.map fun s => s.part t).sum

def total (slices : List Slice) : ℤ := (slices.map Slice.amount).sum

theorem accrued_cons (s : Slice) (slices : List Slice) (t : ℕ) : accrued (s :: slices) t = s.part t + accrued slices t := rfl

theorem total_append (slices slices' : List Slice) : total (slices ++ slices') = total slices + total slices' := by
  unfold total
  rw [map_append, sum_append]

section

variable (nonneg : ∀ s ∈ slices, 0 ≤ s.amount)

include nonneg

theorem total_nonneg : 0 ≤ total slices := by
  apply sum_nonneg
  intro amount mem
  obtain ⟨s, member, rfl⟩ := mem_map.mp mem
  exact nonneg s member

theorem accrued_mono (later : t ≤ t') : accrued slices t ≤ accrued slices t' :=
  sum_le_sum fun s mem => Slice.part_mono (nonneg s mem) later

theorem accrued_nonneg : 0 ≤ accrued slices t := by
  apply sum_nonneg
  intro amount mem
  obtain ⟨s, member, rfl⟩ := mem_map.mp mem
  exact Slice.part_nonneg (nonneg s member)

theorem accrued_eq_zero_iff : accrued slices t = 0 ↔ ∀ s ∈ slices, s.part t = 0 := by
  constructor
  · intro zero s member
    refine all_zero_of_le_zero_le_of_sum_eq_zero ?_ zero (mem_map_of_mem member)
    intro amount mem
    obtain ⟨s, member, rfl⟩ := mem_map.mp mem
    exact part_nonneg (nonneg s member)
  · intro each
    apply sum_eq_zero
    intro amount mem
    obtain ⟨s, member, rfl⟩ := mem_map.mp mem
    exact each s member

end

theorem accrued_of_early (early : ∀ s ∈ slices, s.start < s.finish ∧ t ≤ s.start) : accrued slices t = 0 := by
  apply sum_eq_zero
  intro amount mem
  obtain ⟨s, member, rfl⟩ := mem_map.mp mem
  exact Slice.part_of_le_start (early s member).1 (early s member).2

theorem accrued_of_late (late : ∀ s ∈ slices, s.finish ≤ t) : accrued slices t = total slices := by
  unfold accrued total
  congr 1
  exact map_congr_left fun s mem => Slice.part_of_finish_le (late s mem)

def Contiguous : ℕ → List Slice → ℕ → Prop
  | start, [], finish => start = finish
  | start, s :: slices, finish => s.start = start ∧ s.start < s.finish ∧ Contiguous s.finish slices finish

variable {start finish period count : ℕ} {share last : ℤ}

section

variable (chain : Contiguous start slices finish)

include chain

theorem Contiguous.bounds : start ≤ finish ∧ ∀ s ∈ slices, start ≤ s.start ∧ s.start < s.finish ∧ s.finish ≤ finish := by
  induction slices generalizing start with
  | nil =>
    cases chain
    exact ⟨le_refl _, fun s mem => nomatch mem⟩
  | cons first slices ih =>
    obtain ⟨begins, proper, rest⟩ := chain
    obtain ⟨later, within⟩ := ih rest
    refine ⟨by omega, ?_⟩
    intro s mem
    rcases mem_cons.mp mem with rfl | mem
    · exact ⟨by omega, proper, later⟩
    · obtain ⟨low, proper', high⟩ := within s mem
      exact ⟨by omega, proper', high⟩

theorem Contiguous.concat {s : Slice} (next : s.start = finish)
    (proper : s.start < s.finish) : Contiguous start (slices ++ [s]) s.finish := by
  induction slices generalizing start with
  | nil =>
    cases chain
    exact ⟨next, proper, rfl⟩
  | cons first slices ih =>
    obtain ⟨begins, proper', rest⟩ := chain
    exact ⟨begins, proper', ih rest⟩

theorem Contiguous.accrued_start : accrued slices start = 0 :=
  accrued_of_early fun s mem => ⟨(chain.bounds.2 s mem).2.1, (chain.bounds.2 s mem).1⟩

theorem Contiguous.accrued_finish (late : finish ≤ t) : accrued slices t = total slices :=
  accrued_of_late fun s mem => (chain.bounds.2 s mem).2.2.trans late

end

def nth (start period : ℕ) (amount : ℤ) (i : ℕ) : Slice :=
  ⟨start + i * period, start + i * period + period, amount⟩

/-- Slices of one length and of the same share each, with an amount of its own for the last. -/
def even (start period : ℕ) (share last : ℤ) (count : ℕ) : List Slice :=
  (List.range count).map (nth start period share) ++ [nth start period last count]

theorem mem_even {s : Slice} (mem : s ∈ even start period share last count) :
    ∃ i ≤ count, s = nth start period share i ∨ s = nth start period last i := by
  rcases mem_append.mp mem with mem | mem
  · obtain ⟨i, inside, rfl⟩ := mem_map.mp mem
    exact ⟨i, (mem_range.mp inside).le, .inl rfl⟩
  · exact ⟨count, le_refl _, .inr (mem_singleton.mp mem)⟩

theorem contiguous_nth (pos : 0 < period) (count : ℕ) :
    Contiguous start ((List.range count).map (nth start period share)) (start + count * period) := by
  induction count with
  | zero =>
    show start = start + 0 * period
    omega
  | succ count ih =>
    rw [range_succ, map_append]
    have extended := ih.concat (s := nth start period share count) rfl (Nat.lt_add_of_pos_right pos)
    have finish : (nth start period share count).finish = start + (count + 1) * period := by
      show start + count * period + period = _
      ring
    rw [finish] at extended
    exact extended

theorem contiguous_even (pos : 0 < period) :
    Contiguous start (even start period share last count) (start + (count + 1) * period) := by
  have finish : (nth start period last count).finish = start + (count + 1) * period := by
    show start + count * period + period = _
    ring
  rw [← finish]
  exact (contiguous_nth pos count).concat rfl (Nat.lt_add_of_pos_right pos)

theorem total_even : total (even start period share last count) = count * share + last := by
  have shares : ((List.range count).map (nth start period share)).map Slice.amount = List.replicate count share := by
    rw [map_map, eq_replicate_iff]
    refine ⟨by rw [length_map, length_range], ?_⟩
    intro amount mem
    obtain ⟨i, -, rfl⟩ := mem_map.mp mem
    rfl
  rw [even, total_append, total, shares, sum_replicate, nsmul_eq_mul]
  simp [total, nth]

end Slice

end Lib
