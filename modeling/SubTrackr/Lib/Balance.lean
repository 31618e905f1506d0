import Mathlib.Algebra.BigOperators.Ring.Finset
import Mathlib.Algebra.Order.BigOperators.Group.Finset
import Mathlib.Algebra.Order.Field.Basic
import Mathlib.Data.Fintype.BigOperators
import Mathlib.Tactic.Linarith
import Mathlib.Tactic.Ring

namespace Lib

open List

variable {ι F : Type} [Fintype ι] [DecidableEq ι] [Field F] [LinearOrder F] [IsStrictOrderedRing F]

/-- One round: the shares add up to the total, and the one that pays had most among those with a share. -/
structure Round (total : F) (share : ι → F) (payer : ι) (before after : ι → F) : Prop where
  nonneg : ∀ i, 0 ≤ share i
  sum : ∑ i, share i = total
  richest : ∀ i, share i ≠ 0 → before i + share i ≤ before payer + share payer
  paid : ∀ i, after i = before i + share i - if i = payer then total else 0

def holding (ι : Type) [Fintype ι] (total : F) (size : ℕ) : F := total * (size * (Fintype.card ι - size)) / 2

structure Balanced (total : F) (account : ι → F) : Prop where
  sum : ∑ i, account i = 0
  group : ∀ group : Finset ι, ∑ i ∈ group, account i ≤ holding ι total group.card

namespace Round

variable {total : F} {share : ι → F} {payer : ι} {before after : ι → F}

omit [IsStrictOrderedRing F] in
theorem group_paid (round : Round total share payer before after) (group : Finset ι) :
    ∑ i ∈ group, after i = ∑ i ∈ group, before i + ∑ i ∈ group, share i - if payer ∈ group then total else 0 := by
  have paid : ∑ i ∈ group, (if i = payer then total else 0) = if payer ∈ group then total else 0 :=
    Finset.sum_ite_eq' group payer fun _ => total
  rw [Finset.sum_congr rfl fun i _ => round.paid i, Finset.sum_sub_distrib, Finset.sum_add_distrib, paid]

theorem group_share_le (round : Round total share payer before after) (group : Finset ι) :
    ∑ i ∈ group, share i ≤ total := by
  rw [← round.sum]
  exact Finset.sum_le_univ_sum_of_nonneg round.nonneg

theorem payer_group (round : Round total share payer before after) {group : Finset ι} (mem : payer ∈ group) :
    ∑ i ∈ group, after i ≤ ∑ i ∈ group, before i := by
  rw [round.group_paid, if_pos mem]
  linarith [round.group_share_le group]

omit [IsStrictOrderedRing F] in
theorem idle_group (round : Round total share payer before after) {group : Finset ι}
    (idle : ∀ i ∈ group, share i = 0) (other : payer ∉ group) : ∑ i ∈ group, after i = ∑ i ∈ group, before i := by
  rw [round.group_paid, if_neg other, Finset.sum_eq_zero idle]
  ring

theorem shared_group (round : Round total share payer before after) {group : Finset ι} {i : ι} (mem : i ∈ group)
    (shared : share i ≠ 0) (other : payer ∉ group) :
    2 * ∑ i ∈ group, after i ≤ ∑ i ∈ insert payer group, after i + ∑ i ∈ group.erase i, after i + total := by
  have different : i ≠ payer := by
    rintro rfl
    exact other mem
  have own : after i = before i + share i := by
    rw [round.paid, if_neg different, sub_zero]
  have paid : after payer = before payer + share payer - total := by
    rw [round.paid, if_pos rfl]
  have most := round.richest i shared
  rw [Finset.sum_insert other, ← Finset.add_sum_erase group after mem]
  linarith

omit [IsStrictOrderedRing F] in
theorem sum_eq (round : Round total share payer before after) : ∑ i, after i = ∑ i, before i := by
  rw [round.group_paid, if_pos (Finset.mem_univ payer), round.sum]
  ring

omit [DecidableEq ι] in
theorem holding_concave (total : F) (size : ℕ) :
    holding ι total (size + 2) + holding ι total size + total = 2 * holding ι total (size + 1) := by
  unfold holding
  push_cast
  ring

theorem balanced (round : Round total share payer before after) (balanced : Balanced total before) :
    Balanced total after := by
  refine ⟨round.sum_eq.trans balanced.sum, fun group => ?_⟩
  -- induction on the size: the group with a mem less is bounded before the group itself
  induction group using Finset.strongInduction with
  | H group ih =>
    by_cases mem : payer ∈ group
    · exact (round.payer_group mem).trans (balanced.group group)
    · by_cases idle : ∀ i ∈ group, share i = 0
      · rw [round.idle_group idle mem]
        exact balanced.group group
      · push Not at idle
        obtain ⟨i, inside, shared⟩ := idle
        have split := round.shared_group inside shared mem
        have larger := (round.payer_group (Finset.mem_insert_self payer group)).trans (balanced.group _)
        have smaller := ih (group.erase i) (Finset.erase_ssubset inside)
        obtain ⟨size, card⟩ : ∃ size, group.card = size + 1 :=
          ⟨group.card - 1, (Nat.succ_pred_eq_of_pos (Finset.card_pos.mpr ⟨i, inside⟩)).symm⟩
        rw [Finset.card_insert_of_notMem mem, card] at larger
        rw [Finset.card_erase_of_mem inside, card, Nat.add_sub_cancel] at smaller
        rw [card]
        linarith [holding_concave (ι := ι) total size]

end Round

namespace Balanced

variable {total : F} {account : ι → F}

omit [DecidableEq ι] in
theorem zero (nonneg : 0 ≤ total) : Balanced total (0 : ι → F) := by
  refine ⟨by simp, fun group => ?_⟩
  have size : (group.card : F) ≤ Fintype.card ι := by
    exact_mod_cast Finset.card_le_univ group
  have product : 0 ≤ (group.card : F) * (Fintype.card ι - group.card) :=
    mul_nonneg (Nat.cast_nonneg _) (sub_nonneg.mpr size)
  have held : 0 ≤ holding ι total group.card := by
    unfold holding
    positivity
  simpa using held

theorem abs_account_le (balanced : Balanced total account) (i : ι) : |account i| ≤ total * (Fintype.card ι - 1) / 2 := by
  have own := balanced.group {i}
  have others := balanced.group (Finset.univ.erase i)
  have whole := balanced.sum
  rw [Finset.sum_singleton, Finset.card_singleton, holding, Nat.cast_one, one_mul] at own
  rw [Finset.card_erase_of_mem (Finset.mem_univ i), Finset.card_univ, holding] at others
  rw [← Finset.add_sum_erase Finset.univ account (Finset.mem_univ i)] at whole
  have some : 1 ≤ Fintype.card ι := Fintype.card_pos_iff.mpr ⟨i⟩
  rw [Nat.cast_sub some, Nat.cast_one] at others
  refine abs_le.mpr ⟨?_, own⟩
  have same : total * (((Fintype.card ι : F) - 1) * (Fintype.card ι - (Fintype.card ι - 1))) / 2 =
      total * (Fintype.card ι - 1) / 2 := by ring
  linarith

end Balanced

inductive Rounds (total : F) : (ι → F) → List ((ι → F) × ι) → (ι → F) → Prop
  | nil (account : ι → F) : Rounds total account [] account
  | cons {share : ι → F} {payer : ι} {before next after : ι → F} {rest : List ((ι → F) × ι)} :
    Round total share payer before next → Rounds total next rest after →
    Rounds total before ((share, payer) :: rest) after

namespace Rounds

variable {total : F} {before after : ι → F} {history : List ((ι → F) × ι)}

section

variable (rounds : Rounds total before history after)

include rounds

theorem balanced (start : Balanced total before) : Balanced total after := by
  induction rounds with
  | nil => exact start
  | cons round _ ih => exact ih (round.balanced start)

omit [IsStrictOrderedRing F] in
theorem account_eq (i : ι) :
    after i = before i + (history.map fun round => round.1 i).sum - total * (history.map Prod.snd).count i := by
  induction rounds with
  | nil => simp
  | @cons _ payer _ _ _ _ round _ ih =>
    rw [ih, round.paid, map_cons, map_cons, sum_cons, count_cons]
    by_cases pays : i = payer
    · rw [if_pos pays, if_pos (by rw [pays]; exact beq_self_eq_true _)]
      push_cast
      ring
    · rw [if_neg pays, if_neg (by simpa using fun same => pays same.symm)]
      push_cast
      ring

theorem change_le (start : Balanced total before) (i : ι) : |after i - before i| ≤ total * (Fintype.card ι - 1) := by
  have first := abs_le.mp (start.abs_account_le i)
  have last := abs_le.mp ((rounds.balanced start).abs_account_le i)
  rw [abs_le]
  constructor
  · linarith
  · linarith

/-- Who gets at least an amount in every round cannot go without paying for long. -/
theorem waits_le (start : Balanced total before) {i : ι} {amount : F}
    (gets : ∀ round ∈ history, amount ≤ round.1 i) (unpaid : i ∉ history.map Prod.snd) :
    history.length * amount ≤ total * (Fintype.card ι - 1) := by
  have gained : history.length * amount ≤ (history.map fun round => round.1 i).sum := by
    have each := card_nsmul_le_sum (history.map fun round => round.1 i) amount
      (by simpa only [forall_mem_map] using gets)
    rwa [length_map, nsmul_eq_mul] at each
  have change := (abs_le.mp (rounds.change_le start i)).2
  rw [rounds.account_eq, count_eq_zero_of_not_mem unpaid, Nat.cast_zero, mul_zero] at change
  linarith

theorem paid_near (start : Balanced total before) {i : ι} {amount : F}
    (gets : ∀ round ∈ history, round.1 i = amount) :
    |total * (history.map Prod.snd).count i - history.length * amount| ≤ total * (Fintype.card ι - 1) := by
  have gained : (history.map fun round => round.1 i).sum = history.length * amount := by
    rw [map_congr_left gets, map_const', sum_replicate, nsmul_eq_mul]
  have change := rounds.change_le start i
  rw [rounds.account_eq, gained] at change
  rw [abs_sub_comm]
  have same : before i + history.length * amount - total * (history.map Prod.snd).count i - before i =
      history.length * amount - total * (history.map Prod.snd).count i := by ring
  rwa [same] at change

end

end Rounds

end Lib
