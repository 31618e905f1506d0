import Mathlib.Data.Finset.Insert
import Mathlib.Data.Finset.Erase

namespace Lib

open List

inductive Effect (κ : Type*) where
  | done (k : κ)
  | undone (k : κ)
  deriving DecidableEq

variable {κ : Type*} [DecidableEq κ]

/-- How often the action of a key has been done, less how often it has been undone. -/
def net (k : κ) (log : List (Effect κ)) : ℤ := log.count (.done k) - log.count (.undone k)

/-- No action of the given keys is ever done again while it stands, and the set knows those that stand. -/
structure DoneOnce (keys : Set κ) (known : Finset κ) (log : List (Effect κ)) : Prop where
  once : ∀ k ∈ keys, ∀ earlier, earlier <+: log → net k earlier ≤ 1
  stands : ∀ k ∈ keys, net k log ≤ if k ∈ known then 1 else 0

variable {keys : Set κ} {known : Finset κ} {log : List (Effect κ)} {k j : κ}

theorem net_nil (k : κ) : net k [] = 0 := rfl

theorem net_done (k j : κ) (log : List (Effect κ)) : net k (log ++ [.done j]) = net k log + if j = k then 1 else 0 := by
  unfold net
  rw [count_append, count_append, count_singleton, count_singleton]
  by_cases here : j = k
  · simp [here]
    omega
  · simp [here]

theorem net_undone (k j : κ) (log : List (Effect κ)) :
    net k (log ++ [.undone j]) = net k log - if j = k then 1 else 0 := by
  unfold net
  rw [count_append, count_append, count_singleton, count_singleton]
  by_cases here : j = k
  · simp [here]
    omega
  · simp [here]

namespace DoneOnce

theorem nil (keys : Set κ) (known : Finset κ) : DoneOnce keys known [] where
  once k _ earlier before := by
    rw [prefix_nil.mp before, net_nil]
    decide
  stands k _ := by
    rw [net_nil]
    split <;> decide

section

variable (once : DoneOnce keys known log)

include once

theorem append {known' : Finset κ} {effect : Effect κ}
    (stands : ∀ k ∈ keys, net k (log ++ [effect]) ≤ if k ∈ known' then 1 else 0) :
    DoneOnce keys known' (log ++ [effect]) where
  once k key earlier before := by
    rcases prefix_concat_iff.mp before with rfl | before
    · apply (stands k key).trans
      split <;> decide
    · exact once.once k key earlier before
  stands := stands

theorem done (fresh : k ∈ keys → k ∉ known) : DoneOnce keys (insert k known) (log ++ [.done k]) := by
  apply once.append
  intro j key
  have before := once.stands j key
  rw [net_done]
  by_cases here : k = j
  · subst here
    rw [if_neg (fresh key)] at before
    rw [if_pos rfl, if_pos (Finset.mem_insert_self ..)]
    omega
  · rw [if_neg here, Int.add_zero]
    simpa [Ne.symm here] using before

theorem done_other (other : k ∉ keys) : DoneOnce keys known (log ++ [.done k]) := by
  apply once.append
  intro j key
  have apart : k ≠ j := fun here => other (here ▸ key)
  rw [net_done, if_neg apart, Int.add_zero]
  exact once.stands j key

theorem undone (k : κ) : DoneOnce keys (known.erase k) (log ++ [.undone k]) := by
  apply once.append
  intro j key
  have before := once.stands j key
  rw [net_undone]
  by_cases here : k = j
  · subst here
    rw [if_pos rfl, if_neg (Finset.notMem_erase _ _)]
    have one : net k log ≤ 1 := by
      apply before.trans
      split <;> decide
    omega
  · rw [if_neg here, Int.sub_zero]
    simpa [Ne.symm here] using before

theorem insert (k : κ) : DoneOnce keys (insert k known) log where
  once := once.once
  stands j key := by
    apply (once.stands j key).trans
    by_cases here : j ∈ known
    · simp [here]
    · rw [if_neg here]
      split <;> decide

theorem erase (fresh : k ∈ keys → k ∉ known) : DoneOnce keys (known.erase k) log where
  once := once.once
  stands j key := by
    have before := once.stands j key
    by_cases here : j = k
    · subst here
      rw [if_neg (fresh key)] at before
      rw [if_neg (Finset.notMem_erase _ _)]
      exact before
    · simpa [here] using before

end

end DoneOnce

end Lib
