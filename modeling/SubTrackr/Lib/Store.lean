import Mathlib.Algebra.BigOperators.Intervals

namespace Lib

open Option List

section

variable {κ ν : Type} [DecidableEq κ]

abbrev Store (κ ν : Type) := κ → Option ν

def put (m : Store κ ν) (k : κ) (v : ν) : Store κ ν := Function.update m k (some v)

def remove (m : Store κ ν) (k : κ) : Store κ ν := Function.update m k none

@[simp] theorem put_self (m : Store κ ν) (k : κ) (v : ν) : put m k v k = some v :=
  Function.update_self ..

theorem put_of_ne (m : Store κ ν) {k j : κ} (v : ν) (other : j ≠ k) : put m k v j = m j :=
  Function.update_of_ne other ..

@[simp] theorem remove_self (m : Store κ ν) (k : κ) : remove m k k = none :=
  Function.update_self ..

theorem remove_of_ne (m : Store κ ν) {k j : κ} (other : j ≠ k) : remove m k j = m j :=
  Function.update_of_ne other ..

@[simp] theorem put_put (m : Store κ ν) (k : κ) (v w : ν) : put (put m k v) k w = put m k w :=
  Function.update_idem ..

theorem put_apply (m : Store κ ν) (k j : κ) (v : ν) : put m k v j = if j = k then some v else m j := by
  unfold put
  rw [Function.update_apply]

theorem remove_apply (m : Store κ ν) (k j : κ) : remove m k j = if j = k then none else m j := by
  unfold remove
  rw [Function.update_apply]

theorem put_eq_some (m : Store κ ν) (k j : κ) (v w : ν) :
    put m k v j = some w ↔ (j = k ∧ v = w) ∨ (j ≠ k ∧ m j = some w) := by
  rw [put_apply]
  split <;> simp_all

theorem forall_put {m : Store κ ν} {k : κ} {v : ν} {P : κ → ν → Prop} (new : P k v) (old : ∀ j w, m j = some w → P j w)
    (j : κ) (w : ν) (found : put m k v j = some w) : P j w := by
  rcases (put_eq_some ..).mp found with ⟨rfl, rfl⟩ | ⟨-, kept⟩
  · exact new
  · exact old j w kept

theorem put_lasting (m : Store κ ν) (k : κ) (v : ν) (j : κ) (w : ν) (held : m j = some w) : ∃ w', put m k v j = some w' := by
  rw [put_apply]
  split
  · exact ⟨v, rfl⟩
  · exact ⟨w, held⟩

theorem remove_eq_some (m : Store κ ν) (k j : κ) (w : ν) : remove m k j = some w ↔ j ≠ k ∧ m j = some w := by
  rw [remove_apply]
  split <;> simp_all

def putAll (m : Store κ ν) (entries : List (κ × ν)) : Store κ ν := entries.foldl (fun m e => put m e.1 e.2) m

theorem putAll_absent {entries : List (κ × ν)} {k : κ} (absent : k ∉ entries.map (·.1)) (m : Store κ ν) :
    putAll m entries k = m k := by
  induction entries generalizing m with
  | nil => rfl
  | cons e entries ih =>
    rw [map_cons, mem_cons, not_or] at absent
    show putAll (put m e.1 e.2) entries k = m k
    rw [ih absent.2, put_of_ne _ _ absent.1]

theorem mem_of_putAll {entries : List (κ × ν)} {m : Store κ ν} {k : κ} {v : ν} (found : putAll m entries k = some v) :
    (k, v) ∈ entries ∨ m k = some v := by
  induction entries generalizing m with
  | nil => exact .inr found
  | cons e entries ih =>
    rcases ih found with later | before
    · exact .inl (mem_cons_of_mem _ later)
    · change put m e.1 e.2 k = some v at before
      rw [put_apply] at before
      split at before
      · rename_i same
        rw [same, ← Option.some.inj before]
        exact .inl mem_cons_self
      · exact .inr before

theorem putAll_mem {entries : List (κ × ν)} (nodup : (entries.map (·.1)).Nodup) {e : κ × ν} (mem : e ∈ entries)
    (m : Store κ ν) : putAll m entries e.1 = some e.2 := by
  induction entries generalizing m with
  | nil => cases mem
  | cons first entries ih =>
    rw [map_cons, nodup_cons] at nodup
    show putAll (put m first.1 first.2) entries e.1 = some e.2
    obtain rfl | later := mem_cons.mp mem
    · rw [putAll_absent nodup.1, put_self]
    · exact ih nodup.2 later _

def dropWhen (drop : ν → Bool) (m : Store κ ν) (k : κ) : Store κ ν :=
  match m k with
  | some v => if drop v then remove m k else m
  | none => m

theorem dropWhen_apply (drop : ν → Bool) (m : Store κ ν) (k j : κ) :
    dropWhen drop m k j = if j = k then (m k).filter (fun v => !drop v) else m j := by
  unfold dropWhen
  cases held : m k with
  | none =>
    by_cases here : j = k
    · simp [here, held]
    · simp [here]
  | some v =>
    by_cases here : j = k
    · subst here
      cases dropped : drop v <;> simp [held, dropped, filter_some]
    · cases dropped : drop v <;> simp [here, dropped, remove_of_ne]

theorem dropWhen_eq_some (drop : ν → Bool) (m : Store κ ν) (k j : κ) (v : ν) :
    dropWhen drop m k j = some v ↔ m j = some v ∧ (j = k → drop v = false) := by
  rw [dropWhen_apply]
  split
  · rename_i here
    subst here
    simp [filter_eq_some_iff]
  · rename_i other
    simp [other]

def Thinned (lost : ν → Prop) (m m' : Store κ ν) : Prop :=
  ∀ k, m' k = m k ∨ m' k = none ∧ ∃ v, m k = some v ∧ lost v

omit [DecidableEq κ] in
theorem Thinned.refl (lost : ν → Prop) (m : Store κ ν) : Thinned lost m m := fun _ => .inl rfl

section Thinned

variable {lost : ν → Prop} {m m' : Store κ ν}

theorem Thinned.put (thinned : Thinned lost m m') (k : κ) (v : ν) : Thinned lost (put m k v) (put m' k v) := by
  intro j
  by_cases here : j = k
  · subst here
    rw [put_self, put_self]
    exact .inl rfl
  · rw [put_of_ne _ _ here, put_of_ne _ _ here]
    exact thinned j

theorem Thinned.dropWhen (thinned : Thinned lost m m') (drop : ν → Bool) (k : κ) :
    Thinned lost (dropWhen drop m k) (dropWhen drop m' k) := by
  intro j
  rw [dropWhen_apply, dropWhen_apply]
  split
  · obtain same | ⟨gone, v, held, lapsed⟩ := thinned k
    · exact .inl (same ▸ rfl)
    · rw [gone, held]
      cases dropped : drop v with
      | true => exact .inl (by simp [dropped, filter_some])
      | false => exact .inr ⟨rfl, v, by simp [dropped, filter_some], lapsed⟩
  · exact thinned j

theorem Thinned.dropWhen_right (thinned : Thinned lost m m') {drop : ν → Bool} {k : κ}
    (allowed : ∀ v, m' k = some v → drop v = true → lost v) : Thinned lost m (Lib.dropWhen drop m' k) := by
  intro j
  rw [dropWhen_apply]
  split
  · rename_i here
    subst here
    obtain same | ⟨gone, rest⟩ := thinned j
    · cases held : m' j with
      | none => exact .inl (by rw [← same, held, filter_none])
      | some v =>
        rw [held] at same
        cases dropped : drop v with
        | true => exact .inr ⟨by simp [dropped, filter_some], v, same.symm, allowed v held dropped⟩
        | false => exact .inl (by simp [dropped, ← same, filter_some])
    · exact .inr ⟨by simp [gone], rest⟩
  · exact thinned j

end Thinned

end

variable {ν : Type} {m : Store Nat ν} {P : ν → Bool} {n i : Nat} {v : ν}

def tally (m : Store Nat ν) (P : ν → Bool) (n : Nat) : Nat :=
  ((Finset.Icc 1 n).filter fun i => (m i).any P = true).card

theorem tally_eq_sum : tally m P n = ∑ i ∈ Finset.Icc 1 n, ((m i).any P).toNat := by
  unfold tally
  rw [Finset.card_filter]
  refine Finset.sum_congr rfl fun i _ => ?_
  cases (m i).any P <;> rfl

theorem tally_put (P : ν → Bool) (v' : ν) (known : i ∈ Finset.Icc 1 n) (held : m i = some v) :
    tally (put m i v') P n + (P v).toNat = tally m P n + (P v').toNat := by
  have others : ∑ j ∈ (Finset.Icc 1 n).erase i, ((put m i v' j).any P).toNat =
      ∑ j ∈ (Finset.Icc 1 n).erase i, ((m j).any P).toNat :=
    Finset.sum_congr rfl fun j other => by rw [put_of_ne _ _ (Finset.ne_of_mem_erase other)]
  have before := Finset.add_sum_erase (Finset.Icc 1 n) (fun j => ((m j).any P).toNat) known
  have after := Finset.add_sum_erase (Finset.Icc 1 n) (fun j => ((put m i v' j).any P).toNat) known
  simp only [held, put_self, any_some] at before after
  rw [tally_eq_sum, tally_eq_sum]
  omega

theorem tally_put_succ : tally (put m (n + 1) v) P (n + 1) = tally m P n + (P v).toNat := by
  rw [tally_eq_sum, tally_eq_sum, Finset.sum_Icc_succ_top (Nat.le_add_left 1 n), put_self, any_some]
  congr 1
  refine Finset.sum_congr rfl fun j known => ?_
  have below : j ≤ n := (Finset.mem_Icc.mp known).2
  rw [put_of_ne _ _ (by omega)]

theorem tally_pos (known : i ∈ Finset.Icc 1 n) (held : m i = some v) (counts : P v = true) : 0 < tally m P n := by
  refine Finset.card_pos.mpr ⟨i, Finset.mem_filter.mpr ⟨known, ?_⟩⟩
  rw [held, any_some, counts]

theorem tally_eq_zero (none : ∀ i v, m i = some v → P v = false) : tally m P n = 0 := by
  refine Finset.card_eq_zero.mpr (Finset.filter_eq_empty_iff.mpr fun i _ => ?_)
  cases held : m i with
  | none => simp only [any_none, Bool.false_eq_true, not_false_iff]
  | some v => simp only [any_some, none i v held, Bool.false_eq_true, not_false_iff]

end Lib
