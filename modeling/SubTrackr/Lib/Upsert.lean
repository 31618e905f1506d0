import Mathlib.Data.List.Nodup

namespace Lib.Upsert

open List

structure Change (κ β : Type*) where
  key : κ
  value : β
  replaces : Bool

variable {κ β γ : Type*} [DecidableEq κ] {entries : List (κ × β)} {changes : List (Change κ β)} {x : κ × β}

def apply (entries : List (κ × β)) (change : Change κ β) : List (κ × β) :=
  if change.replaces then entries.map fun e => if e.1 = change.key then (change.key, change.value) else e
  else entries ++ [(change.key, change.value)]

def applyAll (entries : List (κ × β)) (changes : List (Change κ β)) : List (κ × β) := changes.foldl apply entries

/-- Every change has a key of its own, that of an entry where it replaces one and a new one else. -/
structure Proper (entries : List (κ × β)) (changes : List (Change κ β)) : Prop where
  distinct : (changes.map Change.key).Nodup
  known : ∀ c ∈ changes, c.replaces = true → c.key ∈ entries.map Prod.fst
  fresh : ∀ c ∈ changes, c.replaces = false → c.key ∉ entries.map Prod.fst

theorem apply_keys (entries : List (κ × β)) (change : Change κ β) :
    (apply entries change).map Prod.fst = entries.map Prod.fst ++ if change.replaces then [] else [change.key] := by
  unfold apply
  split
  · rw [map_map, append_nil]
    apply map_congr_left
    intro e _
    dsimp only [Function.comp_apply]
    split
    · rename_i same
      exact same.symm
    · rfl
  · rw [map_append]
    rfl

theorem applyAll_keys (entries : List (κ × β)) (changes : List (Change κ β)) : (applyAll entries changes).map Prod.fst =
      entries.map Prod.fst ++ (changes.filter fun c => !c.replaces).map Change.key := by
  induction changes generalizing entries with
  | nil => simp [applyAll]
  | cons c changes ih =>
    rw [applyAll, foldl_cons, ← applyAll, ih, apply_keys, append_assoc]
    cases replaces : c.replaces <;> simp [replaces]

theorem mem_apply (change : Change κ β) (known : change.replaces = true → change.key ∈ entries.map Prod.fst)
    (fresh : change.replaces = false → change.key ∉ entries.map Prod.fst) :
    x ∈ apply entries change ↔ x ∈ entries ∧ x.1 ≠ change.key ∨ x = (change.key, change.value) := by
  unfold apply
  cases replaces : change.replaces with
  | true =>
    rw [if_pos rfl, mem_map]
    constructor
    · rintro ⟨e, mem, rfl⟩
      split
      · exact .inr rfl
      · rename_i other
        exact .inl ⟨mem, other⟩
    · rintro (⟨mem, other⟩ | rfl)
      · exact ⟨x, mem, if_neg other⟩
      · obtain ⟨e, mem, same⟩ := mem_map.mp (known replaces)
        exact ⟨e, mem, if_pos same⟩
  | false =>
    rw [if_neg (by simp), mem_append, mem_singleton]
    apply or_congr_left
    refine ⟨fun mem => ⟨mem, fun same => ?_⟩, And.left⟩
    exact fresh replaces (same ▸ mem_map_of_mem mem)

theorem Proper.rest {c : Change κ β} (proper : Proper entries (c :: changes)) : Proper (apply entries c) changes := by
  have keys := nodup_cons.mp proper.distinct
  refine ⟨keys.2, fun d mem replaces => ?_, fun d mem adds again => ?_⟩
  · rw [apply_keys]
    exact mem_append_left _ (proper.known d (mem_cons_of_mem _ mem) replaces)
  · rw [apply_keys] at again
    rcases mem_append.mp again with old | new
    · exact proper.fresh d (mem_cons_of_mem _ mem) adds old
    · split at new
      · cases new
      · rw [mem_singleton] at new
        exact keys.1 (new ▸ mem_map_of_mem mem)

section

variable (proper : Proper entries changes)

include proper

theorem mem_applyAll : x ∈ applyAll entries changes ↔
      x ∈ entries ∧ x.1 ∉ changes.map Change.key ∨ ∃ c ∈ changes, x = (c.key, c.value) := by
  induction changes generalizing entries with
  | nil => simp [applyAll]
  | cons c changes ih =>
    have keys := nodup_cons.mp proper.distinct
    rw [applyAll, foldl_cons, ← applyAll, ih proper.rest,
      mem_apply c (proper.known c (by simp)) (proper.fresh c (by simp))]
    simp only [map_cons, mem_cons, not_or]
    constructor
    · rintro (⟨⟨old, other⟩ | rfl, unchanged⟩ | ⟨d, mem, rfl⟩)
      · exact .inl ⟨old, other, unchanged⟩
      · exact .inr ⟨c, .inl rfl, rfl⟩
      · exact .inr ⟨d, .inr mem, rfl⟩
    · rintro (⟨old, other, unchanged⟩ | ⟨d, rfl | mem, rfl⟩)
      · exact .inl ⟨.inl ⟨old, other⟩, unchanged⟩
      · exact .inl ⟨.inr rfl, keys.1⟩
      · exact .inr ⟨d, mem, rfl⟩

theorem applyAll_keys_nodup (nodup : (entries.map Prod.fst).Nodup) :
    ((applyAll entries changes).map Prod.fst).Nodup := by
  rw [applyAll_keys, nodup_append]
  refine ⟨nodup, proper.distinct.sublist (filter_sublist.map _), ?_⟩
  rintro k old k' new rfl
  obtain ⟨c, member, rfl⟩ := mem_map.mp new
  obtain ⟨mem, adds⟩ := mem_filter.mp member
  exact proper.fresh c mem (by simpa using adds) old

theorem values_nodup_iff (nodup : (entries.map Prod.fst).Nodup) (f : β → γ)
    (apart : ∀ c ∈ changes, ∀ d ∈ changes, f c.value = f d.value → c = d) :
    ((applyAll entries changes).map fun e => f e.2).Nodup ↔
      (∀ e ∈ entries, e.1 ∉ changes.map Change.key →
        ∀ e' ∈ entries, e'.1 ∉ changes.map Change.key → f e.2 = f e'.2 → e = e') ∧
      ∀ c ∈ changes, ∀ e ∈ entries, f e.2 = f c.value → e.1 ∈ changes.map Change.key := by
  rw [nodup_map_iff_inj_on (applyAll_keys_nodup proper nodup).of_map]
  constructor
  · intro inj
    constructor
    · intro e old unchanged e' old' unchanged' same
      exact inj e ((mem_applyAll proper).mpr (.inl ⟨old, unchanged⟩)) e' ((mem_applyAll proper).mpr (.inl ⟨old', unchanged'⟩)) same
    · intro c member e mem same
      by_contra unchanged
      have one := inj e ((mem_applyAll proper).mpr (.inl ⟨mem, unchanged⟩)) (c.key, c.value)
        ((mem_applyAll proper).mpr (.inr ⟨c, member, rfl⟩)) same
      exact unchanged (one ▸ mem_map_of_mem member)
  · rintro ⟨kept, covered⟩ x left y right same
    rcases (mem_applyAll proper).mp left with ⟨old, unchanged⟩ | ⟨c, member, rfl⟩
    · rcases (mem_applyAll proper).mp right with ⟨old', unchanged'⟩ | ⟨d, mem', rfl⟩
      · exact kept x old unchanged y old' unchanged' same
      · exact absurd (covered d mem' x old same) unchanged
    · rcases (mem_applyAll proper).mp right with ⟨old', unchanged'⟩ | ⟨d, mem', rfl⟩
      · exact absurd (covered c member y old' same.symm) unchanged'
      · rw [apart c member d mem' same]

end

end Lib.Upsert
