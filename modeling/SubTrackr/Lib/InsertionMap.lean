import SubTrackr.Lib.Sums
import Mathlib.Data.List.AList

namespace Lib

open List

structure InsertionMap (κ ν : Type) where
  entries : List (κ × ν)
  distinct : (entries.map Prod.fst).Nodup

namespace InsertionMap

variable {κ ν : Type}

instance : EmptyCollection (InsertionMap κ ν) := ⟨⟨[], nodup_nil⟩⟩

def keys (m : InsertionMap κ ν) : List κ := m.entries.map Prod.fst

def values (m : InsertionMap κ ν) : List ν := m.entries.map Prod.snd

variable [DecidableEq κ] {m : InsertionMap κ ν} {k j : κ} {v w : ν}

def get (m : InsertionMap κ ν) (k : κ) : Option ν := (m.entries.find? fun e => e.1 = k).map Prod.snd

def set (m : InsertionMap κ ν) (k : κ) (v : ν) : InsertionMap κ ν :=
  if known : k ∈ m.keys then
    ⟨m.entries.map fun e => if e.1 = k then (k, v) else e, by
      have same : (m.entries.map fun e => if e.1 = k then (k, v) else e).map Prod.fst = m.entries.map Prod.fst := by
        rw [map_map]
        apply map_congr_left
        intro e _
        dsimp only [Function.comp_apply]
        split
        · rename_i here
          exact here.symm
        · rfl
      rw [same]
      exact m.distinct⟩
  else
    ⟨m.entries ++ [(k, v)], by
      rw [map_append, nodup_append]
      refine ⟨m.distinct, nodup_singleton _, ?_⟩
      rintro a old b new rfl
      rw [mem_singleton.mp new] at old
      exact known old⟩

def erase (m : InsertionMap κ ν) (k : κ) : InsertionMap κ ν :=
  ⟨m.entries.filter fun e => e.1 ≠ k, m.distinct.sublist (filter_sublist.map _)⟩

def dropOldest (m : InsertionMap κ ν) (count : ℕ) : InsertionMap κ ν :=
  ⟨m.entries.drop count, m.distinct.sublist ((drop_sublist _ _).map _)⟩

def mapValues (f : ν → ν) (m : InsertionMap κ ν) : InsertionMap κ ν :=
  ⟨m.entries.map fun e => (e.1, f e.2), by
    rw [map_map]
    exact m.distinct⟩

@[simp] theorem get_empty (k : κ) : (∅ : InsertionMap κ ν).get k = none := rfl

theorem get_eq_some : m.get k = some v ↔ (k, v) ∈ m.entries := by
  unfold get
  constructor
  · intro found
    obtain ⟨⟨a, b⟩, hit, rfl⟩ := Option.map_eq_some_iff.mp found
    obtain rfl : a = k := by simpa using find?_some hit
    exact mem_of_find?_eq_some hit
  · intro mem
    obtain ⟨⟨a, b⟩, hit⟩ : ∃ e, m.entries.find? (fun e => e.1 = k) = some e := by
      rw [← Option.isSome_iff_exists, find?_isSome]
      exact ⟨(k, v), mem, by simp⟩
    obtain rfl : a = k := by simpa using find?_some hit
    rw [hit, Option.map_some, Option.some.injEq]
    have same := inj_on_of_nodup_map m.distinct (mem_of_find?_eq_some hit) mem rfl
    exact congrArg Prod.snd same

theorem mem_values : v ∈ m.values ↔ ∃ k, m.get k = some v := by
  unfold values
  rw [mem_map]
  constructor
  · rintro ⟨⟨k, v⟩, mem, rfl⟩
    exact ⟨k, get_eq_some.mpr mem⟩
  · rintro ⟨k, found⟩
    exact ⟨(k, v), get_eq_some.mp found, rfl⟩

theorem get_set_eq_some : (m.set k v).get j = some w ↔ j = k ∧ v = w ∨ j ≠ k ∧ m.get j = some w := by
  rw [get_eq_some, get_eq_some]
  unfold set
  split
  · rename_i known
    rw [mem_map]
    constructor
    · rintro ⟨⟨a, b⟩, mem, here⟩
      split at here
      · cases here
        exact .inl ⟨rfl, rfl⟩
      · rename_i other
        cases here
        exact .inr ⟨other, mem⟩
    · rintro (⟨rfl, rfl⟩ | ⟨other, mem⟩)
      · obtain ⟨⟨a, b⟩, mem, rfl⟩ := mem_map.mp known
        exact ⟨(a, b), mem, if_pos rfl⟩
      · exact ⟨(j, w), mem, if_neg other⟩
  · rename_i fresh
    rw [mem_append, mem_singleton, Prod.mk.injEq]
    constructor
    · rintro (mem | ⟨rfl, rfl⟩)
      · refine .inr ⟨?_, mem⟩
        rintro rfl
        exact fresh (mem_map_of_mem mem)
      · exact .inl ⟨rfl, rfl⟩
    · rintro (⟨rfl, rfl⟩ | ⟨-, mem⟩)
      · exact .inr ⟨rfl, rfl⟩
      · exact .inl mem

@[simp] theorem get_set_self (m : InsertionMap κ ν) (k : κ) (v : ν) : (m.set k v).get k = some v :=
  get_set_eq_some.mpr (.inl ⟨rfl, rfl⟩)

theorem get_set_of_ne (m : InsertionMap κ ν) (v : ν) (other : j ≠ k) : (m.set k v).get j = m.get j := by
  ext w
  rw [get_set_eq_some]
  simp [other]

theorem get_erase_eq_some : (m.erase k).get j = some v ↔ j ≠ k ∧ m.get j = some v := by
  rw [get_eq_some, get_eq_some]
  unfold erase
  rw [mem_filter, and_comm]
  simp

theorem get_of_dropOldest {count : ℕ} (found : (m.dropOldest count).get k = some v) : m.get k = some v :=
  get_eq_some.mpr (mem_of_mem_drop (get_eq_some.mp found))

theorem get_mapValues_eq_some {f : ν → ν} : (m.mapValues f).get k = some w ↔ ∃ v, m.get k = some v ∧ f v = w := by
  simp only [get_eq_some, mapValues, mem_map, Prod.mk.injEq]
  constructor
  · rintro ⟨⟨a, b⟩, mem, rfl, same⟩
    exact ⟨b, mem, same⟩
  · rintro ⟨v, mem, same⟩
    exact ⟨(k, v), mem, rfl, same⟩

theorem mem_keys : k ∈ m.keys ↔ ∃ v, m.get k = some v := by
  unfold keys
  rw [mem_map]
  constructor
  · rintro ⟨⟨a, b⟩, mem, rfl⟩
    exact ⟨b, get_eq_some.mpr mem⟩
  · rintro ⟨v, found⟩
    exact ⟨(k, v), get_eq_some.mp found, rfl⟩

theorem get_eq_none : m.get k = none ↔ k ∉ m.keys := by
  rw [mem_keys, Option.eq_none_iff_forall_ne_some, not_exists]

omit [DecidableEq κ] in
theorem length_values (m : InsertionMap κ ν) : m.values.length = m.entries.length := length_map ..

theorem values_set_of_known (known : m.get k = some w) :
    (m.set k v).values = m.entries.map fun e => if e.1 = k then v else e.2 := by
  have mem : k ∈ m.keys := mem_keys.mpr ⟨w, known⟩
  rw [values, set, dif_pos mem, map_map]
  refine map_congr_left fun e _ => ?_
  dsimp only [Function.comp_apply]
  split
  · rfl
  · rfl

theorem values_set_of_fresh (fresh : m.get k = none) : (m.set k v).values = m.values ++ [v] := by
  rw [values, set, dif_neg (get_eq_none.mp fresh), map_append]
  rfl

theorem sum_values_add {M : Type} [AddCommMonoid M] (m : InsertionMap κ M) (k : κ) (a : M) :
    (m.set k ((m.get k).getD 0 + a)).values.sum = m.values.sum + a := by
  cases found : m.get k with
  | none => rw [values_set_of_fresh found, sum_append, sum_singleton, Option.getD_none, zero_add]
  | some v =>
    have raised : (m.entries.map fun e => if e.1 = k then v + a else e.2) =
        m.entries.map fun e => e.2 + if k = e.1 then a else 0 := by
      refine map_congr_left fun e mem => ?_
      by_cases here : e.1 = k
      · have same : m.get e.1 = some e.2 := get_eq_some.mpr mem
        rw [here, found, Option.some.injEq] at same
        rw [if_pos here, if_pos here.symm, same]
      · rw [if_neg here, if_neg (Ne.symm here), add_zero]
    have split : (m.entries.map fun e => if k = e.1 then a else 0) = m.keys.map fun j => if k = j then a else 0 := by
      rw [keys, map_map]
      rfl
    have known : k ∈ m.keys := mem_keys.mpr ⟨v, found⟩
    rw [values_set_of_known found, Option.getD_some, raised, sum_map_add, split,
      sum_indicator (show m.keys.Nodup from m.distinct), if_pos known]
    rfl

def ofValues (name : ν → κ) (vs : List ν) : InsertionMap κ ν := vs.foldl (fun m v => m.set (name v) v) ∅

theorem entries_foldl_set {name : ν → κ} {es : List (κ × ν)} (named : ∀ e ∈ es, name e.2 = e.1)
    (nodup : ((m.entries ++ es).map Prod.fst).Nodup) :
    ((es.map Prod.snd).foldl (fun m v => m.set (name v) v) m).entries = m.entries ++ es := by
  induction es generalizing m with
  | nil => simp
  | cons e es ih =>
    obtain ⟨k, v⟩ := e
    have here : name v = k := named (k, v) mem_cons_self
    have fresh : k ∉ m.keys := by
      rw [map_append, nodup_append] at nodup
      exact fun known => nodup.2.2 k known k mem_cons_self rfl
    have set : (m.set k v).entries = m.entries ++ [(k, v)] := by rw [InsertionMap.set, dif_neg fresh]
    have split : m.entries ++ (k, v) :: es = (m.set k v).entries ++ es := by rw [set, append_assoc]; rfl
    rw [split] at nodup ⊢
    rw [map_cons, foldl_cons, here]
    exact ih (fun e later => named e (mem_cons_of_mem _ later)) nodup

theorem ofValues_values {name : ν → κ} (named : ∀ k v, m.get k = some v → name v = k) : ofValues name m.values = m := by
  have entries : (ofValues name m.values).entries = m.entries := by
    rw [ofValues, values]
    exact entries_foldl_set (fun e mem => named e.1 e.2 (get_eq_some.mpr mem)) m.distinct
  cases m
  cases set : ofValues name (values _)
  rw [set] at entries
  congr

end InsertionMap

abbrev OrderedMap (κ ν : Type) : Type := AList fun _ : κ => ν

namespace OrderedMap

variable {κ ν : Type}

def size (m : OrderedMap κ ν) : ℕ := m.entries.length

def keep (p : κ → ν → Bool) (m : OrderedMap κ ν) : OrderedMap κ ν :=
  ⟨m.entries.filter fun e => p e.1 e.2, m.nodupKeys.sublist filter_sublist⟩

def dropOldest (count : ℕ) (m : OrderedMap κ ν) : OrderedMap κ ν :=
  ⟨m.entries.take (m.size - count), m.nodupKeys.sublist (take_sublist _ _)⟩

def oldest (count : ℕ) (m : OrderedMap κ ν) : List (Sigma fun _ : κ => ν) := m.entries.drop (m.size - count)

variable [DecidableEq κ] {m : OrderedMap κ ν} {k : κ} {v : ν}

theorem lookup_eq_some : m.lookup k = some v ↔ ⟨k, v⟩ ∈ m.entries := AList.mem_lookup_iff

theorem lookup_keep_eq_some {p : κ → ν → Bool} : (m.keep p).lookup k = some v ↔ m.lookup k = some v ∧ p k v = true := by
  rw [lookup_eq_some, lookup_eq_some]
  exact mem_filter

theorem lookup_of_dropOldest {count : ℕ} (found : (m.dropOldest count).lookup k = some v) : m.lookup k = some v := by
  rw [lookup_eq_some] at found ⊢
  exact mem_of_mem_take found

theorem lookup_dropOldest {count : ℕ} (found : m.lookup k = some v) (recent : ⟨k, v⟩ ∉ m.oldest count) :
    (m.dropOldest count).lookup k = some v := by
  rw [lookup_eq_some] at found ⊢
  have split : ⟨k, v⟩ ∈ m.entries.take (m.size - count) ++ m.entries.drop (m.size - count) := by
    rw [take_append_drop]
    exact found
  exact (mem_append.mp split).resolve_right recent

theorem lookup_erase_eq_some {k' : κ} : (AList.erase k' m).lookup k = some v ↔ k ≠ k' ∧ m.lookup k = some v := by
  by_cases same : k = k'
  · subst same
    simp
  · rw [AList.lookup_erase_ne same]
    exact (and_iff_right same).symm

theorem lookup_insert_eq_some {k' : κ} {v' : ν} :
    (AList.insert k' v' m).lookup k = some v ↔ (k = k' ∧ v' = v) ∨ (k ≠ k' ∧ m.lookup k = some v) := by
  by_cases same : k = k'
  · subst same
    simp
  · rw [AList.lookup_insert_ne same]
    simp [same]

end OrderedMap

end Lib
