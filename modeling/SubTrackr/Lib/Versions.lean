import Mathlib.Data.List.Nodup
import Mathlib.Data.List.GetD

namespace Lib

open List

structure Version where
  number : ℕ
  (active shared : Bool)
  deriving DecidableEq

namespace Version

variable {κ : Type} {chain : List (κ × Version)} {k k' : κ} {v : Version}

def retire (v : Version) : Version := { v with active := false, shared := false }

def successor (v : Version) : Version := ⟨v.number + 1, true, v.shared⟩

def amend [DecidableEq κ] (chain : List (κ × Version)) (k : κ) (v : Version) : List (κ × Version) :=
  chain.map fun e => if e.1 = k then (e.1, v) else e

def publish [DecidableEq κ] (chain : List (κ × Version)) (k : κ) (v : Version) (k' : κ) : List (κ × Version) :=
  amend chain k v.retire ++ [(k', v.successor)]

def share [DecidableEq κ] (chain : List (κ × Version)) (k : κ) (v : Version) (shared : Bool) : List (κ × Version) :=
  amend chain k { v with shared := shared }

structure OneLive (chain : List (κ × Version)) : Prop where
  alone : ∀ a ∈ chain, ∀ b ∈ chain, a.2.active = true → b.2.active = true → a = b
  highest : ∀ a ∈ chain, a.2.active = true → ∀ b ∈ chain, b.2.number ≤ a.2.number
  last : ∀ a ∈ chain, a.2.active = true → chain.getLast? = some a
  numbered : chain.map (·.2.number) = List.range' 1 chain.length
  shared : ∀ a ∈ chain, a.2.shared = true → a.2.active = true

structure Headed (chain : List (κ × Version)) : Prop where
  keys : (chain.map Prod.fst).Nodup
  numbered : chain.map (·.2.number) = List.range' 1 chain.length
  live : ∀ a ∈ chain, a.2.active = true ↔ chain.getLast? = some a
  shared : ∀ a ∈ chain, a.2.shared = true → a.2.active = true

section

variable (numbered : chain.map (·.2.number) = List.range' 1 chain.length)

include numbered

theorem number_le {a : κ × Version} (member : a ∈ chain) : a.2.number ≤ chain.length := by
  have mem : a.2.number ∈ List.range' 1 chain.length := numbered ▸ mem_map_of_mem member
  have bound := mem_range'_1.mp mem
  omega

theorem number_getElem {i : ℕ} (bound : i < chain.length) : chain[i].2.number = i + 1 := by
  have same : (chain.map (·.2.number))[i]? = (List.range' 1 chain.length)[i]? := by rw [numbered]
  rw [getElem?_map, getElem?_eq_getElem bound, getElem?_range' bound] at same
  have number : chain[i].2.number = 1 + 1 * i := Option.some.inj same
  omega

theorem getLast?_of_number {a : κ × Version}
    (mem : a ∈ chain) : chain.getLast? = some a ↔ a.2.number = chain.length := by
  obtain ⟨i, bound, rfl⟩ := mem_iff_getElem.mp mem
  rw [number_getElem numbered bound, getLast?_eq_getElem?]
  constructor
  · intro last
    obtain ⟨bound', same⟩ := List.getElem?_eq_some_iff.mp last
    have number := number_getElem numbered bound'
    rw [same, number_getElem numbered bound] at number
    omega
  · intro last
    have here : chain.length - 1 = i := by omega
    rw [here, getElem?_eq_getElem bound]

end

theorem Headed.oneLive (headed : Headed chain) : OneLive chain where
  alone a member b member' live live' :=
    Option.some.inj (((headed.live a member).mp live).symm.trans ((headed.live b member').mp live'))
  highest a member live b member' := by
    have top := (getLast?_of_number headed.numbered member).mp ((headed.live a member).mp live)
    rw [top]
    exact number_le headed.numbered member'
  last a member live := (headed.live a member).mp live
  numbered := headed.numbered
  shared := headed.shared

theorem headed_nil : Headed ([] : List (κ × Version)) where
  keys := nodup_nil
  numbered := rfl
  live := nofun
  shared := nofun

theorem headed_first (k : κ) : Headed [(k, ⟨1, true, false⟩)] where
  keys := nodup_singleton _
  numbered := rfl
  live a listed := by
    rw [mem_singleton.mp listed]
    exact iff_of_true rfl rfl
  shared a listed shared := by
    rw [mem_singleton.mp listed] at shared
    cases shared

def chainOf (look : κ → Option Version) (keys : List κ) : List (κ × Version) :=
  keys.filterMap fun key => (look key).map fun v => (key, v)

variable {look look' : κ → Option Version} {keys : List κ}

theorem mem_chainOf : (k, v) ∈ chainOf look keys ↔ k ∈ keys ∧ look k = some v := by
  simp [chainOf]

theorem chainOf_congr (same : ∀ key ∈ keys, look' key = look key) : chainOf look' keys = chainOf look keys :=
  filterMap_congr fun key mem => by rw [same key mem]

theorem chainOf_concat (found : look k = some v) : chainOf look (keys ++ [k]) = chainOf look keys ++ [(k, v)] := by
  rw [chainOf, filterMap_append, filterMap_cons, found]
  rfl

theorem keys_chainOf (each : ∀ key ∈ keys, ∃ v, look key = some v) : (chainOf look keys).map Prod.fst = keys := by
  induction keys with
  | nil => rfl
  | cons key keys ih =>
    obtain ⟨v, found⟩ := each key mem_cons_self
    have rest := ih fun other mem => each other (mem_cons_of_mem _ mem)
    rw [chainOf] at rest ⊢
    rw [filterMap_cons, found, Option.map_some, map_cons, rest]

variable [DecidableEq κ]

theorem mem_amend {a : κ × Version} (member : a ∈ amend chain k v) : (a.1 = k ∧ a.2 = v) ∨ (a.1 ≠ k ∧ a ∈ chain) := by
  obtain ⟨e, mem, rfl⟩ := mem_map.mp member
  split
  · rename_i here
    exact .inl ⟨here, rfl⟩
  · rename_i other
    exact .inr ⟨other, mem⟩

theorem amend_absent (absent : k ∉ chain.map Prod.fst) : amend chain k v = chain := by
  have same : ∀ e ∈ chain, (if e.1 = k then (e.1, v) else e) = e := by
    intro e mem
    refine if_neg ?_
    rintro rfl
    exact absent (mem_map_of_mem mem)
  exact (map_congr_left same).trans (map_id chain)

theorem keys_amend (chain : List (κ × Version)) (k : κ) (v : Version) :
    (amend chain k v).map Prod.fst = chain.map Prod.fst := by
  rw [amend, map_map]
  refine map_congr_left fun e _ => ?_
  dsimp only [Function.comp_apply]
  split
  · rfl
  · rfl

theorem numbers_amend (keys : (chain.map Prod.fst).Nodup) (member : (k, v) ∈ chain) {w : Version} (same : w.number = v.number) :
    (amend chain k w).map (·.2.number) = chain.map (·.2.number) := by
  rw [amend, map_map]
  refine map_congr_left fun e mem => ?_
  dsimp only [Function.comp_apply]
  split
  · rename_i here
    rw [same, inj_on_of_nodup_map keys mem member here]
  · rfl

theorem getLast?_amend (chain : List (κ × Version)) (k : κ) (v : Version) :
    (amend chain k v).getLast? = chain.getLast?.map fun e => if e.1 = k then (e.1, v) else e :=
  getLast?_map

theorem length_amend (chain : List (κ × Version)) (k : κ) (v : Version) : (amend chain k v).length = chain.length :=
  length_map _

theorem active_of_publish_numbered (headed : Headed chain) (mem : (k, v) ∈ chain)
    (numbered : (publish chain k v k').map (·.2.number) = List.range' 1 (publish chain k v k').length) :
    v.active = true := by
  rw [publish, map_append, length_append, length_amend, numbers_amend headed.keys mem (w := v.retire) rfl,
    length_singleton, range'_1_concat] at numbered
  have number : v.successor.number = 1 + chain.length := by
    have last := (append_inj numbered (by rw [length_map, length_range'])).2
    exact singleton_inj.mp last
  have top : v.number = chain.length := by
    have step : v.successor.number = v.number + 1 := rfl
    omega
  exact (headed.live _ mem).mpr ((getLast?_of_number headed.numbered mem).mpr top)

section

variable (headed : Headed chain) (member : (k, v) ∈ chain)

include headed member

theorem Headed.publish (active : v.active = true)
    (fresh : k' ∉ chain.map Prod.fst) : Headed (publish chain k v k') := by
  have last := (headed.live _ member).mp active
  have top : v.number = chain.length := (getLast?_of_number headed.numbered member).mp last
  have only : ∀ a ∈ amend chain k v.retire, a.2.active = false := by
    intro a mem
    rcases mem_amend mem with ⟨-, retired⟩ | ⟨other, old⟩
    · rw [retired]
      rfl
    · by_contra live
      rw [Bool.not_eq_false] at live
      have same := Option.some.inj (((headed.live a old).mp live).symm.trans last)
      exact other (congrArg Prod.fst same)
  refine ⟨?_, ?_, ?_, ?_⟩
  · rw [Version.publish, map_append, keys_amend]
    refine headed.keys.append (nodup_singleton _) ?_
    intro key old new
    rw [mem_singleton.mp new] at old
    exact fresh old
  · rw [Version.publish, map_append, length_append, length_amend, numbers_amend headed.keys member (w := v.retire) rfl,
      headed.numbered, length_singleton, range'_1_concat]
    congr 1
    exact congrArg (fun n => [n + 1]) top |>.trans (by rw [Nat.add_comm])
  · intro a mem
    rw [Version.publish, getLast?_concat]
    rcases mem_append.mp mem with old | new
    · have dead := only a old
      constructor
      · intro live
        rw [dead] at live
        cases live
      · intro same
        cases same
        cases dead
    · rw [mem_singleton.mp new]
      exact iff_of_true rfl rfl
  · intro a mem shared
    rcases mem_append.mp mem with old | new
    · rcases mem_amend old with ⟨-, retired⟩ | ⟨-, kept⟩
      · rw [retired] at shared
        cases shared
      · have live := headed.shared a kept shared
        rw [only a old] at live
        cases live
    · rw [mem_singleton.mp new]
      rfl

theorem Headed.share {shared : Bool}
    (allowed : shared = true → v.active = true) : Headed (share chain k v shared) := by
  have unchanged {a : κ × Version} (old : a ∈ chain) (here : a.1 = k) : a.2 = v :=
    congrArg Prod.snd (inj_on_of_nodup_map headed.keys old member here)
  refine ⟨?_, ?_, ?_, ?_⟩
  · rw [Version.share, keys_amend]
    exact headed.keys
  · rw [Version.share, length_amend, numbers_amend headed.keys member (w := { v with shared := shared }) rfl]
    exact headed.numbered
  · intro a mem
    obtain ⟨e, old, rfl⟩ := mem_map.mp mem
    rw [Version.share, getLast?_amend]
    have activity : (if e.1 = k then (e.1, { v with shared := shared }) else e).2.active = e.2.active := by
      split
      · rename_i here
        rw [unchanged old here]
      · rfl
    rw [activity, headed.live e old]
    constructor
    · intro last
      rw [last]
      rfl
    · intro last
      obtain ⟨e', last', same⟩ := Option.map_eq_some_iff.mp last
      have keys : e'.1 = e.1 := by
        have first := congrArg Prod.fst same
        split at first <;> split at first <;> exact first
      rw [last', inj_on_of_nodup_map headed.keys (mem_of_getLast? last') old keys]
  · intro a mem open'
    rcases mem_amend mem with ⟨-, changed⟩ | ⟨-, old⟩
    · rw [changed] at open' ⊢
      exact allowed open'
    · exact headed.shared a old open'

theorem share_iff {shared : Bool} : OneLive (share chain k v shared) ↔ (shared = true → v.active = true) := by
  constructor
  · intro live shared'
    have mem : (k, { v with shared := shared }) ∈ share chain k v shared :=
      mem_map.mpr ⟨(k, v), member, if_pos rfl⟩
    exact live.shared _ mem shared'
  · intro allowed
    exact (headed.share member allowed).oneLive

end

theorem chainOf_amend (found : look k = some v) {w : Version} (changed : look' k = some w)
    (same : ∀ key ∈ keys, key ≠ k → look' key = look key) : chainOf look' keys = amend (chainOf look keys) k w := by
  unfold chainOf amend
  rw [map_filterMap]
  refine filterMap_congr fun key mem => ?_
  by_cases here : key = k
  · subst here
    simp [found, changed]
  · rw [same key mem here]
    cases look key with
    | none => rfl
    | some v => simp [here]

end Version

end Lib
