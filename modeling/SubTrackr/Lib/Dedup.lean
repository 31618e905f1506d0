import Mathlib.Data.List.Induction
import Mathlib.Data.List.Nodup

namespace Lib.Dedup

open List

variable {α κ γ : Type*} [DecidableEq κ] {key : α → κ} {replays : α → α → Prop} [∀ x y, Decidable (replays x y)]
  {own : α → γ} [DecidableEq γ] {xs ys : List α} {x y : α} {c : γ}

def record (skip : List α → α → Prop) [∀ done x, Decidable (skip done x)] (xs : List α) : List α :=
  xs.foldl (fun done x => if skip done x then done else done ++ [x]) []

variable (key) in
def kept (xs : List α) : List α := record (fun done x => key x ∈ done.map key) xs

variable (replays) in
def genuine (xs : List α) : List α := record (fun done x => ∃ y ∈ done, replays x y) xs

variable (key replays) in
/-- Every later item with the key of an item that is the first to have it replays that item. -/
def Keyed (xs : List α) : Prop :=
  ∀ first e middle x last, xs = first ++ e :: (middle ++ x :: last) → key x = key e → key e ∉ first.map key → replays x e

omit [DecidableEq κ] [DecidableEq γ] [∀ x y, Decidable (replays x y)] in
theorem record_concat (skip : List α → α → Prop) [∀ done x, Decidable (skip done x)] (xs : List α) (x : α) :
    record skip (xs ++ [x]) = if skip (record skip xs) x then record skip xs else record skip xs ++ [x] := by
  unfold record
  rw [foldl_append]
  rfl

theorem kept_concat (xs : List α) (x : α) :
    kept key (xs ++ [x]) = if key x ∈ (kept key xs).map key then kept key xs else kept key xs ++ [x] := record_concat _ _ _

theorem genuine_concat (xs : List α) (x : α) : genuine replays (xs ++ [x]) =
      if ∃ y ∈ genuine replays xs, replays x y then genuine replays xs else genuine replays xs ++ [x] := record_concat _ _ _

theorem mem_keys_kept {k : κ} : k ∈ (kept key xs).map key ↔ k ∈ xs.map key := by
  induction xs using List.reverseRecOn generalizing k with
  | nil => rfl
  | append_singleton xs x ih =>
    rw [kept_concat]
    split
    · rename_i seen
      rw [map_append, mem_append, ih]
      refine ⟨.inl, fun mem => mem.elim id fun new => ?_⟩
      rw [map_singleton, mem_singleton] at new
      exact new ▸ ih.mp seen
    · simp only [map_append, mem_append, ih]

theorem kept_keys_nodup : ((kept key xs).map key).Nodup := by
  induction xs using List.reverseRecOn with
  | nil => exact nodup_nil
  | append_singleton xs x ih =>
    rw [kept_concat]
    split
    · exact ih
    · rename_i new
      rw [map_append, map_singleton]
      exact nodup_append.mpr ⟨ih, nodup_singleton _, by
        rintro k mem k' last rfl
        exact new (mem_singleton.mp last ▸ mem)⟩

theorem mem_kept_iff : x ∈ kept key xs ↔ ∃ first last, xs = first ++ x :: last ∧ key x ∉ first.map key := by
  induction xs using List.reverseRecOn with
  | nil => simp [kept, record]
  | append_singleton xs y ih =>
    rw [kept_concat]
    constructor
    · intro mem
      have earlier (old : x ∈ kept key xs) : ∃ first last, xs ++ [y] = first ++ x :: last ∧ key x ∉ first.map key := by
        obtain ⟨first, last, rfl, new⟩ := ih.mp old
        exact ⟨first, last ++ [y], by simp, new⟩
      split at mem
      · exact earlier mem
      · rename_i new
        rcases mem_append.mp mem with old | last
        · exact earlier old
        · rw [mem_singleton.mp last]
          exact ⟨xs, [], rfl, fun seen => new (mem_keys_kept.mpr seen)⟩
    · rintro ⟨first, last, split, new⟩
      rcases eq_nil_or_concat last with rfl | ⟨last, z, rfl⟩
      · obtain ⟨rfl, same⟩ := append_inj' split rfl
        obtain rfl := singleton_inj.mp same
        rw [if_neg fun seen => new (mem_keys_kept.mp seen)]
        exact mem_append_right _ mem_cons_self
      · rw [concat_eq_append, ← cons_append, ← append_assoc] at split
        obtain ⟨rfl, same⟩ := append_inj' split rfl
        have old := ih.mpr ⟨first, last, rfl, new⟩
        split_ifs
        · exact old
        · exact mem_append_left _ old

omit [DecidableEq κ] [DecidableEq γ] [∀ x y, Decidable (replays x y)] in
theorem Keyed.initial (keyed : Keyed key replays (xs ++ [x])) : Keyed key replays xs := by
  intro first e middle y last split
  apply keyed first e middle y (last ++ [x])
  rw [split]
  simp

omit [DecidableEq γ] [∀ x y, Decidable (replays x y)] in
theorem Keyed.last (keyed : Keyed key replays (xs ++ [x])) (mem : y ∈ kept key xs) (same : key x = key y) : replays x y := by
  obtain ⟨first, last, rfl, new⟩ := mem_kept_iff.mp mem
  exact keyed first y last x [] (by simp) same new

omit [DecidableEq γ] [∀ x y, Decidable (replays x y)] in
theorem kept_filter (keyed : Keyed key replays xs) {p : α → Bool} (owners : ∀ x y, replays x y → p x = p y) :
    kept key (xs.filter p) = (kept key xs).filter p := by
  induction xs using List.reverseRecOn with
  | nil => rfl
  | append_singleton xs x ih =>
    have before := ih keyed.initial
    rw [filter_append, kept_concat]
    cases pass : p x with
    | false =>
      rw [filter_singleton, pass, Bool.cond_false, append_nil, before]
      split
      · rfl
      · rw [filter_append, filter_singleton, pass, Bool.cond_false, append_nil]
    | true =>
      rw [filter_singleton, pass, Bool.cond_true, kept_concat, before]
      by_cases seen : key x ∈ (kept key xs).map key
      · obtain ⟨y, mem, same⟩ := mem_map.mp seen
        have passed : p y = true := (owners x y (keyed.last mem same.symm)).symm.trans pass
        rw [if_pos seen, if_pos]
        exact same ▸ mem_map_of_mem (mem_filter.mpr ⟨mem, passed⟩)
      · rw [if_neg seen, if_neg, filter_append, filter_singleton, pass, Bool.cond_true]
        intro among
        obtain ⟨y, mem, same⟩ := mem_map.mp among
        exact seen (same ▸ mem_map_of_mem (mem_filter.mp mem).1)

omit [DecidableEq κ] [DecidableEq γ] in
theorem genuine_subset : genuine replays xs ⊆ xs := by
  induction xs using List.reverseRecOn with
  | nil => exact List.Subset.refl _
  | append_singleton xs x ih =>
    rw [genuine_concat]
    split
    · exact subset_append_of_subset_left _ ih
    · exact append_subset.mpr ⟨subset_append_of_subset_left _ ih, subset_append_right _ _⟩

omit [DecidableEq κ] [DecidableEq γ] in
theorem genuine_covers (reflexive : ∀ x, replays x x) (mem : x ∈ xs) : ∃ y ∈ genuine replays xs, replays x y := by
  induction xs using List.reverseRecOn with
  | nil => cases mem
  | append_singleton xs z ih =>
    rw [genuine_concat]
    rcases mem_append.mp mem with earlier | now
    · obtain ⟨y, member, replay⟩ := ih earlier
      split_ifs
      · exact ⟨y, member, replay⟩
      · exact ⟨y, mem_append_left _ member, replay⟩
    · obtain rfl := mem_singleton.mp now
      split_ifs with found
      · exact found
      · exact ⟨x, mem_append_right _ mem_cons_self, reflexive x⟩

/-- Every owner's kept items are those that replay none of the owner's. -/
theorem kept_genuine (sound : ∀ x y, replays x y → own x = own y ∧ key x = key y) (keyed : Keyed key replays xs) (c : γ) :
    (kept key xs).filter (fun x => own x = c) = genuine replays (xs.filter fun x => own x = c) := by
  induction xs using List.reverseRecOn with
  | nil => rfl
  | append_singleton xs x ih =>
    have before := ih keyed.initial
    rw [kept_concat, filter_append]
    by_cases mine : own x = c
    · rw [filter_singleton, decide_eq_true mine, Bool.cond_true, genuine_concat, ← before]
      by_cases seen : key x ∈ (kept key xs).map key
      · obtain ⟨y, mem, same⟩ := mem_map.mp seen
        have replay := keyed.last mem same.symm
        rw [if_pos seen, if_pos]
        exact ⟨y, mem_filter.mpr ⟨mem, by simpa [← mine] using ((sound x y replay).1).symm⟩, replay⟩
      · rw [if_neg seen, if_neg, filter_append, filter_singleton, decide_eq_true mine, Bool.cond_true]
        rintro ⟨y, mem, replay⟩
        exact seen ((sound x y replay).2 ▸ mem_map_of_mem (mem_filter.mp mem).1)
    · rw [filter_singleton, decide_eq_false mine, Bool.cond_false, append_nil, ← before]
      split
      · rfl
      · rw [filter_append, filter_singleton, decide_eq_false mine, Bool.cond_false, append_nil]

/-- Where what is read of the kept items is what is read of the genuine ones, a key that was seen marks a replay. -/
theorem keyed_of_kept {β : Type*} {read : α → β} (reflexive : ∀ x, replays x x)
    (sound : ∀ x y, replays x y → own x = own y ∧ key x = key y)
    (respects : ∀ x ∈ xs, ∀ y ∈ xs, ∀ y' ∈ xs, read y = read y' → replays x y → replays x y')
    (agree : ∀ c, ((kept key xs).filter fun x => own x = c).map read =
      (genuine replays (xs.filter fun x => own x = c)).map read) : Keyed key replays xs := by
  intro first e middle x last split same new
  have e_kept : e ∈ kept key xs := mem_kept_iff.mpr ⟨first, _, split, new⟩
  have mem : x ∈ xs := by
    rw [split]
    simp
  have own_listed : x ∈ xs.filter fun y => own y = own x := mem_filter.mpr ⟨mem, by simp⟩
  obtain ⟨y, member, replay⟩ := genuine_covers reflexive own_listed
  have y_listed := (mem_filter.mp (genuine_subset member)).1
  have reading : read y ∈ (genuine replays (xs.filter fun z => own z = own x)).map read := mem_map_of_mem member
  rw [← agree] at reading
  obtain ⟨y', among, read_same⟩ := mem_map.mp reading
  have y'_kept := (mem_filter.mp among).1
  obtain ⟨before, after, split', -⟩ := mem_kept_iff.mp y'_kept
  have y'_listed : y' ∈ xs := by
    rw [split']
    simp
  have replay' := respects x mem y y_listed y' y'_listed read_same.symm replay
  have unique : y' = e :=
    inj_on_of_nodup_map kept_keys_nodup y'_kept e_kept ((sound x y' replay').2.symm.trans same)
  exact unique ▸ replay'

end Lib.Dedup
