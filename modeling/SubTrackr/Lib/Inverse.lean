import SubTrackr.Lib.Store

namespace Lib

variable {κ α : Type}

def entries (m : Store κ (List α)) (k : κ) : List α := (m k).getD []

structure Inverse (f : Store κ (List α)) (g : Store α (List κ)) : Prop where
  mem_iff : ∀ k a, a ∈ entries f k ↔ k ∈ entries g a
  left : ∀ k, (entries f k).Nodup
  right : ∀ a, (entries g a).Nodup

theorem Inverse.empty : Inverse (fun _ : κ => none) (fun _ : α => none) where
  mem_iff k a := by simp [entries]
  left k := List.nodup_nil
  right a := List.nodup_nil

section Entries

variable [DecidableEq κ] (m : Store κ (List α)) {k j : κ} {a b : α}

@[simp] theorem entries_put_self (k : κ) (new : List α) : entries (put m k new) k = new := by
  simp [entries]

theorem entries_put_of_ne (new : List α) (other : j ≠ k) : entries (put m k new) j = entries m j := by
  simp [entries, put_of_ne _ _ other]

theorem mem_entries_append (k j : κ) (a b : α) :
    b ∈ entries (put m k (entries m k ++ [a])) j ↔ b ∈ entries m j ∨ (j = k ∧ b = a) := by
  by_cases here : j = k
  · subst here
    simp
  · simp [entries_put_of_ne _ _ here, here]

theorem nodup_entries_append (nodup : ∀ j, (entries m j).Nodup) (new : a ∉ entries m k) (j : κ) :
    (entries (put m k (entries m k ++ [a])) j).Nodup := by
  by_cases here : j = k
  · subst here
    rw [entries_put_self]
    apply List.nodup_append.mpr
    refine ⟨nodup j, List.nodup_singleton a, ?_⟩
    intro b old c last same
    exact new (List.mem_singleton.mp last ▸ same ▸ old)
  · rw [entries_put_of_ne _ _ here]
    exact nodup j

theorem mem_entries_filter [DecidableEq α] (k j : κ) (a b : α) :
    b ∈ entries (put m k ((entries m k).filter (· ≠ a))) j ↔ b ∈ entries m j ∧ ¬ (j = k ∧ b = a) := by
  by_cases here : j = k
  · subst here
    simp
  · simp [entries_put_of_ne _ _ here, here]

theorem nodup_entries_filter (keep : α → Bool) (nodup : ∀ j, (entries m j).Nodup) (k j : κ) :
    (entries (put m k ((entries m k).filter keep)) j).Nodup := by
  by_cases here : j = k
  · subst here
    rw [entries_put_self]
    exact (nodup j).filter _
  · rw [entries_put_of_ne _ _ here]
    exact nodup j

end Entries

section Tables

variable [DecidableEq κ] [DecidableEq α] {f : Store κ (List α)} {g : Store α (List κ)}

theorem Inverse.link (inverse : Inverse f g) {k : κ} {a : α} (new : a ∉ entries f k) :
    Inverse (put f k (entries f k ++ [a])) (put g a (entries g a ++ [k])) where
  mem_iff j b := by rw [mem_entries_append, mem_entries_append, inverse.mem_iff, and_comm]
  left := nodup_entries_append f inverse.left new
  right := nodup_entries_append g inverse.right fun mem => new ((inverse.mem_iff k a).mpr mem)

theorem Inverse.unlink (inverse : Inverse f g) (k : κ) (a : α) :
    Inverse (put f k ((entries f k).filter (· ≠ a))) (put g a ((entries g a).filter (· ≠ k))) where
  mem_iff j b := by rw [mem_entries_filter, mem_entries_filter, inverse.mem_iff, and_comm (a := j = k)]
  left := nodup_entries_filter f _ inverse.left k
  right := nodup_entries_filter g _ inverse.right a

end Tables

end Lib
