import Mathlib.Data.List.Nodup
import Mathlib.Data.List.Perm.Subperm
import Mathlib.Data.List.TakeDrop

namespace Lib.Offset

open List

variable {κ : Type*} {listed listed' read : List κ} {steady steady' : κ → Prop} {offset limit : ℕ} {k : κ}

theorem mem_take_of_sublist (sub : listed'.Sublist listed) (nodup : listed.Nodup) (left : k ∈ listed')
    (early : k ∈ listed.take offset) : k ∈ listed'.take offset := by
  induction sub generalizing offset with
  | slnil => exact absurd left not_mem_nil
  | @cons xs ys y sub ih =>
    cases offset with
    | zero => simp at early
    | succ offset =>
      have apart := nodup_cons.mp nodup
      rw [take_succ_cons, mem_cons] at early
      rcases early with rfl | early
      · exact absurd (sub.subset left) apart.1
      · exact take_subset_take_left _ (Nat.le_succ offset) (ih apart.2 left early)
  | @cons_cons xs ys y sub ih =>
    cases offset with
    | zero => simp at early
    | succ offset =>
      have apart := nodup_cons.mp nodup
      rw [take_succ_cons, mem_cons] at early ⊢
      rcases early with rfl | early
      · exact .inl rfl
      · have other : k ≠ y := by
          rintro rfl
          exact apart.1 (mem_of_mem_take early)
        exact .inr (ih apart.2 ((mem_cons.mp left).resolve_left other) early)

theorem mem_take_or_drop (member : k ∈ listed) (offset : ℕ) : k ∈ listed.take offset ∨ k ∈ listed.drop offset := by
  rw [← take_append_drop offset listed] at member
  exact mem_append.mp member

theorem take_drop_apart (nodup : listed.Nodup) (early : k ∈ listed.take offset) : k ∉ listed.drop offset := by
  rw [← take_append_drop offset listed] at nodup
  exact fun late => (nodup_append.mp nodup).2.2 k early k late rfl

theorem mem_drop_of_sublist (sub : listed'.Sublist listed) (nodup : listed.Nodup) (left : k ∈ listed')
    (late : k ∈ listed.drop offset) (spared : ∀ j ∈ listed.take offset, j ∈ listed') : k ∈ listed'.drop offset := by
  rcases mem_take_or_drop left offset with early | late'
  · -- the first keys are all there still, and with `k` they would be too many
    have here : (k :: listed.take offset).Subperm (listed'.take offset) := by
      apply subperm_of_subset
      · refine nodup_cons.mpr ⟨fun early' => take_drop_apart nodup early' late, nodup.sublist (take_sublist ..)⟩
      · intro j member
        rcases mem_cons.mp member with rfl | member
        · exact early
        · exact mem_take_of_sublist sub nodup (spared j member) member
    have sizes := here.length_le
    have some := length_pos_of_mem late
    simp only [length_cons, length_take, length_drop] at sizes some
    omega
  · exact late'

/-- `read` has been read, up to an offset, of a list that is now `listed`; the steady keys have been in it all the time. -/
structure Kept (steady : κ → Prop) (listed : List κ) (offset : ℕ) (read : List κ) : Prop where
  once : read.Nodup
  behind : ∀ k ∈ read, k ∈ listed → k ∈ listed.take offset
  ahead : ∀ k ∈ listed, steady k → k ∈ read ∨ k ∈ listed.drop offset

namespace Kept

theorem start (steady : κ → Prop) (listed : List κ) : Kept steady listed 0 [] where
  once := .nil
  behind _ none := absurd none not_mem_nil
  ahead _ mem _ := .inr mem

section

variable (kept : Kept steady listed offset read)

include kept

theorem weaken (fewer : ∀ k, steady' k → steady k) : Kept steady' listed offset read :=
  ⟨kept.once, kept.behind, fun k mem still => kept.ahead k mem (fewer k still)⟩

theorem append {more : List κ} (unread : ∀ k ∈ more, k ∉ read)
    (recent : ∀ k ∈ more, ¬steady k) : Kept steady (listed ++ more) offset read where
  once := kept.once
  behind k done member := by
    rcases mem_append.mp member with member | added
    · rw [take_append]
      exact mem_append_left _ (kept.behind k done member)
    · exact absurd done (unread k added)
  ahead k member still := by
    rcases mem_append.mp member with member | added
    · rw [drop_append]
      exact (kept.ahead k member still).imp_right fun late => mem_append_left _ late
    · exact absurd still (recent k added)

theorem retain (nodup : listed.Nodup) (sub : listed'.Sublist listed)
    (spared : (∀ k ∈ listed.take offset, k ∈ listed') ∨ ∀ k ∈ listed.drop offset, steady k → k ∉ listed') :
    Kept steady listed' offset read where
  once := kept.once
  behind k done left := mem_take_of_sublist sub nodup left (kept.behind k done (sub.subset left))
  ahead k left still := by
    rcases kept.ahead k (sub.subset left) still with done | late
    · exact .inl done
    · rcases spared with early | none
      · exact .inr (mem_drop_of_sublist sub nodup left late early)
      · exact absurd left (none k late still)

theorem once_page (nodup : listed.Nodup) (limit : ℕ) : (read ++ (listed.drop offset).take limit).Nodup := by
  refine nodup_append.mpr ⟨kept.once, nodup.sublist ((take_sublist ..).trans (drop_sublist ..)), ?_⟩
  rintro k done j fresh rfl
  have late := mem_of_mem_take fresh
  exact take_drop_apart nodup (kept.behind k done (mem_of_mem_drop late)) late

theorem page (nodup : listed.Nodup) (limit : ℕ) :
    Kept steady listed (offset + limit) (read ++ (listed.drop offset).take limit) where
  once := kept.once_page nodup limit
  behind k done member := by
    rw [take_add]
    rcases mem_append.mp done with done | fresh
    · exact mem_append_left _ (kept.behind k done member)
    · exact mem_append_right _ fresh
  ahead k member still := by
    rw [mem_append, or_assoc, ← drop_drop]
    exact (kept.ahead k member still).imp_right fun late => mem_take_or_drop late limit

theorem complete (beyond : listed.length ≤ offset) (mem : k ∈ listed)
    (still : steady k) : k ∈ read := by
  rcases kept.ahead k mem still with done | late
  · exact done
  · rw [drop_eq_nil_of_le beyond] at late
    exact absurd late not_mem_nil

end

end Kept

end Lib.Offset
