import SubTrackr.Crdt.Merge
import Mathlib.Data.String.Basic

namespace SubTrackr.Crdt

open Option Lib

variable {Text : Type} [LinearOrder Text] {σ : Schema Text}

section Conditions

def Tombstone.stamp (t : Tombstone) (key : String) : ℕ := (t.timestamps.get key).getD 0

/-- Where updates on two sides overtake the deletion, every field is in one of them as new as in the tombstone. -/
def Overtaken (t : Tombstone) (l l' : Live σ) : Prop :=
  t.deletedAt < l.maxUpdate → t.deletedAt < l'.maxUpdate →
    ∀ key e, (l.join l').fields.get key = some e → t.stamp key ≤ e.time

/-- Where the deletion removes one subscription and an update of the other overtakes it, the other has every field
    of the first, not older than the first and the tombstone have it. -/
def Superseded (t : Tombstone) (l l' : Live σ) : Prop :=
  l.maxUpdate ≤ t.deletedAt → t.deletedAt < l'.maxUpdate →
    ∀ key e, l.fields.get key = some e → ∃ e', l'.fields.get key = some e' ∧ t.stamp key ≤ e'.time ∧ e ≤ e'

/-- Where an update overtakes a deletion and a later deletion removes it, the timestamps of the first tombstone are
    in the subscription or in the second tombstone. -/
def Covered (t : Tombstone) (l : Live σ) (t' : Tombstone) : Prop :=
  t.deletedAt < l.maxUpdate → l.maxUpdate ≤ t'.deletedAt →
    ∀ key v, t.timestamps.get key = some v →
      (∃ e, l.fields.get key = some e ∧ v ≤ e.time) ∨ ∃ w, t'.timestamps.get key = some w ∧ v ≤ w

def Kept : Cell σ → Cell σ → Cell σ → Prop
  | .deleted t, .present l, .present l' => Overtaken t l l' ∧ Superseded t l l'
  | .deleted t, .present l, .deleted t' => Covered t l t'
  | _, _, _ => True

def InEveryOrder {α : Type} (P : α → α → α → Prop) (a b c : α) : Prop :=
  P a b c ∧ P a c b ∧ P b a c ∧ P b c a ∧ P c a b ∧ P c b a

end Conditions

section Fields

variable {F G : Fields σ} {s s' : Timestamps}

omit [LinearOrder Text] in
theorem keep_join : keep (Record.join s s') F = keep s (keep s' F) := by
  ext1 key
  rw [get_keep, get_keep, get_keep, Record.get_join, filter_filter]
  congr 1
  funext e
  cases s.get key <;> cases s'.get key <;> simp [Bool.and_comm]

/-- A tombstone that drops fields from one side only gives what it gives of both, when the other side's fields are
    new enough in the join. -/
theorem join_keep
    (kept : ∀ key g, G.get key = some g → ∃ e, (F.join G).get key = some e ∧ (s.get key).getD 0 ≤ e.time) :
    (keep s F).join G = keep s (F.join G) := by
  ext1 key
  rw [Record.get_join]
  cases right : G.get key with
  | none =>
    rw [merge_none_right, get_keep, get_keep, Record.get_join, right, merge_none_right]
  | some g =>
    obtain ⟨e, joined, new⟩ := kept key g right
    rw [keep_of_le joined new]
    rw [Record.get_join, right] at joined
    cases left : F.get key with
    | none =>
      rw [left] at joined
      rw [keep_of_none left]
      exact joined
    | some f =>
      rw [left, merge_some_some] at joined
      rcases le_or_gt ((s.get key).getD 0) f.time with fresh | stale
      · rw [keep_of_le left fresh]
        exact joined
      · have larger : max f g = g := by
          rcases le_total f g with below | above
          · exact max_eq_right below
          · rw [max_eq_left above] at joined
            cases joined
            exact absurd new (not_le.mpr stale)
        rw [keep_of_lt left stale, ← joined, larger]
        rfl

theorem keep_stamps
    (superseded : ∀ key f, F.get key = some f → ∃ g, G.get key = some g ∧ (s.get key).getD 0 ≤ g.time ∧ f ≤ g) :
    keep (Record.join s (stamps F)) G = keep s (F.join G) := by
  rw [keep_join]
  ext1 key
  cases left : F.get key with
  | none =>
    have whole : (keep (stamps F) G).get key = G.get key := by
      rw [get_keep, get_stamps, left]
      cases G.get key <;> simp
    rw [get_keep, whole, get_keep, Record.get_join, left, merge_none_left]
  | some f =>
    obtain ⟨g, right, fresh, below⟩ := superseded key f left
    have whole : (keep (stamps F) G).get key = some g := by
      apply keep_of_le right
      rw [get_stamps, left]
      exact Entry.time_le below
    have joined : (F.join G).get key = some g := by
      rw [Record.get_join, left, right, merge_some_some, max_eq_right below]
    rw [keep_of_le whole fresh, keep_of_le joined fresh]

theorem merge_none_eq_iff {a : Option ℕ} {v : ℕ} :
    Option.merge max a none = Option.merge max a (some v) ↔ ∃ w, a = some w ∧ v ≤ w := by
  cases a with
  | none => simp
  | some w => simp

omit [LinearOrder Text] in
theorem stamps_keep_at_iff {key : String} :
    (Record.join s (stamps (keep s' F))).get key = (Record.join s (Record.join s' (stamps F))).get key ↔
      ∀ v, s'.get key = some v →
        (∃ e, F.get key = some e ∧ v ≤ e.time) ∨ ∃ w, s.get key = some w ∧ v ≤ w := by
  rw [Record.get_join, Record.get_join, Record.get_join, get_stamps, get_stamps]
  cases dropped : s'.get key with
  | none =>
    have whole : (keep s' F).get key = F.get key := by
      rw [get_keep, dropped]
      cases F.get key <;> simp
    rw [whole]
    simp
  | some v =>
    cases field : F.get key with
    | none =>
      rw [keep_of_none field]
      change Option.merge max (s.get key) none = Option.merge max (s.get key) (some v) ↔ _
      rw [merge_none_eq_iff]
      simp
    | some e =>
      have stamp : (s'.get key).getD 0 = v := by rw [dropped, getD_some]
      rcases le_or_gt v e.time with fresh | stale
      · have kept := keep_of_le (s := s') field (stamp ▸ fresh)
        rw [kept]
        simp [fresh]
      · have lost := keep_of_lt (s := s') field (stamp ▸ stale)
        rw [lost, map_some, map_none, merge_some_some, max_eq_left stale.le, merge_none_eq_iff]
        simp [stale.not_ge]

omit [LinearOrder Text] in
theorem stamps_keep_iff : Record.join s (stamps (keep s' F)) = Record.join s (Record.join s' (stamps F)) ↔
    ∀ key v, s'.get key = some v →
      (∃ e, F.get key = some e ∧ v ≤ e.time) ∨ ∃ w, s.get key = some w ∧ v ≤ w := by
  rw [Record.ext_iff]
  exact forall_congr' fun _ => stamps_keep_at_iff

end Fields

section Grouping

variable (t t' : Tombstone) (l l' l'' : Live σ)

theorem Cell.absent_join (c : Cell σ) : Cell.absent.join c = c := by cases c <;> rfl

theorem Cell.join_absent (c : Cell σ) : c.join Cell.absent = c := by cases c <;> rfl

variable {t t' l l' l''}

omit [LinearOrder Text] in
theorem meet_older (older : l.maxUpdate ≤ t.deletedAt) : Cell.meet t l = .deleted (t.bury l older) := dif_pos older

omit [LinearOrder Text] in
theorem meet_newer (newer : t.deletedAt < l.maxUpdate) : Cell.meet t l = .present (l.overtake t newer) :=
  dif_neg (not_le.mpr newer)

theorem maxUpdate_join : (l.join l').maxUpdate = max l.maxUpdate l'.maxUpdate := by
  unfold Live.maxUpdate Live.join
  rw [stamps_join, Record.largest_join]

omit [LinearOrder Text] in
theorem maxUpdate_overtake (newer : t.deletedAt < l.maxUpdate) : (l.overtake t newer).maxUpdate = l.maxUpdate :=
  largest_keep (t.covers.trans_lt newer)

theorem deleted_assoc_iff : (Cell.deleted t).join ((Cell.deleted t').join (.present l)) =
    ((Cell.deleted t).join (.deleted t')).join (.present l) ↔ Covered t' l t := by
  change (Cell.deleted t).join (Cell.meet t' l) = Cell.meet (t.join t') l ↔ _
  rcases le_or_gt l.maxUpdate t'.deletedAt with older | newer
  · have older' : l.maxUpdate ≤ (t.join t').deletedAt := older.trans (le_max_right ..)
    have trivially : Covered t' l t := fun newer => absurd older (not_le.mpr newer)
    rw [meet_older older, meet_older older']
    refine iff_of_true (congrArg Cell.deleted (Tombstone.ext ?_ ?_)) trivially
    · exact (Record.join_assoc ..).symm
    · rfl
  rw [meet_newer newer]
  change Cell.meet t (l.overtake t' newer) = _ ↔ _
  rcases le_or_gt l.maxUpdate t.deletedAt with older | newest
  · have older' : l.maxUpdate ≤ (t.join t').deletedAt := older.trans (le_max_left ..)
    have overtaken : (l.overtake t' newer).maxUpdate ≤ t.deletedAt := by rwa [maxUpdate_overtake]
    rw [meet_older overtaken, meet_older older', Cell.deleted.injEq, Tombstone.ext_iff]
    change Record.join _ (stamps (keep _ _)) = Record.join (Record.join _ _) _ ∧ t.deletedAt = max t.deletedAt _ ↔ _
    rw [Record.join_assoc, stamps_keep_iff, max_eq_left (newer.trans_le older).le]
    constructor
    · rintro ⟨covered, -⟩ - -
      exact covered
    · intro covered
      exact ⟨covered newer older, rfl⟩
  · have newer' : (t.join t').deletedAt < l.maxUpdate := max_lt newest newer
    have overtaken : t.deletedAt < (l.overtake t' newer).maxUpdate := by rwa [maxUpdate_overtake]
    have trivially : Covered t' l t := fun _ older => absurd older (not_le.mpr newest)
    rw [meet_newer overtaken, meet_newer newer']
    refine iff_of_true (congrArg Cell.present (Live.ext ?_ ?_)) trivially
    · exact keep_join.symm
    · exact (max_assoc ..).symm

section Two

variable (overtaken : Overtaken t l l') (superseded : Superseded t l l') (superseded' : Superseded t l' l)

include overtaken superseded superseded'

theorem deleted_assoc : ((Cell.deleted t).join (.present l)).join (.present l') =
    (Cell.deleted t).join ((Cell.present l).join (.present l')) := by
  change (Cell.meet t l).join (.present l') = Cell.meet t (l.join l')
  rcases le_or_gt l.maxUpdate t.deletedAt with older | newer
  · rw [meet_older older]
    change Cell.meet (t.bury l older) l' = _
    rcases le_or_gt l'.maxUpdate t.deletedAt with older' | newer'
    · have both : (l.join l').maxUpdate ≤ t.deletedAt := by
        rw [maxUpdate_join]
        exact max_le older older'
      have buried : l'.maxUpdate ≤ (t.bury l older).deletedAt := older'
      rw [meet_older buried, meet_older both]
      refine congrArg Cell.deleted (Tombstone.ext ?_ rfl)
      change Record.join (Record.join _ _) _ = Record.join _ (stamps (Record.join _ _))
      rw [stamps_join, Record.join_assoc]
    · have both : t.deletedAt < (l.join l').maxUpdate := by
        rw [maxUpdate_join]
        exact lt_max_of_lt_right newer'
      have overtakes : (t.bury l older).deletedAt < l'.maxUpdate := newer'
      rw [meet_newer overtakes, meet_newer both]
      refine congrArg Cell.present (Live.ext ?_ ?_)
      · exact keep_stamps (superseded older newer')
      · change max t.deletedAt l'.deletedAt = max t.deletedAt (max l.deletedAt l'.deletedAt)
        have alive := l.alive
        unfold Live.maxUpdate at older
        omega
  · rw [meet_newer newer]
    have both : t.deletedAt < (l.join l').maxUpdate := by
      rw [maxUpdate_join]
      exact lt_max_of_lt_left newer
    rw [meet_newer both]
    refine congrArg Cell.present (Live.ext ?_ ?_)
    · apply join_keep
      intro key e' found
      rcases le_or_gt l'.maxUpdate t.deletedAt with older' | newer'
      · obtain ⟨e, larger, fresh, below⟩ := superseded' older' newer key e' found
        refine ⟨e, ?_, fresh⟩
        rw [Record.get_join, larger, found, merge_some_some, max_eq_left below]
      · have joined := Record.get_join l.fields l'.fields key
        rw [found] at joined
        cases other : l.fields.get key with
        | none =>
          rw [other, merge_none_left] at joined
          exact ⟨e', joined, overtaken newer newer' key e' joined⟩
        | some e =>
          rw [other, merge_some_some] at joined
          exact ⟨max e e', joined, overtaken newer newer' key _ joined⟩
    · exact max_assoc ..

end Two

def Associates (a b c : Cell σ) : Prop := (a.join b).join c = a.join (b.join c)

theorem Associates.symm {a b c : Cell σ} (assoc : Associates a b c) : Associates c b a := by
  unfold Associates at *
  rw [Cell.join_comm c b, Cell.join_comm _ a, Cell.join_comm c, Cell.join_comm b a]
  exact assoc.symm

theorem Associates.middle {a b c : Cell σ} (left : Associates b a c) (right : Associates b c a) : Associates a b c := by
  unfold Associates at *
  calc (a.join b).join c = (b.join a).join c := by rw [Cell.join_comm a b]
    _ = b.join (a.join c) := left
    _ = b.join (c.join a) := by rw [Cell.join_comm a c]
    _ = (b.join c).join a := right.symm
    _ = a.join (b.join c) := Cell.join_comm ..

theorem associates_absent {a b c : Cell σ} (missing : a = .absent ∨ b = .absent ∨ c = .absent) : Associates a b c := by
  rcases missing with rfl | rfl | rfl <;> simp only [Associates, Cell.absent_join, Cell.join_absent]

theorem associates_deleted (kept : Covered t' l t) : Associates (.deleted t) (.deleted t') (.present l) :=
  (deleted_assoc_iff.mpr kept).symm

theorem associates_of_kept {a b c : Cell σ} (kept : InEveryOrder Kept a b c) : Associates a b c := by
  obtain ⟨abc, acb, bac, bca, cab, cba⟩ := kept
  cases a with
  | absent => exact associates_absent (.inl rfl)
  | deleted t =>
    cases b with
    | absent => exact associates_absent (.inr (.inl rfl))
    | deleted t' =>
      cases c with
      | absent => exact associates_absent (.inr (.inr rfl))
      | deleted t'' =>
        refine congrArg Cell.deleted (Tombstone.ext ?_ ?_)
        · exact Record.join_assoc ..
        · exact max_assoc ..
      | present l => exact associates_deleted bca
    | present l =>
      cases c with
      | absent => exact associates_absent (.inr (.inr rfl))
      | deleted t' => exact .middle (associates_deleted abc).symm (associates_deleted cba).symm
      | present l' => exact deleted_assoc abc.1 abc.2 acb.2
  | present l =>
    cases b with
    | absent => exact associates_absent (.inr (.inl rfl))
    | deleted t =>
      cases c with
      | absent => exact associates_absent (.inr (.inr rfl))
      | deleted t' => exact (associates_deleted bac).symm
      | present l' => exact .middle (deleted_assoc bac.1 bac.2 bca.2) (deleted_assoc bca.1 bca.2 bac.2)
    | present l' =>
      cases c with
      | absent => exact associates_absent (.inr (.inr rfl))
      | deleted t => exact Associates.symm (deleted_assoc cba.1 cba.2 cab.2)
      | present l'' =>
        refine congrArg Cell.present (Live.ext ?_ ?_)
        · exact Record.join_assoc ..
        · exact max_assoc ..

section Lost

variable {key : String} {e : Entry σ key}

theorem none_of_associates (assoc : Associates (.deleted t) (.present l) (.present l')) (newer : t.deletedAt < l.maxUpdate)
    (joined : (l.join l').fields.get key = some e) (stale : e.time < t.stamp key) : l'.fields.get key = none := by
  have both : t.deletedAt < (l.join l').maxUpdate := by
    rw [maxUpdate_join]
    exact lt_max_of_lt_left newer
  change (Cell.meet t l).join (.present l') = Cell.meet t (l.join l') at assoc
  rw [meet_newer newer, meet_newer both] at assoc
  have fields : ((keep t.timestamps l.fields).join l'.fields).get key = (keep t.timestamps (l.join l').fields).get key :=
    congrArg (fun live => live.fields.get key) (Cell.present.inj assoc)
  rw [keep_of_lt joined stale, Record.get_join, merge_eq_none_iff] at fields
  exact fields.2

theorem superseded_of_associates (assoc : Associates (.present l) (.deleted t) (.present l')) : Superseded t l l' := by
  intro older newer key e found
  change (Cell.meet t l).join (.present l') = (Cell.present l).join (Cell.meet t l') at assoc
  rw [meet_older older, meet_newer newer] at assoc
  change Cell.meet (t.bury l older) l' = _ at assoc
  have overtakes : (t.bury l older).deletedAt < l'.maxUpdate := newer
  rw [meet_newer overtakes] at assoc
  have fields : (keep (Record.join t.timestamps (stamps l.fields)) l'.fields).get key =
      (l.fields.join (keep t.timestamps l'.fields)).get key :=
    congrArg (fun live => live.fields.get key) (Cell.present.inj assoc)
  rw [Record.get_join, found, keep_join] at fields
  cases other : l'.fields.get key with
  | none =>
    rw [keep_of_none (keep_of_none other), keep_of_none other] at fields
    cases fields
  | some e' =>
    have stamp : ((stamps l.fields).get key).getD 0 = e.time := by rw [get_stamps, found]; rfl
    rcases le_or_gt e.time e'.time with later | earlier
    · have kept := keep_of_le (s := stamps l.fields) other (stamp ▸ later)
      rcases le_or_gt (t.stamp key) e'.time with fresh | stale
      · rw [keep_of_le kept fresh, keep_of_le other fresh, merge_some_some] at fields
        exact ⟨e', rfl, fresh, max_eq_right_iff.mp (Option.some.inj fields).symm⟩
      · rw [keep_of_lt kept stale, keep_of_lt other stale] at fields
        cases fields
    · have lost := keep_of_lt (s := stamps l.fields) other (stamp ▸ earlier)
      rw [keep_of_none lost, eq_comm, merge_eq_none_iff] at fields
      cases fields.1

theorem overtaken_of_associates (assoc : Associates (.deleted t) (.present l) (.present l'))
    (assoc' : Associates (.deleted t) (.present l') (.present l)) : Overtaken t l l' := by
  intro newer newer' key e joined
  by_contra stale
  have second := none_of_associates assoc newer joined (not_le.mp stale)
  have swapped : (l'.join l).fields.get key = some e := by
    rw [← joined]
    exact congrArg (Record.get · key) (Record.join_comm ..)
  have first := none_of_associates assoc' newer' swapped (not_le.mp stale)
  change (l.fields.join l'.fields).get key = some e at joined
  rw [Record.get_join, first, second] at joined
  cases joined

end Lost

theorem kept_of_associates {a b c : Cell σ} (all : InEveryOrder Associates a b c) : Kept a b c := by
  obtain ⟨abc, acb, bac, bca, cab, cba⟩ := all
  cases a with
  | absent => trivial
  | present l => trivial
  | deleted t =>
    cases b with
    | absent => trivial
    | deleted t' => trivial
    | present l =>
      cases c with
      | absent => trivial
      | deleted t' => exact deleted_assoc_iff.mp (Eq.symm cab)
      | present l' => exact ⟨overtaken_of_associates abc acb, superseded_of_associates bac⟩

theorem InEveryOrder.imp {α : Type} {P Q : α → α → α → Prop} (step : ∀ a b c, InEveryOrder P a b c → Q a b c)
    {a b c : α} (all : InEveryOrder P a b c) : InEveryOrder Q a b c := by
  obtain ⟨abc, acb, bac, bca, cab, cba⟩ := all
  exact ⟨step _ _ _ ⟨abc, acb, bac, bca, cab, cba⟩, step _ _ _ ⟨acb, abc, cab, cba, bac, bca⟩,
    step _ _ _ ⟨bac, bca, abc, acb, cba, cab⟩, step _ _ _ ⟨bca, bac, cba, cab, abc, acb⟩,
    step _ _ _ ⟨cab, cba, acb, abc, bca, bac⟩, step _ _ _ ⟨cba, cab, bca, bac, acb, abc⟩⟩

theorem associates_iff {a b c : Cell σ} : InEveryOrder Associates a b c ↔ InEveryOrder Kept a b c :=
  ⟨.imp fun _ _ _ => kept_of_associates, .imp fun _ _ _ => associates_of_kept⟩

end Grouping

section States

omit [LinearOrder Text] in
theorem Cell.stored_injective {x y : Cell σ} (same : x.stored = y.stored) : x = y := by
  have times := congrArg Item.timestamps same
  have dates := congrArg Item.deletedAt same
  cases x with
  | absent =>
    cases y with
    | absent => rfl
    | deleted | present => cases congrArg Item.metadata same
  | deleted t =>
    cases y with
    | absent => cases congrArg Item.metadata same
    | deleted t' => exact congrArg Cell.deleted (Tombstone.ext times dates)
    | present l => cases congrArg Item.sub same
  | present l =>
    cases y with
    | absent => cases congrArg Item.metadata same
    | deleted t => cases congrArg Item.sub same
    | present l' =>
      rw [present_deletedAt, present_deletedAt] at dates
      refine congrArg Cell.present (Live.ext ?_ dates)
      ext1 key
      have time : ((l.fields.get key).map (·.time)) = (l'.fields.get key).map (·.time) := by
        rw [← get_stamps, ← get_stamps]
        exact congrArg (Record.get · key) times
      have value : (l.fields.get key).map (fun e => some e.value) = (l'.fields.get key).map fun e => some e.value := by
        rw [← get_values, ← get_values]
        exact congrArg (fun item => item.fields.get key) same
      generalize l.fields.get key = first, l'.fields.get key = second at time value
      match first, second with
      | none, none => rfl
      | none, some _ => cases time
      | some _, none => cases time
      | some ⟨t, v⟩, some ⟨t', v'⟩ =>
        cases time
        cases value
        rfl

/-- Merges of two of the states agree in either order, of a state with itself change nothing, and of three states do
    not depend on the grouping. -/
def Joins (A B C : CRDTSubscriptionState σ) : Prop :=
  merge A B = merge B A ∧ merge A A = A ∧ merge (merge A B) C = merge A (merge B C)

/-- What the three states hold under the id are cells, and no order of merging them drops a field that another one
    keeps. -/
def Converges (a b c : Item σ) : Prop :=
  ∃ x y z : Cell σ, x.stored = a ∧ y.stored = b ∧ z.stored = c ∧ InEveryOrder Kept x y z

variable {A B C : CRDTSubscriptionState σ} {x y z : Cell σ} {id : String}

theorem cell_of_merge_self (same : merge A A = A) (id : String) : ∃ x : Cell σ, x.stored = A.item id :=
  mergeItem_self_iff.mp (congrArg (CRDTSubscriptionState.item · id) same)

theorem associates_iff_items (first : x.stored = A.item id) (second : y.stored = B.item id) (third : z.stored = C.item id) :
    Associates x y z ↔ (merge (merge A B) C).item id = (merge A (merge B C)).item id := by
  simp only [item_merge, ← first, ← second, ← third, mergeItem_stored]
  exact ⟨congrArg Cell.stored, Cell.stored_injective⟩

theorem joins_of_cells (cells : ∀ id, ∃ x y z : Cell σ,
    x.stored = A.item id ∧ y.stored = B.item id ∧ z.stored = C.item id ∧ Associates x y z) : Joins A B C := by
  refine ⟨merge_comm A B, CRDTSubscriptionState.ext_item fun id => ?_,
    CRDTSubscriptionState.ext_item fun id => ?_⟩
  · obtain ⟨x, y, z, first, -⟩ := cells id
    exact mergeItem_self_iff.mpr ⟨x, first⟩
  · obtain ⟨x, y, z, first, second, third, assoc⟩ := cells id
    exact (associates_iff_items first second third).mp assoc

theorem merge_joins_iff (A B C : CRDTSubscriptionState σ) :
    InEveryOrder Joins A B C ↔ ∀ id, Converges (A.item id) (B.item id) (C.item id) := by
  constructor
  · rintro ⟨abc, acb, bac, bca, cab, cba⟩ id
    obtain ⟨x, first⟩ := cell_of_merge_self abc.2.1 id
    obtain ⟨y, second⟩ := cell_of_merge_self bac.2.1 id
    obtain ⟨z, third⟩ := cell_of_merge_self cab.2.1 id
    have at_id {s t : CRDTSubscriptionState σ} (same : s = t) : s.item id = t.item id := by rw [same]
    refine ⟨x, y, z, first, second, third, associates_iff.mp ⟨?_, ?_, ?_, ?_, ?_, ?_⟩⟩
    · exact (associates_iff_items first second third).mpr (at_id abc.2.2)
    · exact (associates_iff_items first third second).mpr (at_id acb.2.2)
    · exact (associates_iff_items second first third).mpr (at_id bac.2.2)
    · exact (associates_iff_items second third first).mpr (at_id bca.2.2)
    · exact (associates_iff_items third first second).mpr (at_id cab.2.2)
    · exact (associates_iff_items third second first).mpr (at_id cba.2.2)
  · intro converges
    have cells (id : String) : ∃ x y z : Cell σ, x.stored = A.item id ∧ y.stored = B.item id ∧ z.stored = C.item id ∧
        InEveryOrder Associates x y z := by
      obtain ⟨x, y, z, first, second, third, kept⟩ := converges id
      exact ⟨x, y, z, first, second, third, associates_iff.mpr kept⟩
    refine ⟨joins_of_cells fun id => ?_, joins_of_cells fun id => ?_, joins_of_cells fun id => ?_,
      joins_of_cells fun id => ?_, joins_of_cells fun id => ?_, joins_of_cells fun id => ?_⟩ <;>
      obtain ⟨x, y, z, first, second, third, abc, acb, bac, bca, cab, cba⟩ := cells id
    · exact ⟨x, y, z, first, second, third, abc⟩
    · exact ⟨x, z, y, first, third, second, acb⟩
    · exact ⟨y, x, z, second, first, third, bac⟩
    · exact ⟨y, z, x, second, third, first, bca⟩
    · exact ⟨z, x, y, third, first, second, cab⟩
    · exact ⟨z, y, x, third, second, first, cba⟩

end States

section Lost

abbrev plain : Schema String := ⟨fun _ => String, fun _ v => v, fun _ _ _ same => same⟩

def fieldsOf (fields : List (String × String)) : Subscription plain :=
  Record.collect (fields.map (·.1)).toFinset fun key => (fields.lookup key).map some

def netflix : Subscription plain :=
  fieldsOf [("id", "sub-1"), ("name", "Netflix"), ("category", "streaming"), ("price", "15"), ("currency", "USD"),
    ("billingCycle", "monthly"), ("nextBillingDate", "2026-07-01"), ("isActive", "true"), ("isCryptoEnabled", "false"),
    ("createdAt", "2026-06-01"), ("updatedAt", "2026-06-28")]

def created : CRDTSubscriptionState plain :=
  CRDTSubscriptionState.set ⟨fun _ => none, fun _ => none⟩ "sub-1" (some netflix) (createMetadata netflix 1000)

def update (fields : List (String × String)) (timestamp : ℕ) : CRDTSubscriptionState plain :=
  created.set "sub-1" (some (netflix.assign (fieldsOf fields)))
    (updateMetadata (createMetadata netflix 1000) (fieldsOf fields) timestamp)

def renamed : CRDTSubscriptionState plain := update [("name", "Netflix A")] 1500

def priced : CRDTSubscriptionState plain := update [("price", "18")] 2500

def removed : CRDTSubscriptionState plain :=
  renamed.set "sub-1" none
    { updateMetadata (createMetadata netflix 1000) (fieldsOf [("name", "Netflix A")]) 1500 with deletedAt := some 2000 }

def nameIn (s : CRDTSubscriptionState plain) : Option String :=
  ((s.subscriptions "sub-1").bind (·.get "name")).join

theorem defined_fieldsOf (fields : List (String × String)) : Defined (fieldsOf fields) := by
  intro key
  rw [fieldsOf, Record.get_collect]
  split
  · cases fields.lookup key <;> simp
  · simp

theorem created_reachable : Reachable Prompt created :=
  .act 1000 (.create "sub-1" netflix) .empty (defined_fieldsOf _) rfl

theorem update_reachable (fields : List (String × String)) {timestamp : ℕ} (later : 1000 ≤ timestamp) :
    Reachable Prompt (update fields timestamp) := by
  have first : (created.item "sub-1").timestamps.largest = 1000 := by decide +kernel
  exact .act timestamp (.update "sub-1" (fieldsOf fields)) created_reachable
    ⟨defined_fieldsOf _, first.trans_le later⟩ rfl

theorem removed_reachable : Reachable Prompt removed := by
  have last : (renamed.item "sub-1").timestamps.largest = 1500 := by decide +kernel
  exact .act 2000 (.delete "sub-1") (update_reachable _ (by decide)) ⟨by decide, last.trans_le (by decide)⟩ rfl

/-- One device renames a subscription and deletes it, another one changes the price later: the name survives where
    the renamed state is merged last. -/
theorem merge_not_join : ¬ ∀ A B C : CRDTSubscriptionState plain,
    Reachable Prompt A → Reachable Prompt B → Reachable Prompt C → Joins A B C := by
  intro joins
  have renamedFirst : Reachable Prompt renamed := update_reachable _ (by decide)
  have pricedLast : Reachable Prompt priced := update_reachable _ (by decide)
  have grouped := congrArg nameIn (joins renamed removed priced renamedFirst removed_reachable pricedLast).2.2
  have lost : nameIn (merge (merge renamed removed) priced) = none := by decide +kernel
  have kept : nameIn (merge renamed (merge removed priced)) = some "Netflix A" := by decide +kernel
  rw [lost, kept] at grouped
  cases grouped

end Lost

end SubTrackr.Crdt
