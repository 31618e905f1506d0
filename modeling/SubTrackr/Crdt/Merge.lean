import SubTrackr.Crdt.State

namespace SubTrackr.Crdt

open Option Lib

section

variable {Text : Type} [LinearOrder Text] {σ : Schema Text}

section Parts

def Item.timestamps (i : Item σ) : Timestamps := (i.metadata.getD ⟨∅, none⟩).timestamps

def Item.deletedAt (i : Item σ) : ℕ := (i.metadata.getD ⟨∅, none⟩).deletedAt.getD 0

def Item.fields (i : Item σ) : Subscription σ := i.sub.getD ∅

def Buried (a b : Item σ) : Prop :=
  0 < max a.deletedAt b.deletedAt ∧ max a.timestamps.largest b.timestamps.largest ≤ max a.deletedAt b.deletedAt

variable {a b : Item σ}

theorem mergeItem_buried (buried : Buried a b) :
    mergeItem a b = ⟨none, some ⟨mergeTimestamps a.timestamps b.timestamps, some (max a.deletedAt b.deletedAt)⟩⟩ :=
  if_pos buried

theorem mergeItem_missing (alive : ¬ Buried a b) (noneA : a.sub = none) (noneB : b.sub = none) :
    mergeItem a b = ⟨none, none⟩ := by
  have missing : a.sub.isNone = true ∧ b.sub.isNone = true := by rw [noneA, noneB]; exact ⟨rfl, rfl⟩
  exact (if_neg alive).trans (if_pos missing)

theorem mergeItem_present (alive : ¬ Buried a b) (given : a.sub ≠ none ∨ b.sub ≠ none) :
    mergeItem a b = ⟨some (mergedSub a.fields b.fields a.timestamps b.timestamps),
      some ⟨mergedTimestamps a.fields b.fields a.timestamps b.timestamps,
        if 0 < max a.deletedAt b.deletedAt then some (max a.deletedAt b.deletedAt) else none⟩⟩ := by
  have kept : ¬ (a.sub.isNone = true ∧ b.sub.isNone = true) := by
    rw [isNone_iff_eq_none, isNone_iff_eq_none, not_and_or]
    exact given
  exact (if_neg alive).trans (if_neg kept)

end Parts

section Commutative

variable {key : String}

theorem mergeTimestamps_eq (tsA tsB : Timestamps) : mergeTimestamps tsA tsB = tsA.join tsB := by
  ext1 key
  rw [Record.get_join, mergeTimestamps, Record.get_assign, Record.get_map]
  cases tsA.get key <;> cases tsB.get key <;> simp

theorem mergeField_newer {tA tB : ℕ} (newer : tB < tA) (valA valB : Option (σ.Value key)) :
    mergeField key tA tB valA valB = (valA, valA.map fun _ => tA) := if_pos newer

theorem mergeField_older {tA tB : ℕ} (older : tA < tB) (valA valB : Option (σ.Value key)) :
    mergeField key tA tB valA valB = (valB, valB.map fun _ => tB) := (if_neg older.asymm).trans (if_pos older)

theorem mergeField_tied (t : ℕ) (valA valB : Option (σ.Value key)) :
    mergeField key t t valA valB = (tieBreak key valA valB, some t) := by
  unfold mergeField
  rw [if_neg (lt_irrefl t), if_neg (lt_irrefl t), max_self]

theorem tieBreak_some (a b : σ.Value key) :
    tieBreak key (some a) (some b) = if σ.text key b ≤ σ.text key a then some a else some b := rfl

theorem tieBreak_comm (valA valB : Option (σ.Value key)) : tieBreak key valA valB = tieBreak key valB valA := by
  cases valA with
  | none => cases valB <;> rfl
  | some a =>
    cases valB with
    | none => rfl
    | some b =>
      rw [tieBreak_some, tieBreak_some]
      rcases lt_trichotomy (σ.text key a) (σ.text key b) with less | same | more
      · rw [if_neg less.not_ge, if_pos less.le]
      · rw [σ.text_injective key same]
      · rw [if_pos more.le, if_neg more.not_ge]

theorem mergeField_comm (tA tB : ℕ) (valA valB : Option (σ.Value key)) :
    mergeField key tA tB valA valB = mergeField key tB tA valB valA := by
  rcases Nat.lt_trichotomy tA tB with older | rfl | newer
  · rw [mergeField_older older, mergeField_newer older]
  · rw [mergeField_tied, mergeField_tied, tieBreak_comm]
  · rw [mergeField_newer newer, mergeField_older newer]

theorem mergeKey_comm (subA subB : Subscription σ) (tsA tsB : Timestamps) :
    mergeKey subA subB tsA tsB = mergeKey subB subA tsB tsA := funext fun _ => mergeField_comm ..

omit [LinearOrder Text] in
theorem Buried.symm {a b : Item σ} (buried : Buried a b) : Buried b a := by
  unfold Buried at *
  rwa [max_comm b.deletedAt, max_comm b.timestamps.largest]

theorem mergeItem_comm (a b : Item σ) : mergeItem a b = mergeItem b a := by
  by_cases buried : Buried a b
  · rw [mergeItem_buried buried, mergeItem_buried buried.symm, mergeTimestamps_eq, mergeTimestamps_eq, Record.join_comm,
      max_comm]
  have alive : ¬ Buried b a := fun buried' => buried buried'.symm
  by_cases missing : a.sub = none ∧ b.sub = none
  · rw [mergeItem_missing buried missing.1 missing.2, mergeItem_missing alive missing.2 missing.1]
  · rw [not_and_or] at missing
    rw [mergeItem_present buried missing, mergeItem_present alive missing.symm, mergedSub, mergedSub, mergedTimestamps,
      mergedTimestamps, mergeKey_comm, Finset.union_comm, max_comm]

theorem merge_comm (A B : CRDTSubscriptionState σ) : merge A B = merge B A :=
  CRDTSubscriptionState.ext_item fun _ => mergeItem_comm ..

end Commutative

section Stored

variable {F G : Fields σ} {s : Timestamps} {key : String}

theorem mergeField_only (t : ℕ) (v : σ.Value key) : mergeField key t 0 (some v) none = (some v, some t) := by
  rcases Nat.eq_zero_or_pos t with rfl | pos
  · exact mergeField_tied ..
  · exact mergeField_newer pos ..

theorem mergeField_entries (f g : Entry σ key) :
    mergeField key f.time g.time (some f.value) (some g.value) = (some (max f g).value, some (max f g).time) := by
  rcases Nat.lt_trichotomy f.time g.time with older | same | newer
  · have below : f ≤ g := Entry.le_iff.mpr (.inl older)
    rw [mergeField_older older, max_eq_right below]
    rfl
  · rw [same, mergeField_tied, tieBreak_some]
    split
    · rename_i ordered
      have below : g ≤ f := Entry.le_iff.mpr (.inr ⟨same.symm, ordered⟩)
      rw [max_eq_left below, same]
    · rename_i ordered
      have below : f ≤ g := Entry.le_iff.mpr (.inr ⟨same, (not_le.mp ordered).le⟩)
      rw [max_eq_right below]
  · have below : g ≤ f := Entry.le_iff.mpr (.inl newer)
    rw [mergeField_newer newer, max_eq_left below]
    rfl

theorem mergeKey_present (given : F.get key ≠ none ∨ G.get key ≠ none) :
    mergeKey (values F) (values G) (stamps F) (stamps G) key =
      (((F.join G).get key).map (·.value), ((F.join G).get key).map (·.time)) := by
  unfold mergeKey
  rw [get_values, get_values, get_stamps, get_stamps, Record.get_join]
  cases left : F.get key with
  | none =>
    cases right : G.get key with
    | none => simp [left, right] at given
    | some g =>
      rw [mergeField_comm]
      exact mergeField_only ..
  | some f =>
    cases right : G.get key with
    | none => exact mergeField_only ..
    | some g => exact mergeField_entries ..

theorem mergeKey_deleted (f : Entry σ key) (found : F.get key = some f) : mergeKey (values F) ∅ (stamps F) s key =
      (((keep s F).get key).map (·.value), ((keep s F).get key).map (·.time)) := by
  unfold mergeKey
  rw [get_values, get_stamps, found, Record.get_empty]
  change mergeField key f.time ((s.get key).getD 0) (some f.value) none = _
  rcases Nat.lt_trichotomy f.time ((s.get key).getD 0) with older | same | newer
  · rw [mergeField_older older, keep_of_lt found older]
    rfl
  · rw [← same, mergeField_tied, keep_of_le found same.ge]
    rfl
  · rw [mergeField_newer newer, keep_of_le found newer.le]
    rfl

omit [LinearOrder Text] in
theorem mem_keys_values : key ∈ (values F).keys ↔ F.get key ≠ none := by
  rw [Record.listed, get_values, isSome_map, isSome_iff_ne_none]

omit [LinearOrder Text] in
@[simp] theorem values_empty : values (∅ : Fields σ) = ∅ := by
  ext1 key
  rw [get_values, Record.get_empty, Record.get_empty, map_none]

variable (F G) in
theorem mergedSub_present : mergedSub (values F) (values G) (stamps F) (stamps G) = values (F.join G) := by
  ext1 key
  simp only [mergedSub, Record.get_collect, get_values, Finset.mem_union, mem_keys_values]
  split
  · rename_i given
    rw [mergeKey_present given, map_map]
    rfl
  · rename_i missing
    rw [not_or, not_not, not_not] at missing
    rw [Record.get_join, missing.1, missing.2]
    rfl

variable (F G) in
theorem mergedTimestamps_present : mergedTimestamps (values F) (values G) (stamps F) (stamps G) = stamps (F.join G) := by
  ext1 key
  simp only [mergedTimestamps, Record.get_collect, get_stamps, Finset.mem_union, mem_keys_values]
  split
  · rename_i given
    rw [mergeKey_present given]
  · rename_i missing
    rw [not_or, not_not, not_not] at missing
    rw [Record.get_join, missing.1, missing.2]
    rfl

theorem mergedSub_deleted : mergedSub (values F) ∅ (stamps F) s = values (keep s F) := by
  ext1 key
  simp only [mergedSub, Record.get_collect, get_values, Record.keys_empty, Finset.union_empty, mem_keys_values]
  cases found : F.get key with
  | none =>
    rw [keep_of_none found]
    simp
  | some f =>
    rw [mergeKey_deleted f found, map_map]
    simp
    rfl

theorem mergedTimestamps_deleted : mergedTimestamps (values F) ∅ (stamps F) s = stamps (keep s F) := by
  ext1 key
  simp only [mergedTimestamps, Record.get_collect, get_stamps, Record.keys_empty, Finset.union_empty, mem_keys_values]
  cases found : F.get key with
  | none =>
    rw [keep_of_none found]
    simp
  | some f =>
    rw [mergeKey_deleted f found]
    simp

end Stored

section Cells

omit [LinearOrder Text] in
@[simp] theorem stamps_empty : stamps (∅ : Fields σ) = ∅ := by
  ext1 key
  rw [get_stamps, Record.get_empty, Record.get_empty, map_none]

variable (t t' : Tombstone) (l l' : Live σ)

omit [LinearOrder Text] in
@[simp] theorem absent_deletedAt : (Cell.absent : Cell σ).stored.deletedAt = 0 := rfl

omit [LinearOrder Text] in
@[simp] theorem absent_timestamps : (Cell.absent : Cell σ).stored.timestamps = ∅ := rfl

omit [LinearOrder Text] in
@[simp] theorem absent_fields : (Cell.absent : Cell σ).stored.fields = ∅ := rfl

omit [LinearOrder Text] in
@[simp] theorem deleted_deletedAt : (Cell.deleted t : Cell σ).stored.deletedAt = t.deletedAt := rfl

omit [LinearOrder Text] in
@[simp] theorem deleted_timestamps : (Cell.deleted t : Cell σ).stored.timestamps = t.timestamps := rfl

omit [LinearOrder Text] in
@[simp] theorem deleted_fields : (Cell.deleted t : Cell σ).stored.fields = ∅ := rfl

omit [LinearOrder Text] in
@[simp] theorem present_deletedAt : (Cell.present l).stored.deletedAt = l.deletedAt := by
  change (if 0 < l.deletedAt then some l.deletedAt else none).getD 0 = l.deletedAt
  split
  · rfl
  · rename_i zero
    exact (Nat.eq_zero_of_not_pos zero).symm

omit [LinearOrder Text] in
@[simp] theorem present_timestamps : (Cell.present l).stored.timestamps = stamps l.fields := rfl

omit [LinearOrder Text] in
@[simp] theorem present_fields : (Cell.present l).stored.fields = values l.fields := rfl

omit [LinearOrder Text] in
theorem present_sub : (Cell.present l).stored.sub ≠ none := some_ne_none _

theorem mergeItem_absent : mergeItem (Cell.absent : Cell σ).stored Cell.absent.stored = Cell.absent.stored := by
  apply mergeItem_missing _ rfl rfl
  simp [Buried]

theorem mergeItem_absent_deleted :
    mergeItem (Cell.absent : Cell σ).stored (Cell.deleted t).stored = (Cell.deleted t).stored := by
  have buried : Buried (Cell.absent : Cell σ).stored (Cell.deleted t).stored := by
    simp [Buried, t.positive, t.covers]
  rw [mergeItem_buried buried, mergeTimestamps_eq, absent_timestamps, Record.empty_join, absent_deletedAt,
    Nat.zero_max]
  rfl

theorem mergeItem_absent_present : mergeItem Cell.absent.stored (Cell.present l).stored = (Cell.present l).stored := by
  have alive : ¬ Buried Cell.absent.stored (Cell.present l).stored := by
    have := l.alive
    simp only [Buried, absent_deletedAt, absent_timestamps, present_deletedAt, present_timestamps, Record.largest_empty]
    omega
  -- An absent subscription merges like one without fields.
  have sub : mergedSub ∅ (values l.fields) ∅ (stamps l.fields) = values l.fields := by
    have joined := mergedSub_present ∅ l.fields
    rwa [values_empty, stamps_empty, Record.empty_join] at joined
  have timestamps : mergedTimestamps ∅ (values l.fields) ∅ (stamps l.fields) = stamps l.fields := by
    have joined := mergedTimestamps_present ∅ l.fields
    rwa [values_empty, stamps_empty, Record.empty_join] at joined
  rw [mergeItem_present alive (.inr (present_sub l)), absent_fields, absent_timestamps, present_fields,
    present_timestamps, sub, timestamps, absent_deletedAt, present_deletedAt, Nat.zero_max]
  rfl

theorem mergeItem_deleted :
    mergeItem (Cell.deleted t : Cell σ).stored (Cell.deleted t').stored = (Cell.deleted (t.join t')).stored := by
  have buried : Buried (Cell.deleted t : Cell σ).stored (Cell.deleted t').stored :=
    ⟨lt_max_of_lt_left t.positive, max_le_max t.covers t'.covers⟩
  rw [mergeItem_buried buried, mergeTimestamps_eq]
  rfl

theorem mergeItem_deleted_present :
    mergeItem (Cell.deleted t).stored (Cell.present l).stored = (Cell.meet t l).stored := by
  have alive := l.alive
  have pos := t.positive
  have covers := t.covers
  unfold Cell.meet
  split
  · rename_i older
    unfold Live.maxUpdate at older
    have same : max t.deletedAt l.deletedAt = t.deletedAt := by omega
    have buried : Buried (Cell.deleted t).stored (Cell.present l).stored := by
      simp only [Buried, deleted_deletedAt, present_deletedAt, deleted_timestamps, present_timestamps]
      omega
    rw [mergeItem_buried buried, mergeTimestamps_eq, deleted_deletedAt, present_deletedAt, same]
    rfl
  · rename_i newer
    unfold Live.maxUpdate at newer
    have kept : ¬ Buried (Cell.deleted t).stored (Cell.present l).stored := by
      simp only [Buried, deleted_deletedAt, present_deletedAt, deleted_timestamps, present_timestamps]
      omega
    rw [mergeItem_comm, mergeItem_present (fun buried => kept buried.symm) (.inl (present_sub l))]
    simp only [deleted_deletedAt, deleted_timestamps, deleted_fields, present_deletedAt, present_timestamps,
      present_fields, mergedSub_deleted, mergedTimestamps_deleted, max_comm l.deletedAt]
    rfl

theorem mergeItem_present_present :
    mergeItem (Cell.present l).stored (Cell.present l').stored = (Cell.present (l.join l')).stored := by
  have alive : ¬ Buried (Cell.present l).stored (Cell.present l').stored := by
    have := l.alive
    have := l'.alive
    simp only [Buried, present_deletedAt, present_timestamps]
    omega
  rw [mergeItem_present alive (.inl (present_sub l))]
  simp only [present_deletedAt, present_timestamps, present_fields, mergedSub_present, mergedTimestamps_present]
  rfl

theorem mergeItem_stored (a b : Cell σ) : mergeItem a.stored b.stored = (a.join b).stored := by
  cases a with
  | absent =>
    cases b with
    | absent => exact mergeItem_absent
    | deleted t => exact mergeItem_absent_deleted t
    | present l => exact mergeItem_absent_present l
  | deleted t =>
    cases b with
    | absent => exact (mergeItem_comm ..).trans (mergeItem_absent_deleted t)
    | deleted t' => exact mergeItem_deleted t t'
    | present l => exact mergeItem_deleted_present t l
  | present l =>
    cases b with
    | absent => exact (mergeItem_comm ..).trans (mergeItem_absent_present l)
    | deleted t => exact (mergeItem_comm ..).trans (mergeItem_deleted_present t l)
    | present l' => exact mergeItem_present_present l l'

theorem Cell.join_self (c : Cell σ) : c.join c = c := by
  cases c with
  | absent => rfl
  | deleted t => exact congrArg Cell.deleted (Tombstone.ext (Record.join_self _) (max_self _))
  | present l => exact congrArg Cell.present (Live.ext (Record.join_self _) (max_self _))

end Cells

section Settled

variable {i : Item σ} {key : String}

theorem tieBreak_self (val : Option (σ.Value key)) : tieBreak key val val = val := by
  cases val with
  | none => rfl
  | some v => exact if_pos le_rfl

def Item.entries (i : Item σ) : Fields σ :=
  Record.collect i.fields.keys fun key => (i.fields.get key).join.map fun v => ⟨(i.timestamps.get key).getD 0, v⟩

theorem mergedSub_self : mergedSub i.fields i.fields i.timestamps i.timestamps = values i.entries := by
  ext1 key
  rw [mergedSub, Record.get_collect, get_values, Item.entries, Record.get_collect, Finset.union_self, mergeKey,
    mergeField_tied, tieBreak_self]
  split
  · rw [map_map]
    rfl
  · rfl

theorem mergedTimestamps_self (defined : ∀ key ∈ i.fields.keys, (i.fields.get key).join ≠ none) :
    mergedTimestamps i.fields i.fields i.timestamps i.timestamps = stamps i.entries := by
  ext1 key
  rw [mergedTimestamps, Record.get_collect, get_stamps, Item.entries, Record.get_collect, Finset.union_self, mergeKey,
    mergeField_tied]
  split
  · rename_i mem
    obtain ⟨v, given⟩ := ne_none_iff_exists'.mp (defined key mem)
    rw [given]
    rfl
  · rfl

theorem defined_of_self (same : mergedSub i.fields i.fields i.timestamps i.timestamps = i.fields) :
    ∀ key ∈ i.fields.keys, (i.fields.get key).join ≠ none := by
  intro key mem undefined
  obtain ⟨v, given⟩ := Record.present mem
  rw [← same, mergedSub_self, get_values, Item.entries, Record.get_collect, if_pos mem, undefined] at given
  cases given

theorem mergeItem_self_iff : mergeItem i i = i ↔ ∃ c : Cell σ, c.stored = i := by
  constructor
  · intro same
    by_cases buried : Buried i i
    · rw [mergeItem_buried buried, mergeTimestamps_eq, Record.join_self, max_self] at same
      obtain ⟨pos, covered⟩ := buried
      rw [max_self] at pos covered
      rw [max_self] at covered
      exact ⟨.deleted ⟨i.timestamps, i.deletedAt, pos, covered⟩, same⟩
    by_cases missing : i.sub = none
    · rw [mergeItem_missing buried missing missing] at same
      exact ⟨.absent, same⟩
    rw [mergeItem_present buried (.inl missing), max_self] at same
    have fields : mergedSub i.fields i.fields i.timestamps i.timestamps = i.fields := congrArg Item.fields same
    have timestamps := mergedTimestamps_self (defined_of_self fields)
    have updated : i.timestamps = stamps i.entries := by
      rw [← timestamps]
      exact (congrArg Item.timestamps same).symm
    have alive : i.deletedAt = 0 ∨ i.deletedAt < (stamps i.entries).largest := by
      rw [Buried, max_self, max_self, updated] at buried
      omega
    use .present ⟨i.entries, i.deletedAt, alive⟩
    apply Eq.trans _ same
    rw [mergedSub_self, timestamps]
    rfl
  · rintro ⟨c, rfl⟩
    rw [mergeItem_stored, Cell.join_self]

end Settled

end

variable {Text : Type} {σ : Schema Text}

def Defined (sub : Subscription σ) : Prop := ∀ key, sub.get key ≠ some none

/-- An action by a clock that is not behind the timestamps that the device has, and without undefined values. -/
def Prompt (s : CRDTSubscriptionState σ) (timestamp : ℕ) : Action σ → Prop
  | .create _ sub => Defined sub
  | .update id updates => Defined updates ∧ (s.item id).timestamps.largest ≤ timestamp
  | .delete id => 0 < timestamp ∧ (s.item id).timestamps.largest ≤ timestamp

end SubTrackr.Crdt
