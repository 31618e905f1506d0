import SubTrackr.Lib.Record
import SubTrackr.Lib.Store
import Mathlib.Data.Prod.Lex

namespace SubTrackr.Crdt

open Option Lib

section

/-- One type of values for every field, and the string by which the values of a field are compared; the strings
    are any linear order. -/
structure Schema (Text : Type) where
  Value : String → Type
  text : (key : String) → Value key → Text
  text_injective : ∀ key, Function.Injective (text key)

variable {Text : Type} [LinearOrder Text] (σ : Schema Text)

abbrev Timestamps := Record String fun _ => ℕ

structure SubscriptionMetadata where
  timestamps : Timestamps
  deletedAt : Option ℕ

abbrev Subscription := Record String fun key => Option (σ.Value key)

structure CRDTSubscriptionState where
  subscriptions : Store String (Subscription σ)
  metadata : Store String SubscriptionMetadata

variable {σ}

@[ext] structure Item (σ : Schema Text) where
  sub : Option (Subscription σ)
  metadata : Option SubscriptionMetadata

def CRDTSubscriptionState.item (s : CRDTSubscriptionState σ) (id : String) : Item σ :=
  ⟨s.subscriptions id, s.metadata id⟩

omit [LinearOrder Text] in
theorem CRDTSubscriptionState.ext_item {s t : CRDTSubscriptionState σ} (same : ∀ id, s.item id = t.item id) : s = t := by
  obtain ⟨subscriptions, metadata⟩ := s
  obtain ⟨subscriptions', metadata'⟩ := t
  obtain rfl : subscriptions = subscriptions' := funext fun id => congrArg Item.sub (same id)
  obtain rfl : metadata = metadata' := funext fun id => congrArg Item.metadata (same id)
  rfl

section Merge

def mergeTimestamps (tsA tsB : Timestamps) : Timestamps :=
  tsA.assign (tsB.map fun key v => max ((tsA.get key).getD 0) v)

/-- The value taken at equal timestamps, `none` being `undefined`. -/
def tieBreak (key : String) : Option (σ.Value key) → Option (σ.Value key) → Option (σ.Value key)
  | some valA, some valB => if σ.text key valB ≤ σ.text key valA then some valA else some valB
  | some valA, none => some valA
  | none, valB => valB

def mergeField (key : String) (tA tB : ℕ) (valA valB : Option (σ.Value key)) : Option (σ.Value key) × Option ℕ :=
  if tB < tA then (valA, valA.map fun _ => tA)
  else if tA < tB then (valB, valB.map fun _ => tB)
  else (tieBreak key valA valB, some (max tA tB))

def mergeKey (subA subB : Subscription σ) (tsA tsB : Timestamps) (key : String) : Option (σ.Value key) × Option ℕ :=
  mergeField key ((tsA.get key).getD 0) ((tsB.get key).getD 0) (subA.get key).join (subB.get key).join

-- The dates are copied at the end: `new Date` of a date is the same value.
def mergedSub (subA subB : Subscription σ) (tsA tsB : Timestamps) : Subscription σ :=
  Record.collect (subA.keys ∪ subB.keys) fun key => (mergeKey subA subB tsA tsB key).1.map some

def mergedTimestamps (subA subB : Subscription σ) (tsA tsB : Timestamps) : Timestamps :=
  Record.collect (subA.keys ∪ subB.keys) fun key => (mergeKey subA subB tsA tsB key).2

def mergeItem (a b : Item σ) : Item σ :=
  let metaA := a.metadata.getD ⟨∅, none⟩
  let metaB := b.metadata.getD ⟨∅, none⟩
  let mergedDeletedAt := max (metaA.deletedAt.getD 0) (metaB.deletedAt.getD 0)
  let maxUpdate := max metaA.timestamps.largest metaB.timestamps.largest
  if 0 < mergedDeletedAt ∧ maxUpdate ≤ mergedDeletedAt then
    ⟨none, some ⟨mergeTimestamps metaA.timestamps metaB.timestamps, some mergedDeletedAt⟩⟩
  else if a.sub.isNone ∧ b.sub.isNone then
    ⟨none, none⟩
  else
    let subA := a.sub.getD ∅
    let subB := b.sub.getD ∅
    ⟨some (mergedSub subA subB metaA.timestamps metaB.timestamps),
      some ⟨mergedTimestamps subA subB metaA.timestamps metaB.timestamps,
        if 0 < mergedDeletedAt then some mergedDeletedAt else none⟩⟩

def merge (stateA stateB : CRDTSubscriptionState σ) : CRDTSubscriptionState σ where
  subscriptions id := (mergeItem (stateA.item id) (stateB.item id)).sub
  metadata id := (mergeItem (stateA.item id) (stateB.item id)).metadata

@[simp] theorem item_merge (a b : CRDTSubscriptionState σ) (id : String) :
    (merge a b).item id = mergeItem (a.item id) (b.item id) := rfl

end Merge

section Devices

def createMetadata (sub : Subscription σ) (timestamp : ℕ) : SubscriptionMetadata :=
  ⟨Record.collect sub.keys fun _ => some timestamp, none⟩

def updateMetadata (currentMeta : SubscriptionMetadata) (updates : Subscription σ) (timestamp : ℕ) :
    SubscriptionMetadata :=
  { currentMeta with
    timestamps := currentMeta.timestamps.assign (Record.collect updates.keys fun _ => some timestamp) }

inductive Action (σ : Schema Text)
  | create (id : String) (sub : Subscription σ)
  | update (id : String) (updates : Subscription σ)
  | delete (id : String)

def CRDTSubscriptionState.set (s : CRDTSubscriptionState σ) (id : String) (sub : Option (Subscription σ))
    (metadata : SubscriptionMetadata) : CRDTSubscriptionState σ where
  subscriptions := Function.update s.subscriptions id sub
  metadata := put s.metadata id metadata

def act (s : CRDTSubscriptionState σ) (timestamp : ℕ) : Action σ → Option (CRDTSubscriptionState σ)
  | .create id sub => some (s.set id (some sub) (createMetadata sub timestamp))
  | .update id updates =>
    match s.subscriptions id, s.metadata id with
    | some sub, some currentMeta =>
      some (s.set id (some (sub.assign updates)) (updateMetadata currentMeta updates timestamp))
    | _, _ => none
  | .delete id =>
    match s.subscriptions id, s.metadata id with
    | some _, some currentMeta => some (s.set id none { currentMeta with deletedAt := some timestamp })
    | _, _ => none

inductive Reachable (allowed : CRDTSubscriptionState σ → ℕ → Action σ → Prop) : CRDTSubscriptionState σ → Prop
  | empty : Reachable allowed ⟨fun _ => none, fun _ => none⟩
  | act {s s' : CRDTSubscriptionState σ} (timestamp : ℕ) (action : Action σ) (reached : Reachable allowed s)
      (permitted : allowed s timestamp action) (acted : act s timestamp action = some s') : Reachable allowed s'
  | merge {s t : CRDTSubscriptionState σ} (left : Reachable allowed s) (right : Reachable allowed t) :
      Reachable allowed (merge s t)

end Devices

end

variable {Text : Type} {σ : Schema Text}

structure Entry (σ : Schema Text) (key : String) where
  time : ℕ
  value : σ.Value key

abbrev Fields (σ : Schema Text) := Record String fun key => Entry σ key

def stamps (fields : Fields σ) : Timestamps := fields.map fun _ e => e.time

def values (fields : Fields σ) : Subscription σ := fields.map fun _ e => some e.value

def keep (timestamps : Timestamps) (fields : Fields σ) : Fields σ :=
  fields.select fun key e => decide ((timestamps.get key).getD 0 ≤ e.time)

section Fields

variable {F G : Fields σ} {s s' : Timestamps} {key : String} {e : Entry σ key}

@[simp] theorem get_stamps : (stamps F).get key = (F.get key).map (·.time) := Record.get_map ..
@[simp] theorem get_values : (values F).get key = (F.get key).map fun e => some e.value := Record.get_map ..

theorem get_keep :
    (keep s F).get key = (F.get key).filter fun e => decide ((s.get key).getD 0 ≤ e.time) := Record.get_select ..

theorem keep_of_le (found : F.get key = some e) (kept : (s.get key).getD 0 ≤ e.time) : (keep s F).get key = some e := by
  rw [get_keep, found, filter_some, if_pos (decide_eq_true kept)]

theorem keep_of_lt (found : F.get key = some e) (lost : e.time < (s.get key).getD 0) : (keep s F).get key = none := by
  rw [get_keep, found, filter_some, if_neg]
  simpa using lost

theorem keep_of_none (missing : F.get key = none) : (keep s F).get key = none := by
  rw [get_keep, missing, filter_none]

theorem getD_le_largest : (s.get key).getD 0 ≤ s.largest := by
  cases found : s.get key with
  | none => exact Nat.zero_le _
  | some t => exact Record.le_largest found

theorem largest_keep (covered : s.largest < (stamps F).largest) : (stamps (keep s F)).largest = (stamps F).largest := by
  apply le_antisymm
  · rw [Record.largest_le_iff]
    intro key t found
    rw [get_stamps, get_keep, map_eq_some_iff] at found
    obtain ⟨e, kept, rfl⟩ := found
    have mem := (filter_eq_some_iff.mp kept).1
    exact Record.le_largest (by rw [get_stamps, mem, map_some])
  · by_contra smaller
    obtain ⟨key, t, found, above⟩ := Record.exists_of_lt_largest (max_lt covered (not_le.mp smaller))
    rw [get_stamps, map_eq_some_iff] at found
    obtain ⟨e, mem, rfl⟩ := found
    have kept : (keep s F).get key = some e :=
      keep_of_le mem (getD_le_largest.trans ((le_max_left ..).trans above.le))
    have bounded := Record.le_largest (r := stamps (keep s F)) (by rw [get_stamps, kept, map_some])
    exact absurd ((le_max_right ..).trans_lt above) (not_lt.mpr bounded)

end Fields

variable [LinearOrder Text]

section Order

variable {key : String} {e e' : Entry σ key}

def Entry.rank (e : Entry σ key) : ℕ ×ₗ Text := toLex (e.time, σ.text key e.value)

omit [LinearOrder Text] in
theorem Entry.rank_injective (key : String) : Function.Injective (@Entry.rank Text σ key) := by
  rintro ⟨time, value⟩ ⟨time', value'⟩ same
  obtain ⟨times, texts⟩ := Prod.mk.inj (toLex.injective same)
  have equal : value = value' := σ.text_injective key texts
  rw [show time = time' from times, equal]

instance (key : String) : LinearOrder (Entry σ key) := LinearOrder.lift' Entry.rank (Entry.rank_injective key)

theorem Entry.le_iff : e ≤ e' ↔ e.time < e'.time ∨ e.time = e'.time ∧ σ.text key e.value ≤ σ.text key e'.value :=
  Prod.Lex.le_iff

theorem Entry.time_le (below : e ≤ e') : e.time ≤ e'.time := by
  rcases Entry.le_iff.mp below with earlier | ⟨same, -⟩ <;> omega

theorem Entry.max_time (e e' : Entry σ key) : (max e e').time = max e.time e'.time := by
  rcases le_total e e' with below | below
  · rw [max_eq_right below, max_eq_right (Entry.time_le below)]
  · rw [max_eq_left below, max_eq_left (Entry.time_le below)]

@[simp] theorem stamps_join (F G : Fields σ) : stamps (F.join G) = (stamps F).join (stamps G) := by
  ext1 key
  rw [get_stamps, Record.get_join, Record.get_join, get_stamps, get_stamps]
  cases F.get key <;> cases G.get key <;> simp [Entry.max_time]

end Order

@[ext] structure Tombstone where
  timestamps : Timestamps
  deletedAt : ℕ
  positive : 0 < deletedAt
  covers : timestamps.largest ≤ deletedAt

/-- A subscription that is there, with a last deletion (zero for none) that an update has overtaken. -/
@[ext] structure Live (σ : Schema Text) where
  fields : Fields σ
  deletedAt : ℕ
  alive : deletedAt = 0 ∨ deletedAt < (stamps fields).largest

def Live.maxUpdate (l : Live σ) : ℕ := (stamps l.fields).largest

inductive Cell (σ : Schema Text)
  | absent
  | deleted (tombstone : Tombstone)
  | present (live : Live σ)

def Cell.stored : Cell σ → Item σ
  | .absent => ⟨none, none⟩
  | .deleted t => ⟨none, some ⟨t.timestamps, some t.deletedAt⟩⟩
  | .present l =>
    ⟨some (values l.fields), some ⟨stamps l.fields, if 0 < l.deletedAt then some l.deletedAt else none⟩⟩

section Join

def Tombstone.join (t t' : Tombstone) : Tombstone where
  timestamps := Record.join t.timestamps t'.timestamps
  deletedAt := max t.deletedAt t'.deletedAt
  positive := lt_max_of_lt_left t.positive
  covers := by
    rw [Record.largest_join]
    exact max_le_max t.covers t'.covers

def Tombstone.bury (t : Tombstone) (l : Live σ) (older : l.maxUpdate ≤ t.deletedAt) : Tombstone where
  timestamps := Record.join t.timestamps (stamps l.fields)
  deletedAt := t.deletedAt
  positive := t.positive
  covers := by
    rw [Record.largest_join]
    exact max_le t.covers older

def Live.join (l l' : Live σ) : Live σ where
  fields := Record.join l.fields l'.fields
  deletedAt := max l.deletedAt l'.deletedAt
  alive := by
    rw [stamps_join, Record.largest_join]
    have first := l.alive
    have second := l'.alive
    omega

def Live.overtake (l : Live σ) (t : Tombstone) (newer : t.deletedAt < l.maxUpdate) : Live σ where
  fields := keep t.timestamps l.fields
  deletedAt := max t.deletedAt l.deletedAt
  alive := by
    rw [largest_keep (t.covers.trans_lt newer)]
    have alive := l.alive
    unfold Live.maxUpdate at newer
    omega

def Cell.meet (t : Tombstone) (l : Live σ) : Cell σ :=
  if older : l.maxUpdate ≤ t.deletedAt then .deleted (t.bury l older) else .present (l.overtake t (not_le.mp older))

def Cell.join : Cell σ → Cell σ → Cell σ
  | .absent, c => c
  | c, .absent => c
  | .deleted t, .deleted t' => .deleted (t.join t')
  | .deleted t, .present l => .meet t l
  | .present l, .deleted t => .meet t l
  | .present l, .present l' => .present (l.join l')

theorem Cell.join_comm (a b : Cell σ) : a.join b = b.join a := by
  cases a <;> cases b <;> try rfl
  · rename_i t t'
    refine congrArg Cell.deleted (Tombstone.ext ?_ ?_)
    · exact Record.join_comm ..
    · exact max_comm ..
  · rename_i l l'
    refine congrArg Cell.present (Live.ext ?_ ?_)
    · exact Record.join_comm ..
    · exact max_comm ..

end Join

end SubTrackr.Crdt
