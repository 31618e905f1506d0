import SubTrackr.Lib.Latest
import SubTrackr.Lib.Record
import Mathlib.Algebra.Order.Ring.Rat
import Mathlib.Data.Prod.Lex
import SubTrackr.Lib.Store

namespace SubTrackr.Sync

open Lib

section

variable {Text Payload : Type} [LinearOrder Text]

abbrev VectorClock (Text : Type) := Record Text fun _ => ℕ

inductive ClockRelation
  | before
  | after
  | concurrent
  | equal
  deriving DecidableEq

def compareClocks (a b : VectorClock Text) : ClockRelation :=
  let nodes := a.keys ∪ b.keys
  let aLessB := ∃ node ∈ nodes, (a.get node).getD 0 < (b.get node).getD 0
  let bLessA := ∃ node ∈ nodes, (b.get node).getD 0 < (a.get node).getD 0
  if ¬ aLessB ∧ ¬ bLessA then .equal
  else if aLessB ∧ ¬ bLessA then .before
  else if bLessA ∧ ¬ aLessB then .after
  else .concurrent

def mergeClocks (a b : VectorClock Text) : VectorClock Text := a.absorb (fun _ known ts => max (known.getD 0) ts) b

def incrementClock (clock : VectorClock Text) (nodeId : Text) : VectorClock Text :=
  clock.put nodeId ((clock.get nodeId).getD 0 + 1)

structure LWWRegister (Text Payload : Type) where
  value : Payload
  timestamp : ℤ
  nodeId : Text
  clock : VectorClock Text

def LWWRegister.stamp (r : LWWRegister Text Payload) : ℤ ×ₗ Text := toLex (r.timestamp, r.nodeId)

def mergeLWWRegister (localReg remote : LWWRegister Text Payload) : LWWRegister Text Payload :=
  if localReg.timestamp < remote.timestamp then remote
  else if remote.timestamp < localReg.timestamp then localReg
  else if localReg.nodeId < remote.nodeId then remote
  else localReg

theorem mergeLWWRegister_eq (localReg remote : LWWRegister Text Payload) :
    mergeLWWRegister localReg remote = latest LWWRegister.stamp localReg remote := by
  unfold mergeLWWRegister latest LWWRegister.stamp
  simp only [Prod.Lex.toLex_lt_toLex]
  split
  · rename_i newer
    rw [if_pos (.inl newer)]
  · rename_i notNewer
    split
    · rename_i older
      rw [if_neg]
      rintro (newer | ⟨same, _⟩)
      · exact notNewer newer
      · exact older.ne same.symm
    · rename_i notOlder
      have same : localReg.timestamp = remote.timestamp := le_antisymm (not_lt.mp notOlder) (not_lt.mp notNewer)
      simp [same]

abbrev LWWMap (Text Payload : Type) := Record Text fun _ => LWWRegister Text Payload

def lwwMapSet (map : LWWMap Text Payload) (key : Text) (value : Payload) (nodeId : Text) (clock : VectorClock Text)
    (now : ℤ) : LWWMap Text Payload :=
  map.put key ⟨value, now, nodeId, clock⟩

structure ORSet (Text : Type) where
  added : Record Text fun _ => List Text
  removed : List Text

def ORSet.empty : ORSet Text := ⟨∅, []⟩

def ORSet.tags (set : ORSet Text) (key : Text) : List Text := (set.added.get key).getD []

def orSetAdd (set : ORSet Text) (key tag : Text) : ORSet Text :=
  { set with added := set.added.put key (set.tags key ++ [tag]) }

def orSetRemove (set : ORSet Text) (key : Text) : ORSet Text := { set with removed := set.removed ++ set.tags key }

def orSetContains (set : ORSet Text) (key : Text) : Bool := (set.tags key).any fun tag => !set.removed.contains tag

def orSetValues (set : ORSet Text) : Finset Text := set.added.keys.filter fun key => orSetContains set key

def mergeORSet (localSet remote : ORSet Text) : ORSet Text where
  added := localSet.added.absorb (fun _ tags more => (tags.getD [] ++ more).eraseDups) remote.added
  removed := (localSet.removed ++ remote.removed).eraseDups

section Tags

variable {set other : ORSet Text} {key tag : Text}

omit [LinearOrder Text] in
@[simp] theorem tags_empty : ORSet.empty.tags key = [] := rfl

theorem orSetContains_iff : orSetContains set key = true ↔ ∃ tag ∈ set.tags key, tag ∉ set.removed := by
  simp [orSetContains]

theorem mem_orSetValues : key ∈ orSetValues set ↔ ∃ tag ∈ set.tags key, tag ∉ set.removed := by
  unfold orSetValues
  rw [Finset.mem_filter, orSetContains_iff, and_iff_right_iff_imp]
  rintro ⟨tag, tagged, -⟩
  by_contra unlisted
  rw [ORSet.tags, Record.absent unlisted] at tagged
  cases tagged

theorem tags_orSetAdd (set : ORSet Text) (key tag k : Text) :
    (orSetAdd set key tag).tags k = if k = key then set.tags key ++ [tag] else set.tags k := by
  unfold orSetAdd ORSet.tags
  split
  · rename_i same
    rw [same, Record.get_put_self, Option.getD_some]
  · rename_i other
    rw [Record.get_put_of_ne _ _ other]

@[simp] theorem mem_tags_mergeORSet :
    tag ∈ (mergeORSet set other).tags key ↔ tag ∈ set.tags key ∨ tag ∈ other.tags key := by
  unfold mergeORSet ORSet.tags
  rw [Record.get_absorb]
  cases other.added.get key with
  | none => simp
  | some more => simp

@[simp] theorem mem_removed_mergeORSet :
    tag ∈ (mergeORSet set other).removed ↔ tag ∈ set.removed ∨ tag ∈ other.removed := by
  simp [mergeORSet]

end Tags

structure PNCounter (Text : Type) where
  (positive negative : Record Text fun _ => ℚ)

def PNCounter.empty : PNCounter Text := ⟨∅, ∅⟩

inductive Side
  | positive
  | negative
  deriving DecidableEq

def PNCounter.side (counter : PNCounter Text) : Side → Record Text fun _ => ℚ
  | .positive => counter.positive
  | .negative => counter.negative

def pnCounterValue (counter : PNCounter Text) : ℚ := counter.positive.total - counter.negative.total

def bump (totals : Record Text fun _ => ℚ) (nodeId : Text) (amount : ℚ) : Record Text fun _ => ℚ :=
  totals.put nodeId ((totals.get nodeId).getD 0 + amount)

def pnCounterIncrement (counter : PNCounter Text) (nodeId : Text) (amount : ℚ) : PNCounter Text :=
  { counter with positive := bump counter.positive nodeId amount }

def pnCounterDecrement (counter : PNCounter Text) (nodeId : Text) (amount : ℚ) : PNCounter Text :=
  { counter with negative := bump counter.negative nodeId amount }

def mergeTotals (totals remote : Record Text fun _ => ℚ) : Record Text fun _ => ℚ :=
  totals.absorb (fun _ known val => max (known.getD 0) val) remote

def mergePNCounter (localCounter remote : PNCounter Text) : PNCounter Text :=
  ⟨mergeTotals localCounter.positive remote.positive, mergeTotals localCounter.negative remote.negative⟩

omit [LinearOrder Text] in
@[simp] theorem side_empty (side : Side) : PNCounter.empty.side side = (∅ : Record Text fun _ => ℚ) := by
  cases side <;> rfl

@[simp] theorem side_mergePNCounter (counter remote : PNCounter Text) (side : Side) :
    (mergePNCounter counter remote).side side = mergeTotals (counter.side side) (remote.side side) := by
  cases side <;> rfl

theorem get_bump (totals : Record Text fun _ => ℚ) (nodeId : Text) (amount : ℚ) (node : Text) :
    (bump totals nodeId amount).get node =
      if nodeId = node then some ((totals.get node).getD 0 + amount) else totals.get node := by
  unfold bump
  split
  · rename_i own
    rw [own, Record.get_put_self]
  · rename_i other
    rw [Record.get_put_of_ne _ _ (Ne.symm other)]

theorem side_pnCounterIncrement (counter : PNCounter Text) (nodeId : Text) (amount : ℚ) (side : Side) :
    (pnCounterIncrement counter nodeId amount).side side =
      if side = .positive then bump (counter.side side) nodeId amount else counter.side side := by
  cases side <;> rfl

theorem side_pnCounterDecrement (counter : PNCounter Text) (nodeId : Text) (amount : ℚ) (side : Side) :
    (pnCounterDecrement counter nodeId amount).side side =
      if side = .negative then bump (counter.side side) nodeId amount else counter.side side := by
  cases side <;> rfl

end

/-- What the language makes of a payload (`typeof`, `String`, `===`), and the template of a tag that is not given. -/
structure Script (Text Payload : Type) where
  number : Payload → Option ℚ
  text : Payload → Text
  same : Payload → Payload → Bool
  tag : Text → ℤ → Text

inductive CRDTOpType
  | lww_set
  | orset_add
  | orset_remove
  | pncounter_increment
  | pncounter_decrement
  deriving DecidableEq

structure CRDTOperation (Text Payload : Type) where
  (id entityId field : Text)
  type : CRDTOpType
  payload : Payload
  tag : Option Text
  nodeId : Text
  timestamp : ℤ
  clock : VectorClock Text

structure EntityCRDTState (Text Payload : Type) where
  entityId : Text
  lwwFields : LWWMap Text Payload
  orSets : Record Text fun _ => ORSet Text
  counters : Record Text fun _ => PNCounter Text
  clock : VectorClock Text
  lastSyncedAt : Option Text

inductive ResolvedBy
  | lww
  | user

structure CRDTConflict (Text Payload : Type) where
  (entityId field : Text)
  (localValue remoteValue : Payload)
  (localTimestamp remoteTimestamp : ℤ)
  resolvedValue : Payload
  resolvedBy : ResolvedBy

structure CRDTSyncRequest (Text Payload : Type) where
  nodeId : Text
  operations : List (CRDTOperation Text Payload)
  entityStates : List (EntityCRDTState Text Payload)

structure CRDTSyncResponse (Text Payload : Type) where
  remoteOperations : List (CRDTOperation Text Payload)
  mergedStates : List (EntityCRDTState Text Payload)
  conflicts : Multiset (CRDTConflict Text Payload)
  syncedAt : Text

abbrev EntityStore (Text Payload : Type) := Store Text (EntityCRDTState Text Payload)

variable {Text Payload : Type} [LinearOrder Text] (script : Script Text Payload)

def EntityCRDTState.new (entityId : Text) : EntityCRDTState Text Payload := ⟨entityId, ∅, ∅, ∅, ∅, none⟩

def getOrCreateEntity (entityStore : EntityStore Text Payload) (entityId : Text) : EntityCRDTState Text Payload :=
  (entityStore entityId).getD (.new entityId)

def EntityCRDTState.orSet (entity : EntityCRDTState Text Payload) (field : Text) : ORSet Text :=
  (entity.orSets.get field).getD .empty

def EntityCRDTState.counter (entity : EntityCRDTState Text Payload) (field : Text) : PNCounter Text :=
  (entity.counters.get field).getD .empty

def fieldConflict (entityId field : Text) (existing incoming : LWWRegister Text Payload) :
    Multiset (CRDTConflict Text Payload) :=
  if compareClocks existing.clock incoming.clock = .concurrent ∧ script.same existing.value incoming.value = false then
    {{ entityId, field, localValue := existing.value, remoteValue := incoming.value,
       localTimestamp := existing.timestamp, remoteTimestamp := incoming.timestamp,
       resolvedValue := (mergeLWWRegister existing incoming).value, resolvedBy := .lww }}
  else 0

def CRDTOperation.incoming (op : CRDTOperation Text Payload) : LWWRegister Text Payload :=
  ⟨op.payload, op.timestamp, op.nodeId, op.clock⟩

def CRDTOperation.key (op : CRDTOperation Text Payload) : Text := script.text op.payload

def CRDTOperation.addTag (op : CRDTOperation Text Payload) : Text := op.tag.getD (script.tag op.nodeId op.timestamp)

def CRDTOperation.amount (op : CRDTOperation Text Payload) : ℚ := (script.number op.payload).getD 1

def applyOperation (entity : EntityCRDTState Text Payload) (op : CRDTOperation Text Payload)
    (conflicts : Multiset (CRDTConflict Text Payload)) :
    EntityCRDTState Text Payload × Multiset (CRDTConflict Text Payload) :=
  match op.type with
  | .lww_set =>
    match entity.lwwFields.get op.field with
    | some existing =>
      let merged := mergeLWWRegister existing op.incoming
      ({ entity with lwwFields := entity.lwwFields.put op.field merged },
        conflicts + fieldConflict script entity.entityId op.field existing op.incoming)
    | none => ({ entity with lwwFields := entity.lwwFields.put op.field op.incoming }, conflicts)
  | .orset_add =>
    let set := entity.orSet op.field
    let added := set.added.put (op.key script) (set.tags (op.key script) ++ [op.addTag script])
    ({ entity with orSets := entity.orSets.put op.field { added, removed := set.removed } }, conflicts)
  | .orset_remove =>
    let set := entity.orSet op.field
    let tagsToRemove := set.tags (op.key script)
    ({ entity with orSets := entity.orSets.put op.field { added := set.added, removed := set.removed ++ tagsToRemove } },
      conflicts)
  | .pncounter_increment =>
    let counter := entity.counter op.field
    let positive := counter.positive.put op.nodeId ((counter.positive.get op.nodeId).getD 0 + op.amount script)
    ({ entity with counters := entity.counters.put op.field { counter with positive } }, conflicts)
  | .pncounter_decrement =>
    let counter := entity.counter op.field
    let negative := counter.negative.put op.nodeId ((counter.negative.get op.nodeId).getD 0 + op.amount script)
    ({ entity with counters := entity.counters.put op.field { counter with negative } }, conflicts)

def mergeEntityStates (server client : EntityCRDTState Text Payload) (conflicts : Multiset (CRDTConflict Text Payload)) :
    EntityCRDTState Text Payload × Multiset (CRDTConflict Text Payload) :=
  let found := client.lwwFields.keys.val.bind fun field =>
    match server.lwwFields.get field, client.lwwFields.get field with
    | some serverReg, some remoteReg => fieldConflict script server.entityId field serverReg remoteReg
    | _, _ => 0
  let lwwFields := server.lwwFields.absorb (fun _ serverReg remoteReg =>
    match serverReg with
    | some serverReg => mergeLWWRegister serverReg remoteReg
    | none => remoteReg) client.lwwFields
  let orSets := server.orSets.absorb (fun _ localSet remoteSet => mergeORSet (localSet.getD .empty) remoteSet) client.orSets
  let counters := server.counters.absorb
    (fun _ localCounter remoteCounter => mergePNCounter (localCounter.getD .empty) remoteCounter) client.counters
  let clock := mergeClocks server.clock client.clock
  ({ entityId := server.entityId, lwwFields, orSets, counters, clock, lastSyncedAt := none }, conflicts + found)

def applyNext (state : EntityStore Text Payload × Multiset (CRDTConflict Text Payload))
    (op : CRDTOperation Text Payload) : EntityStore Text Payload × Multiset (CRDTConflict Text Payload) :=
  let serverEntity := getOrCreateEntity state.1 op.entityId
  let updated := applyOperation script serverEntity op state.2
  (put state.1 op.entityId { updated.1 with clock := mergeClocks updated.1.clock op.clock }, updated.2)

structure Merging (Text Payload : Type) where
  entityStore : EntityStore Text Payload
  conflicts : Multiset (CRDTConflict Text Payload)
  mergedStates : List (EntityCRDTState Text Payload)

def mergeNext (state : Merging Text Payload) (clientState : EntityCRDTState Text Payload) : Merging Text Payload :=
  let serverEntity := getOrCreateEntity state.entityStore clientState.entityId
  let merged := mergeEntityStates script serverEntity clientState state.conflicts
  ⟨put state.entityStore clientState.entityId merged.1, merged.2, state.mergedStates ++ [merged.1]⟩

def stampSynced (syncedAt : Text) (entityStore : EntityStore Text Payload) (clientState : EntityCRDTState Text Payload) :
    EntityStore Text Payload :=
  put entityStore clientState.entityId
    { getOrCreateEntity entityStore clientState.entityId with lastSyncedAt := some syncedAt }

def CRDTSyncRequest.sortedOps (request : CRDTSyncRequest Text Payload) : List (CRDTOperation Text Payload) :=
  request.operations.insertionSort fun a b => a.timestamp ≤ b.timestamp

def processSyncRequest (entityStore : EntityStore Text Payload) (request : CRDTSyncRequest Text Payload)
    (syncedAt : Text) : EntityStore Text Payload × CRDTSyncResponse Text Payload :=
  let applied := request.sortedOps.foldl (applyNext script) (entityStore, 0)
  let merging := request.entityStates.foldl (mergeNext script) ⟨applied.1, applied.2, []⟩
  let mergedStates := merging.mergedStates.map fun state => { state with lastSyncedAt := some syncedAt }
  (request.entityStates.foldl (stampSynced syncedAt) merging.entityStore,
    { remoteOperations := [], mergedStates, conflicts := merging.conflicts, syncedAt })

def receive (entityStore : EntityStore Text Payload) (request : CRDTSyncRequest Text Payload) (syncedAt : Text) :
    EntityStore Text Payload :=
  (processSyncRequest script entityStore request syncedAt).1

def receiveAll (entityStore : EntityStore Text Payload) (requests : List (CRDTSyncRequest Text Payload × Text)) :
    EntityStore Text Payload :=
  requests.foldl (fun entityStore r => receive script entityStore r.1 r.2) entityStore

section Contents

variable (entityStore : EntityStore Text Payload) (entityId field : Text)

def registerOf : Option (LWWRegister Text Payload) := (getOrCreateEntity entityStore entityId).lwwFields.get field

def setOf : ORSet Text := (getOrCreateEntity entityStore entityId).orSet field

def counterOf : PNCounter Text := (getOrCreateEntity entityStore entityId).counter field

def membersOf : Finset Text := orSetValues (setOf entityStore entityId field)

def valueOf : ℚ := pnCounterValue (counterOf entityStore entityId field)

end Contents

structure SameContents (s t : EntityStore Text Payload) : Prop where
  values : ∀ entityId field, valueOf s entityId field = valueOf t entityId field
  members : ∀ entityId field, membersOf s entityId field = membersOf t entityId field
  registers : ∀ entityId field, registerOf s entityId field = registerOf t entityId field

end SubTrackr.Sync
