import SubTrackr.Lib.Raise
import SubTrackr.Sync.MergeService

namespace SubTrackr.Sync

open Lib

inductive Edit (Text Payload : Type)
  | operation (op : CRDTOperation Text Payload)
  | snapshot (state : EntityCRDTState Text Payload)

variable {Text Payload : Type} [LinearOrder Text] (script : Script Text Payload)

def Edit.entityId : Edit Text Payload → Text
  | .operation op => op.entityId
  | .snapshot state => state.entityId

def Edit.revise (entity : EntityCRDTState Text Payload) : Edit Text Payload → EntityCRDTState Text Payload
  | .operation op =>
    let updated := (applyOperation script entity op 0).1
    { updated with clock := mergeClocks updated.clock op.clock }
  | .snapshot state => (mergeEntityStates script entity state 0).1

def Edit.apply (entityStore : EntityStore Text Payload) (edit : Edit Text Payload) : EntityStore Text Payload :=
  put entityStore edit.entityId (edit.revise script (getOrCreateEntity entityStore edit.entityId))

def CRDTSyncRequest.edits (request : CRDTSyncRequest Text Payload) : List (Edit Text Payload) :=
  request.sortedOps.map .operation ++ request.entityStates.map .snapshot

section Request

variable (entityStore : EntityStore Text Payload)

theorem applyOperation_fst (entity : EntityCRDTState Text Payload) (op : CRDTOperation Text Payload)
    (conflicts : Multiset (CRDTConflict Text Payload)) :
    (applyOperation script entity op conflicts).1 = (applyOperation script entity op 0).1 := by
  unfold applyOperation
  cases op.type with
  | lww_set => cases entity.lwwFields.get op.field <;> rfl
  | orset_add => rfl
  | orset_remove => rfl
  | pncounter_increment => rfl
  | pncounter_decrement => rfl

theorem foldl_applyNext (ops : List (CRDTOperation Text Payload)) (conflicts : Multiset (CRDTConflict Text Payload)) :
    (ops.foldl (applyNext script) (entityStore, conflicts)).1 =
      (ops.map Edit.operation).foldl (Edit.apply script) entityStore := by
  induction ops generalizing entityStore conflicts with
  | nil => rfl
  | cons op ops ih =>
    rw [List.foldl_cons, List.map_cons, List.foldl_cons, applyNext, ih, applyOperation_fst]
    rfl

theorem foldl_mergeNext (states : List (EntityCRDTState Text Payload)) (merging : Merging Text Payload) :
    (states.foldl (mergeNext script) merging).entityStore =
      (states.map Edit.snapshot).foldl (Edit.apply script) merging.entityStore := by
  induction states generalizing merging with
  | nil => rfl
  | cons state states ih =>
    rw [List.foldl_cons, List.map_cons, List.foldl_cons, ih]
    rfl

theorem processSyncRequest_store (request : CRDTSyncRequest Text Payload) (syncedAt : Text) :
    (processSyncRequest script entityStore request syncedAt).1 =
      request.entityStates.foldl (stampSynced syncedAt) (request.edits.foldl (Edit.apply script) entityStore) := by
  unfold processSyncRequest CRDTSyncRequest.edits
  dsimp only
  rw [foldl_mergeNext, foldl_applyNext, List.foldl_append]

end Request

section Entity

variable {entityStore : EntityStore Text Payload} {entityId : Text} {edit : Edit Text Payload}

theorem getOrCreateEntity_apply_self (edit : Edit Text Payload) : getOrCreateEntity (edit.apply script entityStore) edit.entityId =
    edit.revise script (getOrCreateEntity entityStore edit.entityId) := by
  unfold Edit.apply
  rw [getOrCreateEntity, put_self, Option.getD_some]

theorem getOrCreateEntity_apply_of_ne (other : entityId ≠ edit.entityId) :
    getOrCreateEntity (edit.apply script entityStore) entityId = getOrCreateEntity entityStore entityId := by
  unfold Edit.apply
  rw [getOrCreateEntity, put_of_ne _ _ other]
  rfl

theorem getOrCreateEntity_stamp (states : List (EntityCRDTState Text Payload)) (syncedAt entityId : Text) :
    ∃ lastSyncedAt, getOrCreateEntity (states.foldl (stampSynced syncedAt) entityStore) entityId =
      { getOrCreateEntity entityStore entityId with lastSyncedAt } := by
  induction states generalizing entityStore with
  | nil => exact ⟨_, rfl⟩
  | cons state states ih =>
    obtain ⟨lastSyncedAt, rest⟩ := @ih (stampSynced syncedAt entityStore state)
    rw [List.foldl_cons, rest]
    by_cases same : entityId = state.entityId
    · subst same
      refine ⟨lastSyncedAt, ?_⟩
      unfold stampSynced
      rw [getOrCreateEntity, put_self, Option.getD_some]
    · refine ⟨lastSyncedAt, ?_⟩
      unfold stampSynced
      rw [getOrCreateEntity, put_of_ne _ _ same]
      rfl

end Entity

section Effects

variable (edit : Edit Text Payload) (entityId field : Text)

def Edit.write : Option (LWWRegister Text Payload) :=
  match edit with
  | .operation op => if op.entityId = entityId ∧ op.field = field ∧ op.type = .lww_set then some op.incoming else none
  | .snapshot state => if state.entityId = entityId then state.lwwFields.get field else none

def Edit.tags (key : Text) : List Text :=
  match edit with
  | .operation op =>
    if op.entityId = entityId ∧ op.field = field ∧ op.type = .orset_add ∧ op.key script = key then [op.addTag script] else []
  | .snapshot state => if state.entityId = entityId then (state.orSet field).tags key else []

def Edit.tombstones : List Text :=
  match edit with
  | .operation _ => []
  | .snapshot state => if state.entityId = entityId then (state.orSet field).removed else []

def Edit.Removes (key : Text) : Prop :=
  match edit with
  | .operation op => op.entityId = entityId ∧ op.field = field ∧ op.type = .orset_remove ∧ op.key script = key
  | .snapshot _ => False

def Side.opType : Side → CRDTOpType
  | .positive => .pncounter_increment
  | .negative => .pncounter_decrement

def Edit.gain (side : Side) (node : Text) : Option (Arrival ℚ) :=
  match edit with
  | .operation op =>
    if op.entityId = entityId ∧ op.field = field ∧ op.type = side.opType ∧ op.nodeId = node then
      some ⟨op.amount script, []⟩
    else none
  | .snapshot state =>
    if state.entityId = entityId then (((state.counter field).side side).get node).map fun val => ⟨0, [val]⟩ else none

end Effects

section Steps

variable {entityStore : EntityStore Text Payload} {entityId field key tag node : Text} {side : Side}
  (entity : EntityCRDTState Text Payload) (op : CRDTOperation Text Payload) (state : EntityCRDTState Text Payload)

theorem write_applyOperation : (applyOperation script entity op 0).1.lwwFields.get field =
      if op.field = field ∧ op.type = .lww_set then overwrite LWWRegister.stamp (entity.lwwFields.get field) op.incoming
      else entity.lwwFields.get field := by
  unfold applyOperation
  cases type : op.type with
  | lww_set =>
    by_cases here : op.field = field
    · subst here
      cases entity.lwwFields.get op.field <;> simp [overwrite, mergeLWWRegister_eq]
    · cases entity.lwwFields.get op.field <;> simp [here, Record.get_put_of_ne _ _ (Ne.symm here)]
  | orset_add => simp
  | orset_remove => simp
  | pncounter_increment => simp
  | pncounter_decrement => simp

theorem write_mergeEntityStates : (mergeEntityStates script entity state 0).1.lwwFields.get field =
      match state.lwwFields.get field with
      | some write => overwrite LWWRegister.stamp (entity.lwwFields.get field) write
      | none => entity.lwwFields.get field := by
  unfold mergeEntityStates
  dsimp only
  rw [Record.get_absorb]
  cases state.lwwFields.get field with
  | none => rfl
  | some write => cases entity.lwwFields.get field <;> simp [overwrite, mergeLWWRegister_eq]

theorem orSet_applyOperation : (applyOperation script entity op 0).1.orSet field =
      if op.field = field ∧ op.type = .orset_add then
        orSetAdd (entity.orSet field) (op.key script) (op.addTag script)
      else if op.field = field ∧ op.type = .orset_remove then orSetRemove (entity.orSet field) (op.key script)
      else entity.orSet field := by
  unfold applyOperation
  cases type : op.type with
  | lww_set => cases entity.lwwFields.get op.field <;> simp [EntityCRDTState.orSet]
  | orset_add =>
    by_cases here : op.field = field
    · subst here
      simp [EntityCRDTState.orSet, orSetAdd]
    · simp [EntityCRDTState.orSet, here, Record.get_put_of_ne _ _ (Ne.symm here)]
  | orset_remove =>
    by_cases here : op.field = field
    · subst here
      simp [EntityCRDTState.orSet, orSetRemove]
    · simp [EntityCRDTState.orSet, here, Record.get_put_of_ne _ _ (Ne.symm here)]
  | pncounter_increment => simp [EntityCRDTState.orSet]
  | pncounter_decrement => simp [EntityCRDTState.orSet]

theorem counter_applyOperation : (applyOperation script entity op 0).1.counter field =
      if op.field = field ∧ op.type = .pncounter_increment then
        pnCounterIncrement (entity.counter field) op.nodeId (op.amount script)
      else if op.field = field ∧ op.type = .pncounter_decrement then
        pnCounterDecrement (entity.counter field) op.nodeId (op.amount script)
      else entity.counter field := by
  unfold applyOperation
  cases type : op.type with
  | lww_set => cases entity.lwwFields.get op.field <;> simp [EntityCRDTState.counter]
  | orset_add => simp [EntityCRDTState.counter]
  | orset_remove => simp [EntityCRDTState.counter]
  | pncounter_increment =>
    by_cases here : op.field = field
    · subst here
      simp [EntityCRDTState.counter, pnCounterIncrement, bump]
    · simp [EntityCRDTState.counter, here, Record.get_put_of_ne _ _ (Ne.symm here)]
  | pncounter_decrement =>
    by_cases here : op.field = field
    · subst here
      simp [EntityCRDTState.counter, pnCounterDecrement, bump]
    · simp [EntityCRDTState.counter, here, Record.get_put_of_ne _ _ (Ne.symm here)]

theorem get_side_applyOperation : (((applyOperation script entity op 0).1.counter field).side side).get node =
      if op.field = field ∧ op.type = side.opType ∧ op.nodeId = node then
        some ((((entity.counter field).side side).get node).getD 0 + op.amount script)
      else ((entity.counter field).side side).get node := by
  rw [counter_applyOperation]
  by_cases increment : op.field = field ∧ op.type = .pncounter_increment
  · rw [if_pos increment, side_pnCounterIncrement]
    cases side with
    | positive => simp [get_bump, increment, Side.opType]
    | negative => simp [increment, Side.opType]
  · rw [if_neg increment]
    by_cases decrement : op.field = field ∧ op.type = .pncounter_decrement
    · rw [if_pos decrement, side_pnCounterDecrement]
      cases side with
      | positive => simp [decrement, Side.opType]
      | negative => simp [get_bump, decrement, Side.opType]
    · rw [if_neg decrement, if_neg]
      rintro ⟨here, type, -⟩
      cases side with
      | positive => exact increment ⟨here, type⟩
      | negative => exact decrement ⟨here, type⟩

theorem orSet_mergeEntityStates : (mergeEntityStates script entity state 0).1.orSet field =
      match state.orSets.get field with
      | some set => mergeORSet (entity.orSet field) set
      | none => entity.orSet field := by
  unfold mergeEntityStates EntityCRDTState.orSet
  dsimp only
  rw [Record.get_absorb]
  cases state.orSets.get field <;> rfl

theorem counter_mergeEntityStates : (mergeEntityStates script entity state 0).1.counter field =
      match state.counters.get field with
      | some counter => mergePNCounter (entity.counter field) counter
      | none => entity.counter field := by
  unfold mergeEntityStates EntityCRDTState.counter
  dsimp only
  rw [Record.get_absorb]
  cases state.counters.get field <;> rfl

theorem registerOf_apply (edit : Edit Text Payload) : registerOf (edit.apply script entityStore) entityId field =
    match edit.write entityId field with
    | some write => overwrite LWWRegister.stamp (registerOf entityStore entityId field) write
    | none => registerOf entityStore entityId field := by
  unfold registerOf
  by_cases same : edit.entityId = entityId
  · subst same
    rw [getOrCreateEntity_apply_self]
    cases edit with
    | operation op =>
      simp only [Edit.revise, Edit.write, Edit.entityId, write_applyOperation, true_and]
      split <;> simp [*]
    | snapshot state =>
      simp only [Edit.revise, Edit.write, Edit.entityId, write_mergeEntityStates, if_pos]
  · rw [getOrCreateEntity_apply_of_ne script (Ne.symm same)]
    cases edit with
    | operation op => simp [Edit.write, show op.entityId ≠ entityId from same]
    | snapshot state => simp [Edit.write, show state.entityId ≠ entityId from same]

theorem mem_tags_apply (edit : Edit Text Payload) :
    tag ∈ (setOf (edit.apply script entityStore) entityId field).tags key ↔
      tag ∈ (setOf entityStore entityId field).tags key ∨ tag ∈ edit.tags script entityId field key := by
  unfold setOf
  by_cases same : edit.entityId = entityId
  · subst same
    rw [getOrCreateEntity_apply_self]
    generalize getOrCreateEntity entityStore edit.entityId = entity
    cases edit with
    | operation op =>
      unfold Edit.revise Edit.tags Edit.entityId
      dsimp only
      show tag ∈ ((applyOperation script entity op 0).1.orSet field).tags key ↔ _
      rw [orSet_applyOperation]
      by_cases add : op.field = field ∧ op.type = .orset_add
      · rw [if_pos add, tags_orSetAdd]
        by_cases own : key = op.key script
        · simp [add, own]
        · simp [own, Ne.symm own]
      · have nothing : ¬ (op.entityId = op.entityId ∧ op.field = field ∧ op.type = .orset_add ∧ op.key script = key) :=
          fun all => add ⟨all.2.1, all.2.2.1⟩
        rw [if_neg add, if_neg nothing]
        split <;> simp [orSetRemove, ORSet.tags]
    | snapshot state =>
      unfold Edit.revise Edit.tags Edit.entityId
      dsimp only
      rw [orSet_mergeEntityStates, if_pos rfl, EntityCRDTState.orSet.eq_def state]
      cases state.orSets.get field <;> simp
  · rw [getOrCreateEntity_apply_of_ne script (Ne.symm same)]
    cases edit with
    | operation op => simp [Edit.tags, show op.entityId ≠ entityId from same]
    | snapshot state => simp [Edit.tags, show state.entityId ≠ entityId from same]

theorem mem_removed_apply (edit : Edit Text Payload) :
    tag ∈ (setOf (edit.apply script entityStore) entityId field).removed ↔
      tag ∈ (setOf entityStore entityId field).removed ∨ tag ∈ edit.tombstones entityId field ∨
        ∃ key, edit.Removes script entityId field key ∧ tag ∈ (setOf entityStore entityId field).tags key := by
  unfold setOf
  by_cases same : edit.entityId = entityId
  · subst same
    rw [getOrCreateEntity_apply_self]
    generalize getOrCreateEntity entityStore edit.entityId = entity
    cases edit with
    | operation op =>
      unfold Edit.revise Edit.tombstones Edit.Removes Edit.entityId
      dsimp only
      show tag ∈ ((applyOperation script entity op 0).1.orSet field).removed ↔ _
      rw [orSet_applyOperation]
      by_cases add : op.field = field ∧ op.type = .orset_add
      · simp [add, orSetAdd]
      · rw [if_neg add]
        by_cases remove : op.field = field ∧ op.type = .orset_remove
        · simp [remove, orSetRemove]
        · rw [if_neg remove]
          simp only [List.not_mem_nil, false_or, iff_self_or]
          rintro ⟨key, ⟨_, here, type, _⟩, _⟩
          exact absurd ⟨here, type⟩ remove
    | snapshot state =>
      unfold Edit.revise Edit.tombstones Edit.Removes Edit.entityId
      dsimp only
      rw [orSet_mergeEntityStates, if_pos rfl, EntityCRDTState.orSet.eq_def state]
      cases state.orSets.get field <;> simp [ORSet.empty]
  · rw [getOrCreateEntity_apply_of_ne script (Ne.symm same)]
    cases edit with
    | operation op => simp [Edit.tombstones, Edit.Removes, show op.entityId ≠ entityId from same]
    | snapshot state => simp [Edit.tombstones, Edit.Removes, show state.entityId ≠ entityId from same]

theorem get_side_apply (edit : Edit Text Payload) :
    ((counterOf (edit.apply script entityStore) entityId field).side side).get node =
      match edit.gain script entityId field side node with
      | some arrival => some (arrival.apply ((((counterOf entityStore entityId field).side side).get node).getD 0))
      | none => ((counterOf entityStore entityId field).side side).get node := by
  unfold counterOf
  by_cases same : edit.entityId = entityId
  · subst same
    rw [getOrCreateEntity_apply_self]
    generalize getOrCreateEntity entityStore edit.entityId = entity
    cases edit with
    | operation op =>
      unfold Edit.revise Edit.gain Edit.entityId
      dsimp only
      show (((applyOperation script entity op 0).1.counter field).side side).get node = _
      rw [get_side_applyOperation]
      by_cases hit : op.field = field ∧ op.type = side.opType ∧ op.nodeId = node
      · simp [hit, Arrival.apply]
      · rw [if_neg hit, if_neg (fun all => hit all.2)]
    | snapshot state =>
      unfold Edit.revise Edit.gain Edit.entityId
      dsimp only
      rw [counter_mergeEntityStates, if_pos rfl, EntityCRDTState.counter.eq_def state]
      cases state.counters.get field with
      | none => simp
      | some counter =>
        simp only [side_mergePNCounter, mergeTotals, Record.get_absorb, Option.getD_some]
        cases (counter.side side).get node <;> simp [Arrival.apply, raise_cons]
  · rw [getOrCreateEntity_apply_of_ne script (Ne.symm same)]
    cases edit with
    | operation op => simp [Edit.gain, show op.entityId ≠ entityId from same]
    | snapshot state => simp [Edit.gain, show state.entityId ≠ entityId from same]

end Steps

end SubTrackr.Sync
