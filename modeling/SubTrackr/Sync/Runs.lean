import SubTrackr.Sync.Edits

namespace SubTrackr.Sync

open List Lib

section

variable {Text Payload : Type} [LinearOrder Text] (script : Script Text Payload)
  {entityStore : EntityStore Text Payload} {entityId field key tag node : Text} {side : Side}

section Edits

variable {edits : List (Edit Text Payload)}

theorem registerOf_run : registerOf (edits.foldl (Edit.apply script) entityStore) entityId field =
    (edits.filterMap (·.write entityId field)).foldl (overwrite LWWRegister.stamp)
      (registerOf entityStore entityId field) := by
  induction edits generalizing entityStore with
  | nil => rfl
  | cons edit edits ih =>
    rw [foldl_cons, ih, registerOf_apply, filterMap_cons]
    cases edit.write entityId field <;> rfl

theorem mem_tags_run : tag ∈ (setOf (edits.foldl (Edit.apply script) entityStore) entityId field).tags key ↔
    tag ∈ (setOf entityStore entityId field).tags key ∨ ∃ edit ∈ edits, tag ∈ edit.tags script entityId field key := by
  induction edits generalizing entityStore with
  | nil => simp
  | cons edit edits ih =>
    rw [foldl_cons, ih, mem_tags_apply, exists_mem_cons_iff, or_assoc]

theorem mem_removed_run : tag ∈ (setOf (edits.foldl (Edit.apply script) entityStore) entityId field).removed ↔
    tag ∈ (setOf entityStore entityId field).removed ∨ (∃ edit ∈ edits, tag ∈ edit.tombstones entityId field) ∨
      ∃ earlier edit later key, edits = earlier ++ edit :: later ∧ edit.Removes script entityId field key ∧
        (tag ∈ (setOf entityStore entityId field).tags key ∨ ∃ e ∈ earlier, tag ∈ e.tags script entityId field key) := by
  induction edits generalizing entityStore with
  | nil => simp
  | cons edit edits ih =>
    rw [foldl_cons, ih, mem_removed_apply]
    constructor
    · rintro ((old | shown | ⟨key, removes, tagged⟩) | ⟨e, mem, shown⟩ | ⟨earlier, e, later, key, rfl, removes, tagged⟩)
      · exact .inl old
      · exact .inr (.inl ⟨edit, mem_cons_self, shown⟩)
      · exact .inr (.inr ⟨[], edit, edits, key, rfl, removes, .inl tagged⟩)
      · exact .inr (.inl ⟨e, mem_cons_of_mem _ mem, shown⟩)
      · refine .inr (.inr ⟨edit :: earlier, e, later, key, rfl, removes, ?_⟩)
        rw [exists_mem_cons_iff, ← or_assoc, ← mem_tags_apply]
        exact tagged
    · rintro (old | ⟨e, mem, shown⟩ | ⟨earlier, e, later, key, split, removes, tagged⟩)
      · exact .inl (.inl old)
      · rcases mem_cons.mp mem with rfl | mem
        · exact .inl (.inr (.inl shown))
        · exact .inr (.inl ⟨e, mem, shown⟩)
      · cases earlier with
        | nil =>
          obtain ⟨rfl, rfl⟩ := List.cons.inj split
          have tagged := tagged.resolve_right (by simp)
          exact .inl (.inr (.inr ⟨key, removes, tagged⟩))
        | cons first earlier =>
          obtain ⟨rfl, rfl⟩ := List.cons.inj split
          refine .inr (.inr ⟨earlier, e, later, key, rfl, removes, ?_⟩)
          rw [exists_mem_cons_iff, ← or_assoc, ← mem_tags_apply] at tagged
          exact tagged

theorem getD_side_run :
    (((counterOf (edits.foldl (Edit.apply script) entityStore) entityId field).side side).get node).getD 0 =
      (edits.filterMap (·.gain script entityId field side node)).foldl Arrival.apply
        ((((counterOf entityStore entityId field).side side).get node).getD 0) := by
  induction edits generalizing entityStore with
  | nil => rfl
  | cons edit edits ih =>
    rw [foldl_cons, ih, get_side_apply, filterMap_cons]
    cases edit.gain script entityId field side node <;> rfl

theorem mem_nodes_run :
    node ∈ ((counterOf (edits.foldl (Edit.apply script) entityStore) entityId field).side side).keys ↔
      node ∈ ((counterOf entityStore entityId field).side side).keys ∨
        ∃ edit ∈ edits, (edit.gain script entityId field side node).isSome := by
  induction edits generalizing entityStore with
  | nil => simp
  | cons edit edits ih =>
    rw [foldl_cons, ih, exists_mem_cons_iff, ← or_assoc, Record.listed, Record.listed, get_side_apply]
    cases edit.gain script entityId field side node <;> simp

end Edits

section Requests

variable (request : CRDTSyncRequest Text Payload) (syncedAt : Text)

variable (entityStore) in
theorem getOrCreateEntity_receive (entityId : Text) :
    ∃ lastSyncedAt, getOrCreateEntity (receive script entityStore request syncedAt) entityId =
      { getOrCreateEntity (request.edits.foldl (Edit.apply script) entityStore) entityId with lastSyncedAt } := by
  unfold receive
  rw [processSyncRequest_store]
  exact getOrCreateEntity_stamp ..

theorem registerOf_receive : registerOf (receive script entityStore request syncedAt) entityId field =
    registerOf (request.edits.foldl (Edit.apply script) entityStore) entityId field := by
  obtain ⟨_, stamped⟩ := getOrCreateEntity_receive script entityStore request syncedAt entityId
  rw [registerOf, stamped]
  rfl

theorem setOf_receive : setOf (receive script entityStore request syncedAt) entityId field =
    setOf (request.edits.foldl (Edit.apply script) entityStore) entityId field := by
  obtain ⟨_, stamped⟩ := getOrCreateEntity_receive script entityStore request syncedAt entityId
  rw [setOf, stamped]
  rfl

theorem counterOf_receive : counterOf (receive script entityStore request syncedAt) entityId field =
    counterOf (request.edits.foldl (Edit.apply script) entityStore) entityId field := by
  obtain ⟨_, stamped⟩ := getOrCreateEntity_receive script entityStore request syncedAt entityId
  rw [counterOf, stamped]
  rfl

omit [LinearOrder Text] in
theorem mem_edits {edit : Edit Text Payload} : edit ∈ request.edits ↔
    (∃ op ∈ request.operations, .operation op = edit) ∨ ∃ state ∈ request.entityStates, .snapshot state = edit := by
  unfold CRDTSyncRequest.edits CRDTSyncRequest.sortedOps
  simp only [mem_append, mem_map, mem_insertionSort]

omit [LinearOrder Text] in
theorem edits_split {op : CRDTOperation Text Payload} {earlier later : List (Edit Text Payload)}
    (split : request.edits = earlier ++ .operation op :: later) :
    ∃ before after, request.sortedOps = before ++ op :: after ∧ earlier = before.map .operation := by
  have snapshots {e : Edit Text Payload} (mem : e ∈ request.entityStates.map Edit.snapshot) :
      e ≠ .operation op := by
    obtain ⟨state, _, rfl⟩ := mem_map.mp mem
    intro same
    cases same
  unfold CRDTSyncRequest.edits at split
  rcases append_eq_append_iff.mp split with ⟨rest, _, tail⟩ | ⟨rest, front, tail⟩
  · refine absurd rfl (@snapshots (.operation op) ?_)
    rw [tail]
    exact mem_append_right _ mem_cons_self
  · cases rest with
    | nil =>
      rw [nil_append] at tail
      refine absurd rfl (@snapshots (.operation op) ?_)
      rw [← tail]
      exact mem_cons_self
    | cons e rest =>
      obtain ⟨rfl, _⟩ := List.cons.inj tail
      obtain ⟨before, others, cut, rfl, mapped⟩ := map_eq_append_iff.mp front
      obtain ⟨o, after, rfl, same, _⟩ := map_eq_cons_iff.mp mapped
      cases same
      exact ⟨before, after, cut, rfl⟩

def CRDTSyncRequest.pending (entityId field : Text) (side : Side) (node : Text) : ℚ :=
  ((request.operations.filter fun op =>
    op.entityId = entityId ∧ op.field = field ∧ op.type = side.opType ∧ op.nodeId = node).map (·.amount script)).sum

def CRDTSyncRequest.shown (entityId field : Text) (side : Side) (node : Text) : List ℚ :=
  request.entityStates.filterMap fun state =>
    if state.entityId = entityId then ((state.counter field).side side).get node else none

def CRDTSyncRequest.arrival (entityId field : Text) (side : Side) (node : Text) : Arrival ℚ :=
  ⟨request.pending script entityId field side node, request.shown entityId field side node⟩

theorem gains_edits : request.edits.filterMap (·.gain script entityId field side node) =
    ((request.sortedOps.filter fun op =>
      op.entityId = entityId ∧ op.field = field ∧ op.type = side.opType ∧ op.nodeId = node).map
        (·.amount script)).map (fun amount => ⟨amount, []⟩) ++
      (request.shown entityId field side node).map fun val => ⟨0, [val]⟩ := by
  unfold CRDTSyncRequest.edits CRDTSyncRequest.shown
  rw [filterMap_append, filterMap_map, filterMap_map, map_filterMap, map_map,
    ← filterMap_eq_map, filterMap_filter]
  congr 1
  · apply filterMap_congr
    intro op _
    simp [Edit.gain]
  · apply filterMap_congr
    intro state _
    simp only [Edit.gain, Function.comp_apply]
    split <;> rfl

theorem getD_side_receive :
    (((counterOf (receive script entityStore request syncedAt) entityId field).side side).get node).getD 0 =
      (request.arrival script entityId field side node).apply
        ((((counterOf entityStore entityId field).side side).get node).getD 0) := by
  rw [counterOf_receive, getD_side_run, gains_edits, foldl_append, foldl_apply_amounts, foldl_apply_levels]
  unfold Arrival.apply CRDTSyncRequest.arrival CRDTSyncRequest.pending
  dsimp only
  have sorted : request.sortedOps.Perm request.operations := perm_insertionSort ..
  rw [((sorted.filter _).map _).sum_eq]

end Requests

section All

variable {requests : List (CRDTSyncRequest Text Payload × Text)}

theorem registerOf_receiveAll : registerOf (receiveAll script entityStore requests) entityId field =
    (requests.flatMap fun r => r.1.edits.filterMap (·.write entityId field)).foldl (overwrite LWWRegister.stamp)
      (registerOf entityStore entityId field) := by
  induction requests generalizing entityStore with
  | nil => rfl
  | cons r requests ih =>
    rw [flatMap_cons, foldl_append, ← registerOf_run, ← registerOf_receive script r.1 r.2]
    exact ih

theorem mem_tags_receiveAll : tag ∈ (setOf (receiveAll script entityStore requests) entityId field).tags key ↔
    tag ∈ (setOf entityStore entityId field).tags key ∨
      ∃ r ∈ requests, ∃ edit ∈ r.1.edits, tag ∈ edit.tags script entityId field key := by
  induction requests generalizing entityStore with
  | nil => simp [receiveAll]
  | cons r requests ih =>
    rw [exists_mem_cons_iff, ← or_assoc, ← mem_tags_run, ← setOf_receive script r.1 r.2]
    exact ih

theorem removed_subset_receiveAll (removed : tag ∈ (setOf entityStore entityId field).removed) :
    tag ∈ (setOf (receiveAll script entityStore requests) entityId field).removed := by
  induction requests generalizing entityStore with
  | nil => exact removed
  | cons r requests ih =>
    apply ih
    rw [setOf_receive, mem_removed_run]
    exact .inl removed

theorem removed_receiveAll {Taken : Text → Prop} (old : ∀ tag ∈ (setOf entityStore entityId field).removed, Taken tag)
    (shown : ∀ r ∈ requests, ∀ edit ∈ r.1.edits, ∀ tag ∈ edit.tombstones entityId field, Taken tag)
    (held : ∀ r ∈ requests, ∀ edit ∈ r.1.edits, ∀ key, edit.Removes script entityId field key →
      ∀ tag ∈ (setOf entityStore entityId field).tags key, Taken tag)
    (own : ∀ r ∈ requests, ∀ earlier edit later, r.1.edits = earlier ++ edit :: later →
      ∀ key, edit.Removes script entityId field key → ∀ e ∈ earlier, ∀ tag ∈ e.tags script entityId field key, Taken tag)
    (others : requests.Pairwise fun r r' => ∀ edit ∈ r'.1.edits, ∀ key, edit.Removes script entityId field key →
      ∀ e ∈ r.1.edits, ∀ tag ∈ e.tags script entityId field key, Taken tag) :
    ∀ tag ∈ (setOf (receiveAll script entityStore requests) entityId field).removed, Taken tag := by
  induction requests generalizing entityStore with
  | nil => exact old
  | cons r requests ih =>
    rw [forall_mem_cons] at shown held own
    rw [pairwise_cons] at others
    apply @ih (receive script entityStore r.1 r.2)
    · intro tag removed
      rw [setOf_receive, mem_removed_run] at removed
      rcases removed with before | ⟨edit, mem, tombstone⟩ | ⟨earlier, edit, later, key, split, removes, tagged⟩
      · exact old tag before
      · exact shown.1 edit mem tag tombstone
      · have mem : edit ∈ r.1.edits := by
          rw [split]
          exact mem_append_right _ mem_cons_self
        rcases tagged with tagged | ⟨e, before, tagged⟩
        · exact held.1 edit mem key removes tag tagged
        · exact own.1 earlier edit later split key removes e before tag tagged
    · exact shown.2
    · intro r' member edit mem key removes tag tagged
      rw [setOf_receive, mem_tags_run] at tagged
      rcases tagged with tagged | ⟨e, before, tagged⟩
      · exact held.2 r' member edit mem key removes tag tagged
      · exact others.1 r' member edit mem key removes e before tag tagged
    · exact own.2
    · exact others.2

theorem getD_side_receiveAll :
    (((counterOf (receiveAll script entityStore requests) entityId field).side side).get node).getD 0 =
      (requests.map fun r => r.1.arrival script entityId field side node).foldl Arrival.apply
        ((((counterOf entityStore entityId field).side side).get node).getD 0) := by
  induction requests generalizing entityStore with
  | nil => rfl
  | cons r requests ih =>
    rw [map_cons, foldl_cons, ← getD_side_receive script r.1 r.2]
    exact ih

end All

end

variable {Text Payload : Type} [LinearOrder Text] (script : Script Text Payload)

def perform (entity : EntityCRDTState Text Payload) (op : CRDTOperation Text Payload) : EntityCRDTState Text Payload :=
  match op.type with
  | .lww_set =>
    { entity with
      lwwFields := lwwMapSet entity.lwwFields op.field op.payload op.nodeId op.clock op.timestamp, clock := op.clock }
  | .orset_add =>
    { entity with
      orSets := entity.orSets.put op.field (orSetAdd (entity.orSet op.field) (op.key script) (op.addTag script))
      clock := op.clock }
  | .orset_remove =>
    { entity with
      orSets := entity.orSets.put op.field (orSetRemove (entity.orSet op.field) (op.key script)), clock := op.clock }
  | .pncounter_increment =>
    { entity with
      counters := entity.counters.put op.field
        (pnCounterIncrement (entity.counter op.field) op.nodeId (op.amount script))
      clock := op.clock }
  | .pncounter_decrement =>
    { entity with
      counters := entity.counters.put op.field
        (pnCounterDecrement (entity.counter op.field) op.nodeId (op.amount script))
      clock := op.clock }

def performNext (entityStore : EntityStore Text Payload) (op : CRDTOperation Text Payload) : EntityStore Text Payload :=
  put entityStore op.entityId (perform script (getOrCreateEntity entityStore op.entityId) op)

structure Device (Text Payload : Type) where
  nodeId : Text
  received : EntityStore Text Payload
  operations : List (CRDTOperation Text Payload)
  own : ∀ op ∈ operations, op.nodeId = nodeId

variable (device : Device Text Payload)

def Device.entities : EntityStore Text Payload := device.operations.foldl (performNext script) device.received

def Device.snapshot (entityId : Text) : EntityCRDTState Text Payload :=
  { getOrCreateEntity (device.entities script) entityId with entityId }

def Device.request : CRDTSyncRequest Text Payload where
  nodeId := device.nodeId
  operations := device.operations
  entityStates := (device.operations.map (·.entityId)).eraseDups.map (device.snapshot script)

def Device.Sends (entityId : Text) : Prop := ∃ op ∈ device.operations, op.entityId = entityId

def Device.Takes (entityId field tag : Text) : Prop :=
  ∃ earlier op later, device.operations = earlier ++ op :: later ∧ op.entityId = entityId ∧ op.field = field ∧
    op.type = .orset_remove ∧
    tag ∈ (setOf (earlier.foldl (performNext script) device.received) entityId field).tags (op.key script)

section Local

variable {script} {device} {entityStore : EntityStore Text Payload} {entityId field tag : Text}

theorem registerOf_performNext (op : CRDTOperation Text Payload) :
    registerOf (performNext script entityStore op) entityId field =
      if op.entityId = entityId ∧ op.field = field ∧ op.type = .lww_set then some op.incoming
      else registerOf entityStore entityId field := by
  unfold registerOf performNext
  by_cases same : op.entityId = entityId
  · subst same
    rw [getOrCreateEntity, put_self, Option.getD_some]
    unfold perform
    cases type : op.type with
    | lww_set =>
      by_cases here : op.field = field
      · subst here
        simp [lwwMapSet, CRDTOperation.incoming]
      · simp [lwwMapSet, here, Record.get_put_of_ne _ _ (Ne.symm here)]
    | orset_add => simp
    | orset_remove => simp
    | pncounter_increment => simp
    | pncounter_decrement => simp
  · rw [getOrCreateEntity, put_of_ne _ _ (Ne.symm same), if_neg (fun all => same all.1)]
    rfl

theorem orSet_perform (entity : EntityCRDTState Text Payload) (op : CRDTOperation Text Payload) (field : Text) :
    (perform script entity op).orSet field =
      if op.field = field ∧ op.type = .orset_add then
        orSetAdd (entity.orSet field) (op.key script) (op.addTag script)
      else if op.field = field ∧ op.type = .orset_remove then orSetRemove (entity.orSet field) (op.key script)
      else entity.orSet field := by
  unfold perform
  cases type : op.type with
  | lww_set | pncounter_increment | pncounter_decrement => simp [EntityCRDTState.orSet]
  | orset_add | orset_remove =>
    by_cases here : op.field = field
    · subst here
      simp [EntityCRDTState.orSet]
    · simp [EntityCRDTState.orSet, here, Record.get_put_of_ne _ _ (Ne.symm here)]

theorem setOf_performNext {other : EntityStore Text Payload} (op : CRDTOperation Text Payload)
    (alike : ∀ entityId field, setOf entityStore entityId field = setOf other entityId field) (entityId field : Text) :
    setOf (performNext script entityStore op) entityId field =
      setOf ((Edit.operation op).apply script other) entityId field := by
  by_cases same : op.entityId = entityId
  · subst same
    have applied : setOf ((Edit.operation op).apply script other) op.entityId field =
        (applyOperation script (getOrCreateEntity other op.entityId) op 0).1.orSet field := by
      have held : getOrCreateEntity ((Edit.operation op).apply script other) op.entityId =
          (Edit.operation op).revise script (getOrCreateEntity other op.entityId) :=
        getOrCreateEntity_apply_self script (.operation op)
      rw [setOf, held]
      rfl
    have performed : setOf (performNext script entityStore op) op.entityId field =
        (perform script (getOrCreateEntity entityStore op.entityId) op).orSet field := by
      unfold setOf performNext
      rw [getOrCreateEntity, put_self, Option.getD_some]
    have before : (getOrCreateEntity entityStore op.entityId).orSet field =
        (getOrCreateEntity other op.entityId).orSet field := alike op.entityId field
    rw [applied, performed, orSet_applyOperation, orSet_perform, before]
  · have applied : setOf ((Edit.operation op).apply script other) entityId field = setOf other entityId field := by
      have elsewhere : entityId ≠ (Edit.operation op).entityId := Ne.symm same
      rw [setOf, getOrCreateEntity_apply_of_ne script elsewhere]
      rfl
    have performed : setOf (performNext script entityStore op) entityId field = setOf entityStore entityId field := by
      unfold setOf performNext
      rw [getOrCreateEntity, put_of_ne _ _ (Ne.symm same)]
      rfl
    rw [applied, performed, alike]

theorem setOf_foldl_performNext (operations : List (CRDTOperation Text Payload)) {other : EntityStore Text Payload}
    (alike : ∀ entityId field, setOf entityStore entityId field = setOf other entityId field) (entityId field : Text) :
    setOf (operations.foldl (performNext script) entityStore) entityId field =
      setOf ((operations.map Edit.operation).foldl (Edit.apply script) other) entityId field := by
  induction operations generalizing entityStore other with
  | nil => exact alike entityId field
  | cons op operations ih => exact ih (setOf_performNext op alike)

theorem tombstones_operation {edit : Edit Text Payload} {operations : List (CRDTOperation Text Payload)}
    (mem : edit ∈ operations.map Edit.operation) : edit.tombstones entityId field = [] := by
  obtain ⟨op, _, rfl⟩ := mem_map.mp mem
  rfl

theorem mem_removed_entities : tag ∈ (setOf (device.entities script) entityId field).removed ↔
    tag ∈ (setOf device.received entityId field).removed ∨ device.Takes script entityId field tag := by
  unfold Device.entities
  rw [setOf_foldl_performNext _ (fun _ _ => rfl), mem_removed_run]
  apply or_congr_right
  constructor
  · rintro (⟨edit, mem, shown⟩ | ⟨earlier, edit, later, key, split, removes, tagged⟩)
    · rw [tombstones_operation mem] at shown
      cases shown
    · obtain ⟨first, rest, cut, rfl, tail⟩ := map_eq_append_iff.mp split
      obtain ⟨op, last, rfl, rfl, rfl⟩ := map_eq_cons_iff.mp tail
      obtain ⟨entity, here, type, rfl⟩ := removes
      refine ⟨first, op, last, cut, entity, here, type, ?_⟩
      rw [setOf_foldl_performNext _ (fun _ _ => rfl), mem_tags_run]
      exact tagged
  · rintro ⟨earlier, op, later, split, entity, here, type, tagged⟩
    right
    refine ⟨earlier.map .operation, .operation op, later.map .operation, op.key script, ?_, ⟨entity, here, type, rfl⟩, ?_⟩
    · rw [split, map_append, map_cons]
    · rw [← mem_tags_run, ← setOf_foldl_performNext _ (fun _ _ => rfl)]
      exact tagged

theorem mem_registers_entities {write : LWWRegister Text Payload}
    (found : registerOf (device.entities script) entityId field = some write) :
    registerOf device.received entityId field = some write ∨
      ∃ op ∈ device.operations, op.entityId = entityId ∧ op.field = field ∧ op.type = .lww_set ∧ op.incoming = write := by
  unfold Device.entities at found
  generalize device.operations = operations at found ⊢
  induction operations using List.reverseRecOn with
  | nil => exact .inl found
  | append_singleton operations op ih =>
    rw [foldl_append, foldl_cons, foldl_nil, registerOf_performNext] at found
    split at found
    · rename_i written
      exact .inr ⟨op, by simp, written.1, written.2.1, written.2.2, Option.some.inj found⟩
    · rcases ih found with before | ⟨o, mem, rest⟩
      · exact .inl before
      · exact .inr ⟨o, mem_append_left _ mem, rest⟩

end Local

section Request

variable {script} {device} {entityId field key tag node : Text} {side : Side} {edit : Edit Text Payload}

theorem mem_edits_request : edit ∈ (device.request script).edits ↔
    (∃ op ∈ device.operations, .operation op = edit) ∨
      ∃ entityId, device.Sends entityId ∧ .snapshot (device.snapshot script entityId) = edit := by
  rw [mem_edits]
  unfold Device.request Device.Sends
  simp only [mem_map, mem_eraseDups, exists_exists_and_eq_and]

theorem mem_tombstones_request : (∃ edit ∈ (device.request script).edits, tag ∈ edit.tombstones entityId field) ↔
    device.Sends entityId ∧ tag ∈ (setOf (device.entities script) entityId field).removed := by
  constructor
  · rintro ⟨edit, mem, shown⟩
    rcases mem_edits_request.mp mem with ⟨op, _, rfl⟩ | ⟨e, sent, rfl⟩
    · cases shown
    · by_cases same : e = entityId
      · subst same
        rw [Edit.tombstones, Device.snapshot, if_pos rfl] at shown
        exact ⟨sent, shown⟩
      · rw [Edit.tombstones, Device.snapshot, if_neg same] at shown
        cases shown
  · rintro ⟨sent, removed⟩
    refine ⟨_, mem_edits_request.mpr (.inr ⟨entityId, sent, rfl⟩), ?_⟩
    rw [Edit.tombstones, Device.snapshot, if_pos rfl]
    exact removed

theorem pending_request (foreign : node ≠ device.nodeId) :
    (device.request script).pending script entityId field side node = 0 := by
  unfold CRDTSyncRequest.pending
  have nothing : (device.request script).operations.filter (fun op =>
      op.entityId = entityId ∧ op.field = field ∧ op.type = side.opType ∧ op.nodeId = node) = [] := by
    rw [filter_eq_nil_iff]
    intro op mem
    have own := device.own op mem
    simp only [decide_eq_true_eq]
    intro all
    exact foreign (all.2.2.2.symm.trans own)
  rw [nothing]
  rfl

end Request

end SubTrackr.Sync
