import SubTrackr.Sync.Resend

namespace SubTrackr.Sync

open List Lib

variable {Text Payload : Type} [LinearOrder Text] (script : Script Text Payload)

def sync (entityStore : EntityStore Text Payload) (order : List (Device Text Payload × Text)) : EntityStore Text Payload :=
  receiveAll script entityStore (order.map fun arriving => (arriving.1.request script, arriving.2))

variable (entityStore : EntityStore Text Payload) (devices : List (Device Text Payload))

def Gone (entityId field tag : Text) : Prop :=
  tag ∈ (setOf entityStore entityId field).removed ∨
    ∃ device ∈ devices, device.Sends entityId ∧
      (tag ∈ (setOf device.received entityId field).removed ∨ device.Takes script entityId field tag)

/-- The tags that the server can have for the element when it comes to the removal: its own, those that another device
    sends, and those of operations of the same request that come first. -/
def Meets (device : Device Text Payload) (op : CRDTOperation Text Payload) (tag : Text) : Prop :=
  tag ∈ (setOf entityStore op.entityId op.field).tags (op.key script) ∨
    (∃ other ∈ devices, other.nodeId ≠ device.nodeId ∧
      ∃ edit ∈ (other.request script).edits, tag ∈ edit.tags script op.entityId op.field (op.key script)) ∨
    ∃ earlier later, (device.request script).sortedOps = earlier ++ op :: later ∧
      ∃ add ∈ earlier, tag ∈ (Edit.operation add).tags script op.entityId op.field (op.key script)

def Observant : Prop :=
  ∀ device ∈ devices, ∀ op ∈ device.operations, op.type = .orset_remove →
    ∀ tag, Meets script entityStore devices device op tag → Gone script entityStore devices op.entityId op.field tag

/-- No snapshot counts what another device has pending: its total for that device, with the pending amount on top, is
    no more than what the device's own request makes of the total in the store. -/
def Uncounted : Prop :=
  ∀ device ∈ devices, ∀ other ∈ devices, other.nodeId ≠ device.nodeId → ∀ entityId field side,
    ((device.request script).arrival script entityId field side device.nodeId).Clears
      ((((counterOf entityStore entityId field).side side).get device.nodeId).getD 0)
      ((other.request script).arrival script entityId field side device.nodeId)

def Written (entityId field : Text) (write : LWWRegister Text Payload) : Prop :=
  registerOf entityStore entityId field = some write ∨
    ∃ device ∈ devices, registerOf device.received entityId field = some write ∨
      ∃ op ∈ device.operations, op.entityId = entityId ∧ op.field = field ∧ op.type = .lww_set ∧ op.incoming = write

def Stamped : Prop :=
  ∀ entityId field v w, Written entityStore devices entityId field v → Written entityStore devices entityId field w →
    v.stamp = w.stamp → v = w

section Orders

variable {script} {entityStore} {devices} {order order' : List (Device Text Payload × Text)}
  {entityId field key tag node : Text} {side : Side} {device : Device Text Payload} {edit : Edit Text Payload}

theorem mem_requests {r : CRDTSyncRequest Text Payload × Text} (complete : (order.map Prod.fst).Perm devices)
    (member : r ∈ order.map fun arriving => (arriving.1.request script, arriving.2)) :
    ∃ device ∈ devices, r.1 = device.request script := by
  obtain ⟨arriving, mem, rfl⟩ := mem_map.mp member
  exact ⟨arriving.1, complete.mem_iff.mp (mem_map_of_mem mem), rfl⟩

variable (script) in
theorem exists_arriving (complete : (order.map Prod.fst).Perm devices) (mem : device ∈ devices) :
    ∃ r ∈ order.map fun arriving => (arriving.1.request script, arriving.2), r.1 = device.request script := by
  obtain ⟨arriving, member, rfl⟩ := mem_map.mp (complete.mem_iff.mpr mem)
  exact ⟨_, mem_map_of_mem member, rfl⟩

theorem mem_tags_sync (complete : (order.map Prod.fst).Perm devices) :
    tag ∈ (setOf (sync script entityStore order) entityId field).tags key ↔
      tag ∈ (setOf entityStore entityId field).tags key ∨
        ∃ device ∈ devices, ∃ edit ∈ (device.request script).edits, tag ∈ edit.tags script entityId field key := by
  unfold sync
  rw [mem_tags_receiveAll]
  apply or_congr_right
  constructor
  · rintro ⟨r, member, edit, mem, tagged⟩
    obtain ⟨device, known, same⟩ := mem_requests complete member
    exact ⟨device, known, edit, same ▸ mem, tagged⟩
  · rintro ⟨device, known, edit, mem, tagged⟩
    obtain ⟨r, member, same⟩ := exists_arriving script complete known
    exact ⟨r, member, edit, same ▸ mem, tagged⟩

theorem written_request (known : device ∈ devices) (mem : edit ∈ (device.request script).edits)
    {write : LWWRegister Text Payload} (written : edit.write entityId field = some write) :
    Written entityStore devices entityId field write := by
  right
  refine ⟨device, known, ?_⟩
  rcases mem_edits_request.mp mem with ⟨op, pending, rfl⟩ | ⟨e, _, rfl⟩
  · rw [Edit.write, Option.ite_none_right_eq_some] at written
    obtain ⟨⟨entity, here, type⟩, same⟩ := written
    exact .inr ⟨op, pending, entity, here, type, Option.some.inj same⟩
  · rw [Edit.write, Option.ite_none_right_eq_some] at written
    obtain ⟨rfl, found⟩ := written
    exact mem_registers_entities found

theorem registerOf_sync (complete : (order.map Prod.fst).Perm devices) (stamped : Stamped entityStore devices) :
    registerOf (sync script entityStore order) entityId field =
      (devices.flatMap fun device => (device.request script).edits.filterMap (·.write entityId field)).foldl
        (overwrite LWWRegister.stamp) (registerOf entityStore entityId field) := by
  have permuted : (order.flatMap fun arriving => (arriving.1.request script).edits.filterMap (·.write entityId field)).Perm
      (devices.flatMap fun device => (device.request script).edits.filterMap (·.write entityId field)) := by
    have mapped := complete.flatMap_right fun device => (device.request script).edits.filterMap (·.write entityId field)
    rwa [flatMap_map] at mapped
  unfold sync
  rw [registerOf_receiveAll, flatMap_map]
  apply foldl_overwrite_perm permuted
  have known (w : LWWRegister Text Payload) (candidate : registerOf entityStore entityId field = some w ∨
      w ∈ devices.flatMap fun device => (device.request script).edits.filterMap (·.write entityId field)) :
      Written entityStore devices entityId field w := by
    rcases candidate with held | sent
    · exact .inl held
    · obtain ⟨device, known, sent⟩ := mem_flatMap.mp sent
      obtain ⟨edit, mem, written⟩ := mem_filterMap.mp sent
      exact written_request known mem written
  intro v w first second same
  exact stamped entityId field v w (known v first) (known w second) same

theorem compatible_arrivals (distinct : devices.Pairwise fun d d' => d.nodeId ≠ d'.nodeId)
    (uncounted : Uncounted script entityStore devices) :
    (devices.map fun device => (device.request script).arrival script entityId field side node).Pairwise
      (Arrival.Compatible ((((counterOf entityStore entityId field).side side).get node).getD 0)) := by
  rw [pairwise_map]
  apply distinct.imp_of_mem
  intro d d' mem mem' other
  have zero {device : Device Text Payload} (foreign : node ≠ device.nodeId) :
      ((device.request script).arrival script entityId field side node).amount = 0 := pending_request foreign
  have clears {a b : Device Text Payload} (first : a ∈ devices) (second : b ∈ devices) (differ : b.nodeId ≠ a.nodeId) :
      ((a.request script).arrival script entityId field side node).Clears
        ((((counterOf entityStore entityId field).side side).get node).getD 0)
        ((b.request script).arrival script entityId field side node) := by
    by_cases own : node = a.nodeId
    · subst own
      exact uncounted a first b second differ entityId field side
    · exact .inl (zero own)
  refine ⟨?_, clears mem mem' (Ne.symm other), clears mem' mem other⟩
  by_cases own : node = d.nodeId
  · right
    apply zero
    rw [own]
    exact other
  · exact .inl (zero own)

theorem getD_side_sync (complete : (order.map Prod.fst).Perm devices)
    (distinct : devices.Pairwise fun d d' => d.nodeId ≠ d'.nodeId) (uncounted : Uncounted script entityStore devices) :
    (((counterOf (sync script entityStore order) entityId field).side side).get node).getD 0 =
      (devices.map fun device => (device.request script).arrival script entityId field side node).foldl Arrival.apply
        ((((counterOf entityStore entityId field).side side).get node).getD 0) := by
  have permuted := complete.map fun device => (device.request script).arrival script entityId field side node
  rw [map_map] at permuted
  unfold sync
  rw [getD_side_receiveAll, map_map]
  exact foldl_apply_perm permuted (compatible_arrivals distinct uncounted)

section Last

variable {front back : List (Device Text Payload)}

def timed (devices : List (Device Text Payload)) : List (Device Text Payload × Text) :=
  devices.map fun device => (device, device.nodeId)

omit [LinearOrder Text] in
theorem timed_devices (devices : List (Device Text Payload)) : (timed devices).map Prod.fst = devices := by
  unfold timed
  rw [map_map]
  exact map_id _

omit [LinearOrder Text] in
section

variable (split : devices = front ++ device :: back)

include split

theorem complete_last : ((timed (front ++ back ++ [device])).map Prod.fst).Perm devices := by
  rw [timed_devices, split]
  exact (perm_append_singleton _ _).trans perm_middle.symm

omit [LinearOrder Text] in
theorem complete_first : ((timed (device :: (front ++ back))).map Prod.fst).Perm devices := by
  rw [timed_devices, split]
  exact perm_middle.symm

omit [LinearOrder Text] in
theorem mem_others {other : Device Text Payload} (mem : other ∈ devices)
    (foreign : other.nodeId ≠ device.nodeId) : other ∈ front ++ back := by
  rw [split, mem_append, mem_cons] at mem
  rcases mem with mem | rfl | mem
  · exact mem_append_left _ mem
  · exact absurd rfl foreign
  · exact mem_append_right _ mem

end

end Last

theorem getD_side_timed (devices : List (Device Text Payload)) :
    (((counterOf (sync script entityStore (timed devices)) entityId field).side side).get node).getD 0 =
      (devices.map fun device => (device.request script).arrival script entityId field side node).foldl Arrival.apply
        ((((counterOf entityStore entityId field).side side).get node).getD 0) := by
  unfold sync timed
  rw [getD_side_receiveAll, map_map, map_map]
  rfl

theorem totals_iff (distinct : devices.Pairwise fun d d' => d.nodeId ≠ d'.nodeId) :
    (∀ order order' : List (Device Text Payload × Text), (order.map Prod.fst).Perm devices →
      (order'.map Prod.fst).Perm devices → ∀ entityId field side node,
        (((counterOf (sync script entityStore order) entityId field).side side).get node).getD 0 =
          (((counterOf (sync script entityStore order') entityId field).side side).get node).getD 0) ↔
      Uncounted script entityStore devices := by
  constructor
  · intro same device known other member foreign entityId field side
    obtain ⟨front, back, split⟩ := append_of_mem known
    have zero : ∀ a ∈ (front ++ back).map fun d => (d.request script).arrival script entityId field side device.nodeId,
        a.amount = 0 := by
      intro a mem
      obtain ⟨d, apart, rfl⟩ := mem_map.mp mem
      apply pending_request
      rw [split, pairwise_middle Ne.symm, pairwise_cons] at distinct
      exact distinct.1 d apart
    have equal := same _ _ (complete_last split) (complete_first split) entityId field side device.nodeId
    rw [getD_side_timed, getD_side_timed, map_append, map_singleton, foldl_append, map_cons,
      foldl_cons, foldl_cons, foldl_nil, foldl_apply_of_zero zero, foldl_apply_of_zero zero] at equal
    rcases Arrival.clears_of_eq equal with nothing | clears
    · exact .inl nothing
    · right
      intro v shown
      apply clears v
      rw [mem_flatMap]
      exact ⟨_, mem_map_of_mem (mem_others split member foreign), shown⟩
  · intro uncounted order order' complete complete' entityId field side node
    rw [getD_side_sync complete distinct uncounted, getD_side_sync complete' distinct uncounted]

theorem gone_iff : Gone script entityStore devices entityId field tag ↔
    tag ∈ (setOf entityStore entityId field).removed ∨
      ∃ device ∈ devices, ∃ edit ∈ (device.request script).edits, tag ∈ edit.tombstones entityId field := by
  unfold Gone
  simp only [mem_tombstones_request, mem_removed_entities]

theorem removed_of_gone (complete : (order.map Prod.fst).Perm devices)
    (gone : Gone script entityStore devices entityId field tag) :
    tag ∈ (setOf (sync script entityStore order) entityId field).removed := by
  rcases gone_iff.mp gone with held | ⟨device, known, edit, mem, shown⟩
  · exact removed_subset_receiveAll script held
  · obtain ⟨r, member, same⟩ := exists_arriving script complete known
    exact (absorbed_receiveAll member).tombstones edit (same ▸ mem) entityId field tag shown

theorem removal_request (mem : edit ∈ (device.request script).edits) (removes : edit.Removes script entityId field key) :
    ∃ op ∈ device.operations, edit = .operation op ∧ op.entityId = entityId ∧ op.field = field ∧
      op.type = .orset_remove ∧ op.key script = key := by
  rcases mem_edits_request.mp mem with ⟨op, pending, rfl⟩ | ⟨_, _, rfl⟩
  · exact ⟨op, pending, rfl, removes⟩
  · exact removes.elim

theorem gone_of_removed (complete : (order.map Prod.fst).Perm devices)
    (distinct : devices.Pairwise fun d d' => d.nodeId ≠ d'.nodeId) (observant : Observant script entityStore devices) :
    ∀ tag ∈ (setOf (sync script entityStore order) entityId field).removed,
      Gone script entityStore devices entityId field tag := by
  have differ : (order.map Prod.fst).Pairwise fun d d' => d.nodeId ≠ d'.nodeId :=
    (complete.pairwise_iff fun other => Ne.symm other).mpr distinct
  rw [pairwise_map] at differ
  apply removed_receiveAll
  · intro tag removed
    exact .inl removed
  · intro r member edit mem tag shown
    obtain ⟨device, known, same⟩ := mem_requests complete member
    exact gone_iff.mpr (.inr ⟨device, known, edit, same ▸ mem, shown⟩)
  · intro r member edit mem key removes tag tagged
    obtain ⟨device, known, same⟩ := mem_requests complete member
    obtain ⟨op, pending, rfl, rfl, rfl, type, rfl⟩ := removal_request (same ▸ mem) removes
    exact observant device known op pending type tag (.inl tagged)
  · intro r member earlier edit later split key removes e before tag tagged
    obtain ⟨device, known, same⟩ := mem_requests complete member
    rw [same] at split
    have mem : edit ∈ (device.request script).edits := by
      rw [split]
      exact mem_append_right _ mem_cons_self
    obtain ⟨op, pending, rfl, rfl, rfl, type, rfl⟩ := removal_request mem removes
    obtain ⟨ops, after, cut, rfl⟩ := edits_split _ split
    obtain ⟨add, first, rfl⟩ := mem_map.mp before
    exact observant device known op pending type tag (.inr (.inr ⟨ops, after, cut, add, first, tagged⟩))
  · rw [pairwise_map]
    apply differ.imp_of_mem
    intro arriving arriving' mem mem' other edit member key removes e sent tag tagged
    obtain ⟨op, pending, rfl, rfl, rfl, type, rfl⟩ := removal_request member removes
    have known := complete.mem_iff.mp (mem_map_of_mem mem)
    have known' := complete.mem_iff.mp (mem_map_of_mem mem')
    exact observant arriving'.1 known' op pending type tag (.inr (.inl ⟨arriving.1, known, other, e, sent, tagged⟩))

theorem setOf_sync_last (devices : List (Device Text Payload)) (device : Device Text Payload) :
    setOf (sync script entityStore (timed (devices ++ [device]))) entityId field =
      setOf ((device.request script).edits.foldl (Edit.apply script) (sync script entityStore (timed devices)))
        entityId field := by
  unfold sync receiveAll timed
  rw [map_append, map_append, foldl_append]
  exact setOf_receive ..

theorem observant_of_removed (observed : ∀ order : List (Device Text Payload × Text), (order.map Prod.fst).Perm devices →
      ∀ entityId field, ∀ tag ∈ (setOf (sync script entityStore order) entityId field).removed,
        Gone script entityStore devices entityId field tag) :
    Observant script entityStore devices := by
  intro device known op pending type tag meets
  obtain ⟨front, back, split⟩ := append_of_mem known
  apply observed _ (complete_last split) op.entityId op.field tag
  rw [setOf_sync_last, mem_removed_run]
  right; right
  have cut : ∃ earlier later, (device.request script).sortedOps = earlier ++ op :: later ∧
      (tag ∈ (setOf (sync script entityStore (timed (front ++ back))) op.entityId op.field).tags (op.key script) ∨
        ∃ add ∈ earlier, tag ∈ (Edit.operation add).tags script op.entityId op.field (op.key script)) := by
    have mem : op ∈ (device.request script).sortedOps := (mem_insertionSort _).mpr pending
    rw [mem_tags_sync (.of_eq (timed_devices (front ++ back)))]
    rcases meets with held | ⟨other, member, foreign, edit, sent, tagged⟩ | ⟨earlier, later, sorted, add, first, tagged⟩
    · obtain ⟨earlier, later, sorted⟩ := append_of_mem mem
      exact ⟨earlier, later, sorted, .inl (.inl held)⟩
    · obtain ⟨earlier, later, sorted⟩ := append_of_mem mem
      refine ⟨earlier, later, sorted, .inl (.inr ⟨other, ?_, edit, sent, tagged⟩)⟩
      exact mem_others split member foreign
    · exact ⟨earlier, later, sorted, .inr ⟨add, first, tagged⟩⟩
  obtain ⟨earlier, later, sorted, tagged⟩ := cut
  refine ⟨earlier.map .operation, .operation op, later.map .operation ++ (device.request script).entityStates.map .snapshot,
    op.key script, ?_, ⟨rfl, rfl, type, rfl⟩, ?_⟩
  · unfold CRDTSyncRequest.edits
    rw [sorted, map_append, map_cons, append_assoc]
    rfl
  · rcases tagged with tagged | ⟨add, first, tagged⟩
    · exact .inl tagged
    · exact .inr ⟨.operation add, mem_map_of_mem first, tagged⟩

end Orders

/-- Every order leaves the same contents, only tags that are gone anyway are removed, and an add whose tag is not gone
    makes its element a member. -/
structure Converges : Prop where
  same : ∀ order order' : List (Device Text Payload × Text), (order.map Prod.fst).Perm devices →
    (order'.map Prod.fst).Perm devices → SameContents (sync script entityStore order) (sync script entityStore order')
  observed : ∀ order : List (Device Text Payload × Text), (order.map Prod.fst).Perm devices → ∀ entityId field,
    ∀ tag ∈ (setOf (sync script entityStore order) entityId field).removed,
      Gone script entityStore devices entityId field tag
  wins : ∀ order : List (Device Text Payload × Text), (order.map Prod.fst).Perm devices → ∀ device ∈ devices,
    ∀ op ∈ device.operations, op.type = .orset_add →
      ¬ Gone script entityStore devices op.entityId op.field (op.addTag script) →
        op.key script ∈ membersOf (sync script entityStore order) op.entityId op.field

/-- Where a time and a node stand for one write and no snapshot counts what another device has pending, the requests
    converge if and only if no removal meets an add that was not observed. -/
theorem converges_iff (distinct : devices.Pairwise fun d d' => d.nodeId ≠ d'.nodeId)
    (stamped : Stamped entityStore devices) (uncounted : Uncounted script entityStore devices) :
    Converges script entityStore devices ↔ Observant script entityStore devices := by
  constructor
  · intro converges
    exact observant_of_removed converges.observed
  · intro observant
    have removed (order : List (Device Text Payload × Text)) (complete : (order.map Prod.fst).Perm devices)
        (entityId field tag : Text) : tag ∈ (setOf (sync script entityStore order) entityId field).removed ↔
        Gone script entityStore devices entityId field tag :=
      ⟨gone_of_removed complete distinct observant tag, removed_of_gone complete⟩
    constructor
    · intro order order' complete complete'
      constructor
      · intro entityId field
        unfold valueOf pnCounterValue
        have totals (side : Side) : ((counterOf (sync script entityStore order) entityId field).side side).total =
            ((counterOf (sync script entityStore order') entityId field).side side).total := by
          apply Record.total_congr
          intro node
          exact (totals_iff distinct).mpr uncounted order order' complete complete' entityId field side node
        exact congrArg₂ (· - ·) (totals .positive) (totals .negative)
      · intro entityId field
        ext key
        unfold membersOf
        simp only [mem_orSetValues, mem_tags_sync complete, mem_tags_sync complete', removed order complete,
          removed order' complete']
      · intro entityId field
        rw [registerOf_sync complete stamped, registerOf_sync complete' stamped]
    · intro order complete entityId field tag taken
      exact (removed order complete entityId field tag).mp taken
    · intro order complete device known op pending type kept
      rw [membersOf, mem_orSetValues]
      refine ⟨op.addTag script, ?_, ?_⟩
      · rw [mem_tags_sync complete]
        refine .inr ⟨device, known, .operation op, mem_edits_request.mpr (.inl ⟨op, pending, rfl⟩), ?_⟩
        simp [Edit.tags, type]
      · rw [removed order complete]
        exact kept

section Labels

def labelled : EntityStore String Value :=
  put (fun _ => none) "sub-1" { EntityCRDTState.new "sub-1" with
    orSets := (∅ : Record String fun _ => ORSet String).put "labels" (orSetAdd .empty "work" "tag-0") }

def phone : Device String Value where
  nodeId := "phone"
  received := labelled
  operations := [⟨"op-1", "sub-1", "labels", .orset_remove, .string "work", none, "phone", 1000, incrementClock ∅ "phone"⟩]
  own := by simp

def laptop : Device String Value where
  nodeId := "laptop"
  received := labelled
  operations :=
    [⟨"op-2", "sub-1", "labels", .orset_add, .string "work", some "tag-1", "laptop", 1000, incrementClock ∅ "laptop"⟩]
  own := by simp

def tablet : Device String Value where
  nodeId := "tablet"
  received := labelled
  operations :=
    [⟨"op-3", "sub-1", "uses", .pncounter_increment, .number 5, none, "tablet", 1000, incrementClock ∅ "tablet"⟩]
  own := by simp

theorem registerOf_labelled (entityId field : String) : registerOf labelled entityId field = none := by
  unfold registerOf getOrCreateEntity labelled
  rw [put_apply]
  split <;> rfl

theorem stamped_labelled {devices : List (Device String Value)}
    (plain : ∀ device ∈ devices, device.received = labelled ∧ ∀ op ∈ device.operations, op.type ≠ .lww_set) :
    Stamped labelled devices := by
  intro entityId field v w written
  rcases written with held | ⟨device, known, received | ⟨op, pending, _, _, type, _⟩⟩
  · rw [registerOf_labelled] at held
    cases held
  · rw [(plain device known).1, registerOf_labelled] at received
    cases received
  · exact absurd type ((plain device known).2 op pending)

theorem converges_elsewhere : Converges javaScript labelled [phone, tablet] := by
  have tagged : ∀ tag ∈ (setOf labelled "sub-1" "labels").tags "work", tag = "tag-0" := by decide +kernel
  have sent : ∀ edit ∈ (tablet.request javaScript).edits,
      ∀ tag ∈ edit.tags javaScript "sub-1" "labels" "work", tag = "tag-0" := by decide +kernel
  have gone : Gone javaScript labelled [phone, tablet] "sub-1" "labels" "tag-0" := by
    refine .inr ⟨phone, by simp, ⟨_, mem_singleton_self _, rfl⟩, .inr ⟨[], _, [], rfl, rfl, rfl, rfl, ?_⟩⟩
    decide +kernel
  refine (converges_iff javaScript labelled [phone, tablet] (by decide) (stamped_labelled (by simp [phone, tablet])) ?_).mpr ?_
  · intro device known other member foreign entityId field side
    rcases mem_pair.mp known with rfl | rfl
    · left
      cases side <;> simp [CRDTSyncRequest.arrival, CRDTSyncRequest.pending, Device.request, phone, Side.opType]
    · right
      rcases mem_pair.mp member with rfl | rfl
      · intro v shown
        have nothing : (phone.request javaScript).shown entityId field side tablet.nodeId = [] := by
          have uncounted : ∀ state ∈ (phone.request javaScript).entityStates, state.counters.keys = ∅ := by decide +kernel
          apply filterMap_eq_nil_iff.mpr
          intro state listed
          have unlisted : field ∉ state.counters.keys := by
            rw [uncounted state listed]
            exact Finset.notMem_empty field
          rw [EntityCRDTState.counter, Record.absent unlisted]
          simp
        change v ∈ (phone.request javaScript).shown entityId field side tablet.nodeId at shown
        rw [nothing] at shown
        cases shown
      · exact absurd rfl foreign
  · intro device known op pending type tag meets
    rcases mem_pair.mp known with rfl | rfl
    · obtain rfl := mem_singleton.mp pending
      rcases meets with stored | ⟨other, member, foreign, edit, listed, shown⟩ | ⟨earlier, later, sorted, add, first, _⟩
      · rw [tagged tag stored]
        exact gone
      · rcases mem_pair.mp member with rfl | rfl
        · exact absurd rfl foreign
        · rw [sent edit listed tag shown]
          exact gone
      · have sizes := congrArg List.length sorted
        have single : (phone.request javaScript).sortedOps.length = 1 := length_insertionSort ..
        rw [single, length_append, length_cons] at sizes
        have none : earlier = [] := length_eq_zero_iff.mp (by omega)
        rw [none] at first
        cases first
    · obtain rfl := mem_singleton.mp pending
      cases type

/-- The phone takes the label off while the laptop puts it on again: whether it stays depends on which request comes
    first. -/
theorem not_convergent : ¬ ∀ (entityStore : EntityStore String Value) (devices : List (Device String Value)),
    devices.Pairwise (fun d d' => d.nodeId ≠ d'.nodeId) → Stamped entityStore devices →
    ((devices.flatMap (·.operations)).filterMap (·.tag)).Nodup → Converges javaScript entityStore devices := by
  intro always
  have converges := always labelled [phone, laptop] (by decide) (stamped_labelled (by simp [phone, laptop])) (by decide)
  have same := (converges.same [(phone, "t1"), (laptop, "t2")] [(laptop, "t1"), (phone, "t2")] (.refl _)
    (.swap ..)).members "sub-1" "labels"
  have kept : membersOf (sync javaScript labelled [(phone, "t1"), (laptop, "t2")]) "sub-1" "labels" = {"work"} := by
    decide +kernel
  have lost : membersOf (sync javaScript labelled [(laptop, "t1"), (phone, "t2")]) "sub-1" "labels" = ∅ := by
    decide +kernel
  rw [kept, lost] at same
  exact absurd same (by decide)

end Labels

end SubTrackr.Sync
