import SubTrackr.Sync.Runs
import Mathlib.Data.String.Basic

namespace SubTrackr.Sync

open List Lib

variable {Text Payload : Type} [LinearOrder Text] (script : Script Text Payload)

structure Absorbed (entityStore : EntityStore Text Payload) (edits : List (Edit Text Payload)) : Prop where
  writes : ∀ edit ∈ edits, ∀ entityId field write, edit.write entityId field = some write →
    Covers LWWRegister.stamp (registerOf entityStore entityId field) write
  tags : ∀ edit ∈ edits, ∀ entityId field key, ∀ tag ∈ edit.tags script entityId field key,
    tag ∈ (setOf entityStore entityId field).tags key
  tombstones : ∀ edit ∈ edits, ∀ entityId field, ∀ tag ∈ edit.tombstones entityId field,
    tag ∈ (setOf entityStore entityId field).removed
  nodes : ∀ edit ∈ edits, ∀ entityId field side node, (edit.gain script entityId field side node).isSome →
    node ∈ ((counterOf entityStore entityId field).side side).keys

variable {script} {entityStore : EntityStore Text Payload} {request : CRDTSyncRequest Text Payload} {syncedAt : Text}

theorem absorbed_receive : Absorbed script (receive script entityStore request syncedAt) request.edits where
  writes edit mem entityId field write written := by
    rw [registerOf_receive, registerOf_run]
    exact covers_of_mem (mem_filterMap.mpr ⟨edit, mem, written⟩)
  tags edit mem entityId field key tag tagged := by
    rw [setOf_receive, mem_tags_run]
    exact .inr ⟨edit, mem, tagged⟩
  tombstones edit mem entityId field tag shown := by
    rw [setOf_receive, mem_removed_run]
    exact .inr (.inl ⟨edit, mem, shown⟩)
  nodes edit mem entityId field side node gained := by
    rw [counterOf_receive, mem_nodes_run]
    exact .inr ⟨edit, mem, gained⟩

theorem Absorbed.receive {edits : List (Edit Text Payload)} (absorbed : Absorbed script entityStore edits)
    (request : CRDTSyncRequest Text Payload) (syncedAt : Text) :
    Absorbed script (receive script entityStore request syncedAt) edits where
  writes edit mem entityId field write written := by
    rw [registerOf_receive, registerOf_run]
    exact (absorbed.writes edit mem entityId field write written).run _
  tags edit mem entityId field key tag tagged := by
    rw [setOf_receive, mem_tags_run]
    exact .inl (absorbed.tags edit mem entityId field key tag tagged)
  tombstones edit mem entityId field tag shown := by
    rw [setOf_receive, mem_removed_run]
    exact .inl (absorbed.tombstones edit mem entityId field tag shown)
  nodes edit mem entityId field side node gained := by
    rw [counterOf_receive, mem_nodes_run]
    exact .inl (absorbed.nodes edit mem entityId field side node gained)

theorem Absorbed.receiveAll {edits : List (Edit Text Payload)} (absorbed : Absorbed script entityStore edits)
    (requests : List (CRDTSyncRequest Text Payload × Text)) :
    Absorbed script (receiveAll script entityStore requests) edits := by
  induction requests generalizing entityStore with
  | nil => exact absorbed
  | cons r requests ih => exact ih (absorbed.receive r.1 r.2)

theorem absorbed_receiveAll {requests : List (CRDTSyncRequest Text Payload × Text)}
    {r : CRDTSyncRequest Text Payload × Text} (mem : r ∈ requests) :
    Absorbed script (receiveAll script entityStore requests) r.1.edits := by
  induction requests generalizing entityStore with
  | nil => cases mem
  | cons first requests ih =>
    rcases mem_cons.mp mem with rfl | later
    · exact absorbed_receive.receiveAll requests
    · exact ih later

section Again

variable {entityId field key tag : Text}

section

variable (absorbed : Absorbed script entityStore request.edits)

include absorbed

theorem registerOf_again :
    registerOf (receive script entityStore request syncedAt) entityId field = registerOf entityStore entityId field := by
  rw [registerOf_receive, registerOf_run]
  apply foldl_overwrite_settled
  intro write member
  obtain ⟨edit, mem, written⟩ := mem_filterMap.mp member
  exact absorbed.writes edit mem entityId field write written

theorem mem_tags_again : tag ∈ (setOf (receive script entityStore request syncedAt) entityId field).tags key ↔
      tag ∈ (setOf entityStore entityId field).tags key := by
  rw [setOf_receive, mem_tags_run, or_iff_left_iff_imp]
  rintro ⟨edit, mem, tagged⟩
  exact absorbed.tags edit mem entityId field key tag tagged

theorem mem_removed_again : tag ∈ (setOf (receive script entityStore request syncedAt) entityId field).removed ↔
      tag ∈ (setOf entityStore entityId field).removed ∨
        ∃ edit ∈ request.edits, ∃ key, edit.Removes script entityId field key ∧
          tag ∈ (setOf entityStore entityId field).tags key := by
  rw [setOf_receive, mem_removed_run]
  constructor
  · rintro (old | ⟨edit, mem, shown⟩ | ⟨earlier, edit, later, key, split, removes, tagged⟩)
    · exact .inl old
    · exact .inl (absorbed.tombstones edit mem entityId field tag shown)
    · have within (e : Edit Text Payload) (member : e ∈ earlier ++ [edit]) : e ∈ request.edits := by
        rw [split, append_cons]
        exact mem_append_left _ member
      refine .inr ⟨edit, within edit (by simp), key, removes, ?_⟩
      rcases tagged with known | ⟨e, before, tagged⟩
      · exact known
      · exact absorbed.tags e (within e (mem_append_left _ before)) entityId field key tag tagged
  · rintro (old | ⟨edit, mem, key, removes, tagged⟩)
    · exact .inl old
    · obtain ⟨earlier, later, split⟩ := append_of_mem mem
      exact .inr (.inr ⟨earlier, edit, later, key, split, removes, .inl tagged⟩)

theorem members_again_iff :
    membersOf (receive script entityStore request syncedAt) entityId field = membersOf entityStore entityId field ↔
      ∀ edit ∈ request.edits, ∀ key, edit.Removes script entityId field key → key ∉ membersOf entityStore entityId field := by
  constructor
  · intro same edit mem key removes member
    rw [← same, membersOf, mem_orSetValues] at member
    obtain ⟨tag, tagged, kept⟩ := member
    rw [mem_tags_again absorbed] at tagged
    rw [mem_removed_again absorbed] at kept
    exact kept (.inr ⟨edit, mem, key, removes, tagged⟩)
  · intro spent
    ext key
    unfold membersOf
    simp only [mem_orSetValues, mem_tags_again absorbed, mem_removed_again absorbed]
    have nothing (tag : Text) (taken : ∃ edit ∈ request.edits, ∃ key, edit.Removes script entityId field key ∧
        tag ∈ (setOf entityStore entityId field).tags key) : tag ∈ (setOf entityStore entityId field).removed := by
      obtain ⟨edit, mem, key, removes, tagged⟩ := taken
      by_contra kept
      exact spent edit mem key removes (mem_orSetValues.mpr ⟨tag, tagged, kept⟩)
    simp only [or_iff_left_of_imp (nothing _)]

end

end Again

section Totals

variable {entityId field : Text} {side : Side}

variable (script request entityStore) in
/-- What a node's total gains when the request comes again: the amounts of its operations, or what a snapshot shows
    above the total, where that is more. -/
def again (entityId field : Text) (side : Side) (node : Text) : ℚ :=
  let total := (((counterOf entityStore entityId field).side side).get node).getD 0
  raise (request.pending script entityId field side node)
    ((request.shown entityId field side node).map fun val => val - total)

theorem getD_side_again (node : Text) :
    (((counterOf (receive script entityStore request syncedAt) entityId field).side side).get node).getD 0 =
      (((counterOf entityStore entityId field).side side).get node).getD 0 +
        again script entityStore request entityId field side node := by
  unfold again
  dsimp only
  rw [getD_side_receive, ← sub_eq_iff_eq_add', Arrival.apply, raise_sub, add_sub_cancel_left]
  rfl

variable (side) in
theorem total_again (absorbed : Absorbed script entityStore request.edits) :
    ((counterOf (receive script entityStore request syncedAt) entityId field).side side).total =
      ((counterOf entityStore entityId field).side side).total +
        ∑ node ∈ ((counterOf entityStore entityId field).side side).keys,
          again script entityStore request entityId field side node := by
  have covered : ((counterOf (receive script entityStore request syncedAt) entityId field).side side).keys ⊆
      ((counterOf entityStore entityId field).side side).keys := by
    intro node known
    rw [counterOf_receive, mem_nodes_run] at known
    rcases known with known | ⟨edit, mem, gained⟩
    · exact known
    · exact absorbed.nodes edit mem entityId field side node gained
  rw [Record.total_eq_sum covered, Record.total, ← Finset.sum_add_distrib]
  apply Finset.sum_congr rfl
  intro node _
  exact getD_side_again node

theorem value_again_iff (absorbed : Absorbed script entityStore request.edits) :
    valueOf (receive script entityStore request syncedAt) entityId field = valueOf entityStore entityId field ↔
      ∑ node ∈ ((counterOf entityStore entityId field).side .positive).keys,
          again script entityStore request entityId field .positive node =
        ∑ node ∈ ((counterOf entityStore entityId field).side .negative).keys,
          again script entityStore request entityId field .negative node := by
  have value (entityStore : EntityStore Text Payload) : valueOf entityStore entityId field =
      ((counterOf entityStore entityId field).side .positive).total -
        ((counterOf entityStore entityId field).side .negative).total := rfl
  rw [value, value, total_again .positive absorbed, total_again .negative absorbed, add_sub_add_comm, add_eq_left,
    sub_eq_zero]

end Totals

omit [LinearOrder Text] in
theorem mem_removals {entityId field key : Text} : (∃ edit ∈ request.edits, edit.Removes script entityId field key) ↔
      ∃ op ∈ request.operations, op.entityId = entityId ∧ op.field = field ∧ op.type = .orset_remove ∧ op.key script = key := by
  simp only [mem_edits]
  constructor
  · rintro ⟨edit, ⟨op, mem, rfl⟩ | ⟨state, _, rfl⟩, removes⟩
    · exact ⟨op, mem, removes⟩
    · exact removes.elim
  · rintro ⟨op, mem, removes⟩
    exact ⟨.operation op, .inl ⟨op, mem, rfl⟩, removes⟩

variable (script entityStore request) in
/-- None of the elements that the request removes is a member, and for every counter the increments that would come
    again make as much as the decrements. -/
structure Spent : Prop where
  removals : ∀ op ∈ request.operations, op.type = .orset_remove →
    op.key script ∉ membersOf entityStore op.entityId op.field
  amounts : ∀ entityId field,
    ∑ node ∈ ((counterOf entityStore entityId field).side .positive).keys,
        again script entityStore request entityId field .positive node =
      ∑ node ∈ ((counterOf entityStore entityId field).side .negative).keys,
        again script entityStore request entityId field .negative node

theorem sameContents_again_iff (absorbed : Absorbed script entityStore request.edits) :
    SameContents (receive script entityStore request syncedAt) entityStore ↔ Spent script entityStore request := by
  constructor
  · intro same
    constructor
    · intro op mem type
      have kept := (members_again_iff absorbed).mp (same.members op.entityId op.field)
      exact kept (.operation op) ((mem_edits request).mpr (.inl ⟨op, mem, rfl⟩)) _ ⟨rfl, rfl, type, rfl⟩
    · intro entityId field
      exact (value_again_iff absorbed).mp (same.values entityId field)
  · intro spent
    constructor
    · intro entityId field
      exact (value_again_iff absorbed).mpr (spent.amounts entityId field)
    · intro entityId field
      rw [members_again_iff absorbed]
      intro edit mem key removes
      obtain ⟨op, known, rfl, rfl, type, rfl⟩ := mem_removals.mp ⟨edit, mem, removes⟩
      exact spent.removals op known type
    · intro entityId field
      exact registerOf_again absorbed

/-- A request that comes a second time, after any others, changes nothing if and only if it has nothing left to remove
    and its increments and decrements balance. -/
theorem resend_harmless_iff (script : Script Text Payload) (entityStore : EntityStore Text Payload)
    (request : CRDTSyncRequest Text Payload) (syncedAt : Text) (others : List (CRDTSyncRequest Text Payload × Text))
    (resentAt : Text) :
    let once := receiveAll script (receive script entityStore request syncedAt) others
    SameContents (receive script once request resentAt) once ↔ Spent script once request := by
  intro once
  exact sameContents_again_iff (absorbed_receive.receiveAll others)

section Lost

inductive Value
  | number (n : ℚ)
  | string (s : String)
  deriving DecidableEq

def javaScript : Script String Value where
  number
    | .number n => some n
    | .string _ => none
  text
    | .number n => toString n
    | .string s => s
  same a b := a = b
  tag nodeId timestamp := nodeId ++ "-" ++ toString timestamp

def fiveUses : CRDTSyncRequest String Value where
  nodeId := "phone"
  operations := [⟨"op-1", "sub-1", "uses", .pncounter_increment, .number 5, none, "phone", 1000, ∅⟩]
  entityStates := [{ EntityCRDTState.new "sub-1" with
    counters := (∅ : Record String fun _ => PNCounter String).put "uses" (pnCounterIncrement .empty "phone" 5) }]

theorem not_harmless : ¬ ∀ (entityStore : EntityStore String Value) (request : CRDTSyncRequest String Value)
    (syncedAt resentAt : String) (others : List (CRDTSyncRequest String Value × String)),
    (request.operations.map (·.id)).Nodup →
    ((request.operations.filter (·.type = .orset_add)).map (·.addTag javaScript)).Nodup →
    SameContents
      (receive javaScript (receiveAll javaScript (receive javaScript entityStore request syncedAt) others) request resentAt)
      (receiveAll javaScript (receive javaScript entityStore request syncedAt) others) := by
  intro harmless
  have same := (harmless (fun _ => none) fiveUses "t1" "t2" [] (by decide) (by decide)).values "sub-1" "uses"
  have once : valueOf (receive javaScript (fun _ => none) fiveUses "t1") "sub-1" "uses" = 5 := by decide +kernel
  have twice : valueOf (receive javaScript (receive javaScript (fun _ => none) fiveUses "t1") fiveUses "t2") "sub-1" "uses" = 10 := by
    decide +kernel
  have equal : (10 : ℚ) = 5 := twice.symm.trans (same.trans once)
  exact absurd equal (by decide)

end Lost

end SubTrackr.Sync
