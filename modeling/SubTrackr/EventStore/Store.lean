import SubTrackr.Lib.Record
import SubTrackr.Lib.Store
import SubTrackr.Pagination.Cursor
import SubTrackr.Lib.Runs

namespace SubTrackr.EventStore

open List Lib

inductive SubscriptionEventType
  | created
  | updated
  | renewed
  | cancelled
  | payment_failed
  | upgraded
  | paused
  | resumed
  deriving DecidableEq

def SubscriptionEventType.text : SubscriptionEventType → String
  | .created => "subscription.created"
  | .updated => "subscription.updated"
  | .renewed => "subscription.renewed"
  | .cancelled => "subscription.cancelled"
  | .payment_failed => "subscription.payment_failed"
  | .upgraded => "subscription.upgraded"
  | .paused => "subscription.paused"
  | .resumed => "subscription.resumed"

abbrev Properties := Record String fun _ => JsValue

structure SubscriptionEvent where
  (id subscriptionId : String)
  sequence : ℕ
  type : SubscriptionEventType
  payload : Properties
  (occurredAt schemaVersion : ℤ)
  archivedAt : Option ℤ

structure NewEvent where
  subscriptionId : String
  type : SubscriptionEventType
  payload : Properties
  (occurredAt schemaVersion archivedAt : Option ℤ)

/-- `from` and `to` are `start` and `stop` here. -/
structure EventFilter where
  subscriptionId : Option String
  type : Option SubscriptionEventType
  (start stop : Option ℤ)
  includeArchived : Bool

structure SubscriptionEventQuery extends EventFilter where
  (limit cursor : Option ℤ)

structure SubscriptionEventPage where
  events : List SubscriptionEvent
  nextCursor : Option ℤ

structure SubscriptionEventStore where
  events : List SubscriptionEvent
  sequenceBySubscription : Store String ℕ

instance : EmptyCollection SubscriptionEventStore := ⟨⟨[], fun _ => none⟩⟩

def base36Digit (n : ℕ) : Char := if n < 10 then Char.ofNat (48 + n) else Char.ofNat (87 + n)

def toBase36 (n : ℕ) : List Char :=
  if n < 36 then [base36Digit n] else toBase36 (n / 36) ++ [base36Digit (n % 36)]
termination_by n
decreasing_by omega

def position (length : ℕ) (i : ℤ) : ℕ := if i < 0 then (length + i).toNat else min i.toNat length

def slice {α : Type} (xs : List α) (start stop : ℤ) : List α :=
  (xs.take (position xs.length stop)).drop (position xs.length start)

theorem slice_add {α : Type} (xs : List α) (offset limit : ℕ) :
    slice xs offset (offset + limit) = (xs.drop offset).take limit := by
  simp only [slice, position, Int.toNat_natCast, if_neg (Int.not_lt.mpr (Int.natCast_nonneg offset)), ← Int.natCast_add,
    if_neg (Int.not_lt.mpr (Int.natCast_nonneg (offset + limit)))]
  apply ext_getElem?
  intro i
  rw [getElem?_drop, getElem?_take, getElem?_take, getElem?_drop]
  rcases Nat.lt_or_ge (offset + i) xs.length with inside | outside
  · have short : min offset xs.length = offset := by omega
    rw [short]
    by_cases within : i < limit
    · rw [if_pos (by omega), if_pos within]
    · rw [if_neg (by omega), if_neg within]
  · have beyond : xs[offset + i]? = none := getElem?_eq_none outside
    rw [beyond, ite_self]
    split
    · apply getElem?_eq_none
      omega
    · rfl

def MAX_SAFE_INTEGER : ℤ := 9007199254740991

namespace SubscriptionEvent

variable (event : SubscriptionEvent)

def archived : Bool := event.archivedAt.any (· ≠ 0)

def archive (timestamp : ℤ) (now : ℕ) : SubscriptionEvent :=
  if !event.archived && event.occurredAt < timestamp then { event with archivedAt := some (now : ℤ) } else event

def unmarked : SubscriptionEvent := { event with archivedAt := none }

def key : String × ℕ := (event.subscriptionId, event.sequence)

theorem archive_unmarked (timestamp : ℤ) (now : ℕ) : (event.archive timestamp now).unmarked = event.unmarked := by
  unfold archive
  split <;> rfl

theorem archive_key (timestamp : ℤ) (now : ℕ) : (event.archive timestamp now).key = event.key := by
  unfold archive
  split <;> rfl

end SubscriptionEvent

namespace EventFilter

variable (filter : EventFilter) (event : SubscriptionEvent)

def passes : Bool :=
  (filter.includeArchived || !event.archived) &&
    (filter.subscriptionId.all fun id => id = "" || event.subscriptionId = id) &&
    (filter.type.all fun type => event.type = type) &&
    (filter.start.all fun start => start = 0 || start ≤ event.occurredAt) &&
    (filter.stop.all fun stop => stop = 0 || event.occurredAt ≤ stop)

end EventFilter

namespace SubscriptionEventStore

variable (s : SubscriptionEventStore)

def append (event : NewEvent) (now : ℕ) : SubscriptionEvent × SubscriptionEventStore :=
  let nextSequence := (s.sequenceBySubscription event.subscriptionId).getD 0 + 1
  let record : SubscriptionEvent :=
    { id := String.ofList ("sev_".toList ++ toBase36 now ++ ['_'] ++ Nat.toDigits 10 nextSequence)
      subscriptionId := event.subscriptionId
      sequence := nextSequence
      type := event.type
      payload := event.payload
      occurredAt := event.occurredAt.getD now
      schemaVersion := event.schemaVersion.getD 1
      archivedAt := event.archivedAt }
  (record, ⟨s.events ++ [record], put s.sequenceBySubscription event.subscriptionId nextSequence⟩)

def filtered (filter : EventFilter) : List SubscriptionEvent := s.events.filter filter.passes

def query (query : SubscriptionEventQuery) : SubscriptionEventPage :=
  let cursor := query.cursor.getD 0
  let limit := max 1 (query.limit.getD 50)
  let filtered := s.filtered query.toEventFilter
  { events := slice filtered cursor (cursor + limit)
    nextCursor := if cursor + limit < filtered.length then some (cursor + limit) else none }

def history (subscriptionId : String) : List SubscriptionEvent :=
  (s.query ⟨⟨some subscriptionId, none, none, none, true⟩, some MAX_SAFE_INTEGER, none⟩).events.mergeSort
    fun a b => a.sequence ≤ b.sequence

def property (name : String) (value : JsValue) : Properties := .collect {name} fun _ => some value

def reconstruct (subscriptionId : String) : Properties :=
  (s.history subscriptionId).foldl
    (fun state event =>
      (((state.assign event.payload).assign (property "id" (.string subscriptionId))).assign
        (property "lastEventType" (.string event.type.text))).assign
        (property "updatedAt" (.number (.ofInt event.occurredAt))))
    (property "id" (.string subscriptionId))

def replay {σ : Type} (subscriptionId : String) (handler : σ → SubscriptionEvent → σ) (state : σ) : σ :=
  (s.history subscriptionId).foldl handler state

def archiveBefore (timestamp : ℤ) (now : ℕ) : ℕ × SubscriptionEventStore :=
  (s.events.countP fun event => !event.archived && event.occurredAt < timestamp,
    { s with events := s.events.map fun event => event.archive timestamp now })

end SubscriptionEventStore

inductive Maintenance
  | append (event : NewEvent) (now : ℕ)
  | archiveBefore (timestamp : ℤ) (now : ℕ)

def Maintenance.perform (s : SubscriptionEventStore) : Maintenance → SubscriptionEventStore
  | .append event now => (s.append event now).2
  | .archiveBefore timestamp now => (s.archiveBefore timestamp now).2

def maintain (s : SubscriptionEventStore) (work : Maintenance) : Option SubscriptionEventStore := some (work.perform s)

namespace SubscriptionEventStore

variable {s : SubscriptionEventStore}

def keys (s : SubscriptionEventStore) : List (String × ℕ) := s.events.map SubscriptionEvent.key

def eventsOf (s : SubscriptionEventStore) (id : String) : List SubscriptionEvent :=
  s.events.filter fun event => event.subscriptionId = id

def Gapless (s : SubscriptionEventStore) : Prop :=
  ∀ id, (s.eventsOf id).map SubscriptionEvent.sequence = List.range' 1 ((s.sequenceBySubscription id).getD 0)

@[simp] theorem archiveBefore_events (s : SubscriptionEventStore) (timestamp : ℤ) (now : ℕ) :
    (s.archiveBefore timestamp now).2.events = s.events.map fun event => event.archive timestamp now := rfl

theorem archiveBefore_keys (s : SubscriptionEventStore) (timestamp : ℤ) (now : ℕ) :
    (s.archiveBefore timestamp now).2.keys = s.keys := by
  rw [keys, keys, archiveBefore_events, map_map]
  exact map_congr_left fun event _ => event.archive_key timestamp now

theorem append_events (s : SubscriptionEventStore) (event : NewEvent) (now : ℕ) :
    (s.append event now).2.events = s.events ++ [(s.append event now).1] := rfl

theorem append_key (s : SubscriptionEventStore) (event : NewEvent) (now : ℕ) :
    (s.append event now).1.key = (event.subscriptionId, (s.sequenceBySubscription event.subscriptionId).getD 0 + 1) := rfl

@[simp] theorem append_sequences (s : SubscriptionEventStore) (event : NewEvent) (now : ℕ) :
    (s.append event now).2.sequenceBySubscription = put s.sequenceBySubscription event.subscriptionId
      ((s.sequenceBySubscription event.subscriptionId).getD 0 + 1) := rfl

@[simp] theorem append_subscriptionId (s : SubscriptionEventStore) (event : NewEvent) (now : ℕ) :
    (s.append event now).1.subscriptionId = event.subscriptionId := rfl

@[simp] theorem append_sequence (s : SubscriptionEventStore) (event : NewEvent) (now : ℕ) :
    (s.append event now).1.sequence = (s.sequenceBySubscription event.subscriptionId).getD 0 + 1 := rfl

@[simp] theorem archiveBefore_sequences (s : SubscriptionEventStore) (timestamp : ℤ) (now : ℕ) :
    (s.archiveBefore timestamp now).2.sequenceBySubscription = s.sequenceBySubscription := rfl

theorem Gapless.empty : Gapless ∅ := fun _ => rfl

theorem Gapless.append (gapless : s.Gapless) (event : NewEvent) (now : ℕ) : (s.append event now).2.Gapless := by
  intro id
  have before := gapless id
  unfold eventsOf at before ⊢
  rw [append_events, filter_append, map_append, before]
  by_cases own : event.subscriptionId = id
  · subst own
    simp only [append_subscriptionId, append_sequence, append_sequences, put_self, decide_true, filter_cons_of_pos,
      filter_nil, map_cons, map_nil, Option.getD_some]
    rw [range'_1_concat, Nat.add_comm]
  · simp [own, put_of_ne _ _ (Ne.symm own)]

theorem Gapless.archiveBefore (gapless : s.Gapless) (timestamp : ℤ) (now : ℕ) :
    (s.archiveBefore timestamp now).2.Gapless := by
  intro id
  have before := gapless id
  have same (event : SubscriptionEvent) : (event.archive timestamp now).subscriptionId = event.subscriptionId :=
    congrArg Prod.fst (event.archive_key timestamp now)
  have number (event : SubscriptionEvent) : (event.archive timestamp now).sequence = event.sequence :=
    congrArg Prod.snd (event.archive_key timestamp now)
  have kept : (s.archiveBefore timestamp now).2.eventsOf id = (s.eventsOf id).map fun event => event.archive timestamp now := by
    unfold eventsOf
    rw [archiveBefore_events, filter_map]
    simp only [Function.comp_def, same]
  rw [kept, map_map, archiveBefore_sequences, ← before]
  exact map_congr_left fun event _ => number event

theorem Gapless.perform (gapless : s.Gapless) (work : Maintenance) : (work.perform s).Gapless := by
  cases work with
  | append event now => exact gapless.append event now
  | archiveBefore timestamp now => exact gapless.archiveBefore timestamp now

theorem Gapless.of_runs (reached : Runs maintain anyAction ∅ s) : s.Gapless := by
  apply reached.keeps Gapless .empty
  rintro s s' work gapless - stepped
  cases stepped
  exact gapless.perform work

theorem Gapless.sequence_le (gapless : s.Gapless) {event : SubscriptionEvent} (member : event ∈ s.events) :
    event.sequence ≤ (s.sequenceBySubscription event.subscriptionId).getD 0 := by
  have mem : event.sequence ∈ (s.eventsOf event.subscriptionId).map SubscriptionEvent.sequence := by
    apply mem_map_of_mem
    simp [eventsOf, member]
  rw [gapless, mem_range'] at mem
  omega

theorem nodup_pairs {α β γ : Type} [DecidableEq β] {f : α → β} {g : α → γ} (xs : List α)
    (apart : ∀ b, ((xs.filter fun x => f x = b).map g).Nodup) : (xs.map fun x => (f x, g x)).Nodup := by
  induction xs with
  | nil => exact .nil
  | cons x xs ih =>
    rw [map_cons, nodup_cons]
    constructor
    · intro again
      obtain ⟨y, mem, same⟩ := mem_map.mp again
      have first := apart (f x)
      rw [filter_cons_of_pos (by simp), map_cons, nodup_cons] at first
      apply first.1
      obtain ⟨sameFst, sameSnd⟩ := Prod.mk.inj same
      rw [← sameSnd]
      apply mem_map_of_mem
      simp [mem, sameFst]
    · apply ih
      intro b
      apply List.Nodup.sublist _ (apart b)
      exact ((sublist_cons_self x xs).filter _).map g

theorem Gapless.keys_nodup (gapless : s.Gapless) : s.keys.Nodup := by
  apply nodup_pairs
  intro id
  have numbers := gapless id
  unfold eventsOf at numbers
  rw [numbers]
  exact nodup_range'

theorem Gapless.append_fresh (gapless : s.Gapless) (event : NewEvent) (now : ℕ) : (s.append event now).1.key ∉ s.keys := by
  intro again
  obtain ⟨other, mem, same⟩ := mem_map.mp again
  have bound := gapless.sequence_le mem
  rw [append_key] at same
  obtain ⟨id, number⟩ := Prod.mk.inj same
  rw [id] at bound
  omega

theorem archiveBefore_unmarked (s : SubscriptionEventStore) (timestamp : ℤ) (now : ℕ) :
    (s.archiveBefore timestamp now).2.events.map SubscriptionEvent.unmarked = s.events.map SubscriptionEvent.unmarked := by
  rw [archiveBefore_events, map_map]
  exact map_congr_left fun event _ => event.archive_unmarked timestamp now

theorem history_eq (s : SubscriptionEventStore) (id : String) :
    s.history id = ((s.filtered ⟨some id, none, none, none, true⟩).take MAX_SAFE_INTEGER.toNat).mergeSort
      fun a b => a.sequence ≤ b.sequence := by
  have most : max 1 MAX_SAFE_INTEGER = MAX_SAFE_INTEGER.toNat := by decide
  have taken := slice_add (s.filtered ⟨some id, none, none, none, true⟩) 0 MAX_SAFE_INTEGER.toNat
  unfold history query
  dsimp only [Option.getD_some, Option.getD_none]
  rw [most]
  exact congrArg (fun events => events.mergeSort fun a b => a.sequence ≤ b.sequence) taken

theorem history_unmarked (s : SubscriptionEventStore) (id : String) : (s.history id).map SubscriptionEvent.unmarked =
      (((s.events.map SubscriptionEvent.unmarked).filter (EventFilter.passes ⟨some id, none, none, none, true⟩)).take
        MAX_SAFE_INTEGER.toNat).mergeSort fun a b => a.sequence ≤ b.sequence := by
  rw [history_eq, filter_map, ← map_take]
  exact map_mergeSort fun _ _ _ _ => rfl

theorem archiveBefore_history (s : SubscriptionEventStore) (timestamp : ℤ) (now : ℕ) (id : String) :
    ((s.archiveBefore timestamp now).2.history id).map SubscriptionEvent.unmarked =
      (s.history id).map SubscriptionEvent.unmarked := by
  rw [history_unmarked, history_unmarked, archiveBefore_unmarked]

theorem reconstruct_unmarked (s : SubscriptionEventStore) (id : String) :
    s.reconstruct id = ((s.history id).map SubscriptionEvent.unmarked).foldl
      (fun state event =>
        (((state.assign event.payload).assign (property "id" (.string id))).assign
          (property "lastEventType" (.string event.type.text))).assign
          (property "updatedAt" (.number (.ofInt event.occurredAt))))
      (property "id" (.string id)) := by
  rw [foldl_map]
  rfl

theorem archiveBefore_reconstruct (s : SubscriptionEventStore) (timestamp : ℤ) (now : ℕ) (id : String) :
    (s.archiveBefore timestamp now).2.reconstruct id = s.reconstruct id := by
  rw [reconstruct_unmarked, reconstruct_unmarked, archiveBefore_history]

theorem archiveBefore_replay {σ : Type} (s : SubscriptionEventStore) (timestamp : ℤ) (now : ℕ) (id : String)
    (handler : σ → SubscriptionEvent → σ) (state : σ) :
    (s.archiveBefore timestamp now).2.replay id (fun state event => handler state event.unmarked) state =
      s.replay id (fun state event => handler state event.unmarked) state := by
  unfold replay
  rw [← foldl_map, archiveBefore_history, foldl_map]

theorem Gapless.history (gapless : s.Gapless) {id : String} (named : id ≠ "") :
    s.history id = (s.eventsOf id).take MAX_SAFE_INTEGER.toNat := by
  have filter : s.filtered ⟨some id, none, none, none, true⟩ = s.eventsOf id := by
    apply filter_congr
    intro event _
    simp [EventFilter.passes, named]
  have sorted : (s.eventsOf id).Pairwise fun a b => a.sequence ≤ b.sequence := by
    have numbers : ((s.eventsOf id).map SubscriptionEvent.sequence).Pairwise (· ≤ ·) := by
      rw [gapless]
      exact pairwise_le_range'
    exact pairwise_map.mp numbers
  rw [history_eq, filter]
  apply mergeSort_of_pairwise
  exact (sorted.sublist (take_sublist ..)).imp fun le => decide_eq_true le

end SubscriptionEventStore

end SubTrackr.EventStore
