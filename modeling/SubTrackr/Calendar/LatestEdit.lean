import SubTrackr.Lib.Histories
import SubTrackr.Calendar.CalendarSyncService

namespace SubTrackr.Calendar

open List Lib

inductive Field where
  | title | startTime | endTime
  deriving DecidableEq

def CalendarEvent.value (e : CalendarEvent) : Field → String
  | .title => e.title
  | .startTime => e.startTime
  | .endTime => e.endTime

def Updates.value (u : Updates) : Field → Option String
  | .title => u.title
  | .startTime => u.startTime
  | .endTime => u.endTime

def RemoteChange.value (c : RemoteChange) : Field → Option String
  | .title => c.title
  | .startTime => c.startTime
  | .endTime => c.endTime

section Event

variable {now : ℤ} {e : CalendarEvent} {c : RemoteChange} {changes : List RemoteChange}

def isDropped (e : CalendarEvent) (c : RemoteChange) : Bool := (detectConflict e c).any (·.resolvedWith = .localSide)

def pullAll (now : ℤ) (e : CalendarEvent) (changes : List RemoteChange) : CalendarEvent × List SyncConflict :=
  changes.foldl (fun acc c => ((pullChange now acc.1 c).1, acc.2 ++ (pullChange now acc.1 c).2)) (e, [])

theorem pullAll_concat : pullAll now e (changes ++ [c]) =
      ((pullChange now (pullAll now e changes).1 c).1,
        (pullAll now e changes).2 ++ (pullChange now (pullAll now e changes).1 c).2) := by
  rw [pullAll, foldl_append]
  rfl

theorem foldl_pullChange (conflicts : List SyncConflict) :
    changes.foldl (fun acc c => ((pullChange now acc.1 c).1, acc.2 ++ (pullChange now acc.1 c).2)) (e, conflicts) =
      ((pullAll now e changes).1, conflicts ++ (pullAll now e changes).2) := by
  induction changes using List.reverseRecOn with
  | nil => simp [pullAll]
  | append_singleton changes c ih =>
    rw [foldl_append, ih, pullAll_concat]
    simp

theorem pullAll_cons : pullAll now e (c :: changes) =
      ((pullAll now (pullChange now e c).1 changes).1,
        (pullChange now e c).2 ++ (pullAll now (pullChange now e c).1 changes).2) := by
  rw [pullAll, foldl_cons, nil_append, foldl_pullChange]

theorem detectConflict_eq_none (synced : e.localUpdatedAt ≤ e.lastSyncedAt) : detectConflict e c = none := by
  unfold detectConflict
  split
  · rfl
  · rw [if_neg fun late => absurd late.2 synced.not_gt]

theorem detectConflict_field {k : SyncConflict} (found : detectConflict e c = some k) : k.eventId = e.id ∧ k.field = "title" := by
  unfold detectConflict at found
  grind

theorem pullAll_of_synced (changes : List RemoteChange) (synced : e.localUpdatedAt ≤ e.lastSyncedAt) (recent : e.localUpdatedAt ≤ now) :
    pullAll now e changes = (changes.foldl (applyRemoteChange now) e, []) := by
  induction changes generalizing e with
  | nil => rfl
  | cons c changes ih =>
    have applied : pullChange now e c = (applyRemoteChange now e c, []) := by
      rw [pullChange, detectConflict_eq_none synced]
    rw [pullAll_cons, applied, ih (e := applyRemoteChange now e c) recent recent]
    rfl

theorem value_applyRemoteChange (f : Field) : (applyRemoteChange now e c).value f = (c.value f).getD (e.value f) := by
  cases f <;> rfl

theorem value_foldl (changes : List RemoteChange) (f : Field) :
    (changes.foldl (applyRemoteChange now) e).value f = ((changes.filterMap (·.value f)).getLast?).getD (e.value f) := by
  induction changes using List.reverseRecOn with
  | nil => rfl
  | append_singleton changes c ih =>
    rw [foldl_append, foldl_cons, foldl_nil, value_applyRemoteChange, ih, filterMap_append]
    cases written : c.value f with
    | none => simp [written]
    | some v => simp [written]

theorem isDropped_synced : isDropped { e with syncStatus := .synced } = isDropped e := rfl

theorem value_pullAll (recent : e.localUpdatedAt ≤ now) (f : Field) : (pullAll now e changes).1.value f =
      (((changes.dropWhile (isDropped e)).filterMap (·.value f)).getLast?).getD (e.value f) := by
  induction changes generalizing e with
  | nil => rfl
  | cons c changes ih =>
    cases dropped : isDropped e c with
    | true =>
      obtain ⟨k, conflict, side⟩ := (Option.any_eq_true _ _).mp dropped
      have side : k.resolvedWith = .localSide := of_decide_eq_true side
      have kept : (pullChange now e c).1 = { e with syncStatus := .synced } := by
        simp [pullChange, conflict, resolveConflict, side]
      rw [pullAll_cons, kept, dropWhile_cons_of_pos dropped, ih (e := { e with syncStatus := .synced }) recent,
        isDropped_synced]
      cases f <;> rfl
    | false =>
      have applied : (pullChange now e c).1 = applyRemoteChange now e c := by
        cases found : detectConflict e c with
        | none => simp [pullChange, found]
        | some k =>
          have side : k.resolvedWith = .remoteSide := by
            cases resolved : k.resolvedWith with
            | remoteSide => rfl
            | localSide => simp [isDropped, found, resolved] at dropped
          simp [pullChange, found, resolveConflict, side, applyRemoteChange]
      have current : (pullChange now e c).1.localUpdatedAt ≤ now := by
        rw [applied]
        exact recent
      have later := pullAll_of_synced changes (by rw [applied]; exact recent) current
      rw [pullAll_cons, later, dropWhile_cons_of_neg (by simp [dropped]), applied]
      exact value_foldl (c :: changes) f

theorem reported_pullAll (recent : e.localUpdatedAt ≤ now) :
    (∃ k ∈ (pullAll now e changes).2, k.eventId = e.id ∧ k.field = "title") ↔
      ∃ c ∈ changes.head?, (detectConflict e c).isSome = true := by
  cases changes with
  | nil => simp [pullAll]
  | cons c changes =>
    rw [pullAll_cons]
    cases found : detectConflict e c with
    | some k =>
      have first : (pullChange now e c).2 = [k] := by simp [pullChange, found]
      have named := detectConflict_field found
      simp [first, named, found]
    | none =>
      have applied : pullChange now e c = (applyRemoteChange now e c, []) := by rw [pullChange, found]
      rw [applied, pullAll_of_synced (e := applyRemoteChange now e c) _ recent recent]
      simp [found]

structure SameEvent (now : ℤ) (e e' : CalendarEvent) : Prop where
  id : e'.id = e.id
  connectionId : e'.connectionId = e.connectionId
  providerEventId : e'.providerEventId = e.providerEventId
  deleted : e'.deleted = e.deleted
  localUpdatedAt : e'.localUpdatedAt = e.localUpdatedAt
  lastSyncedAt : e'.lastSyncedAt = e.lastSyncedAt ∨ e'.lastSyncedAt = now

theorem SameEvent.refl (e : CalendarEvent) : SameEvent now e e := ⟨rfl, rfl, rfl, rfl, rfl, .inl rfl⟩

theorem SameEvent.trans {e' e'' : CalendarEvent} (first : SameEvent now e e') (second : SameEvent now e' e'') :
    SameEvent now e e'' where
  id := second.id.trans first.id
  connectionId := second.connectionId.trans first.connectionId
  providerEventId := second.providerEventId.trans first.providerEventId
  deleted := second.deleted.trans first.deleted
  localUpdatedAt := second.localUpdatedAt.trans first.localUpdatedAt
  lastSyncedAt := by
    rcases second.lastSyncedAt with same | fresh
    · rw [same]
      exact first.lastSyncedAt
    · exact .inr fresh

theorem sameEvent_pushEvent (e : CalendarEvent) : SameEvent now e (pushEvent now e) := by
  unfold pushEvent
  split
  · exact ⟨rfl, rfl, rfl, rfl, rfl, .inl rfl⟩
  · exact ⟨rfl, rfl, rfl, rfl, rfl, .inr rfl⟩

theorem sameEvent_pullChange (e : CalendarEvent) (c : RemoteChange) : SameEvent now e (pullChange now e c).1 := by
  cases found : detectConflict e c with
  | none =>
    simp only [pullChange, found]
    exact ⟨rfl, rfl, rfl, rfl, rfl, .inr rfl⟩
  | some k =>
    simp only [pullChange, found, resolveConflict]
    split
    · exact ⟨rfl, rfl, rfl, rfl, rfl, .inr rfl⟩
    · exact ⟨rfl, rfl, rfl, rfl, rfl, .inl rfl⟩

theorem sameEvent_pullAll : SameEvent now e (pullAll now e changes).1 := by
  induction changes using List.reverseRecOn with
  | nil => exact .refl e
  | append_singleton changes c ih =>
    rw [pullAll_concat]
    exact ih.trans (sameEvent_pullChange _ c)

end Event

section Service

open CalendarSyncService

variable {now : ℤ} {events events' : InsertionMap String CalendarEvent} {connectionId id : String} {e : CalendarEvent}
  {c : RemoteChange} {changes : List RemoteChange} {s s' : CalendarSyncService} {result : SyncResult}

structure Keyed (events : InsertionMap String CalendarEvent) : Prop where
  ids : ∀ k e, events.get k = some e → e.id = k
  alone : ∀ k k' e e', events.get k = some e → events.get k' = some e' → e.providerEventId = e'.providerEventId →
    e.connectionId = e'.connectionId → k = k'

theorem Keyed.of_same {g : CalendarEvent → CalendarEvent} (keyed : Keyed events) (same : ∀ e, SameEvent now e (g e))
    (get : ∀ k, events'.get k = (events.get k).map g) : Keyed events' := by
  have old : ∀ k e, events'.get k = some e → ∃ before, events.get k = some before ∧ g before = e := by
    intro k e found
    rw [get] at found
    exact Option.map_eq_some_iff.mp found
  constructor
  · intro k e found
    obtain ⟨before, known, rfl⟩ := old k e found
    exact (same before).id.trans (keyed.ids k before known)
  · intro k k' e e' found found' provider connection
    obtain ⟨before, known, rfl⟩ := old k e found
    obtain ⟨before', known', rfl⟩ := old k' e' found'
    rw [(same _).providerEventId, (same _).providerEventId] at provider
    rw [(same _).connectionId, (same _).connectionId] at connection
    exact keyed.alone k k' before before' known known' provider connection

theorem concerns_of_same {e' : CalendarEvent} (same : SameEvent now e e') :
    concerns conn c e' = concerns conn c e := by
  rw [concerns, same.providerEventId, same.connectionId, concerns]

def changesFor (connectionId : String) (changes : List RemoteChange) (e : CalendarEvent) : List RemoteChange :=
  changes.filter (concerns connectionId · e)

theorem pullOne_spec {acc : InsertionMap String CalendarEvent × ℕ × List SyncConflict} (keyed : Keyed acc.1)
    (kind : c.changeType ≠ .deleted) (found : acc.1.get id = some e) :
    (pullOne now conn acc c).1.get id = some (if concerns conn c e then (pullChange now e c).1 else e) ∧
      (pullOne now conn acc c).2.2.filter (·.eventId = id) =
        acc.2.2.filter (·.eventId = id) ++ if concerns conn c e then (pullChange now e c).2 else [] := by
  have names : ∀ (e : CalendarEvent), ∀ k ∈ (pullChange now e c).2, k.eventId = e.id := by
    intro e k mem
    cases conflict : detectConflict e c with
    | none => simp [pullChange, conflict] at mem
    | some k' =>
      obtain rfl : k = k' := by simpa [pullChange, conflict] using mem
      exact (detectConflict_field conflict).1
  unfold pullOne
  cases first : acc.1.values.find? (concerns conn c) with
  | none =>
    have untouched := find?_eq_none.mp first e (InsertionMap.mem_values.mpr ⟨id, found⟩)
    simp [untouched, found]
  | some existing =>
    obtain ⟨key, mem⟩ := InsertionMap.mem_values.mp (mem_of_find?_eq_some first)
    obtain rfl := keyed.ids key existing mem
    have concerned := find?_some first
    simp only [if_neg kind]
    by_cases here : id = existing.id
    · subst here
      obtain rfl := Option.some.inj (found.symm.trans mem)
      have all : (pullChange now e c).2.filter (·.eventId = e.id) = (pullChange now e c).2 :=
        filter_eq_self.mpr fun k member => by simpa using names e k member
      simp only [concerned, if_true, InsertionMap.get_set_self, filter_append, all, true_and]
    · have other : concerns conn c e = false := by
        by_contra concerned'
        rw [Bool.not_eq_false] at concerned'
        simp only [concerns, decide_eq_true_eq] at concerned concerned'
        exact here (keyed.alone _ _ _ _ found mem (concerned'.1.trans concerned.1.symm) (concerned'.2.trans concerned.2.symm))
      have none_mine : (pullChange now existing c).2.filter (·.eventId = id) = [] :=
        filter_eq_nil_iff.mpr fun k member => by simpa [names existing k member] using Ne.symm here
      simp [other, InsertionMap.get_set_of_ne _ _ here, found, none_mine]

theorem pullOne_absent {acc : InsertionMap String CalendarEvent × ℕ × List SyncConflict} (keyed : Keyed acc.1)
    (absent : acc.1.get id = none) : (pullOne now conn acc c).1.get id = none := by
  unfold pullOne
  cases first : acc.1.values.find? (concerns conn c) with
  | none => exact absent
  | some existing =>
    obtain ⟨key, mem⟩ := InsertionMap.mem_values.mp (mem_of_find?_eq_some first)
    obtain rfl := keyed.ids key existing mem
    have other : id ≠ existing.id := by
      rintro rfl
      rw [absent] at mem
      cases mem
    dsimp only
    split
    · rw [InsertionMap.get_set_of_ne _ _ other, absent]
    · rw [InsertionMap.get_set_of_ne _ _ other, absent]

theorem foldl_pullOne (now : ℤ) (conn : String) (keyed : Keyed events) (kinds : ∀ c ∈ changes, c.changeType ≠ .deleted) :
    (∀ id, (changes.foldl (pullOne now conn) (events, 0, [])).1.get id =
      (events.get id).map fun e => (pullAll now e (changesFor conn changes e)).1) ∧
    ∀ id e, events.get id = some e →
      (changes.foldl (pullOne now conn) (events, 0, [])).2.2.filter (·.eventId = id) =
        (pullAll now e (changesFor conn changes e)).2 := by
  induction changes using List.reverseRecOn with
  | nil => simp [changesFor, pullAll]
  | append_singleton changes c ih =>
    obtain ⟨gets, conflicts⟩ := ih fun c' mem => kinds c' (mem_append_left _ mem)
    have keyed' := keyed.of_same (fun e => sameEvent_pullAll) gets
    have kind := kinds c (by simp)
    rw [foldl_append, foldl_cons, foldl_nil]
    have steps : ∀ e, pullAll now e (changesFor conn (changes ++ [c]) e) =
        (if concerns conn c e then (pullChange now (pullAll now e (changesFor conn changes e)).1 c).1
          else (pullAll now e (changesFor conn changes e)).1,
          (pullAll now e (changesFor conn changes e)).2 ++
            if concerns conn c e then (pullChange now (pullAll now e (changesFor conn changes e)).1 c).2 else []) := by
      intro e
      rw [changesFor, filter_append]
      cases concerned : concerns conn c e with
      | true => simp [concerned, pullAll_concat, changesFor]
      | false => simp [concerned, changesFor]
    constructor
    · intro id
      cases found : events.get id with
      | none => exact pullOne_absent keyed' (by rw [gets, found]; rfl)
      | some e =>
        have here := gets id
        rw [found, Option.map_some] at here
        rw [(pullOne_spec keyed' kind here).1, Option.map_some, steps, concerns_of_same sameEvent_pullAll]
    · intro id e found
      have here := gets id
      rw [found, Option.map_some] at here
      rw [(pullOne_spec keyed' kind here).2, conflicts id e found, steps, concerns_of_same sameEvent_pullAll]

def pushed (now : ℤ) (connectionId : String) (e : CalendarEvent) : CalendarEvent :=
  if isPending connectionId e then pushEvent now e else e

theorem sameEvent_pushed (now : ℤ) (conn : String) (e : CalendarEvent) : SameEvent now e (pushed now conn e) := by
  unfold pushed
  split
  · exact sameEvent_pushEvent e
  · exact .refl e

def synced (now : ℤ) (connectionId : String) (changes : List RemoteChange) (e : CalendarEvent) : CalendarEvent × List SyncConflict :=
  pullAll now (pushed now connectionId e) (changesFor connectionId changes e)

structure Allowed (s : CalendarSyncService) (now : ℤ) (connectionId : String) (changes : List RemoteChange) : Prop where
  bidirectional : ∃ conn, s.connections connectionId = some conn ∧ conn.syncDirection = .bidirectional
  push : (s.checkRateLimit now connectionId).1 = true
  pull : ((s.checkRateLimit now connectionId).2.checkRateLimit now connectionId).1 = true
  kinds : ∀ c ∈ changes, c.changeType ≠ .deleted
  instants : ∀ c ∈ changes, c.updatedAt.isSome = true

theorem checkRateLimit_eq (now : ℤ) (conn : String) (s : CalendarSyncService) :
    ∃ counters, (s.checkRateLimit now conn).2 = { s with rateLimitCounters := counters } := by
  unfold checkRateLimit
  split
  · exact ⟨_, rfl⟩
  · split
    · exact ⟨_, rfl⟩
    · split
      · exact ⟨_, rfl⟩
      · exact ⟨_, rfl⟩

theorem checkRateLimit_congr {s s' : CalendarSyncService} (counters : s.rateLimitCounters = s'.rateLimitCounters)
    (limit : s.rateLimitPerMinute = s'.rateLimitPerMinute) :
    (s.checkRateLimit now conn).1 = (s'.checkRateLimit now conn).1 := by
  unfold checkRateLimit
  rw [counters, limit]
  split
  · rfl
  · split
    · rfl
    · split
      · rfl
      · rfl

theorem pushToCalendar_eq {conn : CalendarConnection} (held : s.connections connectionId = some conn)
    (direction : conn.syncDirection = .bidirectional) (push : (s.checkRateLimit now connectionId).1 = true) :
    ∃ s' result, s.pushToCalendar now connectionId = .ok (s', result) ∧ result.conflicts = [] ∧
      s'.events = s.events.mapValues (pushed now connectionId) ∧
      (∃ conn', s'.connections connectionId = some conn' ∧ conn'.syncDirection = .bidirectional) ∧
      s'.rateLimitCounters = (s.checkRateLimit now connectionId).2.rateLimitCounters ∧
      s'.rateLimitPerMinute = s.rateLimitPerMinute := by
  obtain ⟨counters, same⟩ := checkRateLimit_eq now connectionId s
  have checked : s.checkRateLimit now connectionId = (true, { s with rateLimitCounters := counters }) := Prod.ext push same
  unfold pushToCalendar
  simp only [held, direction, checked, touch, Option.elim_some, reduceCtorEq, if_false]
  exact ⟨_, _, rfl, rfl, rfl, ⟨_, put_self .., rfl⟩, rfl, rfl⟩

theorem pullFromCalendar_eq (changes : List RemoteChange) {conn : CalendarConnection} (held : s.connections connectionId = some conn)
    (direction : conn.syncDirection = .bidirectional) (pull : (s.checkRateLimit now connectionId).1 = true) :
    ∃ s' result, s.pullFromCalendar now connectionId changes = .ok (s', result) ∧
      s'.events = (changes.foldl (pullOne now connectionId) (s.events, 0, [])).1 ∧
      result.conflicts = (changes.foldl (pullOne now connectionId) (s.events, 0, [])).2.2 := by
  obtain ⟨counters, same⟩ := checkRateLimit_eq now connectionId s
  have checked : s.checkRateLimit now connectionId = (true, { s with rateLimitCounters := counters }) := Prod.ext pull same
  unfold pullFromCalendar
  simp only [held, direction, checked, touch, Option.elim_some, reduceCtorEq, if_false]
  exact ⟨_, _, rfl, rfl, rfl⟩

theorem fullSync_eq (allowed : Allowed s now connectionId changes) :
    ∃ s' result, s.fullSync now connectionId changes = .ok (s', result) ∧
      s'.events = (changes.foldl (pullOne now connectionId) (s.events.mapValues (pushed now connectionId), 0, [])).1 ∧
      result.conflicts = (changes.foldl (pullOne now connectionId) (s.events.mapValues (pushed now connectionId), 0, [])).2.2 := by
  obtain ⟨conn, held, direction⟩ := allowed.bidirectional
  obtain ⟨s₁, pushResult, pushes, none_yet, events, ⟨conn', held', direction'⟩, counters, limit⟩ :=
    pushToCalendar_eq held direction allowed.push
  obtain ⟨_, same⟩ := checkRateLimit_eq now connectionId s
  have pull : (s₁.checkRateLimit now connectionId).1 = true := by
    rw [checkRateLimit_congr counters (limit.trans (by rw [same])), allowed.pull]
  obtain ⟨s₂, pullResult, pulls, events', conflicts⟩ := pullFromCalendar_eq changes held' direction' pull
  unfold fullSync
  rw [pushes]
  simp only [Bind.bind, Except.bind, pulls]
  exact ⟨_, _, rfl, by rw [events', events], by simp only [none_yet, conflicts, events, nil_append]⟩

theorem fullSync_spec (keyed : Keyed s.events) (allowed : Allowed s now conn changes) :
    ∃ s' result, s.fullSync now conn changes = .ok (s', result) ∧
      (∀ id, s'.events.get id = (s.events.get id).map fun e => (synced now conn changes e).1) ∧
      ∀ id e, s.events.get id = some e →
        result.conflicts.filter (·.eventId = id) = (synced now conn changes e).2 := by
  obtain ⟨s', result, done, events, conflicts⟩ := fullSync_eq allowed
  have gets : ∀ id, (s.events.mapValues (pushed now conn)).get id = (s.events.get id).map (pushed now conn) := by
    intro id
    ext e
    rw [InsertionMap.get_mapValues_eq_some, Option.map_eq_some_iff]
  have keyed' := keyed.of_same (sameEvent_pushed now conn) gets
  obtain ⟨held, reported⟩ := foldl_pullOne now conn keyed' allowed.kinds
  have concerned : ∀ e, changesFor conn changes (pushed now conn e) = changesFor conn changes e := by
    intro e
    unfold changesFor
    congr 1
    funext c
    exact concerns_of_same (sameEvent_pushed now conn e)
  refine ⟨s', result, done, ?_, ?_⟩
  · intro id
    rw [events, held, gets, Option.map_map]
    simp only [Function.comp_def, concerned, synced]
  · intro id e found
    rw [conflicts, reported id (pushed now conn e) (by rw [gets, found]; rfl), concerned, synced]

end Service

structure Edit where
  eventId : String
  instant : ℤ
  updates : Updates

/-- The service, and the local edits of each event since the last sync of its connection. -/
structure World where
  service : CalendarSyncService
  now : ℤ
  edits : List Edit

inductive Action where
  | tick (ms : ℕ)
  | createConnection (id : String) (syncDirection : SyncDirection) (enabledEventTypes : List CalendarEventType)
  | createEvent (id providerEventId connectionId subscriptionId : String) (eventType : CalendarEventType)
    (title description startTime endTime : String) (allDay : Bool)
  | updateEventLocally (eventId : String) (updates : Updates)
  | deleteEvent (eventId : String)
  | fullSync (connectionId : String) (remoteChanges : List RemoteChange)

namespace World

def new (rateLimitPerMinute : ℕ) (now : ℤ) : World := ⟨{ rateLimitPerMinute := rateLimitPerMinute }, now, []⟩

def edited (w : World) (result : Except String CalendarSyncService) (edit : Edit) : World :=
  match result with
  | .ok s => { w with service := s, edits := edit :: w.edits }
  | .error _ => w

def isNew (w : World) (id providerEventId : String) : Bool :=
  (w.service.events.get id).isNone && w.service.events.values.all (·.providerEventId ≠ providerEventId)

def step (w : World) : Action → World
  | .tick ms => { w with now := w.now + ms }
  | .createConnection id direction types =>
    if (w.service.connections id).isNone then { w with service := w.service.createConnection w.now id direction types } else w
  | .createEvent id providerEventId connectionId subscriptionId eventType title description startTime endTime allDay =>
    if w.isNew id providerEventId then
      w.edited (w.service.createEvent w.now id providerEventId connectionId subscriptionId eventType title description startTime
        endTime allDay) ⟨id, w.now, ⟨some title, some description, some startTime, some endTime⟩⟩
    else w
  | .updateEventLocally eventId updates =>
    w.edited (w.service.updateEventLocally w.now eventId updates) ⟨eventId, w.now, updates⟩
  | .deleteEvent eventId => w.edited (w.service.deleteEvent w.now eventId) ⟨eventId, w.now, {}⟩
  | .fullSync connectionId remoteChanges =>
    match w.service.fullSync w.now connectionId remoteChanges with
    | .ok (s, _) =>
      { w with
        service := s
        edits := w.edits.filter fun edit => (w.service.events.get edit.eventId).all (·.connectionId ≠ connectionId) }
    | .error _ => w

def writes (w : World) (connectionId : String) (changes : List RemoteChange) (e : CalendarEvent) (f : Field) : List (ℤ × String) :=
  (w.edits.filter (·.eventId = e.id)).filterMap (fun edit => (edit.updates.value f).map fun v => (edit.instant, v)) ++
    (changesFor connectionId changes e).filterMap fun c => do some (← c.updatedAt, ← c.value f)

end World

def Latest (writes : List (ℤ × String)) (v : String) : Prop := ∃ t, (t, v) ∈ writes ∧ ∀ p ∈ writes, p.1 ≤ t

def TitleDiffers (w : World) (connectionId : String) (changes : List RemoteChange) (e : CalendarEvent) : Prop :=
  (∃ edit ∈ w.edits, edit.eventId = e.id ∧ edit.updates.title.isSome = true) ∧
    ∃ c ∈ changesFor connectionId changes e, ∃ title, c.title = some title ∧ title ≠ e.title

structure EventKept (w : World) (connectionId : String) (changes : List RemoteChange) (conflicts : List SyncConflict)
    (e e' : CalendarEvent) : Prop where
  latest : ∀ f v, Latest (w.writes connectionId changes e f) v → e'.value f = v
  unwritten : ∀ f, w.writes connectionId changes e f = [] → e'.value f = e.value f
  deleted : e.deleted = true → e'.deleted = true
  pushed : (∃ edit ∈ w.edits, edit.eventId = e.id) → e ∈ w.service.pendingEvents connectionId
  reported : TitleDiffers w connectionId changes e → ∃ k ∈ conflicts, k.eventId = e.id ∧ k.field = "title"

def KeepsLatest (w : World) : Action → Prop
  | .fullSync connectionId changes => ∀ s' result, w.service.fullSync w.now connectionId changes = .ok (s', result) →
      ∀ id e, w.service.events.get id = some e → e.connectionId = connectionId →
        ∃ e', s'.events.get id = some e' ∧ EventKept w connectionId changes result.conflicts e e'
  | _ => True

def Given (w : World) : Action → Prop
  | .fullSync connectionId changes => Allowed w.service w.now connectionId changes
  | _ => True

/-- For each field of an event, of the changes that are not dropped the last one that has it has the value of the latest write,
or no such change has it and the event has; and where titles differ, the first change is found to be a conflict. -/
def Careful (w : World) : Action → Prop
  | .fullSync connectionId changes => ∀ id e, w.service.events.get id = some e → e.connectionId = connectionId →
      (∀ f v, Latest (w.writes connectionId changes e f) v →
        ((((changesFor connectionId changes e).dropWhile (isDropped (pushed w.now connectionId e))).filterMap
          (·.value f)).getLast?).getD (e.value f) = v) ∧
      (TitleDiffers w connectionId changes e →
        ∃ c ∈ (changesFor connectionId changes e).head?, (detectConflict (pushed w.now connectionId e) c).isSome = true)
  | _ => True

section Runs

open CalendarSyncService

variable {w : World} {action : Action} {now : ℤ} {connectionId id : String} {changes : List RemoteChange}
  {e : CalendarEvent}

/-- What holds of the events at any time. An event that was edited is pending, and a synced one that is not deleted has not
been edited since. -/
structure Fine (w : World) : Prop where
  keyed : Keyed w.service.events
  recent : ∀ k e, w.service.events.get k = some e → e.localUpdatedAt ≤ w.now ∧ e.lastSyncedAt ≤ w.now
  live : ∀ k e, w.service.events.get k = some e → e.deleted = false → e.syncStatus ≠ .pending → e.localUpdatedAt ≤ e.lastSyncedAt
  edited : ∀ edit ∈ w.edits, ∀ e, w.service.events.get edit.eventId = some e → e.syncStatus = .pending

theorem fine_new (rateLimitPerMinute : ℕ) (now : ℤ) : Fine (.new rateLimitPerMinute now) where
  keyed := ⟨by simp [World.new], by simp [World.new]⟩
  recent := by simp [World.new]
  live := by simp [World.new]
  edited := by simp [World.new]

theorem Fine.set (edit : Edit) (fine : Fine w) (named : e.id = edit.eventId) (local_instant : e.localUpdatedAt ≤ w.now)
    (last : e.lastSyncedAt ≤ w.now) (pending : e.syncStatus = .pending)
    (alone : ∀ k e', w.service.events.get k = some e' → e'.providerEventId = e.providerEventId →
      e'.connectionId = e.connectionId → k = edit.eventId) :
    Fine { w with service := { w.service with events := w.service.events.set edit.eventId e }, edits := edit :: w.edits } := by
  refine ⟨⟨?_, ?_⟩, ?_, ?_, ?_⟩
  · intro k e' found
    rcases InsertionMap.get_set_eq_some.mp found with ⟨rfl, rfl⟩ | ⟨-, old⟩
    · exact named
    · exact fine.keyed.ids k e' old
  · intro k k' e₁ e₂ found found' provider connection
    rcases InsertionMap.get_set_eq_some.mp found with ⟨rfl, rfl⟩ | ⟨-, old⟩
    · rcases InsertionMap.get_set_eq_some.mp found' with ⟨rfl, rfl⟩ | ⟨-, old'⟩
      · rfl
      · exact (alone k' e₂ old' provider.symm connection.symm).symm
    · rcases InsertionMap.get_set_eq_some.mp found' with ⟨rfl, rfl⟩ | ⟨-, old'⟩
      · exact alone k e₁ old provider connection
      · exact fine.keyed.alone k k' e₁ e₂ old old' provider connection
  · intro k e' found
    rcases InsertionMap.get_set_eq_some.mp found with ⟨rfl, rfl⟩ | ⟨-, old⟩
    · exact ⟨local_instant, last⟩
    · exact fine.recent k e' old
  · intro k e' found alive unpending
    rcases InsertionMap.get_set_eq_some.mp found with ⟨rfl, rfl⟩ | ⟨-, old⟩
    · exact absurd pending unpending
    · exact fine.live k e' old alive unpending
  · intro edit' mem e' found
    rcases InsertionMap.get_set_eq_some.mp found with ⟨-, rfl⟩ | ⟨other, old⟩
    · exact pending
    · rcases mem_cons.mp mem with rfl | earlier
      · exact absurd rfl other
      · exact fine.edited edit' earlier e' old

theorem pushed_live (fine : Fine w) (found : w.service.events.get id = some e) (alive : e.deleted = false)
    (here : e.connectionId = conn) :
    (pushed w.now conn e).localUpdatedAt ≤ (pushed w.now conn e).lastSyncedAt := by
  by_cases pending : e.syncStatus = .pending
  · have taken : isPending conn e = true := by simp [isPending, here, pending]
    rw [pushed, if_pos taken, pushEvent, if_neg (by simp [alive])]
    exact (fine.recent id e found).1
  · have left : isPending conn e = false := by simp [isPending, pending]
    rw [pushed, left]
    exact fine.live id e found alive pending

theorem synced_of_other (other : e.connectionId ≠ conn) : (synced now conn changes e).1 = e := by
  have left : isPending conn e = false := by simp [isPending, other]
  have unconcerned : changesFor conn changes e = [] :=
    filter_eq_nil_iff.mpr fun c _ => by simp [concerns, other]
  rw [synced, unconcerned, pushed, left]
  rfl

theorem Fine.fullSync (fine : Fine w) (allowed : Allowed w.service w.now conn changes) :
    Fine (w.step (.fullSync conn changes)) := by
  obtain ⟨s', result, done, gets, -⟩ := fullSync_spec fine.keyed allowed
  have old : ∀ k e', s'.events.get k = some e' →
      ∃ e, w.service.events.get k = some e ∧ (synced w.now conn changes e).1 = e' := by
    intro k e' found
    rw [gets] at found
    exact Option.map_eq_some_iff.mp found
  have same : ∀ e, SameEvent w.now e (synced w.now conn changes e).1 :=
    fun e => (sameEvent_pushed w.now conn e).trans sameEvent_pullAll
  simp only [World.step, done]
  refine ⟨fine.keyed.of_same same gets, ?_, ?_, ?_⟩
  · intro k e' found
    obtain ⟨e, before, rfl⟩ := old k e' found
    have recent := fine.recent k e before
    have last := (same e).lastSyncedAt
    rw [(same e).localUpdatedAt]
    exact ⟨recent.1, last.elim (fun same => same.trans_le recent.2) fun fresh => fresh.le⟩
  · intro k e' found alive unpending
    obtain ⟨e, before, rfl⟩ := old k e' found
    by_cases here : e.connectionId = conn
    · have live := pushed_live fine before ((same e).deleted.symm.trans alive) here
      have start := (sameEvent_pushed w.now conn e).localUpdatedAt
      have onward := @sameEvent_pullAll w.now (pushed w.now conn e) (changesFor conn changes e)
      rcases onward.lastSyncedAt with kept | fresh
      · rw [synced, onward.localUpdatedAt, kept]
        exact live
      · rw [synced, onward.localUpdatedAt, fresh, start]
        exact (fine.recent k e before).1
    · rw [synced_of_other here] at alive unpending ⊢
      exact fine.live k e before alive unpending
  · intro edit listed e' found
    obtain ⟨e, before, rfl⟩ := old edit.eventId e' found
    obtain ⟨earlier, elsewhere⟩ := mem_filter.mp listed
    have other : e.connectionId ≠ conn := by simpa [before] using elsewhere
    rw [synced_of_other other]
    exact fine.edited edit earlier e before

theorem Fine.step (fine : Fine w) (given : Given w action) : Fine (w.step action) := by
  cases action with
  | tick ms =>
    refine ⟨fine.keyed, ?_, fine.live, fine.edited⟩
    intro k e found
    have recent := fine.recent k e found
    simp only [World.step]
    omega
  | createConnection id direction types =>
    simp only [World.step]
    split
    · exact ⟨fine.keyed, fine.recent, fine.live, fine.edited⟩
    · exact fine
  | createEvent id providerEventId conn subId eventType title description startTime endTime allDay =>
    simp only [World.step]
    split
    · rename_i fresh
      unfold World.isNew at fresh
      rw [Bool.and_eq_true, all_eq_true] at fresh
      cases made : w.service.createEvent w.now id providerEventId conn subId eventType title description startTime
          endTime allDay with
      | error e => exact fine
      | ok s =>
        unfold createEvent at made
        split at made
        · cases made
        · split at made
          · cases made
          · cases made
            refine fine.set ⟨id, w.now, _⟩ rfl le_rfl le_rfl rfl ?_
            intro k e' found provider _
            have different := fresh.2 e' (InsertionMap.mem_values.mpr ⟨k, found⟩)
            simp [provider] at different
    · exact fine
  | updateEventLocally eventId updates =>
    simp only [World.step, updateEventLocally]
    cases found : w.service.events.get eventId with
    | none => exact fine
    | some e =>
      exact fine.set ⟨eventId, w.now, updates⟩ (fine.keyed.ids eventId e found) le_rfl (fine.recent eventId e found).2 rfl
        fun k e' found' provider connection => fine.keyed.alone k eventId e' e found' found provider connection
  | deleteEvent eventId =>
    simp only [World.step, deleteEvent]
    cases found : w.service.events.get eventId with
    | none => exact fine
    | some e =>
      exact fine.set ⟨eventId, w.now, {}⟩ (fine.keyed.ids eventId e found) le_rfl (fine.recent eventId e found).2 rfl
        fun k e' found' provider connection => fine.keyed.alone k eventId e' e found' found provider connection
  | fullSync conn changes => exact fine.fullSync given

theorem Fine.keepsLatest_iff (fine : Fine w) (given : Given w action) : KeepsLatest w action ↔ Careful w action := by
  cases action with
  | fullSync conn changes =>
    obtain ⟨s', result, done, gets, conflicts⟩ := fullSync_spec fine.keyed given
    have values : ∀ id e f, w.service.events.get id = some e →
        (synced w.now conn changes e).1.value f =
          ((((changesFor conn changes e).dropWhile (isDropped (pushed w.now conn e))).filterMap
            (·.value f)).getLast?).getD (e.value f) := by
      intro id e f found
      have recent : (pushed w.now conn e).localUpdatedAt ≤ w.now :=
        (sameEvent_pushed w.now conn e).localUpdatedAt.trans_le (fine.recent id e found).1
      have kept : (pushed w.now conn e).value f = e.value f := by
        unfold pushed pushEvent
        split
        · split
          · cases f <;> rfl
          · cases f <;> rfl
        · rfl
      rw [synced, value_pullAll recent, kept]
    have reported : ∀ id e, w.service.events.get id = some e →
        ((∃ k ∈ result.conflicts, k.eventId = e.id ∧ k.field = "title") ↔
          ∃ c ∈ (changesFor conn changes e).head?, (detectConflict (pushed w.now conn e) c).isSome = true) := by
      intro id e found
      have recent : (pushed w.now conn e).localUpdatedAt ≤ w.now :=
        (sameEvent_pushed w.now conn e).localUpdatedAt.trans_le (fine.recent id e found).1
      have named : (pushed w.now conn e).id = e.id := (sameEvent_pushed w.now conn e).id
      rw [← reported_pullAll recent, named]
      have mine := conflicts id e found
      rw [← fine.keyed.ids id e found] at mine
      constructor
      · rintro ⟨k, mem, same, field⟩
        exact ⟨k, mine ▸ mem_filter.mpr ⟨mem, by simpa using same⟩, same, field⟩
      · rintro ⟨k, mem, same, field⟩
        have member : k ∈ result.conflicts.filter (·.eventId = e.id) := mine ▸ mem
        exact ⟨k, (mem_filter.mp member).1, same, field⟩
    constructor
    · intro kept id e found here
      obtain ⟨e', found', event⟩ := kept s' result done id e found here
      obtain rfl : (synced w.now conn changes e).1 = e' := by simpa [gets, found] using found'
      refine ⟨fun f v latest => ?_, fun differs => (reported id e found).mp (event.reported differs)⟩
      rw [← values id e f found]
      exact event.latest f v latest
    · intro careful s'' result' done' id e found here
      obtain ⟨rfl, rfl⟩ : s' = s'' ∧ result = result' := by simpa [done] using done'
      obtain ⟨latest, differs⟩ := careful id e found here
      refine ⟨_, by rw [gets, found]; rfl, ?_⟩
      refine ⟨?_, ?_, ?_, ?_, fun title => (reported id e found).mpr (differs title)⟩
      · intro f v written
        rw [values id e f found]
        exact latest f v written
      · intro f unwritten
        have silent : (((changesFor conn changes e).dropWhile
            (isDropped (pushed w.now conn e))).filterMap (·.value f)) = [] := by
          rw [filterMap_eq_nil_iff]
          intro c mem
          have member := (dropWhile_sublist _).subset mem
          have unwritten := (append_eq_nil_iff.mp unwritten).2
          rw [filterMap_eq_nil_iff] at unwritten
          have instant := given.instants c (mem_filter.mp member).1
          obtain ⟨t, dated⟩ := Option.isSome_iff_exists.mp instant
          have nothing := unwritten c member
          cases written : c.value f with
          | none => rfl
          | some v => simp [dated, written] at nothing
        rw [values id e f found, silent]
        rfl
      · intro deleted
        exact ((sameEvent_pushed w.now conn e).trans sameEvent_pullAll).deleted.trans deleted
      · rintro ⟨edit, mem, named⟩
        have pending := fine.edited edit mem e (by rw [named, fine.keyed.ids id e found, found])
        refine mem_filter.mpr ⟨InsertionMap.mem_values.mpr ⟨id, found⟩, ?_⟩
        simp [isPending, here, pending]
  | _ => exact Iff.rfl

def exampleActions : List Action :=
  [.createConnection "conn" .bidirectional [.renewal], .createEvent "event" "prov" "conn" "sub" .renewal "a" "" "1" "2" false,
    .fullSync "conn" [], .tick 10, .updateEventLocally "event" { title := some "b" }, .tick 10]

theorem given_exampleActions (change : RemoteChange) (kind : change.changeType ≠ .deleted) (dated : change.updatedAt.isSome = true) :
    Throughout World.step (.new 60 0) Given (exampleActions ++ [.fullSync "conn" [change]]) := by
  refine .cons trivial (.cons trivial (.cons ?_ (.cons trivial (.cons trivial (.cons trivial (.cons ?_ .nil))))))
  · exact ⟨⟨_, rfl, rfl⟩, rfl, rfl, by simp, by simp⟩
  · exact ⟨⟨_, rfl, rfl⟩, by decide +kernel, by decide +kernel, by simpa using kind, by simpa using dated⟩

end Runs

end SubTrackr.Calendar
