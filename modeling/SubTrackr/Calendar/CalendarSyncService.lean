import SubTrackr.Lib.InsertionMap
import SubTrackr.Lib.Store

namespace SubTrackr.Calendar

open Lib

inductive CalendarEventType where
  | paymentDue | paymentReceived | trialEnding | renewal | contractEnd
  deriving DecidableEq

inductive SyncDirection where
  | toCalendar | fromCalendar | bidirectional
  deriving DecidableEq

inductive SyncStatus where
  | pending | synced | failed | conflict
  deriving DecidableEq

structure CalendarConnection where
  syncDirection : SyncDirection
  enabledEventTypes : List CalendarEventType
  lastSyncedAt : Option ℤ := none
  lastPollAt : Option ℤ := none
  updatedAt : ℤ

structure CalendarEvent where
  (id connectionId subscriptionId providerEventId : String)
  eventType : CalendarEventType
  (title description startTime endTime : String)
  allDay : Bool
  syncStatus : SyncStatus
  lastSyncedAt : ℤ
  providerUpdatedAt : Option ℤ := none
  localUpdatedAt : ℤ
  deleted : Bool

structure Updates where
  title : Option String := none
  description : Option String := none
  startTime : Option String := none
  endTime : Option String := none

inductive ChangeType where
  | created | updated | deleted
  deriving DecidableEq

structure RemoteChange where
  providerEventId : String
  changeType : ChangeType
  title : Option String := none
  startTime : Option String := none
  endTime : Option String := none
  updatedAt : Option ℤ := none

inductive Side where
  | localSide | remoteSide
  deriving DecidableEq

structure SyncConflict where
  (eventId field localValue remoteValue : String)
  resolvedWith : Side

structure SyncError where
  (eventId error : String)
  retryable : Bool

structure SyncResult where
  connectionId : String
  syncedAt : ℤ
  pushed : ℕ := 0
  pulled : ℕ := 0
  conflicts : List SyncConflict := []
  errors : List SyncError := []

structure RateLimitCounter where
  count : ℕ
  windowStart : ℤ

structure CalendarSyncService where
  connections : Store String CalendarConnection := fun _ => none
  events : InsertionMap String CalendarEvent := ∅
  rateLimitCounters : Store String RateLimitCounter := fun _ => none
  rateLimitPerMinute : ℕ := 60

section Events

variable (now : ℤ)

def CalendarEvent.update (e : CalendarEvent) (updates : Updates) : CalendarEvent :=
  { e with
    title := updates.title.getD e.title
    description := updates.description.getD e.description
    startTime := updates.startTime.getD e.startTime
    endTime := updates.endTime.getD e.endTime
    localUpdatedAt := now
    syncStatus := .pending }

def CalendarEvent.delete (e : CalendarEvent) : CalendarEvent :=
  { e with deleted := true, localUpdatedAt := now, syncStatus := .pending }

def pushEvent (e : CalendarEvent) : CalendarEvent :=
  if e.deleted then { e with syncStatus := .synced } else { e with syncStatus := .synced, lastSyncedAt := now }

def detectConflict (existing : CalendarEvent) (remote : RemoteChange) : Option SyncConflict :=
  match remote.updatedAt with
  | none => none
  | some remoteTime =>
    if existing.lastSyncedAt < remoteTime ∧ existing.lastSyncedAt < existing.localUpdatedAt then
      match remote.title with
      | none => none
      | some title =>
        if title ≠ "" ∧ title ≠ existing.title then
          some
            { eventId := existing.id
              field := "title"
              localValue := existing.title
              remoteValue := title
              resolvedWith := if existing.localUpdatedAt < remoteTime then .remoteSide else .localSide }
        else none
    else none

def applyRemoteChange (e : CalendarEvent) (change : RemoteChange) : CalendarEvent :=
  { e with
    title := change.title.getD e.title
    startTime := change.startTime.getD e.startTime
    endTime := change.endTime.getD e.endTime
    providerUpdatedAt := change.updatedAt
    lastSyncedAt := now
    syncStatus := .synced }

def resolveConflict (existing : CalendarEvent) (remote : RemoteChange) (conflict : SyncConflict) : CalendarEvent :=
  { (if conflict.resolvedWith = .remoteSide then applyRemoteChange now existing remote else existing) with syncStatus := .synced }

def pullChange (existing : CalendarEvent) (change : RemoteChange) : CalendarEvent × List SyncConflict :=
  match detectConflict existing change with
  | some conflict => (resolveConflict now existing change conflict, [conflict])
  | none => (applyRemoteChange now existing change, [])

end Events

namespace CalendarSyncService

variable (now : ℤ) (s : CalendarSyncService)

def checkRateLimit (connectionId : String) : Bool × CalendarSyncService :=
  match s.rateLimitCounters connectionId with
  | none => (true, { s with rateLimitCounters := put s.rateLimitCounters connectionId ⟨1, now⟩ })
  | some counter =>
    if 60000 < now - counter.windowStart then
      (true, { s with rateLimitCounters := put s.rateLimitCounters connectionId ⟨1, now⟩ })
    else if s.rateLimitPerMinute ≤ counter.count then (false, s)
    else (true, { s with rateLimitCounters := put s.rateLimitCounters connectionId { counter with count := counter.count + 1 } })

def rateLimited (connectionId : String) : SyncResult :=
  { connectionId := connectionId, syncedAt := now, errors := [⟨"", "Rate limit exceeded", true⟩] }

def isPending (connectionId : String) (e : CalendarEvent) : Bool := e.connectionId = connectionId ∧ e.syncStatus = .pending

def pendingEvents (connectionId : String) : List CalendarEvent := s.events.values.filter (isPending connectionId)

def touch (connectionId : String) (f : CalendarConnection → CalendarConnection) : CalendarSyncService :=
  { s with connections := (s.connections connectionId).elim s.connections fun conn => put s.connections connectionId (f conn) }

def pushToCalendar (connectionId : String) : Except String (CalendarSyncService × SyncResult) :=
  match s.connections connectionId with
  | none => .error s!"Calendar connection {connectionId} not found"
  | some conn =>
    if conn.syncDirection = .fromCalendar then .ok (s, { connectionId := connectionId, syncedAt := now })
    else
      match s.checkRateLimit now connectionId with
      | (false, s) => .ok (s, rateLimited now connectionId)
      | (true, s) =>
        let pushed := { s with events := s.events.mapValues fun e => if isPending connectionId e then pushEvent now e else e }
        .ok (pushed.touch connectionId fun conn => { conn with lastSyncedAt := some now, updatedAt := now },
          { connectionId := connectionId, syncedAt := now, pushed := (s.pendingEvents connectionId).length })

def concerns (connectionId : String) (change : RemoteChange) (e : CalendarEvent) : Bool :=
  e.providerEventId = change.providerEventId ∧ e.connectionId = connectionId

def pullOne (connectionId : String) (acc : InsertionMap String CalendarEvent × ℕ × List SyncConflict) (change : RemoteChange) :
    InsertionMap String CalendarEvent × ℕ × List SyncConflict :=
  match acc.1.values.find? (concerns connectionId change) with
  | none => acc
  | some existing =>
    if change.changeType = .deleted then
      (acc.1.set existing.id { existing with deleted := true, syncStatus := .synced, lastSyncedAt := now }, acc.2.1 + 1, acc.2.2)
    else
      let pulled := pullChange now existing change
      (acc.1.set existing.id pulled.1, acc.2.1 + 1, acc.2.2 ++ pulled.2)

def pullFromCalendar (connectionId : String) (remoteChanges : List RemoteChange) :
    Except String (CalendarSyncService × SyncResult) :=
  match s.connections connectionId with
  | none => .error s!"Calendar connection {connectionId} not found"
  | some conn =>
    if conn.syncDirection = .toCalendar then .ok (s, { connectionId := connectionId, syncedAt := now })
    else
      match s.checkRateLimit now connectionId with
      | (false, s) => .ok (s, rateLimited now connectionId)
      | (true, s) =>
        let (events, pulled, conflicts) := remoteChanges.foldl (pullOne now connectionId) (s.events, 0, [])
        .ok ({ s with events := events }.touch connectionId
            fun conn => { conn with lastSyncedAt := some now, lastPollAt := some now, updatedAt := now },
          { connectionId := connectionId, syncedAt := now, pulled := pulled, conflicts := conflicts })

def fullSync (connectionId : String) (remoteChanges : List RemoteChange) : Except String (CalendarSyncService × SyncResult) := do
  let (s, pushResult) ← s.pushToCalendar now connectionId
  let (s, pullResult) ← s.pullFromCalendar now connectionId remoteChanges
  .ok (s,
    { connectionId := connectionId
      syncedAt := now
      pushed := pushResult.pushed
      pulled := pullResult.pulled
      conflicts := pushResult.conflicts ++ pullResult.conflicts
      errors := pushResult.errors ++ pullResult.errors })

def createConnection (id : String) (syncDirection : SyncDirection) (enabledEventTypes : List CalendarEventType) :
    CalendarSyncService :=
  { s with
    connections := put s.connections id
      { syncDirection := syncDirection, enabledEventTypes := enabledEventTypes, updatedAt := now } }

def createEvent (id providerEventId connectionId subscriptionId : String) (eventType : CalendarEventType)
    (title description startTime endTime : String) (allDay : Bool) : Except String CalendarSyncService :=
  match s.connections connectionId with
  | none => .error s!"Calendar connection {connectionId} not found"
  | some conn =>
    if eventType ∉ conn.enabledEventTypes then .error "Event type is not enabled for this connection"
    else
      .ok { s with
        events := s.events.set id
          { id := id, connectionId := connectionId, subscriptionId := subscriptionId, providerEventId := providerEventId
            eventType := eventType, title := title, description := description, startTime := startTime, endTime := endTime
            allDay := allDay, syncStatus := .pending, lastSyncedAt := now, localUpdatedAt := now, deleted := false } }

def updateEventLocally (eventId : String) (updates : Updates) : Except String CalendarSyncService :=
  match s.events.get eventId with
  | none => .error s!"Calendar event {eventId} not found"
  | some event => .ok { s with events := s.events.set eventId (event.update now updates) }

def deleteEvent (eventId : String) : Except String CalendarSyncService :=
  match s.events.get eventId with
  | none => .error s!"Calendar event {eventId} not found"
  | some event => .ok { s with events := s.events.set eventId (event.delete now) }

end CalendarSyncService

end SubTrackr.Calendar
