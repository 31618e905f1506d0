import SubTrackr.Lib.JsValue
import Mathlib.Data.String.Basic
import Mathlib.Algebra.Order.Ring.Int
import SubTrackr.Lib.HashChain

namespace SubTrackr.Audit

open List Lib

inductive AuditSeverity
  | low
  | medium
  | high
  | critical
  deriving DecidableEq

def AuditSeverity.name : AuditSeverity → String
  | .low => "low"
  | .medium => "medium"
  | .high => "high"
  | .critical => "critical"

theorem AuditSeverity.name_injective : Function.Injective AuditSeverity.name := by
  intro a b same
  cases a <;> cases b <;> first | rfl | exact absurd same (by decide)

structure AuditEvent where
  (id action actorId resourceId resourceType : String)
  metadata : List (String × JsValue)
  timestamp : ℤ
  severity : AuditSeverity
  context : JsValue
  (hash prevHash : String)

structure AuditArchiveEntry where
  archiveId : String
  originalCount : ℕ
  (periodStart periodEnd : Option ℤ)
  archivedAt : ℤ
  events : List AuditEvent

def GENESIS_HASH : String := String.ofList (List.replicate 64 '0')

/-- The regular expressions: whether a field holds personal data, and the text without such data. -/
structure Redaction where
  isPii : String → Bool
  stripPii : String → String

section Sanitize

variable (redaction : Redaction)

mutual

def sanitizeMetadata : List (String × JsValue) → List (String × JsValue)
  | [] => []
  | (key, value) :: rest =>
    (key, if redaction.isPii key then .string "[REDACTED]" else sanitizeValue value) :: sanitizeMetadata rest

def sanitizeValue : JsValue → JsValue
  | .string s => .string (redaction.stripPii s)
  | .array items => .object (sanitizeItems 0 items)
  | .object members => .object (sanitizeMetadata members)
  | .undefined => .undefined
  | .null => .null
  | .bool b => .bool b
  | .number n => .number n
  | .negativeZero => .negativeZero
  | .notFinite => .notFinite

def sanitizeItems (index : ℕ) : List JsValue → List (String × JsValue)
  | [] => []
  | item :: items =>
    (toString index, if redaction.isPii (toString index) then .string "[REDACTED]" else sanitizeValue item) ::
      sanitizeItems (index + 1) items

end

def sanitizeInput (input : String) : String :=
  String.ofList ((input.toList.map fun c => if c = '\r' ∨ c = '\n' then ' ' else c).filter fun c =>
    !(c = '"' ∨ c = '\x27' ∨ c = '\\' ∨ c = ';' : Bool))

end Sanitize

section Hash

def AuditEvent.data (e : AuditEvent) : List (String × JsValue) :=
  [("id", .string e.id), ("action", .string e.action), ("actorId", .string e.actorId),
    ("resourceId", .string e.resourceId), ("resourceType", .string e.resourceType), ("metadata", .object e.metadata),
    ("timestamp", .number (.ofInt e.timestamp)), ("severity", .string e.severity.name), ("context", e.context),
    ("prevHash", .string e.prevHash)]

def sortedKeys (data : List (String × JsValue)) : List String := (data.map Prod.fst).mergeSort fun a b => a ≤ b

def serialised (data : List (String × JsValue)) : Json :=
  .object (JsValue.pick (some (sortedKeys data)) (JsValue.membersToJson (some (sortedKeys data)) data))

def hashOf (hmac : String → String) (data : List (String × JsValue)) : String := hmac (serialised data).stringify

end Hash

structure AuditService where
  log : List AuditEvent
  archive : List AuditArchiveEntry
  maxAgeMs : ℤ
  archives : Bool
  maxLogSize : ℤ

structure Entry where
  (action actorId resourceId resourceType : String)
  metadata : List (String × JsValue)
  severity : AuditSeverity
  context : JsValue
  id : String
  timestamp : ℤ

namespace AuditService

section Capture

variable (redaction : Redaction) (hmac : String → String) (s : AuditService)

def lastHash : String := (s.log.getLast?.map (·.hash)).getD GENESIS_HASH

def draft (entry : Entry) : AuditEvent where
  id := entry.id
  action := entry.action
  actorId := sanitizeInput entry.actorId
  resourceId := sanitizeInput entry.resourceId
  resourceType := sanitizeInput entry.resourceType
  metadata := sanitizeMetadata redaction entry.metadata
  timestamp := entry.timestamp
  severity := entry.severity
  context := entry.context
  hash := ""
  prevHash := s.lastHash

def captured (entry : Entry) : AuditEvent :=
  { s.draft redaction entry with hash := hashOf hmac (s.draft redaction entry).data }

def capture (entry : Entry) : AuditEvent × AuditService :=
  let event := s.captured redaction hmac entry
  let log := s.log ++ [event]
  (event, { s with log := if s.maxLogSize < log.length then log.tail else log })

end Capture

def verifyFrom (hmac : String → String) (prev : String) (i : ℕ) : List AuditEvent → Option ℕ
  | [] => none
  | e :: rest =>
    if e.prevHash ≠ prev then some i
    else if hashOf hmac e.data ≠ e.hash then some i
    else verifyFrom hmac e.hash (i + 1) rest

def verify (hmac : String → String) (log : List AuditEvent) : Option ℕ := verifyFrom hmac GENESIS_HASH 0 log

section Retention

variable (s : AuditService) (now : ℤ) (archiveId : String)

def cutoff : ℤ := now - s.maxAgeMs

structure Pruned where
  (pruned archived : ℕ)

def applyRetention : Pruned × AuditService :=
  let toKeep := s.log.filter fun e => s.cutoff now < e.timestamp
  let toPrune := s.log.filter fun e => e.timestamp ≤ s.cutoff now
  if s.archives ∧ toPrune ≠ [] then
    (⟨s.log.length - toKeep.length, toPrune.length⟩,
      { s with
        log := toKeep
        archive := s.archive ++ [⟨archiveId, toPrune.length, (toPrune.map (·.timestamp)).min?,
          (toPrune.map (·.timestamp)).max?, now, toPrune⟩] })
  else (⟨s.log.length - toKeep.length, 0⟩, { s with log := toKeep })

end Retention

end AuditService

/-- What parsing the text of an event gives: texts and integers as they were, members that were undefined gone. -/
def AuditEvent.reread (e : AuditEvent) : AuditEvent :=
  { e with metadata := JsValue.rereadMembers e.metadata, context := e.context.reread }

def AuditArchiveEntry.reread (a : AuditArchiveEntry) : AuditArchiveEntry := { a with events := a.events.map (·.reread) }

structure Saved where
  log : List AuditEvent
  archive : List AuditArchiveEntry

def AuditService.save (s : AuditService) : Saved := ⟨s.log.map (·.reread), s.archive.map (·.reread)⟩

def AuditService.load (s : AuditService) : Option Saved → AuditService
  | none => s
  | some saved => { s with log := saved.log, archive := saved.archive }

inductive Action
  | capture (entry : Entry)
  | applyRetention (now : ℤ) (archiveId : String)
  | save
  | load

structure Session where
  service : AuditService
  stored : Option Saved

section Chain

variable (hmac : String → String)

def auditChain : HashChain AuditEvent String := ⟨(·.prevHash), (·.hash), fun e => hashOf hmac e.data⟩

variable {hmac} {prev : String} {log : List AuditEvent}

theorem verifyFrom_eq_none {i : ℕ} :
    AuditService.verifyFrom hmac prev i log = none ↔ (auditChain hmac).Linked prev log := by
  induction log generalizing prev i with
  | nil => exact iff_of_true rfl trivial
  | cons e rest ih =>
    unfold AuditService.verifyFrom
    rw [HashChain.Linked]
    split
    · rename_i other
      exact iff_of_false (Option.some_ne_none _) fun linked => other linked.1
    · rename_i same
      split
      · rename_i forged
        exact iff_of_false (Option.some_ne_none _) fun linked => forged linked.2.1
      · rename_i sealed
        rw [ih]
        exact ⟨fun linked => ⟨not_not.mp same, not_not.mp sealed, linked⟩, fun linked => linked.2.2⟩

theorem verify_eq_none :
    AuditService.verify hmac log = none ↔ (auditChain hmac).Linked GENESIS_HASH log := verifyFrom_eq_none

theorem reread_data (replacer : Option (List String)) (e : AuditEvent) :
    JsValue.membersToJson replacer e.reread.data = JsValue.membersToJson replacer e.data := by
  have context := e.context.toJson_reread replacer
  have metadata := JsValue.membersToJson_reread replacer e.metadata
  simp only [AuditEvent.data, AuditEvent.reread, JsValue.rereadMembers, JsValue.membersToJson, JsValue.toJson]
  rw [context, metadata]

theorem reread_serialised (e : AuditEvent) : serialised e.reread.data = serialised e.data := by
  have keys : sortedKeys e.reread.data = sortedKeys e.data := rfl
  unfold serialised
  rw [keys, reread_data]

theorem reread_linked : (auditChain hmac).Linked prev (log.map (·.reread)) ↔ (auditChain hmac).Linked prev log := by
  apply HashChain.linked_map
  · exact fun _ => rfl
  · exact fun _ => rfl
  · intro e
    change hmac (serialised e.reread.data).stringify = hmac (serialised e.data).stringify
    rw [reread_serialised]

end Chain

section Run

variable (redaction : Redaction) (hmac : String → String)

def Session.step (w : Session) : Action → Session
  | .capture entry => { w with service := (w.service.capture redaction hmac entry).2 }
  | .applyRetention now archiveId => { w with service := (w.service.applyRetention now archiveId).2 }
  | .save => { w with stored := some w.service.save }
  | .load => { w with service := w.service.load w.stored }

def Runs (allowed : AuditService → Action → Prop) : Session → Session → Prop :=
  Relation.ReflTransGen fun w w' => ∃ action, allowed w.service action ∧ w' = w.step redaction hmac action

def Session.new (maxAgeMs : ℤ) (archives : Bool) (maxLogSize : ℤ) : Session :=
  ⟨⟨[], [], maxAgeMs, archives, maxLogSize⟩, none⟩

/-- The action leaves no proper part of the log: a capture finds room, and retention keeps everything or nothing. -/
def KeepsWhole (s : AuditService) : Action → Prop
  | .capture _ => s.log = [] ∨ s.log.length < s.maxLogSize
  | .applyRetention now _ =>
    (∀ e ∈ s.log, s.cutoff now < e.timestamp) ∨ ∀ e ∈ s.log, e.timestamp ≤ s.cutoff now
  | _ => True

variable {redaction hmac} {s : AuditService}

theorem captured_linked (linked : (auditChain hmac).Linked GENESIS_HASH s.log) (entry : Entry) :
    (auditChain hmac).Linked GENESIS_HASH (s.log ++ [s.captured redaction hmac entry]) :=
  HashChain.linked_append.mpr ⟨linked, HashChain.linked_singleton.mpr ⟨rfl, rfl⟩⟩

theorem capture_linked (linked : (auditChain hmac).Linked GENESIS_HASH s.log) {entry : Entry}
    (room : KeepsWhole s (.capture entry)) :
    (auditChain hmac).Linked GENESIS_HASH (s.capture redaction hmac entry).2.log := by
  unfold AuditService.capture
  dsimp only
  split
  · rename_i full
    rcases room with empty | room
    · rw [empty]
      trivial
    · rw [length_append, length_singleton] at full
      omega
  · exact captured_linked linked entry

theorem applyRetention_log (s : AuditService) (now : ℤ) (archiveId : String) :
    (s.applyRetention now archiveId).2.log = s.log.filter fun e => s.cutoff now < e.timestamp := by
  unfold AuditService.applyRetention
  dsimp only
  split <;> rfl

theorem applyRetention_linked (linked : (auditChain hmac).Linked GENESIS_HASH s.log) {now : ℤ} {archiveId : String}
    (whole : KeepsWhole s (.applyRetention now archiveId)) :
    (auditChain hmac).Linked GENESIS_HASH (s.applyRetention now archiveId).2.log := by
  rw [applyRetention_log]
  rcases whole with kept | pruned
  · rw [filter_eq_self.mpr fun e mem => decide_eq_true (kept e mem)]
    exact linked
  · rw [filter_eq_nil_iff.mpr fun e mem => by simpa using pruned e mem]
    trivial

def Session.Sound (hmac : String → String) (w : Session) : Prop :=
  (auditChain hmac).Linked GENESIS_HASH w.service.log ∧
    ∀ saved ∈ w.stored, (auditChain hmac).Linked GENESIS_HASH saved.log

theorem step_sound {w : Session} (sound : w.Sound hmac) {action : Action} (whole : KeepsWhole w.service action) :
    (w.step redaction hmac action).Sound hmac := by
  cases action with
  | capture entry => exact ⟨capture_linked sound.1 whole, sound.2⟩
  | applyRetention now archiveId => exact ⟨applyRetention_linked sound.1 whole, sound.2⟩
  | save =>
    refine ⟨sound.1, fun saved same => ?_⟩
    cases same
    exact reread_linked.mpr sound.1
  | load =>
    refine ⟨?_, sound.2⟩
    change (auditChain hmac).Linked GENESIS_HASH (w.service.load w.stored).log
    cases held : w.stored with
    | none => exact sound.1
    | some saved => exact sound.2 saved held

theorem verify_cut {e : AuditEvent} {rest : List AuditEvent} (cut : e.prevHash ≠ GENESIS_HASH) :
    AuditService.verify hmac (e :: rest) = some 0 := by
  unfold AuditService.verify AuditService.verifyFrom
  rw [if_pos cut]

end Run

section Sample

def marked (text : String) : String := String.ofList ('#' :: text.toList)

theorem marked_fresh (text : String) : marked text ≠ GENESIS_HASH := by
  intro same
  have chars : (marked text).toList = GENESIS_HASH.toList := congrArg String.toList same
  unfold marked GENESIS_HASH at chars
  simp only [String.toList_ofList] at chars
  exact absurd (List.cons.inj chars).1 (by decide)

def noRedaction : Redaction := ⟨fun _ => false, fun text => text⟩

def login (id : String) (timestamp : ℤ) : Entry :=
  ⟨"auth.login", "alice", "s-1", "session", [], .low, .undefined, id, timestamp⟩

def act (w : Session) (action : Action) : Session := w.step noRedaction marked action

def loggedIn (maxLogSize : ℤ) : Session :=
  act (act (Session.new 10 false maxLogSize) (.capture (login "1" 0))) (.capture (login "2" 5))

end Sample

end SubTrackr.Audit
