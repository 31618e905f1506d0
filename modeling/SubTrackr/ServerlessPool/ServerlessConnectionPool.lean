import Mathlib.Data.List.Basic
import Mathlib.Data.Int.Notation

namespace SubTrackr.ServerlessPool

abbrev Client := ℕ × ℕ

structure CheckoutRecord where
  client : Client
  checkedOutAt : ℤ
  origin : String
  forceClosed : Bool := false

inductive Stage where
  | plain | beginning | body | committing | rollingBack
  deriving DecidableEq

inductive Phase where
  | credential
  | creating
  | poolReady (pool : ℕ)
  | connecting (pool : ℕ)
  | running (record : ℕ) (stage : Stage)
  | ended

structure Call where
  origin : String
  transaction : Bool
  phase : Phase

inductive Event where
  | begin | statement | commit | rollback | ended
  deriving DecidableEq

structure Entry where
  client : Client
  call : ℕ
  event : Event

structure World where
  leakDetectionThresholdMs : ℤ := 30000
  pool : Option ℕ := none
  records : List CheckoutRecord := []
  checkouts : List ℕ := []
  leakedTotal : ℕ := 0
  created : ℕ := 0
  busy : List Client := []
  calls : List Call := []
  now : ℤ := 0
  released : List ℕ := []
  log : List Entry := []

namespace World

variable (w : World)

def phaseOf (i : ℕ) : Option Phase := (w.calls[i]?).map Call.phase

def setPhase (i : ℕ) (phase : Phase) : World := { w with calls := w.calls.modify i fun call => { call with phase := phase } }

def release (r : ℕ) (record : CheckoutRecord) : World :=
  { w with busy := w.busy.filter (· ≠ record.client), released := r :: w.released }

def sweepOne (w : World) (r : ℕ) : World :=
  match w.records[r]? with
  | none => w
  | some record =>
    if w.leakDetectionThresholdMs < w.now - record.checkedOutAt ∧ record.forceClosed = false then
      { w.release r record with
        records := w.records.modify r fun record => { record with forceClosed := true }
        checkouts := w.checkouts.filter (· ≠ r)
        leakedTotal := w.leakedTotal + 1 }
    else w

def sweepLeaks : World := w.checkouts.foldl sweepOne w

def emit (i : ℕ) (client : Client) (event : Event) : World := { w with log := ⟨client, i, event⟩ :: w.log }

def start (transaction : Bool) (origin : String) : World :=
  let call : Call := ⟨origin, transaction, w.pool.elim .credential .poolReady⟩
  { w with calls := w.calls ++ [call] }

def createPool (i : ℕ) : World := { w with pool := some w.created, created := w.created + 1 }.setPhase i (.poolReady w.created)

def handOut (origin : String) (client : Client) : World :=
  let record : CheckoutRecord := { client := client, checkedOutAt := w.now, origin := origin }
  { w with
    records := w.records ++ [record]
    checkouts := w.checkouts ++ [w.records.length]
    busy := client :: w.busy }

def checkOut (i : ℕ) (call : Call) (client : Client) : World :=
  let w' := w.handOut call.origin client
  if call.transaction then (w'.setPhase i (.running w.records.length .beginning)).emit i client .begin
  else w'.setPhase i (.running w.records.length .plain)

def finish (i r : ℕ) (record : CheckoutRecord) : World :=
  let w := if record.forceClosed then w else { w with checkouts := w.checkouts.filter (· ≠ r) }.release r record
  (w.setPhase i .ended).emit i record.client .ended

def running (i : ℕ) (f : ℕ → CheckoutRecord → Stage → World) : World :=
  match w.phaseOf i with
  | some (.running r stage) => (w.records[r]?).elim w fun record => f r record stage
  | _ => w

end World

inductive Action where
  | tick (ms : ℕ)
  | start (transaction : Bool) (origin : String)
  | credentialResolved (i : ℕ) (ok : Bool)
  | poolCreated (i : ℕ) (ok : Bool)
  | goOn (i : ℕ)
  | connected (i n : ℕ)
  | connectFailed (i : ℕ)
  | statement (i : ℕ)
  | settled (i : ℕ) (ok : Bool)
  | answered (i : ℕ) (ok : Bool)
  | sweep

namespace World

/-- A client is handed out only while it is idle. -/
def step (w : World) : Action → World
  | .tick ms => { w with now := w.now + ms }
  | .start transaction origin => w.start transaction origin
  | .credentialResolved i ok =>
    match w.phaseOf i with
    | some .credential => w.setPhase i (if ok then .creating else .ended)
    | _ => w
  | .poolCreated i ok =>
    match w.phaseOf i with
    | some .creating => if ok then w.createPool i else w.setPhase i .ended
    | _ => w
  | .goOn i =>
    match w.phaseOf i with
    | some (.poolReady pool) => w.setPhase i (.connecting pool)
    | _ => w
  | .connected i n =>
    match w.calls[i]? with
    | some ⟨origin, transaction, .connecting pool⟩ =>
      if (pool, n) ∈ w.busy then w else w.checkOut i ⟨origin, transaction, .connecting pool⟩ (pool, n)
    | _ => w
  | .connectFailed i =>
    match w.phaseOf i with
    | some (.connecting _) => w.setPhase i .ended
    | _ => w
  | .statement i => w.running i fun _ record stage =>
    match stage with
    | .plain | .body => w.emit i record.client .statement
    | _ => w
  | .settled i ok => w.running i fun r record stage =>
    match stage with
    | .plain => w.finish i r record
    | .body =>
      if ok then (w.setPhase i (.running r .committing)).emit i record.client .commit
      else (w.setPhase i (.running r .rollingBack)).emit i record.client .rollback
    | _ => w
  | .answered i ok => w.running i fun r record stage =>
    match stage with
    | .beginning => if ok then w.setPhase i (.running r .body) else w.finish i r record
    | .committing =>
      if ok then w.finish i r record else (w.setPhase i (.running r .rollingBack)).emit i record.client .rollback
    | .rollingBack => w.finish i r record
    | _ => w
  | .sweep => w.sweepLeaks

end World

end SubTrackr.ServerlessPool
