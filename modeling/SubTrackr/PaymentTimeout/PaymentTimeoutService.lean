import Mathlib.Algebra.Order.Ring.Rat
import SubTrackr.Lib.InsertionMap
import SubTrackr.Lib.Store

namespace SubTrackr.PaymentTimeout

open Lib

structure ChainTimeoutConfig where
  timeoutSecs : ℚ := 300
  gasBumpBps : ℤ := 1500
  maxRecoveryAttempts : ℕ := 5
  reorgSafetyLedgers : ℕ := 2

def defaultChainConfigs : Store ℕ ChainTimeoutConfig
  | 1 => some {}
  | 2 => some { timeoutSecs := 120, gasBumpBps := 1000, maxRecoveryAttempts := 3, reorgSafetyLedgers := 1 }
  | _ => none

def getChainConfig (configs : Store ℕ ChainTimeoutConfig) (chainId : ℕ) : ChainTimeoutConfig := (configs chainId).getD {}

inductive TimeoutStatus where
  | pending | timedOut | recovering | resolved | abandoned
  deriving DecidableEq

structure PaymentTimeoutRecord where
  (id chargeId subscriptionId : String)
  chainId : ℕ
  status : TimeoutStatus
  submittedAt : ℤ
  timedOutAt : Option ℤ := none
  lastRecoveryAt : Option ℤ := none
  recoveryAttempts : ℕ
  lastGasPrice : ℤ
  txHash : Option String
  note : String
  (createdAt updatedAt : ℤ)
  deriving DecidableEq

namespace PaymentTimeoutRecord

def isStuck (r : PaymentTimeoutRecord) : Bool := r.status = .timedOut ∨ r.status = .recovering

def hasTxHash (r : PaymentTimeoutRecord) : Bool := r.txHash.any (· ≠ "")

end PaymentTimeoutRecord

structure Issue where
  record : ℕ
  (bumpBps previous newGasPrice : ℤ)

structure RecoveryResult where
  record : ℕ
  newGasPrice : ℤ
  attemptNumber : ℕ

/-- The records, which are numbered in the order of their making, the maps that lead to them, and what came of them. -/
structure Books where
  objects : List PaymentTimeoutRecord := []
  records : InsertionMap String ℕ := ∅
  byCharge : Store String String := fun _ => none
  issued : List Issue := []
  returned : List RecoveryResult := []

namespace Books

variable (configs : Store ℕ ChainTimeoutConfig) (b : Books)

def registerPending (now : ℤ) (id chargeId subscriptionId : String) (chainId : ℕ) (initialGasPrice : ℤ) (txHash : Option String) :
    Books :=
  { b with
    objects := b.objects ++ [
      { id := id, chargeId := chargeId, subscriptionId := subscriptionId, chainId := chainId, status := .pending
        submittedAt := now, recoveryAttempts := 0, lastGasPrice := initialGasPrice, txHash := txHash, note := "submitted"
        createdAt := now, updatedAt := now }]
    records := b.records.set id b.objects.length
    byCharge := put b.byCharge chargeId id }

def update (o : ℕ) (f : PaymentTimeoutRecord → PaymentTimeoutRecord) : Books :=
  { b with
    objects := b.objects.modify o f
    records := (b.objects[o]?).elim b.records fun r => b.records.set r.id o }

def timeOut (o : ℕ) (now : ℤ) : Books :=
  b.update o fun r => { r with status := .timedOut, timedOutAt := some now, note := "timeout_detected", updatedAt := now }

def resolveRecord (o : ℕ) (note : String) (now : ℤ) : Books :=
  b.update o fun r => { r with status := .resolved, note := note, updatedAt := now }

def abandon (o : ℕ) (now : ℤ) : Books :=
  b.update o fun r => { r with status := .abandoned, note := "max_recovery_attempts_exhausted", updatedAt := now }

def defer (o : ℕ) (now : ℤ) : Books :=
  b.update o fun r => { r with note := "reorg_detected_recovery_deferred", updatedAt := now }

def reprice (o : ℕ) (price : ℤ) : Books := b.update o fun r => { r with lastGasPrice := price, status := .timedOut }

def bumped (bumpBps price : ℤ) : ℤ := (price * (10000 + bumpBps)).tdiv 10000

def recover (o : ℕ) (r : PaymentTimeoutRecord) (now : ℤ) : Books :=
  let bump := (getChainConfig configs r.chainId).gasBumpBps
  { b.update o fun r =>
      { r with
        recoveryAttempts := r.recoveryAttempts + 1
        lastRecoveryAt := some now
        lastGasPrice := bumped bump r.lastGasPrice
        status := .recovering
        note := "recovery_attempt_" ++ toString (r.recoveryAttempts + 1)
        updatedAt := now } with
    issued := ⟨o, bump, r.lastGasPrice, bumped bump r.lastGasPrice⟩ :: b.issued }

def ofCharge (chargeId : String) : Option (ℕ × PaymentTimeoutRecord) := do
  let id ← b.byCharge chargeId
  let o ← b.records.get id
  let r ← b.objects[o]?
  some (o, r)

def nextFrom (k : ℕ) (p : PaymentTimeoutRecord → Bool) : Option (ℕ × ℕ) :=
  ((b.records.values.zipIdx.drop k).find? fun e => (b.objects[e.1]?).any p).map fun e => (e.2, e.1)

end Books

/-- Who waits for a recovery: its caller, or the loop over all records, at a position and with the results so far. -/
inductive Caller where
  | direct
  | auto (k : ℕ) (results : List RecoveryResult)

inductive Phase where
  | scanStatus (started : ℤ) (k o : ℕ) (found : List ℕ)
  | scanAlert (started : ℤ) (k : ℕ) (found : List ℕ)
  | reorg (caller : Caller) (o : ℕ)
  | alert (caller : Caller) (recovery : Option (ℕ × ℤ))
  | auto (k : ℕ) (results : List RecoveryResult)
  | scanned (found : List ℕ)
  | autoRecovered (results : List RecoveryResult)
  | attempted (result : Option RecoveryResult)
  | threw (message : String)

inductive TxStatus where
  | confirmed | pending | dropped
  deriving DecidableEq

structure World where
  books : Books := {}
  calls : List Phase := []
  now : ℤ

section Service

variable (configs : Store ℕ ChainTimeoutConfig) (chainProvider : Bool)

/-- The synchronous part of `attemptRecovery`, with what it waits for, if it has not returned null. -/
def attemptRecovery (b : Books) (now : ℤ) (caller : Caller) (chargeId : String) : Books × Option Phase :=
  match b.ofCharge chargeId with
  | none => (b, none)
  | some (o, r) =>
    if !r.isStuck then (b, none)
    else if (getChainConfig configs r.chainId).maxRecoveryAttempts ≤ r.recoveryAttempts then (b.abandon o now, some (.alert caller none))
    else if chainProvider && r.hasTxHash then (b, some (.reorg caller o))
    else (b.recover configs o r now,
      some (.alert caller (some (o, Books.bumped (getChainConfig configs r.chainId).gasBumpBps r.lastGasPrice))))

def Caller.received (result : Option RecoveryResult) : Caller → Phase
  | .direct => .attempted result
  | .auto k results => .auto k (results ++ result.toList)

def reorgChecked (b : Books) (now : ℤ) (caller : Caller) (o : ℕ) (hasReorg : Bool) : Books × Phase :=
  match b.objects[o]? with
  | none => (b, caller.received none)
  | some r =>
    if hasReorg then (b.defer o now, .alert caller none)
    else (b.recover configs o r now,
      .alert caller (some (o, Books.bumped (getChainConfig configs r.chainId).gasBumpBps r.lastGasPrice)))

def recovered (b : Books) (caller : Caller) (recovery : Option (ℕ × ℤ)) : Books × Phase :=
  match recovery with
  | none => (b, caller.received none)
  | some (o, newGasPrice) =>
    let result : RecoveryResult := ⟨o, newGasPrice, (b.objects[o]?).elim 0 (·.recoveryAttempts)⟩
    ({ b with returned := result :: b.returned }, caller.received (some result))

def isDue (started : ℤ) (r : PaymentTimeoutRecord) : Bool :=
  r.status = .pending ∧ ¬ ((started - r.submittedAt : ℤ) : ℚ) / 1000 < (getChainConfig configs r.chainId).timeoutSecs

def scan (b : Books) (started : ℤ) (k : ℕ) (found : List ℕ) : Books × Phase :=
  match b.nextFrom k (isDue configs started) with
  | none => (b, .scanned found)
  | some (k, o) =>
    if chainProvider && (b.objects[o]?).any (·.hasTxHash) then (b, .scanStatus started k o found)
    else (b.timeOut o started, .scanAlert started (k + 1) (found ++ [o]))

def statusChecked (b : Books) (now started : ℤ) (k o : ℕ) (found : List ℕ) (chainStatus : Option TxStatus) : Books × Phase :=
  if chainStatus = some .confirmed then
    scan configs chainProvider (b.resolveRecord o "confirmed on-chain during scan" now) started (k + 1) found
  else (b.timeOut o started, .scanAlert started (k + 1) (found ++ [o]))

/-- The loop of `autoRecoverAll` from a position on: the charge that it recovers next, and who waits for it. -/
def nextStuck (b : Books) (k : ℕ) (results : List RecoveryResult) : Option (Caller × String) := do
  let (k, o) ← b.nextFrom k PaymentTimeoutRecord.isStuck
  let r ← b.objects[o]?
  some (.auto (k + 1) results, r.chargeId)

def autoRecover (b : Books) (now : ℤ) (k : ℕ) (results : List RecoveryResult) : Books × Phase :=
  match nextStuck b k results with
  | none => (b, .autoRecovered results)
  | some (caller, chargeId) =>
    let (b, phase) := attemptRecovery configs chainProvider b now caller chargeId
    (b, phase.getD (caller.received none))

def effectiveGasPrice (r : PaymentTimeoutRecord) (requestedGasPrice : ℤ) : ℤ :=
  let minBumped := r.lastGasPrice + (r.lastGasPrice * (getChainConfig configs r.chainId).gasBumpBps).tdiv 10000
  if minBumped < requestedGasPrice then requestedGasPrice else minBumped

def manualRetry (b : Books) (now : ℤ) (chargeId : String) (requestedGasPrice : ℤ) : Books × Phase :=
  match b.byCharge chargeId with
  | none => (b, .threw "Charge not found")
  | some _ =>
    match b.ofCharge chargeId with
    | none => (b, .threw "Timeout record not found")
    | some (o, r) =>
      if r.status = .resolved ∨ r.status = .abandoned then (b, .threw "Transaction is not in a recoverable state")
      else
        let (b, phase) := attemptRecovery configs chainProvider (b.reprice o (effectiveGasPrice configs r requestedGasPrice)) now
          .direct chargeId
        (b, phase.getD (.attempted none))

def markResolved (b : Books) (now : ℤ) (chargeId note : String) : Books :=
  match b.ofCharge chargeId with
  | none => b
  | some (o, _) => b.resolveRecord o note now

end Service

inductive Action where
  | tick (ms : ℕ)
  | registerPending (id chargeId subscriptionId : String) (chainId : ℕ) (initialGasPrice : ℤ) (txHash : Option String)
  | detectTimeouts
  | autoRecoverAll
  | attemptRecovery (chargeId : String)
  | manualRetry (chargeId : String) (requestedGasPrice : ℤ)
  | markResolved (chargeId note : String)
  | txStatus (i : ℕ) (chainStatus : Option TxStatus)
  | detectReorg (i : ℕ) (hasReorg : Bool)
  | alerted (i : ℕ) (delivered : Bool)
  | resume (i : ℕ)

namespace World

def begin (w : World) (result : Books × Phase) : World := { w with books := result.1, calls := w.calls ++ [result.2] }

def goOn (w : World) (i : ℕ) (result : Books × Phase) : World := { w with books := result.1, calls := w.calls.set i result.2 }

variable (configs : Store ℕ ChainTimeoutConfig) (chainProvider : Bool)

/-- A failed query of the chain counts as no status and as no reorganisation; a failed alert makes the call throw. -/
def step (w : World) : Action → World
  | .tick ms => { w with now := w.now + ms }
  | .registerPending id chargeId subscriptionId chainId initialGasPrice txHash =>
    { w with books := w.books.registerPending w.now id chargeId subscriptionId chainId initialGasPrice txHash }
  | .detectTimeouts => w.begin (scan configs chainProvider w.books w.now 0 [])
  | .autoRecoverAll => w.begin (autoRecover configs chainProvider w.books w.now 0 [])
  | .attemptRecovery chargeId =>
    let (b, phase) := attemptRecovery configs chainProvider w.books w.now .direct chargeId
    w.begin (b, phase.getD (.attempted none))
  | .manualRetry chargeId requestedGasPrice =>
    w.begin (manualRetry configs chainProvider w.books w.now chargeId requestedGasPrice)
  | .markResolved chargeId note => { w with books := markResolved w.books w.now chargeId note }
  | .txStatus i chainStatus =>
    match w.calls[i]? with
    | some (.scanStatus started k o found) =>
      w.goOn i (statusChecked configs chainProvider w.books w.now started k o found chainStatus)
    | _ => w
  | .detectReorg i hasReorg =>
    match w.calls[i]? with
    | some (.reorg caller o) => w.goOn i (reorgChecked configs w.books w.now caller o hasReorg)
    | _ => w
  | .alerted i delivered =>
    match w.calls[i]? with
    | some (.scanAlert started k found) =>
      w.goOn i (if delivered then scan configs chainProvider w.books started k found else (w.books, .threw "alert"))
    | some (.alert caller recovery) =>
      w.goOn i (if delivered then recovered w.books caller recovery else (w.books, .threw "alert"))
    | _ => w
  | .resume i =>
    match w.calls[i]? with
    | some (.auto k results) => w.goOn i (autoRecover configs chainProvider w.books w.now k results)
    | _ => w

end World

end SubTrackr.PaymentTimeout
