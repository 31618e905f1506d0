import SubTrackr.Types
import SubTrackr.Lib.UndoLog

namespace SubTrackr.Batch

open Lib Soroban

inductive BatchError where
  | alreadyInitialized | notInitialized | invalidBatch | alreadyExecuted | notFound | unauthorized
  deriving DecidableEq

abbrev Outcome (α : Type) := Except (Failure BatchError) α

inductive SubStatus where
  | active | paused | cancelled
  deriving DecidableEq

structure SubRecord where
  exists_ : Bool
  status : SubStatus
  charged : Int
  deriving DecidableEq

inductive OperationType where
  | create | charge | update | cancel | noop
  deriving DecidableEq

inductive CancelReason where
  | userRequested | paymentFailed | expired | custom
  deriving DecidableEq

structure BatchOperation where
  subscriptionIds : List Nat
  params : List Int
  cancelReasons : List CancelReason
  operationType : OperationType
  deriving DecidableEq

structure OperationResult where
  subscriptionId : Nat
  success : Bool
  code : Nat
  reason : Option String
  deriving DecidableEq

inductive BatchState where
  | pending | executing | completed | partiallyCompleted | failed | rolledBack
  deriving DecidableEq

structure BatchResult where
  batchId : Nat
  results : List OperationResult
  state : BatchState
  (totalOperations successfulOperations failedOperations skippedOperations : Nat)
  (atomic rolledBack : Bool)
  gasEstimate : Nat
  deriving DecidableEq

structure BatchStatus where
  batchId : Nat
  state : BatchState
  (total succeeded failed : Nat)

structure State where
  admin : Option Address
  nextBatchId : Option Nat
  batchHistory : Option (List Nat)
  batchOperation : Store Nat BatchOperation
  batchState : Store Nat BatchState
  batchResult : Store Nat BatchResult
  subscription : Store Nat SubRecord

def State.empty : State where
  admin := none
  nextBatchId := none
  batchHistory := none
  batchOperation := fun _ => none
  batchState := fun _ => none
  batchResult := fun _ => none
  subscription := fun _ => none

/-- The two functions of the module that the contract calls and that the source does not have. -/
structure Module where
  validateBatchOperation : BatchOperation → Bool
  estimateBatchGas : BatchOperation → Nat

def initializeBatch (s : State) (admin : Address) : Outcome State := do
  require (s.admin = none) (.error .alreadyInitialized)
  return { s with admin := some admin, nextBatchId := some 1, batchHistory := some [] }

def createBatchOperation (module : Module) (s : State) (operation : BatchOperation) (atomic : Bool) :
    Outcome (Nat × State) := do
  require (s.admin ≠ none) (.error .notInitialized)
  require (module.validateBatchOperation operation = true) (.error .invalidBatch)
  let batchId := s.nextBatchId.getD 1
  let next ← orPanic (u64 (batchId + 1))
  let result : BatchResult :=
    { batchId, results := [], state := .pending, totalOperations := operation.subscriptionIds.length
      successfulOperations := 0, failedOperations := 0, skippedOperations := 0, atomic, rolledBack := false
      gasEstimate := module.estimateBatchGas operation }
  return (batchId, { s with
    batchOperation := put s.batchOperation batchId operation
    batchState := put s.batchState batchId .pending
    batchHistory := some (s.batchHistory.getD [] ++ [batchId])
    nextBatchId := some next
    batchResult := put s.batchResult batchId result })

def succeeded (subscriptionId : Nat) : OperationResult where
  subscriptionId := subscriptionId
  success := true
  code := 0
  reason := none

def refusal (subscriptionId code : Nat) (reason : String) : OperationResult where
  subscriptionId := subscriptionId
  success := false
  code := code
  reason := some reason

def executeCreate (subs : Store Nat SubRecord) (subscriptionId : Nat) (prior : Option SubRecord) :
    OperationResult × Store Nat SubRecord :=
  match prior with
  | some _ => (refusal subscriptionId 1 "AlreadyExists", subs)
  | none => (succeeded subscriptionId, put subs subscriptionId { exists_ := true, status := .active, charged := 0 })

def executeCharge (subs : Store Nat SubRecord) (subscriptionId : Nat) (amount : Int) (prior : Option SubRecord) :
    Outcome (OperationResult × Store Nat SubRecord) :=
  match prior with
  | some record =>
    if record.exists_ = true ∧ record.status ≠ .cancelled then do
      let charged ← orPanic (i128 (record.charged + amount))
      return (succeeded subscriptionId, put subs subscriptionId { record with charged })
    else .ok (refusal subscriptionId 2 "InvalidSubscription", subs)
  | none => .ok (refusal subscriptionId 3 "SubscriptionMissing", subs)

def executeUpdate (subs : Store Nat SubRecord) (subscriptionId : Nat) (_param : Int) (prior : Option SubRecord) :
    OperationResult × Store Nat SubRecord :=
  match prior with
  | some _ => (succeeded subscriptionId, subs)
  | none => (refusal subscriptionId 4 "SubscriptionMissing", subs)

def executeCancel (subs : Store Nat SubRecord) (subscriptionId : Nat) (_reason : CancelReason)
    (prior : Option SubRecord) : OperationResult × Store Nat SubRecord :=
  match prior with
  | some record =>
    if record.exists_ = true then
      (succeeded subscriptionId, put subs subscriptionId { record with status := .cancelled })
    else (refusal subscriptionId 5 "SubscriptionMissing", subs)
  | none => (refusal subscriptionId 5 "SubscriptionMissing", subs)

def executeOperation (operation : BatchOperation) (subs : Store Nat SubRecord) (idx subscriptionId : Nat)
    (prior : Option SubRecord) : Outcome (OperationResult × Store Nat SubRecord) :=
  match operation.operationType with
  | .create => .ok (executeCreate subs subscriptionId prior)
  | .charge => executeCharge subs subscriptionId (operation.params[idx]?.getD 0) prior
  | .update => .ok (executeUpdate subs subscriptionId (operation.params[idx]?.getD 0) prior)
  | .cancel => .ok (executeCancel subs subscriptionId (operation.cancelReasons[idx]?.getD .custom) prior)
  | .noop => .ok (succeeded subscriptionId, subs)

structure Progress where
  subs : Store Nat SubRecord
  modified : List (Nat × Option SubRecord)
  results : List OperationResult
  (failed successful skipped : Nat)
  sawFailure : Bool

def Progress.start (subs : Store Nat SubRecord) (results : List OperationResult) : Progress where
  subs := subs
  modified := []
  results := results
  failed := 0
  successful := 0
  skipped := 0
  sawFailure := false

def Progress.note (p : Progress) (opResult : OperationResult) : Progress :=
  if opResult.success then { p with results := p.results ++ [opResult], successful := p.successful + 1 }
  else { p with results := p.results ++ [opResult], failed := p.failed + 1, sawFailure := true }

def executeLoop (operation : BatchOperation) (atomic : Bool) : List Nat → Nat → Progress → Outcome Progress
  | [], _, p => .ok p
  | subscriptionId :: rest, idx, p => do
    let prior := p.subs subscriptionId
    let (opResult, subs) ← executeOperation operation p.subs idx subscriptionId prior
    let p := { p with subs, modified := p.modified ++ [(subscriptionId, prior)] }.note opResult
    if p.sawFailure && atomic then return { p with skipped := p.skipped + rest.length }
    else executeLoop operation atomic rest (idx + 1) p

def executeBatch (s : State) (batchId : Nat) : Outcome (BatchResult × State) := do
  require (s.admin ≠ none) (.error .notInitialized)
  let state ← present (s.batchState batchId) (.error .notFound)
  require (state = .pending) (.error .alreadyExecuted)
  let operation ← present (s.batchOperation batchId) (.error .notFound)
  let result ← present (s.batchResult batchId) (.error .notFound)
  let p ← executeLoop operation result.atomic operation.subscriptionIds 0 (.start s.subscription result.results)
  let (result, subs) ← (if result.atomic && p.sawFailure then do
      require (p.failed ≤ result.totalOperations) (.panic .overflow)
      -- the snapshots are written back in the order in which they were taken
      return ({ result with
        successfulOperations := 0
        skippedOperations := result.totalOperations - p.failed
        rolledBack := true
        state := .failed }, restore p.modified p.subs)
    else return ({ result with
      successfulOperations := p.successful
      skippedOperations := p.skipped
      state := if p.failed = 0 then .completed else .partiallyCompleted }, p.subs))
  let result := { result with results := p.results, failedOperations := p.failed }
  return (result, { s with
    subscription := subs
    batchResult := put s.batchResult batchId result
    batchState := put s.batchState batchId result.state })

def getBatchStatus (s : State) (batchId : Nat) : Outcome BatchStatus := do
  let state ← present (s.batchState batchId) (.error .notFound)
  let result ← present (s.batchResult batchId) (.error .notFound)
  return { batchId, state, total := result.totalOperations, succeeded := result.successfulOperations
           failed := result.failedOperations }

def getSubscription (s : State) (subscriptionId : Nat) : Option SubRecord := s.subscription subscriptionId

def getBatchHistory (s : State) : List Nat := s.batchHistory.getD []

def seedSubscription (s : State) (subscriptionId : Nat) : State :=
  { s with subscription := put s.subscription subscriptionId { exists_ := true, status := .active, charged := 0 } }

end SubTrackr.Batch
