import SubTrackr.Lib.Radix
import SubTrackr.Lib.Compensation
import Mathlib.Data.Rat.Floor

namespace SubTrackr.BatchTransactions

open Lib

def MAX_CHUNK_SIZE : ℚ := 200

inductive BatchOperationType where
  | create | update | charge | cancel
  deriving DecidableEq

def BatchOperationType.text : BatchOperationType → String
  | .create => "create"
  | .update => "update"
  | .charge => "charge"
  | .cancel => "cancel"

/-- `partially` stands for `partial`. -/
inductive BatchState where
  | pending | processing | completed | partially | failed | rolled_back
  deriving DecidableEq

inductive PerItemStatus where
  | pending | processing | success | failed | skipped
  deriving DecidableEq

inductive CancelReasonKind where
  | too_expensive | no_longer_needed | found_alternative | poor_service | other
  deriving DecidableEq

structure CancelReason where
  subscriptionId : String
  reason : CancelReasonKind
  notes : Option String

structure UpdateFilter where
  planChange : Option Bool
  (minPrice maxPrice : Option ℚ)
  categories : Option (List String)
  billingCycle : Option String
  isActive : Option Bool

structure PerItemResult where
  index : ℚ
  subscriptionId : String
  subscriptionName : Option String
  status : PerItemStatus
  error : Option String
  errorCode : Option ℚ
  cancelReason : Option CancelReason
  retryCount : ℕ
  completedAt : Option ℤ
  message : Option String
  durationMs : Option ℤ

structure BatchExecutionResult where
  batchId : String
  operationType : BatchOperationType
  state : BatchState
  totalItems : ℕ
  (successfulItems failedItems skippedItems : ℤ)
  results : List PerItemResult
  (atomic rolledBack : Bool)
  gasEstimate : ℕ
  startedAt : ℤ
  (completedAt durationMs : Option ℤ)
  cancelReasons : Option (List CancelReason)
  filter : Option UpdateFilter
  rejectionReason : Option String

structure BatchRollbackResult where
  batchId : String
  operationType : BatchOperationType
  (attempted reverted failed : ℕ)
  items : List PerItemResult
  completedAt : ℤ

structure BatchOperationConfig where
  maxItems : ℤ
  chunkSize : ℚ
  (atomicDefault allowRollback : Bool)
  maxRetries : ℤ
  idempotent : Bool

structure BatchConfigPatch where
  maxItems : Option ℤ := none
  chunkSize : Option ℚ := none
  atomicDefault : Option Bool := none
  allowRollback : Option Bool := none
  maxRetries : Option ℤ := none
  idempotent : Option Bool := none

def DEFAULT_BATCH_CONFIGS : BatchOperationType → BatchOperationConfig
  | .create => ⟨100, 50, false, true, 3, false⟩
  | .update => ⟨100, 50, false, true, 3, true⟩
  | .charge => ⟨50, 25, true, true, 2, true⟩
  | .cancel => ⟨50, 25, false, false, 1, true⟩

structure Settings where
  chunkSizeOverride : Option ℚ := none
  configOverrides : BatchOperationType → BatchConfigPatch := fun _ => {}
  maxRetriesOverride : Option ℤ := none

def clampChunkSize (size : ℚ) : ℚ := min MAX_CHUNK_SIZE (max 1 size)

def Settings.getOperationConfig (settings : Settings) (operationType : BatchOperationType) : BatchOperationConfig :=
  let defaults := DEFAULT_BATCH_CONFIGS operationType
  let patch := settings.configOverrides operationType
  { maxItems := patch.maxItems.getD defaults.maxItems
    chunkSize := clampChunkSize (settings.chunkSizeOverride.getD (patch.chunkSize.getD defaults.chunkSize))
    atomicDefault := patch.atomicDefault.getD defaults.atomicDefault
    allowRollback := patch.allowRollback.getD defaults.allowRollback
    maxRetries := patch.maxRetries.getD defaults.maxRetries
    idempotent := patch.idempotent.getD defaults.idempotent }

def Settings.maxRetries (settings : Settings) (operationType : BatchOperationType) : ℤ :=
  settings.maxRetriesOverride.getD (settings.getOperationConfig operationType).maxRetries

def validateBatchSizeFor (operationType : BatchOperationType) (count : ℕ) (config : BatchOperationConfig) : Option String :=
  if count ≤ 0 then some "A batch must contain at least one item."
  else if (count : ℤ) > config.maxItems then
    some s!"A {operationType.text} batch is limited to {config.maxItems} items (got {count})."
  else none

structure BatchItemPlan where
  subscriptionId : String
  subscriptionName : Option String := none
  cancelReason : Option CancelReason := none
  successMessage : Option String := none

structure RunOptions where
  atomic : Option Bool := none
  filter : Option UpdateFilter := none
  cancelReasons : Option (List CancelReason) := none

/-- What applying, retrying or reverting an item comes to. Only applying gives an id or an error code. -/
structure ApplyResult where
  success : Bool
  id : Option String := none
  error : Option String := none
  errorCode : Option ℚ := none

/-- A call of a function of the caller: what it resolves to or the text that it throws, and when it begins and ends. -/
structure Reply where
  outcome : Except String ApplyResult
  (began ended : ℤ)

def Reply.result (reply : Reply) : ApplyResult :=
  match reply.outcome with
  | .ok result => result
  | .error message => { success := false, error := some message }

def orElse (text : Option String) (fallback : String) : String :=
  match text with
  | none => fallback
  | some text => if text = "" then fallback else text

def idempotencyKey (operationType : BatchOperationType) (subscriptionId : String) : String :=
  operationType.text ++ ":" ++ subscriptionId

def getGasEstimate (itemCount : ℕ) : ℕ := 50000 + itemCount * 100000

def generateBatchId (now : ℤ) (random : String) : String :=
  "batch_" ++ String.ofList (Base36.digits now.toNat) ++ "_" ++ random

section Run

structure Batch where
  config : BatchOperationConfig
  operationType : BatchOperationType
  atomic : Bool
  apply : ℚ → BatchItemPlan → Reply

/-- What the loops of `run` change. The effects are those of the function of the caller, under the key of the subscription
    that it is called for. -/
structure Progress where
  appliedItems : Finset String
  results : List PerItemResult
  (successfulItems failedItems skippedItems : ℤ)
  aborted : Bool
  effects : List (Effect String)

variable (x : Batch)

def skip (p : Progress) (index : ℚ) (plan : BatchItemPlan) (message : String) : Progress :=
  let item : PerItemResult :=
    { index := index
      subscriptionId := plan.subscriptionId
      subscriptionName := plan.subscriptionName
      status := .skipped
      error := none
      errorCode := none
      cancelReason := plan.cancelReason
      retryCount := 0
      completedAt := none
      message := some message
      durationMs := none }
  { p with results := p.results ++ [item], skippedItems := p.skippedItems + 1 }

def appliedItem (index : ℚ) (plan : BatchItemPlan) (reply : Reply) : PerItemResult :=
  let outcome := reply.result
  { index := index
    subscriptionId := orElse outcome.id plan.subscriptionId
    subscriptionName := plan.subscriptionName
    status := if outcome.success then .success else .failed
    error := if outcome.success then none else some (orElse outcome.error "Unknown error")
    errorCode := if outcome.success then none else outcome.errorCode
    cancelReason := plan.cancelReason
    retryCount := 0
    completedAt := some reply.ended
    message := if outcome.success then plan.successMessage.filter fun text => text ≠ "" else none
    durationMs := some (reply.ended - reply.began) }

def runItem (p : Progress) (entry : ℚ × BatchItemPlan) : Progress :=
  let (index, plan) := entry
  let key := idempotencyKey x.operationType plan.subscriptionId
  if p.aborted then skip p index plan "Skipped due to atomic failure"
  else if x.config.idempotent ∧ key ∈ p.appliedItems then skip p index plan "Already applied — skipped for idempotency"
  else
    let reply := x.apply index plan
    let results := p.results ++ [appliedItem index plan reply]
    if reply.result.success then
      { p with
        appliedItems := if x.config.idempotent then insert key p.appliedItems else p.appliedItems
        results := results
        successfulItems := p.successfulItems + 1
        effects := p.effects ++ [.done key] }
    else { p with results := results, failedItems := p.failedItems + 1, aborted := x.atomic }

def slice (plans : List BatchItemPlan) (start stop : ℚ) : List BatchItemPlan := (plans.take ⌊stop⌋₊).drop ⌊start⌋₊

/-- The items in the order of the two loops, with the indices that they get there. Every chunk takes an item at least, so
    that there are no more of them than items. -/
def queue (size : ℚ) (plans : List BatchItemPlan) : (rounds : ℕ) → (offset : ℚ) → List (ℚ × BatchItemPlan)
  | 0, _ => []
  | rounds + 1, offset =>
    if offset < plans.length then
      (slice plans offset (offset + size)).mapIdx (fun j plan => (offset + j, plan)) ++
        queue size plans rounds (offset + size)
    else []

def progress (items : Finset String) (plans : List BatchItemPlan) : Progress :=
  (queue x.config.chunkSize plans plans.length 0).foldl (runItem x) ⟨items, [], 0, 0, 0, false, []⟩

def rolledBack (p : Progress) : Bool := x.atomic && decide (p.failedItems > 0)

def discardedItem (item : PerItemResult) : PerItemResult :=
  if item.status = .success then { item with status := .skipped, message := some "Rolled back (atomic failure)" }
  else item

def forget (p : Progress) : Progress :=
  let applied := p.results.filter fun item => item.status = .success
  { p with
    appliedItems := applied.foldl
      (fun items item => items.erase (idempotencyKey x.operationType item.subscriptionId)) p.appliedItems
    results := p.results.map discardedItem
    skippedItems := p.skippedItems + applied.length
    successfulItems := 0 }

def afterLoops (p : Progress) : Progress := if rolledBack x p then forget x p else p

end Run

structure Service where
  currentResult : Option BatchExecutionResult
  appliedItems : Finset String

structure Env where
  (startedAt completedAt : ℤ)
  random : String

namespace Service

variable (s : Service) (settings : Settings) (env : Env)

def new : Service := ⟨none, ∅⟩

def canRollback : Bool :=
  match s.currentResult with
  | none => false
  | some result =>
    if result.rolledBack ∨ result.state = .rolled_back then false
    else if result.successfulItems = 0 then false
    else (settings.getOperationConfig result.operationType).allowRollback

def firstResult (operationType : BatchOperationType) (plans : List BatchItemPlan) (options : RunOptions) :
    BatchExecutionResult where
  batchId := generateBatchId env.startedAt env.random
  operationType := operationType
  state := .processing
  totalItems := plans.length
  successfulItems := 0
  failedItems := 0
  skippedItems := 0
  results := []
  atomic := options.atomic.getD (settings.getOperationConfig operationType).atomicDefault
  rolledBack := false
  gasEstimate := getGasEstimate plans.length
  startedAt := env.startedAt
  completedAt := none
  durationMs := none
  cancelReasons := options.cancelReasons
  filter := options.filter
  rejectionReason := none

/-- The service after the batch, the result that is returned, and what the applied function has done. The history of
    batches is kept elsewhere, and left out. -/
def run (operationType : BatchOperationType) (plans : List BatchItemPlan) (apply : ℚ → BatchItemPlan → Reply)
    (options : RunOptions) : Service × BatchExecutionResult × List (Effect String) :=
  let config := settings.getOperationConfig operationType
  let result := { firstResult settings env operationType plans options with
    completedAt := some env.completedAt, durationMs := some (env.completedAt - env.startedAt) }
  match validateBatchSizeFor operationType plans.length config with
  | some reason =>
    let result := { result with state := .failed, rejectionReason := some reason }
    ({ s with currentResult := some result }, result, [])
  | none =>
    let x : Batch := ⟨config, operationType, options.atomic.getD config.atomicDefault, apply⟩
    let p := progress x s.appliedItems plans
    let after := afterLoops x p
    let result := { result with
      state := if rolledBack x p then .failed else if p.failedItems = 0 then .completed else .partially
      successfulItems := after.successfulItems
      failedItems := after.failedItems
      skippedItems := after.skippedItems
      results := after.results
      rolledBack := rolledBack x p }
    (⟨some result, after.appliedItems⟩, result, after.effects)

section Retry

structure Retrying where
  operationType : BatchOperationType
  idempotent : Bool
  maxRetries : ℤ
  retryFn : PerItemResult → Reply

def retryItem (x : Retrying) (p : Progress) (item : PerItemResult) : Progress :=
  if item.status ≠ .failed ∨ (item.retryCount : ℤ) ≥ x.maxRetries then { p with results := p.results ++ [item] }
  else
    let reply := x.retryFn item
    let key := idempotencyKey x.operationType item.subscriptionId
    if reply.result.success then
      let retried := { item with
        status := .success, retryCount := item.retryCount + 1, error := none, completedAt := some reply.ended }
      { p with
        appliedItems := if x.idempotent then insert key p.appliedItems else p.appliedItems
        results := p.results ++ [retried]
        successfulItems := p.successfulItems + 1
        failedItems := p.failedItems - 1
        effects := p.effects ++ [.done key] }
    else
      -- A function that throws leaves its text, and one that resolves without a text the default.
      let error := match reply.outcome with
        | .ok result => orElse result.error "Retry failed"
        | .error message => message
      let retried := { item with retryCount := item.retryCount + 1, error := some error }
      { p with results := p.results ++ [retried] }

def retryAll (x : Retrying) (items : Finset String) (result : BatchExecutionResult) : Progress :=
  result.results.foldl (retryItem x)
    ⟨items, [], result.successfulItems, result.failedItems, result.skippedItems, false, []⟩

def retriedResult (result : BatchExecutionResult) (p : Progress) : BatchExecutionResult :=
  { result with
    successfulItems := p.successfulItems
    failedItems := p.failedItems
    results := p.results
    completedAt := some env.completedAt
    state := if p.failedItems = 0 then .completed else .partially }

def retryFailedItems (retryFn : PerItemResult → Reply) :
    Service × Option BatchExecutionResult × List (Effect String) :=
  match s.currentResult with
  | none => (s, none, [])
  | some result =>
    if (result.results.filter fun r => r.status = .failed).length = 0 then (s, some result, [])
    else
      let config := settings.getOperationConfig result.operationType
      let x : Retrying := ⟨result.operationType, config.idempotent, settings.maxRetries result.operationType, retryFn⟩
      let p := retryAll x s.appliedItems result
      let result := retriedResult env result p
      (⟨some result, p.appliedItems⟩, some result, p.effects)

end Retry

section Rollback

def rolledItem (rollbackFn : PerItemResult → Reply) (item : PerItemResult) : PerItemResult :=
  let reply := rollbackFn item
  if reply.result.success then
    { item with status := .skipped, message := some "Reverted by rollback", completedAt := some reply.ended }
  else
    { item with
      status := .failed, error := some (orElse reply.result.error "Rollback failed"), completedAt := some reply.ended }

def mergeByIndex (results items : List PerItemResult) : List PerItemResult :=
  results.map fun r => (items.reverse.find? fun item => item.index = r.index).getD r

def committed (result : BatchExecutionResult) : List PerItemResult :=
  result.results.filter fun r => r.status = .success

def reverts (rollbackFn : PerItemResult → Reply) (item : PerItemResult) : Bool := (rollbackFn item).result.success

def rolledBackResult (result : BatchExecutionResult) (rollbackFn : PerItemResult → Reply) : BatchExecutionResult :=
  let reverted := ((committed result).filter (reverts rollbackFn)).length
  let failed := ((committed result).filter fun item => !reverts rollbackFn item).length
  { result with
    results := mergeByIndex result.results ((committed result).map (rolledItem rollbackFn))
    state := if failed = 0 then .rolled_back else .partially
    rolledBack := failed = 0
    successfulItems := result.successfulItems - reverted
    failedItems := result.failedItems + failed
    skippedItems := result.skippedItems + reverted
    completedAt := some env.completedAt }

def revertedKeys (result : BatchExecutionResult) (rollbackFn : PerItemResult → Reply) : List String :=
  ((committed result).filter (reverts rollbackFn)).map fun item =>
    idempotencyKey result.operationType item.subscriptionId

def rollbackBatch (rollbackFn : PerItemResult → Reply) : Service × Option BatchRollbackResult × List (Effect String) :=
  match s.currentResult with
  | none => (s, none, [])
  | some result =>
    if !s.canRollback settings then (s, none, [])
    else
      let keys := revertedKeys result rollbackFn
      (⟨some (rolledBackResult env result rollbackFn), keys.foldl (fun items key => items.erase key) s.appliedItems⟩,
        some
          { batchId := result.batchId
            operationType := result.operationType
            attempted := (committed result).length
            reverted := ((committed result).filter (reverts rollbackFn)).length
            failed := ((committed result).filter fun item => !reverts rollbackFn item).length
            items := (committed result).map (rolledItem rollbackFn)
            completedAt := env.completedAt },
        keys.map .undone)

end Rollback

inductive Call where
  | run (operationType : BatchOperationType) (plans : List BatchItemPlan) (apply : ℚ → BatchItemPlan → Reply)
    (options : RunOptions)
  | retryFailedItems (retryFn : PerItemResult → Reply)
  | rollbackBatch (rollbackFn : PerItemResult → Reply)

def perform : Call → Service × Option BatchExecutionResult × List (Effect String)
  | .run operationType plans apply options =>
    let (s, result, effects) := s.run settings env operationType plans apply options
    (s, some result, effects)
  | .retryFailedItems retryFn => s.retryFailedItems settings env retryFn
  | .rollbackBatch rollbackFn =>
    let (s, _, effects) := s.rollbackBatch settings env rollbackFn
    (s, none, effects)

section Calls

def itemAt {α : Type} (items : List α) (index : ℚ) : Option α :=
  if 0 ≤ index ∧ index.isInt then items[index.num.toNat]? else none

/-- `createFn` gets `undefined` where there is no input with the index. -/
def executeBatchCreate (names : List String) (addFn : ℚ → Option String → Reply) (atomic : Option Bool) : Call :=
  .run .create (names.map fun name => { subscriptionId := name, subscriptionName := some name })
    (fun index _ => addFn index (itemAt names index)) { atomic := atomic }

def executeBatchUpdate (subscriptionIds : List String) (updateFn : ℚ → String → Reply) (atomic : Option Bool)
    (filter : Option UpdateFilter) : Call :=
  .run .update (subscriptionIds.map fun id => { subscriptionId := id })
    (fun index plan => updateFn index plan.subscriptionId) { atomic := atomic, filter := filter }

def executeBatchCancel (subscriptionIds : List String) (cancelReasons : List CancelReason)
    (cancelFn : ℚ → String → Option CancelReason → Reply) (atomic : Option Bool) : Call :=
  .run .cancel
    (subscriptionIds.map fun id =>
      { subscriptionId := id
        cancelReason := some ((cancelReasons.find? fun r => r.subscriptionId = id).getD ⟨id, .other, none⟩) })
    (fun index plan => cancelFn index plan.subscriptionId plan.cancelReason)
    { atomic := atomic, cancelReasons := some cancelReasons }

/-- The texts of the amounts come with `numberText`. Reading the amount of an item that is not there throws. -/
def executeBatchCharge (numberText : ℚ → String) (chargeItems : List (String × ℚ)) (chargeFn : ℚ → String → ℚ → Reply)
    (atomic : Option Bool) : Call :=
  .run .charge
    (chargeItems.map fun (id, amount) => { subscriptionId := id, successMessage := some s!"Charged {numberText amount}" })
    (fun index plan =>
      match itemAt chargeItems index with
      | some (_, amount) => chargeFn index plan.subscriptionId amount
      | none => ⟨.error "TypeError: Cannot read properties of undefined (reading 'amount')", 0, 0⟩)
    { atomic := atomic }

end Calls

end Service

end SubTrackr.BatchTransactions
