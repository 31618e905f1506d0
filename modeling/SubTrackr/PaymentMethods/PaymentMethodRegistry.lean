import SubTrackr.Lib.Radix
import SubTrackr.Lib.InsertionMap
import SubTrackr.Lib.Text
import Mathlib.Data.Rat.Floor
import SubTrackr.Lib.Attempts

namespace SubTrackr.PaymentMethods

open Lib

def MAX_CHAIN_LENGTH : ℕ := 5

def DAY_MS : ℚ := 24 * 60 * 60 * 1000

inductive PaymentMethodKind where
  | card | wallet | bank | crypto
  deriving DecidableEq

structure RegisteredPaymentMethod where
  (id merchantId label : String)
  kind : PaymentMethodKind
  (reference currency : String)
  spendLimit : ℚ
  (isVerified isActive : Bool)
  expiresAt : Option String
  lastUsedAt : Option ℤ
  (createdAt updatedAt : ℤ)
  deriving DecidableEq

structure PaymentMethodDraft where
  label : String
  kind : PaymentMethodKind
  (reference currency : String)
  spendLimit : ℚ
  expiresAt : Option String

structure PaymentMethodUpdates where
  label : Option String := none
  kind : Option PaymentMethodKind := none
  reference : Option String := none
  currency : Option String := none
  spendLimit : Option ℚ := none
  expiresAt : Option (Option String) := none

structure MethodFlags where
  isActive : Option Bool := none
  isVerified : Option Bool := none
  lastUsedAt : Option ℤ := none

structure FallbackChain where
  (id merchantId name : String)
  methodIds : List String
  subscriptionId : Option String
  maxAttempts : ℚ
  (stopOnHardDecline isActive : Bool)
  (createdAt updatedAt : ℤ)
  deriving DecidableEq

structure ChainOptions where
  subscriptionId : Option (Option String) := none
  maxAttempts : Option ℚ := none
  stopOnHardDecline : Option Bool := none

structure FallbackChainUpdates where
  id : Option String := none
  merchantId : Option String := none
  name : Option String := none
  methodIds : Option (List String) := none
  subscriptionId : Option (Option String) := none
  maxAttempts : Option ℚ := none
  stopOnHardDecline : Option Bool := none
  isActive : Option Bool := none
  createdAt : Option ℤ := none

structure ChainValidation where
  isValid : Bool
  (errors warnings : List String)

inductive PaymentFailureReason where
  | expired | inactive | unverified | limit_exceeded | declined | unknown
  deriving DecidableEq

structure ChargeAttempt where
  (id methodId subscriptionId : String)
  chainId : Option String
  chainPosition : ℕ
  amount : ℚ
  success : Bool
  failureReason : Option PaymentFailureReason
  attemptedAt : ℤ

structure ChargeResult where
  subscriptionId : String
  chainId : Option String
  success : Bool
  attempts : List ChargeAttempt
  succeededMethodId : Option String
  succeededAtPosition : ℤ
  haltedOnHardDecline : Bool

inductive BillingErrorCode where
  | INVALID_PLAN
  | PAYMENT_FAILED

structure BillingError where
  code : BillingErrorCode
  message : String
  context : List (String × String)

structure PaymentMethodRegistry where
  methods : InsertionMap String RegisteredPaymentMethod
  chains : InsertionMap String FallbackChain
  attempts : List ChargeAttempt
  sequence : ℕ
  named (id : String) (method : RegisteredPaymentMethod) : methods.get id = some method → method.id = id

structure Env where
  now : ℤ
  random : ℕ → List Char

def idText (kind : List Char) (sequence : ℕ) (random : List Char) : String :=
  String.ofList (kind ++ '_' :: (Base36.digits sequence ++ '_' :: random))

theorem idText_inj {kind random random' : List Char} {m n : ℕ} (same : idText kind m random = idText kind n random') :
    m = n := by
  have texts := List.append_cancel_left (String.ofList_injective same)
  exact Base36.digits_append_inj (List.cons.inj texts).2

def RegisteredPaymentMethod.update (method : RegisteredPaymentMethod) (updates : PaymentMethodUpdates) (now : ℤ) :
    RegisteredPaymentMethod :=
  { method with
    label := updates.label.getD method.label
    kind := updates.kind.getD method.kind
    reference := updates.reference.getD method.reference
    currency := updates.currency.getD method.currency
    spendLimit := updates.spendLimit.getD method.spendLimit
    expiresAt := updates.expiresAt.getD method.expiresAt
    updatedAt := now }

def RegisteredPaymentMethod.withFlags (method : RegisteredPaymentMethod) (flags : MethodFlags) (now : ℤ) :
    RegisteredPaymentMethod :=
  { method with
    isActive := flags.isActive.getD method.isActive
    isVerified := flags.isVerified.getD method.isVerified
    lastUsedAt := flags.lastUsedAt.or method.lastUsedAt
    updatedAt := now }

def FallbackChain.update (chain : FallbackChain) (updates : FallbackChainUpdates) (now : ℤ) : FallbackChain where
  id := updates.id.getD chain.id
  merchantId := updates.merchantId.getD chain.merchantId
  name := updates.name.getD chain.name
  methodIds := updates.methodIds.getD chain.methodIds
  subscriptionId := updates.subscriptionId.getD chain.subscriptionId
  maxAttempts := updates.maxAttempts.getD chain.maxAttempts
  stopOnHardDecline := updates.stopOnHardDecline.getD chain.stopOnHardDecline
  isActive := updates.isActive.getD chain.isActive
  createdAt := updates.createdAt.getD chain.createdAt
  updatedAt := now

def hasText (text : String) : Bool := Text.trim text.toList ≠ []

namespace PaymentMethodRegistry

variable (s : PaymentMethodRegistry)

def new : PaymentMethodRegistry where
  methods := ∅
  chains := ∅
  attempts := []
  sequence := 0
  named _ _ found := by cases found

def setMethod (method : RegisteredPaymentMethod) : PaymentMethodRegistry where
  methods := s.methods.set method.id method
  chains := s.chains
  attempts := s.attempts
  sequence := s.sequence
  named id found stored := by
    rcases InsertionMap.get_set_eq_some.mp stored with ⟨rfl, rfl⟩ | ⟨-, old⟩
    · rfl
    · exact s.named id found old

def deleteMethod (id : String) : PaymentMethodRegistry where
  methods := s.methods.erase id
  chains := s.chains
  attempts := s.attempts
  sequence := s.sequence
  named id found stored := s.named id found (InsertionMap.get_erase_eq_some.mp stored).2

def setChain (id : String) (chain : FallbackChain) : PaymentMethodRegistry := { s with chains := s.chains.set id chain }

def nextId (kind : List Char) (random : List Char) : PaymentMethodRegistry × String :=
  ({ s with sequence := s.sequence + 1 }, idText kind (s.sequence + 1) random)

def invalidPlan {α : Type} (message : String) (context : List (String × String)) : Except BillingError α :=
  .error ⟨.INVALID_PLAN, message, context⟩

def addMethod (env : Env) (merchantId : String) (draft : PaymentMethodDraft) :
    Except BillingError (PaymentMethodRegistry × RegisteredPaymentMethod) :=
  if !hasText draft.label then invalidPlan "Payment method label is required." [("merchantId", merchantId)]
  else if draft.spendLimit < 0 then invalidPlan "Spend limit cannot be negative." [("merchantId", merchantId)]
  else
    let (s, id) := s.nextId ['p', 'm'] (env.random 0)
    let method : RegisteredPaymentMethod :=
      { id := id
        merchantId := merchantId
        label := draft.label
        kind := draft.kind
        reference := draft.reference
        currency := draft.currency
        spendLimit := draft.spendLimit
        isVerified := draft.kind = .crypto
        isActive := true
        expiresAt := draft.expiresAt
        lastUsedAt := none
        createdAt := env.now
        updatedAt := env.now }
    .ok (s.setMethod method, method)

def requireMethod (id : String) : Except BillingError RegisteredPaymentMethod :=
  match s.methods.get id with
  | none => invalidPlan s!"Payment method {id} not found." [("methodId", id)]
  | some method => .ok method

def listMethods (merchantId : String) (includeInactive : Bool) : List RegisteredPaymentMethod :=
  ((s.methods.values.filter fun method => method.merchantId = merchantId).filter fun method =>
    includeInactive || method.isActive).insertionSort fun a b => a.createdAt ≤ b.createdAt

def updateMethod (env : Env) (id : String) (updates : PaymentMethodUpdates) :
    Except BillingError (PaymentMethodRegistry × RegisteredPaymentMethod) := do
  let method ← s.requireMethod id
  let updated := method.update updates env.now
  return (s.setMethod updated, updated)

def setMethodFlags (env : Env) (id : String) (flags : MethodFlags) :
    Except BillingError (PaymentMethodRegistry × RegisteredPaymentMethod) := do
  let method ← s.requireMethod id
  let updated := method.withFlags flags env.now
  return (s.setMethod updated, updated)

def verifyMethod (env : Env) (id : String) : Except BillingError (PaymentMethodRegistry × RegisteredPaymentMethod) :=
  s.setMethodFlags env id { isVerified := some true }

def dropFromChain (env : Env) (id : String) (key : String) : PaymentMethodRegistry :=
  match s.chains.get key with
  | none => s
  | some chain =>
    if id ∉ chain.methodIds then s
    else s.setChain chain.id
      { chain with methodIds := chain.methodIds.filter fun methodId => methodId ≠ id, updatedAt := env.now }

/-- The loop is over the chains that are there when it starts. It comes by those that it adds too, which do not name the
    method any more. -/
def removeMethod (env : Env) (id : String) : Except BillingError PaymentMethodRegistry := do
  let _ ← s.requireMethod id
  return s.chains.keys.foldl (fun s key => s.dropFromChain env id key) (s.deleteMethod id)

section Dates

-- `getTime` is `new Date(text).getTime()`, with `none` for `NaN`.
variable (getTime : String → Option ℤ)

def daysUntil (isoDate : String) (now : ℤ) : Option ℤ :=
  (getTime isoDate).map fun time => ⌈(time - now : ℚ) / DAY_MS⌉

def deactivateExpired (env : Env) (merchantId : String) : Except BillingError (PaymentMethodRegistry × ℕ) :=
  (s.listMethods merchantId false).foldlM (fun (s, count) method =>
    match method.expiresAt with
    | none => .ok (s, count)
    | some text =>
      if text = "" ∨ (daysUntil getTime text env.now).any (fun days => days > 0) then .ok (s, count)
      else do
        let (s, _) ← s.setMethodFlags env method.id { isActive := some false }
        return (s, count + 1)) (s, 0)

def usable (now : ℤ) (method : RegisteredPaymentMethod) : Bool :=
  method.isActive && method.isVerified &&
    match method.expiresAt with
    | none => true
    | some text => text = "" || (daysUntil getTime text now).any fun days => days > 0

/-- `slice(0, maxAttempts)` where `maxAttempts` is positive, else all. -/
def cut {α : Type} (maxAttempts : ℚ) (xs : List α) : List α := if maxAttempts > 0 then xs.take ⌊maxAttempts⌋₊ else xs

theorem mem_of_mem_cut {α : Type} {maxAttempts : ℚ} {xs : List α} {x : α} (kept : x ∈ cut maxAttempts xs) : x ∈ xs := by
  unfold cut at kept
  split at kept
  · exact List.mem_of_mem_take kept
  · exact kept

def resolveChainMethods (now : ℤ) (chain : FallbackChain) : List RegisteredPaymentMethod :=
  cut chain.maxAttempts ((chain.methodIds.filterMap s.methods.get).filter (usable getTime now))

def idErrors (merchantId : String) : (seen : List String) → List String → List String
  | _, [] => []
  | seen, id :: rest =>
    (if id ∈ seen then [s!"Payment method {id} appears twice in the chain."] else []) ++
      (match s.methods.get id with
        | none => [s!"Payment method {id} does not exist."]
        | some method =>
          if method.merchantId ≠ merchantId then [s!"Payment method {id} belongs to another merchant."] else []) ++
      idErrors merchantId (id :: seen) rest

def chainErrors (chain : FallbackChain) : List String :=
  (if hasText chain.name then [] else ["Chain name is required."]) ++
    (if chain.methodIds.length = 0 then ["A fallback chain needs at least one payment method."] else []) ++
    (if chain.methodIds.length > MAX_CHAIN_LENGTH then [s!"A fallback chain holds at most {MAX_CHAIN_LENGTH} methods."]
      else []) ++
    (if chain.maxAttempts < 0 then ["Max attempts cannot be negative."] else []) ++
    s.idErrors chain.merchantId [] chain.methodIds

def validateChain (now : ℤ) (chain : FallbackChain) : ChainValidation :=
  let errors := s.chainErrors chain
  let usable := s.resolveChainMethods getTime now chain
  let errors := errors ++ if errors.length = 0 ∧ usable.length = 0 then
    ["Every method in this chain is inactive, unverified or expired."] else []
  let warnings := if usable.length = 1 then ["A single-method chain has no fallback if that method fails."] else []
  let warnings := warnings ++ if usable.length < chain.methodIds.length ∧ errors.length = 0 then
    ["Some methods in this chain are inactive, unverified or expired."] else []
  ⟨errors.length = 0, errors, warnings⟩

def createChain (env : Env) (merchantId name : String) (methodIds : List String) (options : ChainOptions) :
    Except BillingError (PaymentMethodRegistry × FallbackChain) :=
  let (s, id) := s.nextId ['c', 'h', 'a', 'i', 'n'] (env.random 0)
  let chain : FallbackChain :=
    { id := id
      merchantId := merchantId
      name := name
      methodIds := methodIds
      subscriptionId := options.subscriptionId.getD none
      maxAttempts := options.maxAttempts.getD 0
      stopOnHardDecline := options.stopOnHardDecline.getD false
      isActive := true
      createdAt := env.now
      updatedAt := env.now }
  let validation := s.validateChain getTime env.now chain
  if !validation.isValid then
    invalidPlan ("Invalid fallback chain: " ++ "; ".intercalate validation.errors) [("merchantId", merchantId)]
  else .ok (s.setChain chain.id chain, chain)

end Dates

def updateChain (env : Env) (id : String) (updates : FallbackChainUpdates) :
    Except BillingError (PaymentMethodRegistry × FallbackChain) :=
  match s.chains.get id with
  | none => invalidPlan s!"Fallback chain {id} not found." [("chainId", id)]
  | some chain =>
    let updated := chain.update updates env.now
    .ok (s.setChain id updated, updated)

def deleteChain (id : String) : PaymentMethodRegistry := { s with chains := s.chains.erase id }

def listChains (merchantId : String) : List FallbackChain := s.chains.values.filter fun chain => chain.merchantId = merchantId

def chainForSubscription (merchantId subscriptionId : String) : Option FallbackChain :=
  let active := (s.listChains merchantId).filter (·.isActive)
  (active.find? fun chain => chain.subscriptionId = some subscriptionId).or
    (active.find? fun chain => chain.subscriptionId = none)

end PaymentMethodRegistry

structure ChargeInput where
  method : RegisteredPaymentMethod
  subscriptionId : String
  amount : ℚ

structure ChargeOutcome where
  success : Bool
  failureReason : Option PaymentFailureReason

abbrev ChargeProcessor : Type := List RegisteredPaymentMethod → ChargeInput → ChargeOutcome

structure Charged where
  registry : PaymentMethodRegistry
  result : ChargeResult
  asked : List RegisteredPaymentMethod

structure ChargeRequest where
  env : Env
  chain : Option FallbackChain
  subscriptionId : String
  amount : ℚ
  processor : ChargeProcessor

namespace ChargeRequest

variable (r : ChargeRequest)

def result (attempts : List ChargeAttempt) : ChargeResult where
  subscriptionId := r.subscriptionId
  chainId := r.chain.map (·.id)
  success := false
  attempts := attempts
  succeededMethodId := none
  succeededAtPosition := -1
  haltedOnHardDecline := false

def record (s : PaymentMethodRegistry) (method : RegisteredPaymentMethod) (position : ℕ) (success : Bool)
    (failureReason : Option PaymentFailureReason) : PaymentMethodRegistry × ChargeAttempt :=
  let (s, id) := s.nextId ['a', 't', 't'] (r.env.random position)
  let attempt : ChargeAttempt :=
    { id := id
      methodId := method.id
      subscriptionId := r.subscriptionId
      chainId := r.chain.map (·.id)
      chainPosition := position
      amount := r.amount
      success := success
      failureReason := failureReason
      attemptedAt := r.env.now }
  ({ s with attempts := s.attempts ++ [attempt] }, attempt)

end ChargeRequest

section Dates

variable (getTime : String → Option ℤ)

def hardDecline (now : ℤ) (method : RegisteredPaymentMethod) : Option PaymentFailureReason :=
  if !method.isActive then some .inactive
  else if !method.isVerified then some .unverified
  else if method.expiresAt.any fun text => text ≠ "" && (PaymentMethodRegistry.daysUntil getTime text now).any fun days =>
    days ≤ 0 then some .expired
  else none

def exceeds (amount : ℚ) (method : RegisteredPaymentMethod) : Bool := method.spendLimit > 0 ∧ amount > method.spendLimit

def chargeThrough (r : ChargeRequest) (s : PaymentMethodRegistry) (attempts : List ChargeAttempt)
    (asked : List RegisteredPaymentMethod) (position : ℕ) : List RegisteredPaymentMethod → Except BillingError Charged
  | [] => .ok ⟨s, r.result attempts, asked⟩
  | method :: rest =>
    match hardDecline getTime r.env.now method with
    | some reason =>
      let (s, attempt) := r.record s method position false (some reason)
      if r.chain.any (·.stopOnHardDecline) then
        .ok ⟨s, { r.result (attempts ++ [attempt]) with haltedOnHardDecline := true }, asked⟩
      else chargeThrough r s (attempts ++ [attempt]) asked (position + 1) rest
    | none =>
      if exceeds r.amount method then
        let (s, attempt) := r.record s method position false (some .limit_exceeded)
        chargeThrough r s (attempts ++ [attempt]) asked (position + 1) rest
      else
        let outcome := r.processor asked ⟨method, r.subscriptionId, r.amount⟩
        let (s, attempt) := r.record s method position outcome.success
          (outcome.failureReason.or (if outcome.success then none else some .declined))
        if outcome.success then do
          let (s, _) ← s.setMethodFlags r.env method.id { lastUsedAt := some r.env.now }
          return ⟨s,
            { r.result (attempts ++ [attempt]) with
              success := true, succeededMethodId := some method.id, succeededAtPosition := position },
            asked ++ [method]⟩
        else chargeThrough r s (attempts ++ [attempt]) (asked ++ [method]) (position + 1) rest

namespace PaymentMethodRegistry

variable (s : PaymentMethodRegistry)

def candidates (merchantId subscriptionId : String) : List RegisteredPaymentMethod :=
  match s.chainForSubscription merchantId subscriptionId with
  | some chain => cut chain.maxAttempts (chain.methodIds.filterMap s.methods.get)
  | none => s.listMethods merchantId false

def charge (env : Env) (merchantId subscriptionId : String) (amount : ℚ) (processor : ChargeProcessor) :
    Except BillingError Charged :=
  let chain := s.chainForSubscription merchantId subscriptionId
  let candidates := s.candidates merchantId subscriptionId
  if candidates.length = 0 then
    .error ⟨.PAYMENT_FAILED, s!"No payment method available for subscription {subscriptionId}.",
      [("merchantId", merchantId), ("subscriptionId", subscriptionId)]⟩
  else chargeThrough getTime ⟨env, chain, subscriptionId, amount, processor⟩ s [] [] 0 candidates

end PaymentMethodRegistry

end Dates

end SubTrackr.PaymentMethods
