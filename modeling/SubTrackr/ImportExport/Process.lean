import SubTrackr.ImportExport.Csv

namespace SubTrackr.ImportExport

open Lib

inductive ImportMode
  | create
  | upsert
  | replace
  deriving DecidableEq

structure ImportError where
  row : ℕ
  (field message : String)
  value : Option String

structure ImportWarning where
  row : ℕ
  (field message : String)
  value : Option String

inductive ActionType
  | create
  | update
  deriving DecidableEq

structure ImportAction (ν : Type) where
  type : ActionType
  row : ℕ
  subscription : Subscription ν
  existingId : Option String

structure ImportData (ν : Type) where
  subscriptions : List (SubscriptionInput ν)
  mode : ImportMode

structure ImportResult (ν : Type) where
  success : Bool
  (imported updated failed : ℕ)
  errors : List ImportError
  warnings : List ImportWarning
  actions : List (ImportAction ν)

/-- What the runtime does with numbers, texts and dates, the clock, and the ids that `generateUniqueId` makes for the
    valid rows. -/
structure ImportPlatform (ν : Type) extends Platform ν where
  toUpperCase : String → String
  (isNaN isNegative : ν → Bool)
  thousandTimes : ν → ν
  dateOfNumber : ν → Date
  dateOfText : String → Date
  now : Date
  generateUniqueId : ℕ → String

def VALID_CATEGORIES : List SubscriptionCategory :=
  [.streaming, .software, .gaming, .productivity, .fitness, .education, .finance, .other]

def VALID_BILLING_CYCLES : List BillingCycle := [.monthly, .yearly, .weekly, .custom]

def VALID_CURRENCIES : List String := ["USD", "EUR", "GBP", "JPY", "CAD", "AUD", "CHF", "XLM"]

variable {ν : Type} (P : ImportPlatform ν)

def normalized (value : String) : String := String.ofList (Text.trim (P.toLowerCase value).toList)

def includes (a b : String) : Bool := b.toList <:+: a.toList

def normalizeCategory (value : String) : SubscriptionCategory :=
  match VALID_CATEGORIES.find? fun cat => cat.text = normalized P value with
  | some cat => cat
  | none =>
    (VALID_CATEGORIES.find? fun cat => includes cat.text (normalized P value) || includes (normalized P value) cat.text).getD
      .other

def cycleMap : List (String × BillingCycle) :=
  [("month", .monthly), ("year", .yearly), ("week", .weekly), ("custom", .custom)]

def normalizeBillingCycle (value : String) : BillingCycle :=
  match VALID_BILLING_CYCLES.find? fun cycle => cycle.text = normalized P value with
  | some cycle => cycle
  | none => ((cycleMap.find? fun entry => includes (normalized P value) entry.1).map Prod.snd).getD .monthly

def isDateOnly (text : List Char) : Bool :=
  match text with
  | [a, b, c, d, '-', e, f, '-', g, h] => [a, b, c, d, e, f, g, h].all Char.isDigit
  | _ => false

/-- The other formats are only tried where the text as a whole is no date, and then end with the clock. -/
def parseDate (value : Option String) : Date :=
  let trimmed := Text.trim (value.getD "").toList
  let text := String.ofList trimmed
  if trimmed = [] then P.now
  else if !P.isNaN (P.toNumber text) then
    if 13 ≤ trimmed.length then P.dateOfNumber (P.toNumber text)
    else P.dateOfNumber (P.thousandTimes (P.toNumber text))
  else if (P.dateOfText text).time.isSome then P.dateOfText text
  else if isDateOnly trimmed then P.dateOfText (text ++ "T00:00:00Z")
  else P.now

def receiver (value : Option String) : Except String String :=
  match value with
  | none => .error "Cannot read properties of undefined (reading 'toLowerCase')"
  | some value => .ok value

def buildSubscriptionFromInput (index : ℕ) (input : SubscriptionInput ν) (existing : Option (Subscription ν)) :
    Except String (Subscription ν) := do
  let category ← receiver input.category
  let billingCycle ← receiver input.billingCycle
  pure
    { id := (existing.map Subscription.id).getD (input.id.getD (P.generateUniqueId index))
      name := input.name.getD ""
      description := input.description
      category := normalizeCategory P category
      price := input.price.getD (P.toNumber "")
      currency := match input.currency.map P.toUpperCase with
        | some currency => if currency = "" then "USD" else currency
        | none => "USD"
      billingCycle := normalizeBillingCycle P billingCycle
      nextBillingDate := parseDate P input.nextBillingDate
      isActive := (input.isActive.or (existing.map Subscription.isActive)).getD true
      notificationsEnabled :=
        some ((input.notificationsEnabled.or (existing.bind Subscription.notificationsEnabled)).getD true)
      isCryptoEnabled := (input.isCryptoEnabled.or (existing.map Subscription.isCryptoEnabled)).getD false
      cryptoToken := input.cryptoToken.or (existing.bind Subscription.cryptoToken)
      cryptoAmount := input.cryptoAmount.or (existing.bind Subscription.cryptoAmount)
      externalId := input.externalId.or (existing.bind Subscription.externalId)
      externalSource := input.externalSource.or (existing.bind Subscription.externalSource)
      createdAt := (existing.map Subscription.createdAt).getD P.now
      updatedAt := P.now }

structure RowCheck where
  errors : List ImportError
  warnings : List ImportWarning
  valid : Bool

def named (s : SubscriptionInput ν) : Bool := s.name.any fun name => Text.trim name.toList ≠ []

def priceMessage (s : SubscriptionInput ν) : Option String :=
  match s.price with
  | none => some "Price is required"
  | some price => if P.isNaN price || P.isNegative price then some "Price must be a valid positive number" else none

def badDate (s : SubscriptionInput ν) : Bool := given s.nextBillingDate && (P.dateOfText (s.nextBillingDate.getD "")).time.isNone

def categoryErrors (rowNum : ℕ) (s : SubscriptionInput ν) : List ImportError :=
  if given s.category then [] else [⟨rowNum, "category", "Category is required", s.category⟩]

def billingCycleErrors (rowNum : ℕ) (s : SubscriptionInput ν) : List ImportError :=
  if given s.billingCycle then [] else [⟨rowNum, "billingCycle", "Billing cycle is required", s.billingCycle⟩]

def categoryWarnings (rowNum : ℕ) (s : SubscriptionInput ν) : List ImportWarning :=
  let category := s.category.getD ""
  if given s.category && !(VALID_CATEGORIES.any fun cat => cat.text = P.toLowerCase category) then
    [⟨rowNum, "category", "Invalid category \"" ++ category ++ "\", defaulting to \"other\"", s.category⟩]
  else []

def billingCycleWarnings (rowNum : ℕ) (s : SubscriptionInput ν) : List ImportWarning :=
  let billingCycle := s.billingCycle.getD ""
  if given s.billingCycle && !(VALID_BILLING_CYCLES.any fun cycle => cycle.text = P.toLowerCase billingCycle) then
    [⟨rowNum, "billingCycle", "Invalid billing cycle \"" ++ billingCycle ++ "\", defaulting to \"monthly\"", s.billingCycle⟩]
  else []

def currencyWarnings (rowNum : ℕ) (s : SubscriptionInput ν) : List ImportWarning :=
  let currency := s.currency.getD ""
  if given s.currency && !VALID_CURRENCIES.contains (P.toUpperCase currency) then
    [⟨rowNum, "currency", "Non-standard currency \"" ++ currency ++ "\"", s.currency⟩]
  else []

def cryptoWarnings (rowNum : ℕ) (s : SubscriptionInput ν) : List ImportWarning :=
  if s.isCryptoEnabled.getD false && !given s.cryptoToken then
    [⟨rowNum, "cryptoToken", "Crypto enabled but no token specified", s.cryptoToken⟩]
  else []

def checkRow (rowNum : ℕ) (s : SubscriptionInput ν) : RowCheck :=
  if !named s then ⟨[⟨rowNum, "name", "Name is required", s.name⟩], [], false⟩
  else
    match priceMessage P s with
    | some message =>
      ⟨categoryErrors rowNum s ++ [⟨rowNum, "price", message, some ((s.price.map P.numberText).getD "undefined")⟩],
        categoryWarnings P rowNum s, false⟩
    | none =>
      let errors := categoryErrors rowNum s ++ billingCycleErrors rowNum s
      let warnings := categoryWarnings P rowNum s ++ billingCycleWarnings P rowNum s ++ currencyWarnings P rowNum s
      if badDate P s then
        ⟨errors ++ [⟨rowNum, "nextBillingDate", "Invalid date format", s.nextBillingDate⟩], warnings, false⟩
      else ⟨errors, warnings ++ cryptoWarnings rowNum s, true⟩

structure ValidationResult (ν : Type) where
  isValid : Bool
  errors : List ImportError
  warnings : List ImportWarning
  validRows : List (SubscriptionInput ν)

def validateImport (data : ImportData ν) : ValidationResult ν :=
  let checks := data.subscriptions.zipIdx.map fun s => (s.1, checkRow P (s.2 + 1) s.1)
  let errors := checks.flatMap fun c => c.2.errors
  { isValid := errors.isEmpty
    errors
    warnings := checks.flatMap fun c => c.2.warnings
    validRows := (checks.filter fun c => c.2.valid).map Prod.fst }

structure Existing (ν : Type) where
  (byName byId byExternalId : Store String (Subscription ν))

def indexExisting (existingSubscriptions : List (Subscription ν)) : Existing ν where
  byName := putAll (fun _ => none) (existingSubscriptions.map fun sub => (P.toLowerCase sub.name, sub))
  byId := putAll (fun _ => none) ((existingSubscriptions.filter fun sub => sub.id ≠ "").map fun sub => (sub.id, sub))
  byExternalId := putAll (fun _ => none)
    ((existingSubscriptions.filter fun sub => given sub.externalId).map fun sub => (sub.externalId.getD "", sub))

structure Seen where
  (names ids externalIds : List String)

def Seen.add (seen : Seen) (input : SubscriptionInput ν) : Seen where
  names := normalized P (input.name.getD "") :: seen.names
  ids := if given input.id then input.id.getD "" :: seen.ids else seen.ids
  externalIds := if given input.externalId then input.externalId.getD "" :: seen.externalIds else seen.externalIds

def Seen.duplicate (seen : Seen) (rowNum : ℕ) (input : SubscriptionInput ν) : Option ImportError :=
  if seen.names.contains (normalized P (input.name.getD "")) then
    some ⟨rowNum, "name", "Duplicate subscription name found in import file", input.name⟩
  else if given input.id && seen.ids.contains (input.id.getD "") then
    some ⟨rowNum, "id", "Duplicate subscription id found in import file", input.id⟩
  else if given input.externalId && seen.externalIds.contains (input.externalId.getD "") then
    some ⟨rowNum, "externalId", "Duplicate external id found in import file", input.externalId⟩
  else none

namespace Existing

variable (existing : Existing ν) (input : SubscriptionInput ν)

def byIdMatch : Option (Subscription ν) := if given input.id then existing.byId (input.id.getD "") else none

def byExternalIdMatch : Option (Subscription ν) :=
  if given input.externalId then existing.byExternalId (input.externalId.getD "") else none

def matched : Option (Subscription ν) :=
  ((existing.byIdMatch input).or (existing.byExternalIdMatch input)).or (existing.byName (normalized P (input.name.getD "")))

def conflict (rowNum : ℕ) : ImportError where
  row := rowNum
  field := if (existing.byIdMatch input).isSome then "id"
    else if (existing.byExternalIdMatch input).isSome then "externalId" else "name"
  message := "Duplicate subscription found; create mode skips existing items"
  value := if (existing.byIdMatch input).isSome then input.id
    else if given input.externalId then input.externalId else input.name

end Existing

def processRow (mode : ImportMode) (existing : Existing ν) (seen : Seen) (index : ℕ) (input : SubscriptionInput ν) :
    Except String (ImportError ⊕ ImportAction ν) :=
  let rowNum := index + 1
  match seen.duplicate P rowNum input with
  | some error => .ok (.inl error)
  | none =>
    match mode, existing.matched P input with
    | .create, some _ => .ok (.inl (existing.conflict input rowNum))
    | _, some sub => do
      let subscription ← buildSubscriptionFromInput P index input (some sub)
      pure (.inr ⟨.update, rowNum, subscription, some sub.id⟩)
    | _, none => do
      let subscription ← buildSubscriptionFromInput P index input none
      pure (.inr ⟨.create, rowNum, subscription, none⟩)

def Seen.next (seen : Seen) (input : SubscriptionInput ν) : Seen :=
  if (seen.duplicate P 0 input).isSome then seen else seen.add P input

def processRows (mode : ImportMode) (existing : Existing ν) :
    Seen → ℕ → List (SubscriptionInput ν) → Except String (List (ImportError ⊕ ImportAction ν))
  | _, _, [] => pure []
  | seen, index, input :: rest => do
    let outcome ← processRow P mode existing seen index input
    let outcomes ← processRows mode existing (seen.next P input) (index + 1) rest
    pure (outcome :: outcomes)

def outcomesOf (data : ImportData ν) (existingSubscriptions : List (Subscription ν)) :
    Except String (List (ImportError ⊕ ImportAction ν)) :=
  processRows P data.mode (indexExisting P existingSubscriptions) ⟨[], [], []⟩ 0 (validateImport P data).validRows

def buildImportActions (data : ImportData ν) (existingSubscriptions : List (Subscription ν)) :
    Except String (List (ImportAction ν) × List ImportError × List ImportWarning) := do
  let validation := validateImport P data
  let outcomes ← outcomesOf P data existingSubscriptions
  pure (outcomes.filterMap Sum.getRight?, validation.errors ++ outcomes.filterMap Sum.getLeft?, validation.warnings)

def processImport (data : ImportData ν) (existingSubscriptions : List (Subscription ν)) : Except String (ImportResult ν) := do
  let (actions, errors, warnings) ← buildImportActions P data existingSubscriptions
  pure
    { success := errors.isEmpty
      imported := actions.countP fun action => action.type = .create
      updated := actions.countP fun action => action.type = .update
      failed := errors.length
      errors
      warnings
      actions }

def applyAction (subs : List (Subscription ν)) (action : ImportAction ν) : List (Subscription ν) :=
  match action.type with
  | .update => subs.map fun sub => if some sub.id = action.existingId then action.subscription else sub
  | .create => subs ++ [action.subscription]

def applyActions (subs : List (Subscription ν)) (actions : List (ImportAction ν)) : List (Subscription ν) :=
  actions.foldl applyAction subs

end SubTrackr.ImportExport
