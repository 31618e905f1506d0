import SubTrackr.Types
import SubTrackr.Lib.Store

namespace SubTrackr.Invoices

open Lib Soroban

inductive InvoiceStatus where
  | draft | sent | partlyPaid | paid | void
  deriving DecidableEq

inductive TaxType where
  | none | salesTax | vat | gst
  deriving DecidableEq

structure InvoiceConfig where
  numberingPrefix : String
  numberingPadding : Nat
  defaultCurrency : String
  defaultTaxBps : Nat
  exchangeRateScale : Int
  paymentTermsSecs : Nat

structure InvoiceLineItem where
  description : String
  quantity : Nat
  unitPrice : Int
  currency : String
  exchangeRate : Int
  taxRateBps : Nat
  lineTotal : Int

structure Invoice where
  id : Nat
  invoiceNumber : String
  subscriptionId : Nat
  (subscriber merchant : Address)
  period : TimeRange
  lineItems : List InvoiceLineItem
  (subtotal tax total : Int)
  dueDate : Nat
  status : InvoiceStatus
  (currency region : String)

structure TaxRateEntry where
  jurisdictionKey : String
  taxType : TaxType
  rateBps : Nat
  displayName : String
  (effectiveFrom effectiveUntil : Nat)
  (appliesToDigitalGoods reverseCharge : Bool)
  nexusThreshold : Int

structure CustomerTaxStatus where
  isExempt : Bool
  certificateId : String
  certificateExpiry : Nat
  issuingAuthority : String
  exemptJurisdictions : List String

structure TaxJurisdiction where
  (country state city postalCode : String)
  taxType : TaxType
  rateBps : Nat
  label : String
  effectiveDate : Nat

structure TaxRateChangeEvent where
  jurisdiction : TaxJurisdiction
  (oldRateBps newRateBps effectiveDate : Nat)

structure TaxRemittanceLineItem where
  jurisdictionKey : String
  taxType : TaxType
  taxableAmount : Int
  rateBps : Nat
  taxCollected : Int
  transactionCount : Nat
  currency : String

structure State where
  admin : Option Address
  invoiceConfig : Option InvoiceConfig
  invoiceCount : Option Nat
  taxRate : Store String Nat
  exchangeRate : Store String Int
  taxRateEntry : Store String TaxRateEntry
  customerTaxStatus : Store Address CustomerTaxStatus
  taxRateChangeLogByJdx : Store String (List TaxRateChangeEvent)
  taxRemittanceLine : Store (Nat × String) TaxRemittanceLineItem
  invoice : Store Nat Invoice
  invoiceBySubscription : Store Nat (List Nat)

def State.empty : State where
  admin := none
  invoiceConfig := none
  invoiceCount := none
  taxRate := fun _ => none
  exchangeRate := fun _ => none
  taxRateEntry := fun _ => none
  customerTaxStatus := fun _ => none
  taxRateChangeLogByJdx := fun _ => none
  taxRemittanceLine := fun _ => none
  invoice := fun _ => none
  invoiceBySubscription := fun _ => none

def defaultRateScale : Int := 1000000
def defaultPaymentTermsSecs : Nat := 1209600
def defaultPrefix : String := "INV"
def defaultRegion : String := "GLOBAL"

def saturate (n : Int) : Int := max (-2 ^ 127) (min (2 ^ 127 - 1) n)

def invoiceConfig (s : State) : InvoiceConfig :=
  s.invoiceConfig.getD
    { numberingPrefix := defaultPrefix
      numberingPadding := 6
      defaultCurrency := "USD"
      defaultTaxBps := 0
      exchangeRateScale := defaultRateScale
      paymentTermsSecs := defaultPaymentTermsSecs }

def getTaxRateBps (s : State) (region : String) : Nat :=
  (s.taxRate region).getD (invoiceConfig s).defaultTaxBps

def getExchangeRate (s : State) (currency : String) : Int :=
  if currency = "" then defaultRateScale else (s.exchangeRate currency).getD defaultRateScale

def convertAmount (amount exchangeRate scale : Int) : Int :=
  if exchangeRate ≤ 0 ∨ scale ≤ 0 then amount else (saturate (amount * exchangeRate)).tdiv scale

def calculateTax (subtotal : Int) (taxRateBps : Nat) : Int :=
  (saturate (subtotal * taxRateBps)).tdiv 10000

def buildJurisdictionKey (country state city : String) : String :=
  if city ≠ "" then country ++ "-" ++ state ++ "-" ++ city
  else if state ≠ "" then country ++ "-" ++ state
  else country

def lookupKeys (country state city : String) : List String :=
  (if city ≠ "" ∧ state ≠ "" ∧ country ≠ "" then [country ++ "-" ++ state ++ "-" ++ city] else []) ++
  (if state ≠ "" ∧ country ≠ "" then [country ++ "-" ++ state] else []) ++
  (if country ≠ "" then [country] else []) ++ ["GLOBAL"]

def resolveTaxRateEntry (s : State) (country state city : String) : TaxRateEntry :=
  ((lookupKeys country state city).findSome? s.taxRateEntry).getD
    { jurisdictionKey := "GLOBAL"
      taxType := .none
      rateBps := (invoiceConfig s).defaultTaxBps
      displayName := "Default"
      effectiveFrom := 0
      effectiveUntil := 0
      appliesToDigitalGoods := false
      reverseCharge := false
      nexusThreshold := 0 }

def getCustomerTaxStatus (s : State) (subscriber : Address) : CustomerTaxStatus :=
  (s.customerTaxStatus subscriber).getD
    { isExempt := false
      certificateId := ""
      certificateExpiry := 0
      issuingAuthority := ""
      exemptJurisdictions := [] }

def isCustomerTaxExempt (host : Host) (s : State) (subscriber : Address) (jurisdictionKey : String) : Bool :=
  let status := getCustomerTaxStatus s subscriber
  if !status.isExempt then false
  else if 0 < status.certificateExpiry ∧ status.certificateExpiry < host.timestamp then false
  else if status.exemptJurisdictions = [] then true
  else status.exemptJurisdictions.contains jurisdictionKey

def segmentTax (subtotal : Int) (duration periodDuration rate : Nat) : Result Int := do
  let ratio : Int := (duration * 10000 / periodDuration : Nat)
  let scaled ← i128 (subtotal * ratio)
  return calculateTax (scaled.tdiv 10000) rate

def taxSegment (subtotal : Int) (period : TimeRange) (acc : Int × Nat) (event : TaxRateChangeEvent) :
    Result (Int × Nat) :=
  if event.effectiveDate ≤ period.start ∨ period.finish ≤ event.effectiveDate then .ok acc
  else do
    let duration := event.effectiveDate - acc.2
    let tax ← if 0 < duration then segmentTax subtotal duration (period.finish - period.start) event.oldRateBps
      else .ok 0
    let total ← i128 (acc.1 + tax)
    return (total, event.effectiveDate)

def calculateMidCycleTax (s : State) (subtotal : Int) (jurisdictionKey : String) (period : TimeRange) :
    Result Int :=
  let log := (s.taxRateChangeLogByJdx jurisdictionKey).getD []
  if log = [] ∨ period.finish - period.start = 0 then
    .ok (calculateTax subtotal (getTaxRateBps s jurisdictionKey))
  else do
    let acc ← log.foldlM (taxSegment subtotal period) (0, period.start)
    let remaining := period.finish - acc.2
    if 0 < remaining then do
      let tax ← segmentTax subtotal remaining (period.finish - period.start) (getTaxRateBps s jurisdictionKey)
      i128 (acc.1 + tax)
    else .ok acc.1

def paddedNumber (width n : Nat) : String :=
  let digits := (Nat.repr n).toList
  String.ofList (List.replicate (width - digits.length) '0' ++ digits)

def formatInvoiceNumber (s : State) (sequence : Nat) : String :=
  let config := invoiceConfig s
  config.numberingPrefix ++ "-" ++ paddedNumber (max config.numberingPadding 1) sequence

def buildLineItem (s : State) (plan : Plan) (invoiceCurrency : String) (taxRateBps : Nat) : InvoiceLineItem :=
  let config := invoiceConfig s
  let exchangeRate := getExchangeRate s invoiceCurrency
  let unitPrice := convertAmount plan.price exchangeRate config.exchangeRateScale
  { description := plan.name
    quantity := 1
    unitPrice
    currency := if invoiceCurrency = "" then config.defaultCurrency else invoiceCurrency
    exchangeRate
    taxRateBps
    lineTotal := unitPrice }

def validateInvoicePeriod (period : TimeRange) : Result Unit :=
  ensure (period.start < period.finish) "Invoice period must be non-empty"

def validateInvoiceAmounts (invoice : Invoice) : Result Unit := do
  ensure (0 ≤ invoice.subtotal) "Invoice subtotal cannot be negative"
  ensure (0 ≤ invoice.tax) "Invoice tax cannot be negative"
  ensure (0 ≤ invoice.total) "Invoice total cannot be negative"
  ensure (invoice.total = saturate (invoice.subtotal + invoice.tax))
    "Invoice total does not equal subtotal plus tax"

def storeInvoice (s : State) (invoice : Invoice) : Result State := do
  validateInvoicePeriod invoice.period
  validateInvoiceAmounts invoice
  ensure (invoice.status = .draft) "New invoices must be drafts"
  ensure (0 < invoice.lineItems.length) "Invoice must contain at least one line item"
  let list := (s.invoiceBySubscription invoice.subscriptionId).getD []
  return { s with
    invoice := put s.invoice invoice.id invoice
    invoiceBySubscription := put s.invoiceBySubscription invoice.subscriptionId (list ++ [invoice.id]) }

def remittanceRate (invoice : Invoice) : Result Nat :=
  if 0 < invoice.subtotal then do
    let scaled ← i128 (invoice.tax * 10000)
    return (scaled.tdiv invoice.subtotal % 2 ^ 32).toNat
  else .ok 0

def storeTaxRemittanceLine (s : State) (invoice : Invoice) (jurisdictionKey : String) (taxType : TaxType) :
    Result State := do
  let rateBps ← remittanceRate invoice
  let line : TaxRemittanceLineItem :=
    { jurisdictionKey, taxType, taxableAmount := invoice.subtotal, rateBps
      taxCollected := invoice.tax, transactionCount := 1, currency := invoice.currency }
  return { s with taxRemittanceLine := put s.taxRemittanceLine (invoice.id, jurisdictionKey) line }

/-- `subscriptions` and `plans` are what the storage contract answers at this call. -/
def generateInvoice (host : Host) (s : State) (subscriptions : Store Nat Subscription) (plans : Store Nat Plan)
    (subscriptionId : Nat) (period : TimeRange) (region currency country state city : String) :
    Result (Invoice × State) := do
  validateInvoicePeriod period
  let subscription ← expect (subscriptions subscriptionId) "Subscription not found"
  ensure (subscription.status ≠ .cancelled) "Cannot create an invoice for a cancelled subscription"
  let plan ← expect (plans subscription.planId) "Plan not found"
  ensure (plan.active = true) "Cannot create an invoice for an inactive plan"
  let config := invoiceConfig s
  let effectiveCurrency := if currency = "" then config.defaultCurrency else currency
  -- the source computes this and reads it nowhere
  let _effectiveRegion := if region = "" then defaultRegion else region
  let jurisdictionKey := buildJurisdictionKey country state city
  let isExempt := isCustomerTaxExempt host s subscription.subscriber jurisdictionKey
  let entry := resolveTaxRateEntry s country state city
  let taxRateBps := if isExempt then 0 else entry.rateBps
  let taxType := if isExempt then .none else entry.taxType
  let reverseCharge := if isExempt then false else entry.reverseCharge
  let lineItem := buildLineItem s plan effectiveCurrency taxRateBps
  let subtotal := lineItem.lineTotal
  let tax ← (if taxRateBps = 0 ∨ isExempt = true then .ok 0
    else calculateMidCycleTax s subtotal jurisdictionKey period)
  let total ← i128 (subtotal + tax)
  let id ← u64 (s.invoiceCount.getD 0 + 1)
  let s := { s with invoiceCount := some id }
  let dueDate ← u64 (subscription.nextChargeAt + config.paymentTermsSecs)
  let invoice : Invoice :=
    { id
      invoiceNumber := formatInvoiceNumber s id
      subscriptionId
      subscriber := subscription.subscriber
      merchant := plan.merchant
      period
      lineItems := [lineItem]
      subtotal
      tax
      total
      dueDate
      status := .draft
      currency := effectiveCurrency
      region := if reverseCharge then jurisdictionKey ++ "-RC" else jurisdictionKey }
  validateInvoicePeriod invoice.period
  validateInvoiceAmounts invoice
  let s ← storeInvoice s invoice
  let s ← storeTaxRemittanceLine s invoice jurisdictionKey taxType
  return (invoice, s)

/-- The host runs `generate_invoice` on exactly the eight arguments it takes, and traps on any other list. -/
def invokeGenerateInvoice (host : Host) (s : State) (subscriptions : Store Nat Subscription)
    (plans : Store Nat Plan) (args : List Val) : Result (Invoice × State) :=
  match args with
  | [.address _storage, .u64 subscriptionId, .timeRange period, .string region, .string currency,
      .string country, .string state, .string city] =>
    generateInvoice host s subscriptions plans subscriptionId period region currency country state city
  | _ => .error (.host "generate_invoice: arguments do not match the signature")

end SubTrackr.Invoices
