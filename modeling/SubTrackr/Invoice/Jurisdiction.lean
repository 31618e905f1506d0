import SubTrackr.Invoice.Generate
import SubTrackr.Lib.Ledger

namespace SubTrackr.Invoices

open Lib Soroban

def getAdmin (s : State) : Result Address := expect s.admin "Admin not set"

def initializeInvoice (host : Host) (s : State) (admin : Address) : Result State := do
  host.requireAuth admin
  ensure (s.admin = none) "Already initialized"
  return { s with
    admin := some admin
    invoiceCount := some 0
    invoiceConfig := some
      { numberingPrefix := defaultPrefix
        numberingPadding := 6
        defaultCurrency := "USD"
        defaultTaxBps := 0
        exchangeRateScale := defaultRateScale
        paymentTermsSecs := defaultPaymentTermsSecs } }

def setConfig (host : Host) (s : State) (admin : Address) (config : InvoiceConfig) : Result State := do
  let storedAdmin ← getAdmin s
  host.requireAuth storedAdmin
  ensure (admin = storedAdmin) "Admin mismatch"
  host.requireAuth admin
  return { s with invoiceConfig := some config }

def checkAdmin (host : Host) (s : State) (admin : Address) : Result Unit := do
  let storedAdmin ← getAdmin s
  ensure (admin = storedAdmin) "Admin mismatch"
  host.requireAuth storedAdmin

def setTaxRate (host : Host) (s : State) (admin : Address) (region : String) (taxRateBps : Nat) : Result State := do
  checkAdmin host s admin
  return { s with taxRate := put s.taxRate region taxRateBps }

def setExchangeRate (host : Host) (s : State) (admin : Address) (currency : String) (exchangeRate : Int) :
    Result State := do
  checkAdmin host s admin
  return { s with exchangeRate := put s.exchangeRate currency exchangeRate }

def changeLog (s : State) (jurisdictionKey : String) : List TaxRateChangeEvent :=
  (s.taxRateChangeLogByJdx jurisdictionKey).getD []

def logTaxRateChange (s : State) (jurisdictionKey : String) (oldRateBps newRateBps effectiveFrom : Nat) : State :=
  let jurisdiction : TaxJurisdiction :=
    { country := jurisdictionKey, state := "", city := "", postalCode := "", taxType := .none, rateBps := newRateBps
      label := "", effectiveDate := effectiveFrom }
  let event : TaxRateChangeEvent := { jurisdiction, oldRateBps, newRateBps, effectiveDate := effectiveFrom }
  let log := changeLog s jurisdictionKey ++ [event]
  { s with taxRateChangeLogByJdx := put s.taxRateChangeLogByJdx jurisdictionKey log }

def rateOf (s : State) (key : String) : Nat := ((s.taxRateEntry key).map (·.rateBps)).getD 0

def setTaxJurisdiction (host : Host) (s : State) (admin : Address) (country state city : String) (taxType : TaxType)
    (rateBps : Nat) (displayName : String) (effectiveFrom effectiveUntil : Nat)
    (appliesToDigitalGoods reverseCharge : Bool) (nexusThreshold : Int) : Result State := do
  checkAdmin host s admin
  let key := buildJurisdictionKey country state city
  let oldRateBps := rateOf s key
  let entry : TaxRateEntry :=
    { jurisdictionKey := key, taxType, rateBps, displayName, effectiveFrom, effectiveUntil, appliesToDigitalGoods
      reverseCharge, nexusThreshold }
  let s := { s with taxRateEntry := put s.taxRateEntry key entry }
  return if oldRateBps ≠ rateBps then logTaxRateChange s key oldRateBps rateBps effectiveFrom else s

/-- The calls that write the rates, and the one that reads them. The others write tax statuses, the classes of goods and
    the status of an invoice. -/
inductive Call where
  | initializeInvoice (admin : Address)
  | setConfig (admin : Address) (config : InvoiceConfig)
  | setTaxRate (admin : Address) (region : String) (taxRateBps : Nat)
  | setExchangeRate (admin : Address) (currency : String) (exchangeRate : Int)
  | setTaxJurisdiction (admin : Address) (country state city : String) (taxType : TaxType) (rateBps : Nat)
    (displayName : String) (effectiveFrom effectiveUntil : Nat) (appliesToDigitalGoods reverseCharge : Bool)
    (nexusThreshold : Int)
  | generateInvoice (subscriptions : Store Nat Subscription) (plans : Store Nat Plan) (subscriptionId : Nat)
    (period : TimeRange) (region currency country state city : String)

structure Tx where
  host : Host
  call : Call

def exec (tx : Tx) (s : State) : Result State :=
  match tx.call with
  | .initializeInvoice admin => initializeInvoice tx.host s admin
  | .setConfig admin config => setConfig tx.host s admin config
  | .setTaxRate admin region taxRateBps => setTaxRate tx.host s admin region taxRateBps
  | .setExchangeRate admin currency exchangeRate => setExchangeRate tx.host s admin currency exchangeRate
  | .setTaxJurisdiction admin country state city taxType rateBps displayName effectiveFrom effectiveUntil
      appliesToDigitalGoods reverseCharge nexusThreshold =>
    setTaxJurisdiction tx.host s admin country state city taxType rateBps displayName effectiveFrom effectiveUntil
      appliesToDigitalGoods reverseCharge nexusThreshold
  | .generateInvoice subscriptions plans subscriptionId period region currency country state city => do
    let (_, s) ← generateInvoice tx.host s subscriptions plans subscriptionId period region currency country state city
    return s

def contract : Contract Tx State Panic where
  time tx := tx.host.timestamp
  exec := exec

abbrev World := Ledger Tx State

def Deployed (s : State) : Prop := s = .empty

abbrev Reachable (guard : World → Tx → Prop) (w : World) : Prop :=
  Ledger.Reachable contract Deployed guard w

def signedBy (now : Nat) (signers : List Address) : Host where
  timestamp := now
  authorized := fun address => signers.contains address

def trial (calls : List (Nat × List Address × Call)) : World :=
  Ledger.run contract (Ledger.genesis .empty) (calls.map fun (now, signers, call) => ⟨signedBy now signers, call⟩)

theorem trial_reachable (calls : List (Nat × List Address × Call)) : Reachable Ledger.anyTx (trial calls) :=
  ⟨.empty, rfl, Ledger.Steps.run (fun _ _ _ => trivial) _⟩

section Steps

variable {host : Host} {s s' : State} {tx : Tx} {admin : Address}

end Steps

end SubTrackr.Invoices
