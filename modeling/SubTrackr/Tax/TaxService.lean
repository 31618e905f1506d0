import SubTrackr.Lib.InsertionMap
import Mathlib.Data.Rat.Floor

namespace SubTrackr.Tax

open Lib

inductive TaxType where
  | none | vat | gst | sales_tax | digital_services_tax | pst | qst | hst
  deriving DecidableEq

inductive DigitalGoodsClass where
  | standard | electronic_service | exempt | reduced_rate | telecom_service
  deriving DecidableEq

def DigitalGoodsClass.text : DigitalGoodsClass → String
  | .standard => "standard"
  | .electronic_service => "electronic_service"
  | .exempt => "exempt"
  | .reduced_rate => "reduced_rate"
  | .telecom_service => "telecom_service"

structure TaxJurisdiction where
  (country state city : String)

structure TaxRateEntry where
  jurisdictionKey : String
  taxType : TaxType
  rateBps : ℚ
  displayName : String
  (effectiveFrom effectiveUntil : ℚ)
  (appliesToDigitalGoods reverseCharge : Bool)
  nexusThreshold : ℚ
  deriving DecidableEq

structure TaxRateCacheEntry where
  jurisdictionKey : String
  entry : TaxRateEntry
  (cachedAt ttlMs : ℤ)

structure DigitalGoodsTaxRule where
  classification : DigitalGoodsClass
  country : String
  state : Option String
  isTaxable : Bool
  reducedRateBps : Option ℚ

structure TaxInvoiceContext where
  jurisdiction : TaxJurisdiction
  subtotal : ℚ
  digitalGoodsClass : DigitalGoodsClass

/-- A `TaxCalculationResult`, less `midCycleChanges`, which are none where no rate changes are given. -/
structure TaxCalculationResult where
  (taxAmount taxRateBps : ℚ)
  taxType : TaxType
  jurisdictionKey : String
  (isExempt isReverseCharge : Bool)

def BPS_SCALE : ℚ := 10000

def DEFAULT_TAX_CACHE_TTL_MS : ℤ := 3600000

def TAX_RATE_CACHE_MAX_ENTRIES : ℕ := 10000

def DIGITAL_GOODS_TAX_RULES : List DigitalGoodsTaxRule :=
  [⟨.standard, "US", none, true, none⟩,
    ⟨.exempt, "US", none, false, none⟩,
    ⟨.electronic_service, "GB", none, true, none⟩,
    ⟨.reduced_rate, "DE", none, true, some 700⟩,
    ⟨.standard, "AU", none, true, none⟩,
    ⟨.electronic_service, "CA", none, true, none⟩,
    ⟨.telecom_service, "IN", none, true, none⟩]

def BUILT_IN_TAX_RATES : List TaxRateEntry :=
  [⟨"GB", .vat, 2000, "UK VAT Standard Rate", 0, 0, true, false, 8500000⟩,
    ⟨"DE", .vat, 1900, "German VAT Standard Rate", 0, 0, true, false, 10000000⟩,
    ⟨"FR", .vat, 2000, "French VAT Standard Rate", 0, 0, true, false, 10000000⟩,
    ⟨"AU", .gst, 1000, "Australian GST", 0, 0, true, false, 7500000⟩,
    ⟨"CA", .gst, 500, "Canadian GST", 0, 0, true, false, 3000000⟩,
    ⟨"IN", .gst, 1800, "Indian GST", 0, 0, true, false, 2000000⟩,
    ⟨"JP", .vat, 1000, "Japanese Consumption Tax", 0, 0, true, false, 10000000⟩,
    ⟨"US", .sales_tax, 0, "US Federal (No federal sales tax)", 0, 0, true, false, 0⟩,
    ⟨"US-CA", .sales_tax, 850, "California Sales Tax", 0, 0, true, false, 50000000⟩,
    ⟨"US-NY", .sales_tax, 887, "New York Sales Tax", 0, 0, true, false, 50000000⟩,
    ⟨"US-TX", .sales_tax, 825, "Texas Sales Tax", 0, 0, false, false, 50000000⟩,
    ⟨"US-NY-NYC", .sales_tax, 887, "New York City Sales Tax", 0, 0, true, false, 50000000⟩,
    ⟨"US-FL", .sales_tax, 600, "Florida Sales Tax", 0, 0, true, false, 50000000⟩,
    ⟨"CA-ON", .hst, 1300, "Ontario HST", 0, 0, true, false, 3000000⟩,
    ⟨"CA-QC", .qst, 997, "Quebec Sales Tax", 0, 0, true, false, 3000000⟩,
    ⟨"CA-BC", .pst, 700, "British Columbia PST", 0, 0, true, false, 3000000⟩]

def round (x : ℚ) : ℚ := (⌊x + 1 / 2⌋ : ℤ)

/-- The tables that the service is built with, and the conversion to upper case. -/
structure Tables where
  toUpperCase : String → String
  rates : List TaxRateEntry
  rules : List DigitalGoodsTaxRule

abbrev Cache := InsertionMap String TaxRateCacheEntry

def cleanRateCache (taxRateCache : Cache) : Cache :=
  if taxRateCache.entries.length > TAX_RATE_CACHE_MAX_ENTRIES then
    taxRateCache.dropOldest (taxRateCache.entries.length - TAX_RATE_CACHE_MAX_ENTRIES)
  else taxRateCache

section Service

variable (t : Tables)

def buildJurisdictionKey (jurisdiction : TaxJurisdiction) : String :=
  "-".intercalate ([t.toUpperCase jurisdiction.country] ++
    (if jurisdiction.state ≠ "" then [t.toUpperCase jurisdiction.state] else []) ++
    if jurisdiction.city ≠ "" then [t.toUpperCase jurisdiction.city] else [])

def fallbackKeys (key : String) : List String :=
  let parts := (key.toList.splitOn '-').map String.ofList
  parts.inits.tail.reverse.map ("-".intercalate ·) ++ ["GLOBAL"]

def jurisdictionFallbackKeys (jurisdiction : TaxJurisdiction) : List String :=
  fallbackKeys (buildJurisdictionKey t jurisdiction)

def classText (digitalGoodsClass : Option DigitalGoodsClass) : String :=
  match digitalGoodsClass with
  | some goodsClass => goodsClass.text
  | none => "any"

def cacheKey (key : String) (digitalGoodsClass : Option DigitalGoodsClass) : String :=
  "rate:" ++ key ++ ":" ++ classText digitalGoodsClass

def findRate (keys : List String) : Option (String × TaxRateEntry) :=
  keys.findSome? fun key => (t.rates.find? fun r => r.jurisdictionKey = key).map (key, ·)

def countryRule (goodsClass : DigitalGoodsClass) (country : String) : Option DigitalGoodsTaxRule :=
  t.rules.find? fun r => r.classification = goodsClass ∧ r.country = t.toUpperCase country

def matchingRule (goodsClass : DigitalGoodsClass) (country state : String) : Option DigitalGoodsTaxRule :=
  t.rules.find? fun r => r.classification = goodsClass ∧ r.country = t.toUpperCase country ∧
    (r.state = none ∨ r.state = some (t.toUpperCase state))

def isDigitalGoodsTaxable (goodsClass : DigitalGoodsClass) (country state : String) : Bool :=
  match matchingRule t goodsClass country state with
  | some rule => rule.isTaxable
  | none => true

def store (now : ℤ) (cache : Cache) (cacheKey key : String) (entry : TaxRateEntry) : Cache :=
  cleanRateCache (cache.set cacheKey ⟨key, entry, now, DEFAULT_TAX_CACHE_TTL_MS⟩)

def rate (now : ℤ) (cache : Cache) (jurisdiction : TaxJurisdiction) (digitalGoodsClass : Option DigitalGoodsClass)
    (key : String) (entry : TaxRateEntry) : TaxRateEntry × Cache :=
  let cacheKey := cacheKey (buildJurisdictionKey t jurisdiction) digitalGoodsClass
  let rule := if !entry.appliesToDigitalGoods then
      digitalGoodsClass.bind fun goodsClass => countryRule t goodsClass jurisdiction.country
    else none
  match rule with
  | none => (entry, store now cache cacheKey key entry)
  | some rule =>
    if !rule.isTaxable then ({ entry with rateBps := 0, taxType := .none }, cache)
    else
      match rule.reducedRateBps with
      | some reducedRateBps =>
        let reducedEntry := { entry with rateBps := reducedRateBps }
        (reducedEntry, store now cache cacheKey key reducedEntry)
      | none => (entry, store now cache cacheKey key entry)

def getTaxRate (now : ℤ) (cache : Cache) (jurisdiction : TaxJurisdiction) (digitalGoodsClass : Option DigitalGoodsClass) :
    Option TaxRateEntry × Cache :=
  let cached := (cache.get (cacheKey (buildJurisdictionKey t jurisdiction) digitalGoodsClass)).filter fun cached =>
    now - cached.cachedAt < cached.ttlMs
  match cached with
  | some cached => (some cached.entry, cache)
  | none =>
    match findRate t (jurisdictionFallbackKeys t jurisdiction) with
    | some (key, entry) =>
      let rated := rate t now cache jurisdiction digitalGoodsClass key entry
      (some rated.1, rated.2)
    | none => (none, cache)

def calculateTax (now : ℤ) (cache : Cache) (context : TaxInvoiceContext) : TaxCalculationResult × Cache :=
  let jurisdictionKey := buildJurisdictionKey t context.jurisdiction
  let lookup := getTaxRate t now cache context.jurisdiction (some context.digitalGoodsClass)
  match lookup.1 with
  | none => (⟨0, 0, .none, jurisdictionKey, false, false⟩, lookup.2)
  | some entry =>
    let totalTax := round (context.subtotal * entry.rateBps / BPS_SCALE)
    (⟨if entry.reverseCharge then 0 else totalTax, entry.rateBps, entry.taxType, jurisdictionKey, false, entry.reverseCharge⟩,
      lookup.2)

end Service

def refreshTaxRateCache (now : ℤ) (cache : Cache) (entries : List TaxRateEntry) (ttlMs : ℤ) : Cache :=
  cleanRateCache (entries.foldl (fun cache entry => cache.set entry.jurisdictionKey ⟨entry.jurisdictionKey, entry, now, ttlMs⟩) cache)

def invalidateTaxRateCache : Cache := ∅

end SubTrackr.Tax
