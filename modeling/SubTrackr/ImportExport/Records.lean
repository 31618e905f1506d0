import SubTrackr.Lib.Text
import Mathlib.Data.String.Basic

namespace SubTrackr.ImportExport

open Lib

/-- Numbers and texts of the runtime. The numbers are those of the language, with its two zeros as one. -/
structure Platform (ν : Type) where
  numberText : ν → String
  (parseFloat toNumber : String → ν)
  toLowerCase : String → String
  parse_numberText (n : ν) : parseFloat (numberText n) = n
  numberText_ne_empty (n : ν) : numberText n ≠ ""
  numberText_plain (n : ν) (c : Char) : c ∈ (numberText n).toList → c ≠ ',' ∧ c ≠ '"' ∧ Text.isWhiteSpace c = false
  toLowerCase_ascii (s : String) : (∀ c ∈ s.toList, c.toNat < 128) →
    toLowerCase s = String.ofList (s.toList.map Char.toLower)

structure Date where
  time : Option ℤ
  deriving DecidableEq

def civil (day : ℤ) : ℤ × ℤ × ℤ :=
  let z := day + 719468
  let era := z / 146097
  let dayOfEra := z % 146097
  let yearOfEra := (dayOfEra - dayOfEra / 1460 + dayOfEra / 36524 - dayOfEra / 146096) / 365
  let dayOfYear := dayOfEra - (365 * yearOfEra + yearOfEra / 4 - yearOfEra / 100)
  let monthFromMarch := (5 * dayOfYear + 2) / 153
  let month := if monthFromMarch < 10 then monthFromMarch + 3 else monthFromMarch - 9
  (yearOfEra + era * 400 + (if month ≤ 2 then 1 else 0), month, dayOfYear - (153 * monthFromMarch + 2) / 5 + 1)

def pad (width n : ℕ) : List Char := (Nat.toDigits 10 n).leftpad width '0'

def yearText (year : ℤ) : List Char :=
  if 0 ≤ year ∧ year ≤ 9999 then pad 4 year.toNat else (if year < 0 then '-' else '+') :: pad 6 year.natAbs

def dayText (time : ℤ) : List Char :=
  let (year, month, day) := civil (time / 86400000)
  yearText year ++ '-' :: pad 2 month.toNat ++ '-' :: pad 2 day.toNat

def clockText (time : ℤ) : List Char :=
  let milliseconds := (time % 86400000).toNat
  pad 2 (milliseconds / 3600000) ++ ':' :: pad 2 (milliseconds / 60000 % 60) ++ ':' :: pad 2 (milliseconds / 1000 % 60) ++
    '.' :: pad 3 (milliseconds % 1000) ++ ['Z']

def Date.toISOString (date : Date) : Except String (List Char) :=
  match date.time with
  | none => .error "Invalid time value"
  | some time => .ok (dayText time ++ 'T' :: clockText time)

example : dayText 1777593600000 = "2026-05-01".toList := by decide +kernel

inductive SubscriptionCategory
  | streaming
  | software
  | gaming
  | productivity
  | fitness
  | education
  | finance
  | other
  deriving DecidableEq

def SubscriptionCategory.text : SubscriptionCategory → String
  | .streaming => "streaming"
  | .software => "software"
  | .gaming => "gaming"
  | .productivity => "productivity"
  | .fitness => "fitness"
  | .education => "education"
  | .finance => "finance"
  | .other => "other"

inductive BillingCycle
  | monthly
  | yearly
  | weekly
  | custom
  deriving DecidableEq

def BillingCycle.text : BillingCycle → String
  | .monthly => "monthly"
  | .yearly => "yearly"
  | .weekly => "weekly"
  | .custom => "custom"

structure Subscription (ν : Type) where
  (id name : String)
  description : Option String
  category : SubscriptionCategory
  price : ν
  currency : String
  billingCycle : BillingCycle
  nextBillingDate : Date
  isActive : Bool
  notificationsEnabled : Option Bool
  isCryptoEnabled : Bool
  cryptoToken : Option String
  cryptoAmount : Option ν
  (externalId externalSource : Option String)
  (createdAt updatedAt : Date)

structure SubscriptionInput (ν : Type) where
  (id externalId externalSource name description category : Option String)
  price : Option ν
  (currency billingCycle nextBillingDate : Option String)
  (isActive notificationsEnabled isCryptoEnabled : Option Bool)
  cryptoToken : Option String
  cryptoAmount : Option ν

inductive Field
  | id
  | externalId
  | externalSource
  | name
  | description
  | category
  | price
  | currency
  | billingCycle
  | nextBillingDate
  | isActive
  | notificationsEnabled
  | isCryptoEnabled
  | cryptoToken
  | cryptoAmount
  deriving DecidableEq

inductive Value (ν : Type)
  | undefined
  | text (s : String)
  | number (n : ν)
  | flag (b : Bool)
  | date (d : Date)

namespace Value

variable {ν : Type}

def asText : Value ν → Option String
  | .text s => some s
  | _ => none

theorem asText_eq_some {value : Value ν} {s : String} : value.asText = some s ↔ value = .text s := by
  cases value <;> simp [asText]

def asNumber : Value ν → Option ν
  | .number n => some n
  | _ => none

def asFlag : Value ν → Option Bool
  | .flag b => some b
  | _ => none

def ofText : Option String → Value ν
  | none => .undefined
  | some s => .text s

def ofNumber : Option ν → Value ν
  | none => .undefined
  | some n => .number n

def ofFlag : Option Bool → Value ν
  | none => .undefined
  | some b => .flag b

end Value

variable {ν : Type}

def Subscription.get (sub : Subscription ν) : Field → Value ν
  | .id => .text sub.id
  | .externalId => .ofText sub.externalId
  | .externalSource => .ofText sub.externalSource
  | .name => .text sub.name
  | .description => .ofText sub.description
  | .category => .text sub.category.text
  | .price => .number sub.price
  | .currency => .text sub.currency
  | .billingCycle => .text sub.billingCycle.text
  | .nextBillingDate => .date sub.nextBillingDate
  | .isActive => .flag sub.isActive
  | .notificationsEnabled => .ofFlag sub.notificationsEnabled
  | .isCryptoEnabled => .flag sub.isCryptoEnabled
  | .cryptoToken => .ofText sub.cryptoToken
  | .cryptoAmount => .ofNumber sub.cryptoAmount

namespace SubscriptionInput

instance : EmptyCollection (SubscriptionInput ν) :=
  ⟨⟨none, none, none, none, none, none, none, none, none, none, none, none, none, none, none⟩⟩

def set (input : SubscriptionInput ν) (field : Field) (value : Value ν) : SubscriptionInput ν :=
  match field with
  | .id => { input with id := value.asText }
  | .externalId => { input with externalId := value.asText }
  | .externalSource => { input with externalSource := value.asText }
  | .name => { input with name := value.asText }
  | .description => { input with description := value.asText }
  | .category => { input with category := value.asText }
  | .price => { input with price := value.asNumber }
  | .currency => { input with currency := value.asText }
  | .billingCycle => { input with billingCycle := value.asText }
  | .nextBillingDate => { input with nextBillingDate := value.asText }
  | .isActive => { input with isActive := value.asFlag }
  | .notificationsEnabled => { input with notificationsEnabled := value.asFlag }
  | .isCryptoEnabled => { input with isCryptoEnabled := value.asFlag }
  | .cryptoToken => { input with cryptoToken := value.asText }
  | .cryptoAmount => { input with cryptoAmount := value.asNumber }

def text (input : SubscriptionInput ν) : Field → Option String
  | .id => input.id
  | .externalId => input.externalId
  | .externalSource => input.externalSource
  | .name => input.name
  | .description => input.description
  | .category => input.category
  | .currency => input.currency
  | .billingCycle => input.billingCycle
  | .nextBillingDate => input.nextBillingDate
  | .cryptoToken => input.cryptoToken
  | _ => none

theorem text_set_of_ne {field field' : Field} (other : field' ≠ field) (input : SubscriptionInput ν) (value : Value ν) :
    (input.set field value).text field' = input.text field' := by
  cases field <;> cases field' <;> first | rfl | exact absurd rfl other

theorem text_set_self {input : SubscriptionInput ν} {field : Field} {value : Value ν} {s : String}
    (found : (input.set field value).text field = some s) : value = .text s := by
  apply Value.asText_eq_some.mp
  cases field <;> first | exact found | cases found

end SubscriptionInput

end SubTrackr.ImportExport
