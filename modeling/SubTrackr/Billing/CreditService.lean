import SubTrackr.Billing.Rating
import SubTrackr.Lib.Store

namespace SubTrackr.Billing

open Lib

inductive ExpirationPolicy where
  | never
  | afterSecs (seconds : Number)

structure CreditLot where
  id : Nat
  (remaining issuedAt : Number)
  expiresAt : Option Number

inductive CreditEntryKind where
  | issue | apply | transferIn | transferOut | expire | deposit | withdraw
  deriving DecidableEq

structure CreditEntry where
  id : Nat
  kind : CreditEntryKind
  (amount timestamp : Number)
  reason : String
  counterparty : Option String

structure CreditAccount where
  accountId : String
  (balance available : Number)
  lots : List CreditLot
  entries : List CreditEntry
  expirationPolicy : ExpirationPolicy

structure IssueCreditInput where
  (accountId actor : String)
  amount : Number
  reason : String
  expiresAt : Option Number

structure ApplyCreditInput where
  (accountId subscriptionId : String)
  amountDue : Number

structure ApplyCreditResult where
  (accountId subscriptionId : String)
  (applied remainingDue balanceAfter : Number)

structure TransferCreditInput where
  (fromAccountId toAccountId : String)
  amount : Number
  reason : String

inductive CreditServiceError where
  | invalidAmount (reason : String)
  | insufficient (accountId : String) (attempted available : Number)
  | selfTransfer (accountId : String)

def CreditServiceError.message (render : Number → String) : CreditServiceError → String
  | invalidAmount reason => "Credit amount invalid: " ++ reason
  | insufficient accountId attempted available =>
    "Account " ++ accountId ++ " has insufficient credit: requested " ++ render attempted ++ ", available " ++
      render available
  | selfTransfer accountId => "Account " ++ accountId ++ " cannot transfer credit to itself"

structure CreditService where
  accounts : Store String CreditAccount
  (nextLotId nextEntryId : Nat)

def CreditService.empty : CreditService where
  accounts := fun _ => none
  nextLotId := 1
  nextEntryId := 1

abbrev Served (α : Type) := Except CreditServiceError α × CreditService

def isExpiredLot (now : Number) (lot : CreditLot) : Bool := lot.expiresAt.any fun expiresAt => decide (expiresAt ≤ now)

def availableOf (now : Number) (account : CreditAccount) : Number :=
  account.lots.foldl
    (fun sum lot => if 0 < lot.remaining ∧ isExpiredLot now lot = false then sum + lot.remaining else sum) 0

def freshAccount (accountId : String) : CreditAccount where
  accountId := accountId
  balance := 0
  available := 0
  lots := []
  entries := []
  expirationPolicy := .never

def CreditService.account (v : CreditService) (accountId : String) : CreditAccount :=
  (v.accounts accountId).getD (freshAccount accountId)

def ensureAccount (v : CreditService) (accountId : String) : CreditAccount × CreditService :=
  match v.accounts accountId with
  | some account => (account, v)
  | none => (freshAccount accountId, { v with accounts := put v.accounts accountId (freshAccount accountId) })

def commit (v : CreditService) (account : CreditAccount) : CreditService :=
  { v with accounts := put v.accounts account.accountId account }

def record (now : Number) (v : CreditService) (account : CreditAccount) (kind : CreditEntryKind) (amount : Number)
    (reason : String) (counterparty : Option String) : CreditAccount × CreditService :=
  let entry : CreditEntry := { id := v.nextEntryId, kind, amount, timestamp := now, reason, counterparty }
  ({ account with entries := account.entries ++ [entry] }, { v with nextEntryId := v.nextEntryId + 1 })

def expireLots (now : Number) (expired : Number) : List CreditLot → Number × List CreditLot
  | [] => (expired, [])
  | lot :: lots =>
    if 0 < lot.remaining ∧ isExpiredLot now lot = true then
      let (expired, rest) := expireLots now (expired + lot.remaining) lots
      (expired, { lot with remaining := 0 } :: rest)
    else
      let (expired, rest) := expireLots now expired lots
      (expired, lot :: rest)

def realiseExpiryInPlace (now : Number) (account : CreditAccount) : Number × CreditAccount :=
  let (expired, lots) := expireLots now 0 account.lots
  (expired, { account with lots, balance := if 0 < expired then account.balance - expired else account.balance })

def realiseExpiry (now : Number) (v : CreditService) (account : CreditAccount) :
    Number × CreditAccount × CreditService :=
  let (expired, account) := realiseExpiryInPlace now account
  if 0 < expired then (expired, record now v account .expire (0 - expired) "expired" none) else (expired, account, v)

def refreshAvailable (now : Number) (account : CreditAccount) : CreditAccount :=
  { account with available := availableOf now account }

def projectExpiry (now : Number) (account : CreditAccount) : CreditAccount :=
  let (pastDueTotal, lots) := expireLots now 0 account.lots
  let projected := refreshAvailable now { account with lots }
  { projected with balance := if 0 < pastDueTotal then account.balance - pastDueTotal else account.balance }

def consumeLots (now : Number) : List CreditLot → Number → List CreditLot × Number
  | [], remaining => ([], remaining)
  | lot :: lots, remaining =>
    if remaining ≤ 0 ∨ lot.remaining ≤ 0 ∨ isExpiredLot now lot = true then
      let (rest, left) := consumeLots now lots remaining
      (lot :: rest, left)
    else
      let take := lot.remaining.min remaining
      let (rest, left) := consumeLots now lots (remaining - take)
      ({ lot with remaining := lot.remaining - take } :: rest, left)

def consume (now : Number) (account : CreditAccount) (amount : Number) : Number × CreditAccount :=
  let (lots, remaining) := consumeLots now account.lots amount
  (amount - remaining, { account with lots })

def setExpirationPolicy (v : CreditService) (accountId : String) (policy : ExpirationPolicy) : CreditService :=
  let (account, v) := ensureAccount v accountId
  commit v { account with expirationPolicy := policy }

def getAccount (now : Number) (v : CreditService) (accountId : String) : CreditAccount :=
  refreshAvailable now (projectExpiry now (v.account accountId))

def getBalance (now : Number) (v : CreditService) (accountId : String) : Number := availableOf now (v.account accountId)

def policyExpiry (now : Number) : ExpirationPolicy → Option Number
  | .never => none
  | .afterSecs seconds => some (now + seconds)

def grant (now : Number) (v : CreditService) (account : CreditAccount) (amount : Number) (expiresAt : Option Number)
    (kind : CreditEntryKind) (reason counterparty : String) : CreditAccount × CreditService :=
  let lot : CreditLot := { id := v.nextLotId, remaining := amount, issuedAt := now, expiresAt }
  record now { v with nextLotId := v.nextLotId + 1 }
    { account with lots := account.lots ++ [lot], balance := account.balance + amount } kind amount reason
    (some counterparty)

def issueCredit (now : Number) (v : CreditService) (input : IssueCreditInput) : Served CreditAccount :=
  if input.amount ≤ 0 then (.error (.invalidAmount "amount must be positive"), v)
  else
    let (account, v) := ensureAccount v input.accountId
    let (_, account, v) := realiseExpiry now v account
    let expiry := input.expiresAt.or (policyExpiry now account.expirationPolicy)
    let (account, v) := grant now v account input.amount expiry .issue input.reason input.actor
    let v := commit v (refreshAvailable now account)
    (.ok (getAccount now v account.accountId), v)

def deduct (now : Number) (v : CreditService) (account : CreditAccount) (applied : Number) :
    CreditAccount × CreditService :=
  if 0 < applied then
    record now v { account with balance := account.balance - applied } .apply (0 - applied) "charge_application" none
  else (account, v)

def applyCreditToCharge (now : Number) (v : CreditService) (input : ApplyCreditInput) : Served ApplyCreditResult :=
  if input.amountDue < 0 then (.error (.invalidAmount "amountDue may not be negative"), v)
  else
    let (account, v) := ensureAccount v input.accountId
    let (_, account, v) := realiseExpiry now v account
    let available := availableOf now account
    let (applied, account) := consume now account (input.amountDue.min available)
    let (account, v) := deduct now v account applied
    let account := refreshAvailable now account
    (.ok { accountId := account.accountId
           subscriptionId := input.subscriptionId
           applied
           remainingDue := input.amountDue - applied
           balanceAfter := account.balance }, commit v account)

def sendCredit (now : Number) (v : CreditService) (sender : CreditAccount) (input : TransferCreditInput) :
    Number × CreditAccount × CreditService :=
  let (moved, sender) := consume now sender input.amount
  let (sender, v) := record now v { sender with balance := sender.balance - moved } .transferOut (0 - moved)
    input.reason (some input.toAccountId)
  (moved, sender, commit v (refreshAvailable now sender))

def receiveCredit (now : Number) (v : CreditService) (moved : Number) (input : TransferCreditInput) :
    CreditAccount × CreditService :=
  let (recipient, v) := ensureAccount v input.toAccountId
  let (_, recipient, v) := realiseExpiry now v recipient
  let (recipient, v) := grant now v recipient moved (policyExpiry now recipient.expirationPolicy) .transferIn
    input.reason input.fromAccountId
  (recipient, commit v (refreshAvailable now recipient))

def transferCredit (now : Number) (v : CreditService) (input : TransferCreditInput) :
    Served (CreditAccount × CreditAccount) :=
  if input.amount ≤ 0 then (.error (.invalidAmount "amount must be positive"), v)
  else if input.fromAccountId = input.toAccountId then (.error (.selfTransfer input.fromAccountId), v)
  else
    let (sender, v) := ensureAccount v input.fromAccountId
    let (_, sender, v) := realiseExpiry now v sender
    if availableOf now sender < input.amount then
      (.error (.insufficient input.fromAccountId input.amount (availableOf now sender)), v)
    else
      let (moved, sender, v) := sendCredit now v sender input
      let (recipient, v) := receiveCredit now v moved input
      (.ok (getAccount now v sender.accountId, getAccount now v recipient.accountId), v)

def expireAccount (now : Number) (v : CreditService) (accountId : String) : Served (Number × CreditAccount) :=
  let (account, v) := ensureAccount v accountId
  let (expiredAmount, account, v) := realiseExpiry now v account
  let v := commit v (refreshAvailable now account)
  (.ok (expiredAmount, getAccount now v accountId), v)

end SubTrackr.Billing
