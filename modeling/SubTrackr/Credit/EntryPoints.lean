import SubTrackr.Soroban
import SubTrackr.Lib.Store
import SubTrackr.Lib.Ledger
import SubTrackr.Lib.Fifo

namespace SubTrackr.Credit

open Lib Soroban

def maxHistory : Nat := 128

inductive CreditError where
  | alreadyInitialized | notInitialized | unauthorized | invalidAmount | insufficientCredit | selfTransfer
  | walletNotFound
  deriving DecidableEq

abbrev Outcome (α : Type) := Except (Failure CreditError) α

inductive CreditTxKind where
  | issue | apply | transferIn | transferOut | expire | deposit | withdraw
  deriving DecidableEq

inductive ExpirationPolicy where
  | never
  | afterSecs (secs : Nat)
  deriving DecidableEq

structure CreditLot where
  id : Nat
  remaining : Int
  issuedAt : Nat
  expiresAt : Option Nat
  deriving DecidableEq

structure CreditTransaction where
  id : Nat
  kind : CreditTxKind
  amount : Int
  timestamp : Nat
  reason : String
  counterparty : Option Address
  deriving DecidableEq

structure AccountCredit where
  subscriber : Address
  balance : Int
  lots : List CreditLot
  transactions : List CreditTransaction
  expirationPolicy : ExpirationPolicy
  deriving DecidableEq

structure CreditApplied where
  subscriptionId : Nat
  (applied remainingDue balanceAfter : Int)

inductive PrepaymentTxKind where
  | deposit | withdraw | drawdown
  deriving DecidableEq

structure PrepaymentTransaction where
  id : Nat
  kind : PrepaymentTxKind
  (amount balanceAfter : Int)
  timestamp : Nat
  deriving DecidableEq

structure PrepaymentWallet where
  id : Nat
  subscriber : Address
  subscriptionId : Nat
  currency : String
  (balance totalDeposited totalWithdrawn totalDrawn : Int)
  transactions : List PrepaymentTransaction
  (createdAt updatedAt : Nat)

structure PrepaymentSnapshot where
  walletId : Nat
  balance : Int
  transactionId : Nat

inductive Event where
  | issue (subscriber : Address) (amount : Int)
  | wallet (subscriber : Address) (walletId : Nat)

structure Wallets where
  nextWalletId : Option Nat
  wallet : Store Nat PrepaymentWallet
  walletTx : Store Nat Nat

/-- The keys of the credit accounts; the account count, the counter and the index number the accounts for the cron. -/
structure Accounts where
  nextId : Option Nat
  account : Store Address AccountCredit
  accountCount : Option Nat
  counter : Store Nat Address
  accountIndex : Store Address Nat

structure State extends Accounts, Wallets where
  admin : Option Address
  events : List Event

def State.empty : State where
  nextId := none
  account := fun _ => none
  accountCount := none
  counter := fun _ => none
  accountIndex := fun _ => none
  nextWalletId := none
  wallet := fun _ => none
  walletTx := fun _ => none
  admin := none
  events := []

/-- `deposit` and `withdraw` answer with a `transaction_id` that they never bind: here it is whatever the host
    says. -/
structure Env extends Host where
  unboundTransactionId : Nat

def requireAdmin (s : State) : Outcome Address := present s.admin (.error .notInitialized)

def Env.requireAuth (env : Env) (address : Address) : Outcome Unit := orPanic (env.toHost.requireAuth address)

def account (s : Accounts) (subscriber : Address) : AccountCredit :=
  (s.account subscriber).getD
    { subscriber, balance := 0, lots := [], transactions := [], expirationPolicy := .never }

def register (s : Accounts) (subscriber : Address) : Outcome Accounts := do
  if s.accountIndex subscriber = none then (do
    let index := s.accountCount.getD 0
    let next ← orPanic (u32 (index + 1))
    return { s with
      counter := put s.counter index subscriber
      accountIndex := put s.accountIndex subscriber index
      accountCount := some next })
  else return s

def save (s : Accounts) (credit : AccountCredit) : Outcome Accounts := do
  let s ← register s credit.subscriber
  return { s with account := put s.account credit.subscriber credit }

def nextId (s : Accounts) : Outcome (Nat × Accounts) := do
  let id := s.nextId.getD 0
  let next ← orPanic (u64 (id + 1))
  return (id, { s with nextId := some next })

def isExpired (now : Nat) (lot : CreditLot) : Bool :=
  match lot.expiresAt with
  | some t => t ≤ now
  | none => false

def Spendable (now : Nat) (lot : CreditLot) : Prop := 0 < lot.remaining ∧ isExpired now lot = false

def Lapsed (now : Nat) (lot : CreditLot) : Prop := 0 < lot.remaining ∧ isExpired now lot = true

instance (now : Nat) (lot : CreditLot) : Decidable (Spendable now lot) := inferInstanceAs (Decidable (_ ∧ _))

instance (now : Nat) (lot : CreditLot) : Decidable (Lapsed now lot) := inferInstanceAs (Decidable (_ ∧ _))

def availableFrom (now : Nat) (sum : Int) : List CreditLot → Result Int
  | [] => .ok sum
  | lot :: lots =>
    if Spendable now lot then (do
      let sum ← i128 (sum + lot.remaining)
      availableFrom now sum lots)
    else availableFrom now sum lots

def available (now : Nat) (credit : AccountCredit) : Result Int := availableFrom now 0 credit.lots

def expireFrom (now : Nat) (expired : Int) : List CreditLot → Result (Int × List CreditLot)
  | [] => .ok (expired, [])
  | lot :: lots =>
    if Lapsed now lot then (do
      let expired ← i128 (expired + lot.remaining)
      let (expired, rest) ← expireFrom now expired lots
      return (expired, { lot with remaining := 0 } :: rest))
    else (do
      let (expired, rest) ← expireFrom now expired lots
      return (expired, lot :: rest))

def consumeFrom (now : Nat) : List CreditLot → Int → List CreditLot × Int
  | [], remaining => ([], remaining)
  | lot :: lots, remaining =>
    if remaining ≤ 0 then (lot :: lots, remaining)
    else if Spendable now lot then
      let take := if lot.remaining < remaining then lot.remaining else remaining
      let (rest, left) := consumeFrom now lots (remaining - take)
      ({ lot with remaining := lot.remaining - take } :: rest, left)
    else
      let (rest, left) := consumeFrom now lots remaining
      (lot :: rest, left)

def consume (now : Nat) (credit : AccountCredit) (amount : Int) : Int × AccountCredit :=
  let (lots, remaining) := consumeFrom now credit.lots amount
  (amount - remaining, { credit with lots })

def trim {α : Type} (history : List α) : List α := history.drop (history.length - maxHistory)

def record (env : Env) (s : Accounts) (credit : AccountCredit) (kind : CreditTxKind) (amount : Int) (reason : String)
    (counterparty : Option Address) : Outcome (AccountCredit × Accounts) := do
  let (id, s) ← nextId s
  let tx : CreditTransaction := { id, kind, amount, timestamp := env.timestamp, reason, counterparty }
  return ({ credit with transactions := trim (credit.transactions ++ [tx]) }, s)

def realizeExpiry (env : Env) (s : Accounts) (credit : AccountCredit) : Outcome (AccountCredit × Accounts) := do
  let (expired, lots) ← orPanic (expireFrom env.timestamp 0 credit.lots)
  if 0 < expired then (do
    let balance ← orPanic (i128 (credit.balance - expired))
    record env s { credit with lots, balance } .expire (-expired) "expired" none)
  else return ({ credit with lots }, s)

def initializeCredit (s : State) (admin : Address) : Outcome State := do
  require (s.admin = none) (.error .alreadyInitialized)
  return { s with admin := some admin, nextId := some 0 }

def setExpirationPolicy (env : Env) (s : State) (subscriber : Address) (policy : ExpirationPolicy) : Outcome State := do
  let admin ← requireAdmin s
  env.requireAuth admin
  let credit := { account s.toAccounts subscriber with expirationPolicy := policy }
  let accounts ← save s.toAccounts credit
  return { s with toAccounts := accounts }

def policyExpiry (now : Nat) : ExpirationPolicy → Outcome (Option Nat)
  | .never => .ok none
  | .afterSecs secs => do
    let expiresAt ← orPanic (u64 (now + secs))
    return some expiresAt

def issueCredit (env : Env) (s : State) (subscriber : Address) (amount : Int) (reason : String)
    (expiresAt : Option Nat) : Outcome (Int × State) := do
  let admin ← requireAdmin s
  env.requireAuth admin
  require (0 < amount) (.error .invalidAmount)
  let (credit, accounts) ← realizeExpiry env s.toAccounts (account s.toAccounts subscriber)
  let expiry ← (match expiresAt with
    | some t => .ok (some t)
    | none => policyExpiry env.timestamp credit.expirationPolicy)
  let (id, accounts) ← nextId accounts
  let lot : CreditLot := { id, remaining := amount, issuedAt := env.timestamp, expiresAt := expiry }
  let balance ← orPanic (i128 (credit.balance + amount))
  let (credit, accounts) ← record env accounts { credit with lots := credit.lots ++ [lot], balance } .issue amount
    reason none
  let accounts ← save accounts credit
  return (credit.balance, { s with toAccounts := accounts, events := s.events ++ [.issue subscriber amount] })

def applyCredit (env : Env) (s : State) (subscriber : Address) (subscriptionId : Nat) (amountDue : Int) :
    Outcome (CreditApplied × State) := do
  require (0 ≤ amountDue) (.error .invalidAmount)
  let (credit, accounts) ← realizeExpiry env s.toAccounts (account s.toAccounts subscriber)
  let (applied, credit) := consume env.timestamp credit amountDue
  let (credit, accounts) ← (if 0 < applied then (do
      let balance ← orPanic (i128 (credit.balance - applied))
      record env accounts { credit with balance } .apply (-applied) "charge_application" none)
    else .ok (credit, accounts))
  let accounts ← save accounts credit
  let answer : CreditApplied :=
    { subscriptionId, applied, remainingDue := amountDue - applied, balanceAfter := credit.balance }
  return (answer, { s with toAccounts := accounts })

def transferCredit (env : Env) (s : State) (sender recipient : Address) (amount : Int) (reason : String) :
    Outcome State := do
  env.requireAuth sender
  require (0 < amount) (.error .invalidAmount)
  require (sender ≠ recipient) (.error .selfTransfer)
  let (credit, accounts) ← realizeExpiry env s.toAccounts (account s.toAccounts sender)
  let spendable ← orPanic (available env.timestamp credit)
  require (amount ≤ spendable) (.error .insufficientCredit)
  let (moved, credit) := consume env.timestamp credit amount
  let balance ← orPanic (i128 (credit.balance - moved))
  let (credit, accounts) ← record env accounts { credit with balance } .transferOut (-moved) reason (some recipient)
  let accounts ← save accounts credit
  let (credit, accounts) ← realizeExpiry env accounts (account accounts recipient)
  let (id, accounts) ← nextId accounts
  let expiry ← policyExpiry env.timestamp credit.expirationPolicy
  let lot : CreditLot := { id, remaining := moved, issuedAt := env.timestamp, expiresAt := expiry }
  let balance ← orPanic (i128 (credit.balance + moved))
  let (credit, accounts) ← record env accounts { credit with lots := credit.lots ++ [lot], balance } .transferIn moved
    reason (some sender)
  let accounts ← save accounts credit
  return { s with toAccounts := accounts }

def getCreditBalance (env : Env) (s : State) (subscriber : Address) : Outcome Int :=
  orPanic (available env.timestamp (account s.toAccounts subscriber))

def expireCredits (env : Env) (s : State) (subscriber : Address) : Outcome (Int × State) := do
  let before := account s.toAccounts subscriber
  let (credit, accounts) ← realizeExpiry env s.toAccounts before
  let accounts ← save accounts credit
  let expired ← orPanic (i128 (before.balance - credit.balance))
  return (expired, { s with toAccounts := accounts })

def expireRound (env : Env) (results : List (Address × Int)) (s : Accounts) (i : Nat) :
    Outcome (List (Address × Int) × Accounts) :=
  match s.counter i with
  | none => .ok (results, s)
  | some subscriber => do
    let before := account s subscriber
    let (credit, s) ← realizeExpiry env s before
    let expired ← orPanic (i128 (before.balance - credit.balance))
    if 0 < expired then (do
      let s ← save s credit
      return (results ++ [(subscriber, expired)], s))
    else return (results, s)

def expireAll (env : Env) (results : List (Address × Int)) (s : Accounts) :
    List Nat → Outcome (List (Address × Int) × Accounts)
  | [] => .ok (results, s)
  | i :: rest => do
    let (results, s) ← expireRound env results s i
    expireAll env results s rest

def expireCreditsWithCron (env : Env) (s : State) (admin : Address) : Outcome (List (Address × Int) × State) := do
  let configured ← present s.admin (.panic (.message "admin required"))
  require (configured = admin) (.panic (.message "unauthorized"))
  env.requireAuth admin
  let (results, accounts) ← expireAll env [] s.toAccounts (List.range (s.accountCount.getD 0))
  return (results, { s with toAccounts := accounts })

def nextWalletIdOf (s : Wallets) : Outcome (Nat × Wallets) := do
  let base := s.nextWalletId.getD 0
  let next ← orPanic (u64 (base + 1))
  return (base, { s with nextWalletId := some next })

def createWallet (env : Env) (s : State) (subscriber : Address) (subscriptionId : Nat) (currency : String) :
    Outcome (Nat × State) := do
  let admin ← present s.admin (.panic (.message "admin required"))
  env.requireAuth admin
  let (id, wallets) ← nextWalletIdOf s.toWallets
  let wallet : PrepaymentWallet :=
    { id, subscriber, subscriptionId, currency
      balance := 0, totalDeposited := 0, totalWithdrawn := 0, totalDrawn := 0
      transactions := [], createdAt := env.timestamp, updatedAt := env.timestamp }
  return (id, { s with
    toWallets := { wallets with wallet := put wallets.wallet id wallet }
    events := s.events ++ [.wallet subscriber id] })

def walletOf (env : Env) (s : Wallets) (caller : Address) (walletId : Nat) (amount : Int) :
    Outcome PrepaymentWallet := do
  env.requireAuth caller
  require (0 < amount) (.error .invalidAmount)
  let wallet ← present (s.wallet walletId) (.error .walletNotFound)
  require (wallet.subscriber = caller) (.error .unauthorized)
  return wallet

def deposit (env : Env) (s : Wallets) (caller : Address) (walletId : Nat) (amount : Int) :
    Outcome (PrepaymentSnapshot × Wallets) := do
  let wallet ← walletOf env s caller walletId amount
  let balance ← orPanic (i128 (wallet.balance + amount))
  let totalDeposited ← orPanic (i128 (wallet.totalDeposited + amount))
  let wallet := { wallet with balance, totalDeposited, updatedAt := env.timestamp }
  let snapshot : PrepaymentSnapshot := { walletId, balance, transactionId := env.unboundTransactionId }
  return (snapshot, { s with wallet := put s.wallet walletId wallet })

def withdraw (env : Env) (s : Wallets) (caller : Address) (walletId : Nat) (amount : Int) :
    Outcome (PrepaymentSnapshot × Wallets) := do
  let wallet ← walletOf env s caller walletId amount
  require (amount ≤ wallet.balance) (.error .insufficientCredit)
  let balance ← orPanic (i128 (wallet.balance - amount))
  let totalWithdrawn ← orPanic (i128 (wallet.totalWithdrawn + amount))
  let wallet := { wallet with balance, totalWithdrawn, updatedAt := env.timestamp }
  let snapshot : PrepaymentSnapshot := { walletId, balance, transactionId := env.unboundTransactionId }
  return (snapshot, { s with wallet := put s.wallet walletId wallet })

def nextWalletTxId (s : Wallets) (walletId : Nat) : Outcome (Nat × Wallets) := do
  let id := (s.walletTx walletId).getD 0
  let next ← orPanic (u64 (id + 1))
  return (id, { s with walletTx := put s.walletTx walletId next })

def recordWalletTransaction (env : Env) (s : Wallets) (wallet : PrepaymentWallet) (kind : PrepaymentTxKind)
    (amount : Int) : Outcome (Nat × PrepaymentWallet × Wallets) := do
  let (id, s) ← nextWalletTxId s wallet.id
  let tx : PrepaymentTransaction := { id, kind, amount, balanceAfter := wallet.balance, timestamp := env.timestamp }
  return (id, { wallet with transactions := trim (wallet.transactions ++ [tx]) }, s)

def drawdown (env : Env) (s : Wallets) (caller : Address) (walletId : Nat) (amount : Int) :
    Outcome (PrepaymentSnapshot × Wallets) := do
  let wallet ← walletOf env s caller walletId amount
  require (amount ≤ wallet.balance) (.error .insufficientCredit)
  let balance ← orPanic (i128 (wallet.balance - amount))
  let totalDrawn ← orPanic (i128 (wallet.totalDrawn + amount))
  let wallet := { wallet with balance, totalDrawn, updatedAt := env.timestamp }
  let (transactionId, wallet, s) ← recordWalletTransaction env s wallet .drawdown amount
  let snapshot : PrepaymentSnapshot := { walletId, balance, transactionId }
  return (snapshot, { s with wallet := put s.wallet walletId wallet })

inductive Call where
  | initializeCredit (admin : Address)
  | setExpirationPolicy (subscriber : Address) (policy : ExpirationPolicy)
  | issueCredit (subscriber : Address) (amount : Int) (reason : String) (expiresAt : Option Nat)
  | applyCredit (subscriber : Address) (subscriptionId : Nat) (amountDue : Int)
  | transferCredit (sender recipient : Address) (amount : Int) (reason : String)
  | expireCredits (subscriber : Address)
  | expireCreditsWithCron (admin : Address)
  | createWallet (subscriber : Address) (subscriptionId : Nat) (currency : String)
  | deposit (caller : Address) (walletId : Nat) (amount : Int)
  | withdraw (caller : Address) (walletId : Nat) (amount : Int)
  | drawdown (caller : Address) (walletId : Nat) (amount : Int)

structure Tx where
  env : Env
  call : Call

def onWallets (s : State) (run : Outcome (PrepaymentSnapshot × Wallets)) : Outcome State := do
  let (_, wallets) ← run
  return { s with toWallets := wallets }

def exec (tx : Tx) (s : State) : Outcome State :=
  match tx.call with
  | .initializeCredit admin => initializeCredit s admin
  | .setExpirationPolicy subscriber policy => setExpirationPolicy tx.env s subscriber policy
  | .issueCredit subscriber amount reason expiresAt => do
    let (_, s) ← issueCredit tx.env s subscriber amount reason expiresAt
    return s
  | .applyCredit subscriber subscriptionId amountDue => do
    let (_, s) ← applyCredit tx.env s subscriber subscriptionId amountDue
    return s
  | .transferCredit sender recipient amount reason => transferCredit tx.env s sender recipient amount reason
  | .expireCredits subscriber => do
    let (_, s) ← expireCredits tx.env s subscriber
    return s
  | .expireCreditsWithCron admin => do
    let (_, s) ← expireCreditsWithCron tx.env s admin
    return s
  | .createWallet subscriber subscriptionId currency => do
    let (_, s) ← createWallet tx.env s subscriber subscriptionId currency
    return s
  | .deposit caller walletId amount => onWallets s (deposit tx.env s.toWallets caller walletId amount)
  | .withdraw caller walletId amount => onWallets s (withdraw tx.env s.toWallets caller walletId amount)
  | .drawdown caller walletId amount => onWallets s (drawdown tx.env s.toWallets caller walletId amount)

def contract : Contract Tx State (Failure CreditError) where
  time tx := tx.env.timestamp
  exec := exec

abbrev World := Ledger Tx State

def Initialised (s : State) : Prop := s = .empty

abbrev Reachable (guard : World → Tx → Prop) (w : World) : Prop :=
  Ledger.Reachable contract Initialised guard w

abbrev submit (w : World) (tx : Tx) : World := Ledger.submit contract w tx

def Env.signedBy (now : Nat) (signers : List Address) : Env where
  timestamp := now
  authorized := fun address => signers.contains address
  unboundTransactionId := 0

def trial (calls : List (Nat × List Address × Call)) : World :=
  Ledger.run contract (Ledger.genesis .empty) (calls.map fun (now, signers, call) => ⟨.signedBy now signers, call⟩)

theorem trial_reachable {guard : World → Tx → Prop} {calls : List (Nat × List Address × Call)}
    (steps : Ledger.Steps contract guard (Ledger.genesis .empty) (trial calls)) : Reachable guard (trial calls) :=
  ⟨.empty, rfl, steps⟩

theorem trial_inOrder {calls : List (Nat × List Address × Call)}
    (sorted : (0 :: calls.map (·.1)).IsChain (· ≤ ·)) : Reachable (Ledger.inOrder contract) (trial calls) := by
  apply trial_reachable
  apply Ledger.Steps.run_inOrder
  rwa [List.map_map]

def spendable (now : Nat) (lot : CreditLot) : Int := if Spendable now lot then lot.remaining else 0

def lapsed (now : Nat) (lot : CreditLot) : Int := if Lapsed now lot then lot.remaining else 0

def CreditLot.reduce (lot : CreditLot) (taken : Int) : CreditLot := { lot with remaining := lot.remaining - taken }

def CreditLot.expire (now : Nat) (lot : CreditLot) : CreditLot :=
  if Lapsed now lot then { lot with remaining := 0 } else lot

section Lot

variable {now later : Nat} {lot : CreditLot}

theorem spendable_nonneg (now : Nat) (lot : CreditLot) : 0 ≤ spendable now lot := by
  unfold spendable
  split
  · rename_i open_
    exact open_.1.le
  · exact le_rfl

theorem lapsed_nonneg (now : Nat) (lot : CreditLot) : 0 ≤ lapsed now lot := by
  unfold lapsed
  split
  · rename_i gone
    exact gone.1.le
  · exact le_rfl

theorem spendable_fresh (nonneg : 0 ≤ lot.remaining) (fresh : isExpired now lot = false) :
    spendable now lot = lot.remaining := by
  unfold spendable
  split
  · rfl
  · rename_i spent
    have empty : ¬ 0 < lot.remaining := fun more => spent ⟨more, fresh⟩
    omega

theorem spendable_expired (expired : isExpired now lot = true) : spendable now lot = 0 :=
  if_neg fun holds => Bool.noConfusion (holds.2.symm.trans expired)

theorem lapsed_fresh (fresh : isExpired now lot = false) : lapsed now lot = 0 :=
  if_neg fun holds => Bool.noConfusion (holds.2.symm.trans fresh)

theorem lapsed_expired (nonneg : 0 ≤ lot.remaining) (expired : isExpired now lot = true) :
    lapsed now lot = lot.remaining := by
  unfold lapsed
  split
  · rfl
  · rename_i empty
    have none : ¬ 0 < lot.remaining := fun more => empty ⟨more, expired⟩
    omega

theorem remaining_split (now : Nat) (nonneg : 0 ≤ lot.remaining) :
    lot.remaining = spendable now lot + lapsed now lot := by
  cases expired : isExpired now lot with
  | true => rw [spendable_expired expired, lapsed_expired nonneg expired, Int.zero_add]
  | false => rw [spendable_fresh nonneg expired, lapsed_fresh expired, Int.add_zero]

theorem reduce_zero (lot : CreditLot) : lot.reduce 0 = lot := by
  unfold CreditLot.reduce
  rw [Int.sub_zero]

theorem spendable_reduce (now : Nat) (lot : CreditLot) (taken : Int) (pos : 0 ≤ taken)
    (enough : taken ≤ spendable now lot) : spendable now (lot.reduce taken) = spendable now lot - taken := by
  by_cases holds : Spendable now lot
  · have whole : spendable now lot = lot.remaining := if_pos holds
    rw [whole] at enough ⊢
    have left : 0 ≤ (lot.reduce taken).remaining := Int.sub_nonneg_of_le enough
    exact spendable_fresh left holds.2
  · have nothing : spendable now lot = 0 := if_neg holds
    have none : taken = 0 := by omega
    rw [none, reduce_zero, Int.sub_zero]

theorem drawable (now : Nat) : Drawable (spendable now) CreditLot.reduce where
  nonneg := spendable_nonneg now
  reduced := spendable_reduce now

theorem isExpired_mono (order : now ≤ later) (expired : isExpired now lot = true) : isExpired later lot = true := by
  unfold isExpired at expired ⊢
  split at expired
  · simp only [decide_eq_true_eq] at expired ⊢
    omega
  · cases expired

theorem expire_remaining (now : Nat) (lot : CreditLot) :
    (lot.expire now).remaining = lot.remaining - lapsed now lot := by
  unfold CreditLot.expire lapsed
  split
  · exact (Int.sub_self _).symm
  · exact (Int.sub_zero _).symm

theorem spendable_expire (order : now ≤ later) : spendable later (lot.expire now) = spendable later lot := by
  unfold CreditLot.expire
  split
  · rename_i gone
    have expired := isExpired_mono order gone.2
    rw [spendable_expired expired]
    exact spendable_expired expired
  · rfl

end Lot

section Loops

variable {now : Nat}

theorem availableFrom_ok {lots : List CreditLot} {sum answer : Int} (run : availableFrom now sum lots = .ok answer) :
    answer = sum + total (spendable now) lots := by
  induction lots generalizing sum with
  | nil =>
    cases run
    exact (Int.add_zero _).symm
  | cons lot lots ih =>
    unfold availableFrom at run
    rw [total_cons]
    unfold spendable
    split at run
    · rename_i holds
      simp only [bind_eq_ok, i128_eq_ok] at run
      rcases run with ⟨next, ⟨_, rfl⟩, rest⟩
      rw [if_pos holds, ih rest]
      exact Int.add_assoc ..
    · rename_i empty
      rw [if_neg empty, ih run, Int.zero_add]
      rfl

theorem availableFrom_eq {lots : List CreditLot} {sum : Int} (nonneg : 0 ≤ sum)
    (fits : sum + total (spendable now) lots < 2 ^ 127) :
    availableFrom now sum lots = .ok (sum + total (spendable now) lots) := by
  induction lots generalizing sum with
  | nil => exact congrArg Except.ok (Int.add_zero _).symm
  | cons lot lots ih =>
    have rest := total_nonneg (spendable_nonneg now) lots
    have first := spendable_nonneg now lot
    rw [total_cons] at fits ⊢
    unfold availableFrom
    by_cases holds : Spendable now lot
    · have whole : spendable now lot = lot.remaining := if_pos holds
      have next : i128 (sum + lot.remaining) = .ok (sum + lot.remaining) :=
        (i128_eq_ok ..).mpr ⟨⟨by omega, by omega⟩, rfl⟩
      rw [if_pos holds, next, whole, ← Int.add_assoc]
      exact ih (by omega) (by omega)
    · have nothing : spendable now lot = 0 := if_neg holds
      rw [if_neg holds, nothing, Int.zero_add]
      exact ih nonneg (by omega)

theorem expireFrom_ok {lots rest : List CreditLot} {sum expired : Int}
    (run : expireFrom now sum lots = .ok (expired, rest)) :
    expired = sum + total (lapsed now) lots ∧ rest = lots.map (CreditLot.expire now) := by
  induction lots generalizing sum rest with
  | nil =>
    cases run
    exact ⟨(Int.add_zero _).symm, rfl⟩
  | cons lot lots ih =>
    unfold expireFrom at run
    rw [total_cons, List.map_cons]
    unfold lapsed CreditLot.expire
    split at run
    · rename_i gone
      simp only [bind_eq_ok, i128_eq_ok, pure_eq_ok] at run
      rcases run with ⟨_, ⟨_, rfl⟩, ⟨_, _⟩, after, same⟩
      cases same
      rcases ih after with ⟨counted, rfl⟩
      rw [if_pos gone, if_pos gone, counted]
      exact ⟨Int.add_assoc .., rfl⟩
    · rename_i kept
      simp only [bind_eq_ok, pure_eq_ok] at run
      rcases run with ⟨⟨_, _⟩, after, same⟩
      cases same
      rcases ih after with ⟨counted, rfl⟩
      rw [if_neg kept, if_neg kept, counted, Int.zero_add]
      exact ⟨rfl, rfl⟩

theorem expireFrom_eq {lots : List CreditLot} {sum : Int} (nonneg : 0 ≤ sum)
    (fits : sum + total (lapsed now) lots < 2 ^ 127) :
    expireFrom now sum lots = .ok (sum + total (lapsed now) lots, lots.map (CreditLot.expire now)) := by
  induction lots generalizing sum with
  | nil =>
    rw [total_nil, Int.add_zero]
    rfl
  | cons lot lots ih =>
    have rest := total_nonneg (lapsed_nonneg now) lots
    have first := lapsed_nonneg now lot
    rw [total_cons] at fits ⊢
    unfold expireFrom
    by_cases gone : Lapsed now lot
    · have whole : lapsed now lot = lot.remaining := if_pos gone
      have emptied : lot.expire now = { lot with remaining := 0 } := if_pos gone
      have next : i128 (sum + lot.remaining) = .ok (sum + lot.remaining) :=
        (i128_eq_ok ..).mpr ⟨⟨by omega, by omega⟩, rfl⟩
      rw [if_pos gone, next, whole, ← Int.add_assoc, List.map_cons, emptied]
      change (expireFrom now (sum + lot.remaining) lots >>= _) = _
      rw [ih (by omega) (by omega)]
      rfl
    · have nothing : lapsed now lot = 0 := if_neg gone
      have kept : lot.expire now = lot := if_neg gone
      rw [if_neg gone, nothing, Int.zero_add, List.map_cons, kept, ih nonneg (by omega)]
      rfl

theorem consumeFrom_eq (now : Nat) (lots : List CreditLot) {amount : Int} (nonneg : 0 ≤ amount) :
    consumeFrom now lots amount = draw (spendable now) CreditLot.reduce lots amount := by
  have idle (lots : List CreditLot) : draw (spendable now) CreditLot.reduce lots 0 = (lots, 0) := by
    induction lots with
    | nil => rfl
    | cons lot lots ih =>
      have none : min (spendable now lot) 0 = 0 := min_eq_right (spendable_nonneg now lot)
      simp only [draw, none, Int.sub_zero, ih, reduce_zero]
  induction lots generalizing amount with
  | nil => rfl
  | cons lot lots ih =>
    unfold consumeFrom
    by_cases done : amount ≤ 0
    · have zero : amount = 0 := by omega
      rw [if_pos done, zero, idle]
    · rw [if_neg done]
      by_cases holds : Spendable now lot
      · have whole : spendable now lot = lot.remaining := if_pos holds
        have taken : (if lot.remaining < amount then lot.remaining else amount) = min (spendable now lot) amount := by
          rw [whole]
          split <;> omega
        simp only [if_pos holds, draw, taken]
        rw [ih (by omega)]
        rfl
      · have nothing : spendable now lot = 0 := if_neg holds
        have none : min 0 amount = 0 := min_eq_left nonneg
        simp only [if_neg holds, draw, nothing, none, Int.sub_zero, reduce_zero]
        rw [ih nonneg]

end Loops

end SubTrackr.Credit
