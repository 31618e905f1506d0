import SubTrackr.Billing.CreditService
import SubTrackr.Credit.Totality
import Mathlib.Algebra.Order.BigOperators.Group.List

namespace SubTrackr.Billing

open List Lib

structure CreditLot.Is (lot : CreditLot) (stored : Credit.CreditLot) : Prop where
  remaining : lot.remaining.Is stored.remaining
  issuedAt : lot.issuedAt.Is stored.issuedAt
  expiresAt : Option.Rel (fun x (n : Nat) => x.Is n) lot.expiresAt stored.expiresAt

def ExpirationPolicy.Is : ExpirationPolicy → Credit.ExpirationPolicy → Prop
  | never, .never => True
  | afterSecs seconds, .afterSecs secs => seconds.Is secs
  | _, _ => False

/-- An account of the service has the balance, the lots and the policy of an account on chain. -/
structure CreditAccount.Is (account : CreditAccount) (stored : Credit.AccountCredit) : Prop where
  balance : account.balance.Is stored.balance
  lots : account.lots.Forall₂ CreditLot.Is stored.lots
  expirationPolicy : account.expirationPolicy.Is stored.expirationPolicy

section Lots

variable {now : Number} {t : Nat} {lot : CreditLot} {stored : Credit.CreditLot} {lots : List CreditLot}
  {ledger : List Credit.CreditLot}

theorem isExpiredLot_eq (time : now.Is t) (is : lot.Is stored) : isExpiredLot now lot = Credit.isExpired t stored := by
  have expiry := is.expiresAt
  unfold isExpiredLot Credit.isExpired
  revert expiry
  cases lot.expiresAt with
  | none =>
    cases stored.expiresAt with
    | none => exact fun _ => rfl
    | some _ => rintro ⟨⟩
  | some x =>
    cases stored.expiresAt with
    | none => rintro ⟨⟩
    | some n =>
      rintro ⟨known⟩
      have order := known.le_iff time
      rw [Int.ofNat_le] at order
      simp [order]

theorem spendable_iff (time : now.Is t) (is : lot.Is stored) :
    (0 < lot.remaining ∧ isExpiredLot now lot = false) ↔ Credit.Spendable t stored := by
  rw [isExpiredLot_eq time is, Double.zero_is.lt_iff is.remaining]
  exact Iff.rfl

theorem lapsed_iff (time : now.Is t) (is : lot.Is stored) :
    (0 < lot.remaining ∧ isExpiredLot now lot = true) ↔ Credit.Lapsed t stored := by
  rw [isExpiredLot_eq time is, Double.zero_is.lt_iff is.remaining]
  exact Iff.rfl

theorem CreditLot.Is.emptied (is : lot.Is stored) :
    CreditLot.Is { lot with remaining := 0 } { stored with remaining := 0 } :=
  ⟨Double.zero_is, is.issuedAt, is.expiresAt⟩

section

variable {s : Int} {sum : Number} (time : now.Is t) (same : lots.Forall₂ CreditLot.Is ledger) (start : sum.Is s) (nonneg : 0 ≤ s)

include time same start nonneg

theorem foldl_available (safe : s + total (Credit.spendable t) ledger ≤ Double.maxSafeInteger) :
    (lots.foldl (fun sum lot => if 0 < lot.remaining ∧ isExpiredLot now lot = false then sum + lot.remaining else sum)
      sum).Is (s + total (Credit.spendable t) ledger) := by
  induction same generalizing sum s with
  | nil =>
    rw [total_nil, add_zero]
    exact start
  | @cons lot stored lots ledger is _ ih =>
    have first := Credit.spendable_nonneg t stored
    have rest := total_nonneg (Credit.spendable_nonneg t) ledger
    rw [total_cons, ← add_assoc] at safe ⊢
    rw [foldl_cons]
    refine ih ?_ (by omega) safe
    by_cases holds : Credit.Spendable t stored
    · have whole : Credit.spendable t stored = stored.remaining := if_pos holds
      rw [if_pos ((spendable_iff time is).mpr holds), whole]
      rw [whole] at safe first
      exact start.add is.remaining (Double.safe_abs (by omega) (by omega))
    · have nothing : Credit.spendable t stored = 0 := if_neg holds
      rw [if_neg (mt (spendable_iff time is).mp holds), nothing, add_zero]
      exact start

theorem expireLots_is (safe : s + total (Credit.lapsed t) ledger ≤ Double.maxSafeInteger) :
    (expireLots now sum lots).1.Is (s + total (Credit.lapsed t) ledger) ∧
      (expireLots now sum lots).2.Forall₂ CreditLot.Is (ledger.map (Credit.CreditLot.expire t)) := by
  induction same generalizing sum s with
  | nil =>
    rw [total_nil, add_zero]
    exact ⟨start, .nil⟩
  | @cons lot stored lots ledger is _ ih =>
    have first := Credit.lapsed_nonneg t stored
    have rest := total_nonneg (Credit.lapsed_nonneg t) ledger
    rw [total_cons, ← add_assoc] at safe ⊢
    rw [map_cons]
    unfold expireLots
    by_cases gone : Credit.Lapsed t stored
    · have whole : Credit.lapsed t stored = stored.remaining := if_pos gone
      have emptied : stored.expire t = { stored with remaining := 0 } := if_pos gone
      rw [if_pos ((lapsed_iff time is).mpr gone), whole, emptied]
      rw [whole] at safe first
      have next := ih (start.add is.remaining (Double.safe_abs (by omega) (by omega))) (by omega) safe
      exact ⟨next.1, .cons is.emptied next.2⟩
    · have nothing : Credit.lapsed t stored = 0 := if_neg gone
      have kept : stored.expire t = stored := if_neg gone
      rw [if_neg (mt (lapsed_iff time is).mp gone), nothing, kept, add_zero]
      rw [nothing, add_zero] at safe
      have next := ih start nonneg safe
      exact ⟨next.1, .cons is next.2⟩

end

theorem consumeFrom_done (t : Nat) (ledger : List Credit.CreditLot) {r : Int} (done : r ≤ 0) :
    Credit.consumeFrom t ledger r = (ledger, r) := by
  cases ledger with
  | nil => rfl
  | cons stored ledger =>
    unfold Credit.consumeFrom
    rw [if_pos done]

theorem consumeLots_is (time : now.Is t) (same : lots.Forall₂ CreditLot.Is ledger)
    (safe : ∀ stored ∈ ledger, stored.remaining ≤ Double.maxSafeInteger) {remaining : Number} {r : Int}
    (asked : remaining.Is r) (small : r ≤ Double.maxSafeInteger) (nonneg : 0 ≤ r) :
    (consumeLots now lots remaining).1.Forall₂ CreditLot.Is (Credit.consumeFrom t ledger r).1 ∧
      (consumeLots now lots remaining).2.Is (Credit.consumeFrom t ledger r).2 := by
  induction same generalizing remaining r with
  | nil => exact ⟨.nil, asked⟩
  | @cons lot stored lots ledger is rest ih =>
    obtain ⟨here, later⟩ := forall_mem_cons.mp safe
    have done := asked.le_iff Double.zero_is
    have empty := is.remaining.le_iff Double.zero_is
    have gone := isExpiredLot_eq time is
    unfold consumeLots Credit.consumeFrom
    by_cases none : r ≤ 0
    · rw [if_pos none, if_pos (.inl (done.mpr none))]
      have next := ih later asked small nonneg
      rw [consumeFrom_done t ledger none] at next
      exact ⟨.cons is next.1, next.2⟩
    · rw [if_neg none]
      by_cases holds : Credit.Spendable t stored
      · have positive := holds.1
        have fresh := holds.2
        have open_ : ¬ (remaining ≤ 0 ∨ lot.remaining ≤ 0 ∨ isExpiredLot now lot = true) := by
          rw [done, empty, gone, fresh]
          simp only [Bool.false_eq_true, or_false, not_or, not_le]
          omega
        have taken : (if stored.remaining < r then stored.remaining else r) = min stored.remaining r := by
          split <;> omega
        have take := is.remaining.min asked
        have left := is.remaining.sub take (Double.safe_abs (by omega) (by omega))
        have next := ih later (asked.sub take (Double.safe_abs (by omega) (by omega))) (by omega) (by omega)
        simp only [if_neg open_, if_pos holds, taken]
        exact ⟨.cons ⟨left, is.issuedAt, is.expiresAt⟩ next.1, next.2⟩
      · have skipped : remaining ≤ 0 ∨ lot.remaining ≤ 0 ∨ isExpiredLot now lot = true := by
          rw [done, empty, gone]
          refine .inr ?_
          by_contra both
          rw [not_or, not_le, Bool.not_eq_true] at both
          exact holds both
        have next := ih later asked small nonneg
        simp only [if_pos skipped, if_neg holds]
        exact ⟨.cons is next.1, next.2⟩

end Lots

section Accounts

variable {now : Number} {env : Credit.Env} {account : CreditAccount} {stored mid : Credit.AccountCredit}
  {txs : List Credit.CreditTransaction} {n m : Nat}

structure Safe (stored : Credit.AccountCredit) : Prop extends Credit.Balanced stored where
  safe : stored.balance ≤ Double.maxSafeInteger

theorem Safe.spendable (safe : Safe stored) (t : Nat) : Credit.spendableCredit t stored ≤ Double.maxSafeInteger := by
  have split := safe.toBalanced.split t
  have gone := Credit.lapsedCredit_nonneg t stored
  have bound := safe.safe
  omega

theorem Safe.lot (safe : Safe stored) : ∀ lot ∈ stored.lots, lot.remaining ≤ Double.maxSafeInteger := by
  intro lot mem
  have bound := safe.safe
  rw [safe.held] at bound
  refine (single_le_sum ?_ _ (mem_map_of_mem mem)).trans bound
  intro amount member
  obtain ⟨other, known, rfl⟩ := mem_map.mp member
  exact safe.nonneg other known

theorem Safe.realised (safe : Safe stored) (realised : Credit.Realised env n stored txs mid m) : Safe mid := by
  refine ⟨realised.balanced safe.toBalanced, ?_⟩
  have bound := safe.safe
  have lost := realised.amounts
  have left := realised.balance
  have gone := Credit.lapsedCredit_nonneg env.timestamp stored
  omega

theorem availableOf_is {t : Nat} (time : now.Is t) (is : account.Is stored) (safe : Safe stored) :
    (availableOf now account).Is (Credit.spendableCredit t stored) := by
  have bound := safe.spendable t
  have sum := foldl_available time is.lots Double.zero_is le_rfl (by rwa [zero_add])
  rwa [zero_add] at sum

theorem realiseExpiry_is (time : now.Is env.timestamp) (is : account.Is stored) (safe : Safe stored)
    (realised : Credit.Realised env n stored txs mid m) (v : CreditService) :
    (realiseExpiry now v account).2.1.Is mid ∧ (realiseExpiry now v account).2.1.accountId = account.accountId ∧
      (realiseExpiry now v account).2.2.accounts = v.accounts := by
  have split := safe.toBalanced.split env.timestamp
  have kept := Credit.spendableCredit_nonneg env.timestamp stored
  have gone := Credit.lapsedCredit_nonneg env.timestamp stored
  have bound := safe.safe
  have lost := realised.amounts
  have left := realised.balance
  have lots := expireLots_is time is.lots Double.zero_is le_rfl (by rw [zero_add]; exact (by omega :
    Credit.lapsedCredit env.timestamp stored ≤ Double.maxSafeInteger))
  rw [zero_add] at lots
  change _ ∧ List.Forall₂ _ _ _ at lots
  have some := Double.zero_is.lt_iff lots.1
  change _ ↔ 0 < Credit.lapsedCredit env.timestamp stored at some
  have policy := is.expirationPolicy
  rw [← realised.fixed.2] at policy
  have after := lots.2
  rw [← realised.lots] at after
  unfold realiseExpiry realiseExpiryInPlace
  by_cases lapsed : 0 < Credit.lapsedCredit env.timestamp stored
  · have balance := is.balance.sub lots.1 (Double.safe_abs
      (by change 0 ≤ stored.balance - Credit.lapsedCredit env.timestamp stored; omega)
      (by change stored.balance - Credit.lapsedCredit env.timestamp stored ≤ _; omega))
    have sum : stored.balance - total (Credit.lapsed env.timestamp) stored.lots = mid.balance := by
      change stored.balance - Credit.lapsedCredit env.timestamp stored = _
      omega
    rw [sum] at balance
    simp only [if_pos (some.mpr lapsed)]
    exact ⟨⟨balance, after, policy⟩, rfl, rfl⟩
  · have balance := is.balance
    rw [show stored.balance = mid.balance by omega] at balance
    simp only [if_neg (mt some.mp lapsed), and_true]
    exact ⟨balance, after, policy⟩

theorem consume_is {t : Nat} (time : now.Is t) (is : account.Is stored) (safe : Safe stored) {amount : Number} {r : Int}
    (asked : amount.Is r) (nonneg : 0 ≤ r) (enough : r ≤ Credit.spendableCredit t stored) :
    (consume now account amount).1.Is r ∧ (consume now account amount).2.lots.Forall₂ CreditLot.Is
      (draw (Credit.spendable t) Credit.CreditLot.reduce stored.lots r).1 := by
  have bound := safe.spendable t
  obtain ⟨lots, left⟩ := consumeLots_is time is.lots safe.lot asked (by omega) nonneg
  rw [Credit.consumeFrom_eq t _ nonneg] at lots left
  have rest := draw_left (Credit.drawable t) stored.lots nonneg
  have whole : min r (total (Credit.spendable t) stored.lots) = r := min_eq_left enough
  rw [rest, whole, sub_self] at left
  have taken := asked.sub left (Double.safe_abs (by omega) (by omega))
  rw [sub_zero] at taken
  exact ⟨taken, lots⟩

end Accounts

structure Mirrors (name : Soroban.Address → String) (v : CreditService) (s : Credit.Accounts) : Prop where
  accounts : ∀ a, (v.account (name a)).Is (Credit.account s a)
  keyed : ∀ id, (v.account id).accountId = id
  safe : ∀ a, Safe (Credit.account s a)

def opened (now : Number) (v : CreditService) (accountId : String) : CreditAccount × CreditService :=
  (realiseExpiry now (ensureAccount v accountId).2 (ensureAccount v accountId).1).2

section Steps

variable {name : Soroban.Address → String} {v v₁ : CreditService} {s s' : Credit.Accounts} {a : Soroban.Address}
  {now : Number} {env : Credit.Env} {account : CreditAccount} {mid credit : Credit.AccountCredit}

theorem account_of_accounts (same : v₁.accounts = v.accounts) : v₁.account = v.account := by
  unfold CreditService.account
  rw [same]

theorem ensureAccount_fst (v : CreditService) (accountId : String) :
    (ensureAccount v accountId).1 = v.account accountId := by
  unfold ensureAccount CreditService.account
  cases v.accounts accountId <;> rfl

theorem ensureAccount_account (v : CreditService) (accountId : String) :
    (ensureAccount v accountId).2.account = v.account := by
  unfold ensureAccount
  cases stored : v.accounts accountId with
  | some _ => rfl
  | none =>
    funext id
    unfold CreditService.account
    dsimp only
    rw [put_apply]
    split
    · rename_i here
      rw [here, stored]
      rfl
    · rfl

theorem opened_is {id : String} {stored : Credit.AccountCredit} (is : (v.account id).Is stored)
    (key : (v.account id).accountId = id) (safe : Safe stored) (time : now.Is env.timestamp) {n m : Nat}
    {txs : List Credit.CreditTransaction} (realised : Credit.Realised env n stored txs mid m) :
    (opened now v id).1.Is mid ∧ (opened now v id).1.accountId = id ∧ (opened now v id).2.account = v.account := by
  rw [← ensureAccount_fst v] at is key
  obtain ⟨after, named, kept⟩ := realiseExpiry_is time is safe realised (ensureAccount v id).2
  exact ⟨after, named.trans key, (account_of_accounts kept).trans (ensureAccount_account v id)⟩

theorem commit_account (v : CreditService) (account : CreditAccount) (id : String) :
    (commit v account).account id = if id = account.accountId then account else v.account id := by
  unfold commit CreditService.account
  dsimp only
  rw [put_apply]
  split <;> rfl

theorem Mirrors.same (mirrors : Mirrors name v s) (same : v₁.account = v.account) : Mirrors name v₁ s := by
  refine ⟨fun a => ?_, fun id => ?_, mirrors.safe⟩
  · rw [same]
    exact mirrors.accounts a
  · rw [same]
    exact mirrors.keyed id

theorem Mirrors.commit (mirrors : Mirrors name v s) (injective : Function.Injective name)
    (key : account.accountId = name a) (is : account.Is credit) (safe : Safe credit)
    (writes : Credit.Rewrites s s' a credit) : Mirrors name (Billing.commit v account) s' := by
  refine ⟨fun b => ?_, fun id => ?_, fun b => ?_⟩
  · rw [commit_account, key, writes b]
    by_cases here : b = a
    · rw [if_pos here, if_pos (congrArg name here)]
      exact is
    · rw [if_neg here, if_neg (mt (@injective b a) here)]
      exact mirrors.accounts b
  · rw [commit_account]
    split
    · rename_i here
      exact here.symm
    · exact mirrors.keyed id
  · rw [writes b]
    split
    · exact safe
    · exact mirrors.safe b

theorem policyExpiry_is (time : now.Is env.timestamp) {policy : ExpirationPolicy} {stored : Credit.ExpirationPolicy}
    (is : policy.Is stored)
    (fits : ∀ secs, stored = .afterSecs secs → (env.timestamp + secs : Nat) ≤ Double.maxSafeInteger) :
    ∃ expiry, Credit.policyExpiry env.timestamp stored = .ok expiry ∧
      Option.Rel (fun x (n : Nat) => x.Is n) (policyExpiry now policy) expiry := by
  cases policy with
  | never =>
    cases stored with
    | never => exact ⟨none, rfl, .none⟩
    | afterSecs _ => cases is
  | afterSecs seconds =>
    cases stored with
    | never => cases is
    | afterSecs secs =>
      have small := fits secs rfl
      have room : Soroban.u64 (env.timestamp + secs) = .ok (env.timestamp + secs) := by
        refine (Soroban.u64_eq_ok ..).mpr ⟨?_, rfl⟩
        unfold Double.maxSafeInteger at small
        omega
      refine ⟨some (env.timestamp + secs), ?_, .some ?_⟩
      · simp only [Credit.policyExpiry, room, Soroban.orPanic_ok, ok_bind]
        rfl
      · change Double.Is seconds secs at is
        rw [Int.natCast_add]
        exact time.add is (Double.safe_abs (by omega) (by omega))

theorem grant_is (is : account.Is mid) (time : now.Is env.timestamp) (safe : Safe mid) {amount : Number} {r : Int}
    (granted : amount.Is r) (pos : 0 < r) (fits : mid.balance + r ≤ Double.maxSafeInteger)
    {expiresAt : Option Number} {expiry : Option Nat}
    (due : Option.Rel (fun x (n : Nat) => x.Is n) expiresAt expiry) (v : CreditService) (kind : CreditEntryKind)
    (reason counterparty : String) (txs : List Credit.CreditTransaction) (id : Nat) :
    (grant now v account amount expiresAt kind reason counterparty).1.Is
        (mid.granted txs id r env.timestamp expiry) ∧
      (grant now v account amount expiresAt kind reason counterparty).1.accountId = account.accountId ∧
      (grant now v account amount expiresAt kind reason counterparty).2.accounts = v.accounts ∧
      Safe (mid.granted txs id r env.timestamp expiry) := by
  have low := safe.toBalanced.split env.timestamp
  have kept := Credit.spendableCredit_nonneg env.timestamp mid
  have gone := Credit.lapsedCredit_nonneg env.timestamp mid
  have wide : Double.maxSafeInteger < 2 ^ 127 := by decide
  refine ⟨⟨?_, ?_, is.expirationPolicy⟩, rfl, rfl, ?_, fits⟩
  · exact is.balance.add granted (Double.safe_abs (by omega) fits)
  · exact rel_append is.lots (.cons ⟨granted, time, due⟩ .nil)
  · exact safe.toBalanced.granted rfl rfl pos (by dsimp only; omega)

end Steps

inductive Operation where
  | setPolicy (account : Soroban.Address) (policy : Credit.ExpirationPolicy)
  | issue (account : Soroban.Address) (amount : Int) (reason actor : String) (expiresAt : Option Nat)
  | apply (account : Soroban.Address) (subscriptionId : Nat) (amountDue : Int)
  | transfer (sender recipient : Soroban.Address) (amount : Int) (reason : String)
  | expire (account : Soroban.Address)

def Operation.call : Operation → Credit.Call
  | setPolicy account policy => .setExpirationPolicy account policy
  | issue account amount reason _ expiresAt => .issueCredit account amount reason expiresAt
  | apply account subscriptionId amountDue => .applyCredit account subscriptionId amountDue
  | transfer sender recipient amount reason => .transferCredit sender recipient amount reason
  | expire account => .expireCredits account

def number (n : Int) : Number := Double.ofRat n

def servicePolicy : Credit.ExpirationPolicy → ExpirationPolicy
  | .never => .never
  | .afterSecs secs => .afterSecs (number secs)

def applyInput (name : Soroban.Address → String) (account : Soroban.Address) (subscriptionId : Nat) (amountDue : Int) :
    ApplyCreditInput where
  accountId := name account
  subscriptionId := toString subscriptionId
  amountDue := number amountDue

def Served.done {α : Type} (served : Served α) : Served Unit := (served.1.map fun _ => (), served.2)

def Operation.perform (name : Soroban.Address → String) (now : Nat) (v : CreditService) : Operation → Served Unit
  | setPolicy account policy => (.ok (), setExpirationPolicy v (name account) (servicePolicy policy))
  | issue account amount reason actor expiresAt =>
    Served.done (issueCredit (number now) v
      { accountId := name account, actor, amount := number amount, reason
        expiresAt := expiresAt.map fun t => number t })
  | apply account subscriptionId amountDue =>
    Served.done (applyCreditToCharge (number now) v (applyInput name account subscriptionId amountDue))
  | transfer sender recipient amount reason =>
    Served.done (transferCredit (number now) v
      { fromAccountId := name sender, toAccountId := name recipient, amount := number amount, reason })
  | expire account => Served.done (expireAccount (number now) v (name account))

structure GrantFits (now : Nat) (stored : Credit.AccountCredit) (amount : Int) : Prop where
  balance : Credit.spendableCredit now stored + amount ≤ Double.maxSafeInteger
  expiry : ∀ secs, stored.expirationPolicy = .afterSecs secs → (now + secs : Nat) ≤ Double.maxSafeInteger

/-- The figures of an operation, and those that it would make, are at most `2 ^ 53 - 1`. -/
def FiguresFit (now : Nat) (s : Credit.Accounts) : Operation → Prop
  | .setPolicy _ policy => ∀ secs : Nat, policy = .afterSecs secs → secs ≤ Double.maxSafeInteger
  | .issue a amount _ _ expiresAt =>
    GrantFits now (Credit.account s a) amount ∧ ∀ t : Nat, expiresAt = some t → t ≤ Double.maxSafeInteger
  | .apply _ _ amountDue => amountDue ≤ Double.maxSafeInteger
  | .transfer _ recipient amount _ => GrantFits now (Credit.account s recipient) amount
  | .expire _ => True

structure Fits (now : Nat) (s : Credit.Accounts) (op : Operation) : Prop where
  time : now ≤ Double.maxSafeInteger
  figures : FiguresFit now s op
  ids : Credit.count s + 5 < 2 ^ 64
  accounts : Credit.accountCount s + 2 < 2 ^ 32

inductive Matches (name : Soroban.Address → String) (s : Credit.State) : Credit.Outcome Credit.State → Served Unit → Prop
  | accepted {s' v} (mirrors : Mirrors name v s'.toAccounts) : Matches name s (.ok s') (.ok (), v)
  | rejected {e e' v} (mirrors : Mirrors name v s.toAccounts) : Matches name s (.error e) (.error e', v)

section Operations

variable {name : Soroban.Address → String} {v : CreditService} {s : Credit.State} {a : Soroban.Address} {now : Nat}
  {env : Credit.Env}

theorem number_is {n : Int} (nonneg : 0 ≤ n) (safe : n ≤ Double.maxSafeInteger) : (number n).Is n :=
  Double.ofRat_is (Double.safe_abs nonneg safe)

theorem number_nonpos {n : Int} (le : n ≤ 0) : number n ≤ 0 :=
  Double.ofRat_le Double.zero_is (by decide) (by exact_mod_cast le)

theorem number_neg {n : Int} (negative : n < 0) : number n < 0 := by
  have least : (Double.ofRat (-1 : Int)).Is (-1) := Double.ofRat_is (by decide)
  have le : number n ≤ Double.ofRat (-1 : Int) :=
    Double.ofRat_le least (by decide) (by exact_mod_cast (by omega : n ≤ -1))
  exact least.lt_of_le Double.zero_is (by decide) le

theorem Safe.of_spendable {stored mid : Credit.AccountCredit} {n m : Nat} {txs : List Credit.CreditTransaction}
    (realised : Credit.Realised env n stored txs mid m) (balanced : Credit.Balanced mid) :
    mid.balance = Credit.spendableCredit env.timestamp stored := by
  have split := balanced.split env.timestamp
  rw [realised.settled, realised.spendable le_rfl] at split
  omega

section

variable (injective : Function.Injective name) (mirrors : Mirrors name v s.toAccounts)

include injective mirrors

theorem setPolicy_matches
    (allowed : Credit.Allowed env s) (sound : Credit.Sound 5 2 s.toAccounts) (policy : Credit.ExpirationPolicy)
    (fits : FiguresFit env.timestamp s.toAccounts (.setPolicy a policy)) :
    Matches name s (Credit.exec ⟨env, (Operation.setPolicy a policy).call⟩ s)
      ((Operation.setPolicy a policy).perform name env.timestamp v) := by
  obtain ⟨s', run, writes⟩ := Credit.setExpirationPolicy_run allowed
    ⟨sound.keyed, sound.balanced, by have := sound.ids; omega, by have := sound.accounts; omega⟩ a policy
  change Matches name s (Credit.setExpirationPolicy env s a policy) (.ok (), _)
  rw [run]
  have known : (servicePolicy policy).Is policy := by
    cases policy with
    | never => trivial
    | afterSecs secs => exact number_is (Int.natCast_nonneg secs) (fits secs rfl)
  have is := mirrors.accounts a
  have safe := mirrors.safe a
  have kept := mirrors.same (ensureAccount_account v (name a))
  have changed : Safe { Credit.account s.toAccounts a with expirationPolicy := policy } :=
    ⟨⟨safe.held, safe.nonneg, safe.fits⟩, safe.safe⟩
  refine .accepted (kept.commit injective ?_ ⟨?_, ?_, known⟩ changed writes)
  · change (ensureAccount v (name a)).1.accountId = name a
    rw [ensureAccount_fst]
    exact mirrors.keyed (name a)
  · change (ensureAccount v (name a)).1.balance.Is _
    rw [ensureAccount_fst]
    exact is.balance
  · change (ensureAccount v (name a)).1.lots.Forall₂ CreditLot.Is _
    rw [ensureAccount_fst]
    exact is.lots

theorem expire_matches
    (time : (number env.timestamp).Is env.timestamp) (sound : Credit.Sound 5 2 s.toAccounts) :
    Matches name s (Credit.exec ⟨env, (Operation.expire a).call⟩ s) ((Operation.expire a).perform name env.timestamp v) := by
  obtain ⟨mid, s₁, txs, run, realised, frame, key, balanced, _⟩ := @Credit.realizeExpiry_run env s.toAccounts
    ⟨sound.keyed, sound.balanced, by have := sound.ids; omega, by have := sound.accounts; omega⟩ a
  have place : Credit.accountCount s₁ = Credit.accountCount s.toAccounts := by rw [frame]; rfl
  have balance := realised.balance
  have lost := realised.amounts
  have gone := Credit.lapsedCredit_nonneg env.timestamp (Credit.account s.toAccounts a)
  have split := balanced.split env.timestamp
  have kept := Credit.spendableCredit_nonneg env.timestamp mid
  have gone' := Credit.lapsedCredit_nonneg env.timestamp mid
  obtain ⟨s', called, writes⟩ := Credit.expireCredits_run run key
    (by have := sound.accounts; omega) (by omega) (by omega) (sound.balanced a).fits
  obtain ⟨is, named, same⟩ := opened_is (mirrors.accounts a) (mirrors.keyed _) (mirrors.safe a) time realised
  have called' : Credit.exec ⟨env, (Operation.expire a).call⟩ s = .ok s' := by
    change (Credit.expireCredits env s a >>= _) = _
    rw [called]
    rfl
  rw [called']
  refine .accepted ((mirrors.same same).commit injective named ⟨is.balance, is.lots, is.expirationPolicy⟩
    ((mirrors.safe a).realised realised) ?_)
  intro b
  rw [writes b, Credit.account_frame frame]

theorem issue_matches
    (time : (number env.timestamp).Is env.timestamp) (allowed : Credit.Allowed env s)
    (sound : Credit.Sound 5 2 s.toAccounts) (amount : Int) (reason actor : String) (expiresAt : Option Nat)
    (fits : FiguresFit env.timestamp s.toAccounts (.issue a amount reason actor expiresAt)) :
    Matches name s (Credit.exec ⟨env, (Operation.issue a amount reason actor expiresAt).call⟩ s)
      ((Operation.issue a amount reason actor expiresAt).perform name env.timestamp v) := by
  change Matches name s (Credit.issueCredit env s a amount reason expiresAt >>= fun x => .ok x.2)
    (Served.done (issueCredit (number env.timestamp) v _))
  unfold issueCredit
  by_cases positive : 0 < amount
  · obtain ⟨mid, s₁, txs, run, realised, frame, key, balanced, counted⟩ :=
      @Credit.realizeExpiry_run env s.toAccounts
        ⟨sound.keyed, sound.balanced, by have := sound.ids; omega, by have := sound.accounts; omega⟩ a
    have place : Credit.accountCount s₁ = Credit.accountCount s.toAccounts := by rw [frame]; rfl
    have spendable := Safe.of_spendable realised balanced
    have low := Credit.spendableCredit_nonneg env.timestamp (Credit.account s.toAccounts a)
    have most := fits.1.balance
    have small : amount ≤ Double.maxSafeInteger := by omega
    have wide : Double.maxSafeInteger < 2 ^ 127 := by decide
    have granted := number_is positive.le small
    obtain ⟨is, named, same⟩ := opened_is (mirrors.accounts a) (mirrors.keyed _) (mirrors.safe a) time realised
    have policy : ∀ secs, mid.expirationPolicy = .afterSecs secs →
        (env.timestamp + secs : Nat) ≤ Double.maxSafeInteger := by
      rw [realised.fixed.2]
      exact fits.1.expiry
    obtain ⟨expiry, due, agreed⟩ : ∃ expiry, Credit.grantExpiry env.timestamp mid.expirationPolicy expiresAt = .ok expiry ∧
        Option.Rel (fun x (n : Nat) => x.Is n) ((expiresAt.map fun t => number t).or
          (policyExpiry (number env.timestamp) (opened (number env.timestamp) v (name a)).1.expirationPolicy)) expiry := by
      cases expiresAt with
      | some t => exact ⟨some t, rfl, .some (number_is (Int.natCast_nonneg t) (fits.2 t rfl))⟩
      | none => exact policyExpiry_is time is.expirationPolicy policy
    obtain ⟨s', sent, id, called, writes⟩ := Credit.issueCredit_run allowed positive run key due
      (by have := sound.ids; omega) (by have := sound.accounts; omega) (by omega) (by omega) reason
    obtain ⟨after, named', kept, safe⟩ := grant_is is time ((mirrors.safe a).realised realised) granted positive
      (by omega) agreed (opened (number env.timestamp) v (name a)).2 .issue reason actor sent id
    have open_ : ¬ number amount ≤ 0 := by
      rw [granted.le_iff Double.zero_is]
      omega
    rw [called, if_neg open_]
    refine .accepted ((mirrors.same ((account_of_accounts kept).trans same)).commit injective (named'.trans named)
      ⟨after.balance, after.lots, after.expirationPolicy⟩ safe ?_)
    intro b
    rw [writes b, Credit.account_frame frame]
  · obtain ⟨admin, known⟩ := Option.ne_none_iff_exists'.mp allowed.admin
    have refused : Credit.issueCredit env s a amount reason expiresAt = .error (.error .invalidAmount) := by
      have checked : require (0 < amount) (Soroban.Failure.error Credit.CreditError.invalidAmount) =
          .error (.error .invalidAmount) := if_neg positive
      simp only [Credit.issueCredit, Credit.requireAdmin, known, present, ok_bind, Credit.requireAuth_allowed allowed,
        checked]
      rfl
    rw [refused, if_pos (number_nonpos (not_lt.mp positive))]
    exact .rejected mirrors

end

theorem deduct_is {time applied : Number} {account : CreditAccount} {mid : Credit.AccountCredit} {r : Int} {t : Nat}
    (lots : account.lots.Forall₂ CreditLot.Is (draw (Credit.spendable t) Credit.CreditLot.reduce mid.lots r).1)
    (balance : account.balance.Is mid.balance) (taken : applied.Is r) (nonneg : 0 ≤ r) (enough : r ≤ mid.balance)
    (safe : mid.balance ≤ Double.maxSafeInteger) (policy : account.expirationPolicy.Is mid.expirationPolicy)
    (least : r = min r (Credit.spendableCredit t mid)) (v : CreditService) (txs : List Credit.CreditTransaction) :
    (deduct time v account applied).1.Is (mid.drawn txs t r) ∧
      (deduct time v account applied).1.accountId = account.accountId ∧
      (deduct time v account applied).2.accounts = v.accounts := by
  have left : mid.balance - min r (Credit.spendableCredit t mid) = mid.balance - r := by omega
  unfold deduct
  split
  · refine ⟨⟨?_, lots, policy⟩, rfl, rfl⟩
    change Double.Is _ (mid.balance - min r (Credit.spendableCredit t mid))
    rw [left]
    exact balance.sub taken (Double.safe_abs (by omega) (by omega))
  · rename_i none
    rw [Double.zero_is.lt_iff taken] at none
    refine ⟨⟨?_, lots, policy⟩, rfl, rfl⟩
    change Double.Is _ (mid.balance - min r (Credit.spendableCredit t mid))
    rw [left, show mid.balance - r = mid.balance by omega]
    exact balance

structure AppliedAlike (served : Except CreditServiceError ApplyCreditResult)
    (run : Credit.Outcome (Credit.CreditApplied × Credit.State)) : Prop where
  accepted : ∀ answer s', run = .ok (answer, s') → ∃ result, served = .ok result ∧ result.applied.Is answer.applied ∧
    result.remainingDue.Is answer.remainingDue
  rejected : ∀ e, run = .error e → ∃ e', served = .error e'

theorem apply_matches (injective : Function.Injective name) (mirrors : Mirrors name v s.toAccounts)
    (time : (number env.timestamp).Is env.timestamp) (sound : Credit.Sound 5 2 s.toAccounts) (subId : Nat)
    {due : Int} (small : due ≤ Double.maxSafeInteger) :
    Matches name s (Credit.exec ⟨env, (Operation.apply a subId due).call⟩ s)
        ((Operation.apply a subId due).perform name env.timestamp v) ∧
      AppliedAlike (applyCreditToCharge (number env.timestamp) v (applyInput name a subId due)).1
        (Credit.applyCredit env s a subId due) := by
  change Matches name s (Credit.applyCredit env s a subId due >>= fun x => .ok x.2)
    (Served.done (applyCreditToCharge (number env.timestamp) v _)) ∧ _
  unfold applyCreditToCharge applyInput
  by_cases nonneg : 0 ≤ due
  · obtain ⟨mid, s₁, txs, run, realised, frame, key, balanced, counted⟩ :=
      @Credit.realizeExpiry_run env s.toAccounts
        ⟨sound.keyed, sound.balanced, by have := sound.ids; omega, by have := sound.accounts; omega⟩ a
    have place : Credit.accountCount s₁ = Credit.accountCount s.toAccounts := by rw [frame]; rfl
    have safe := (mirrors.safe a).realised realised
    have low := Credit.spendableCredit_nonneg env.timestamp mid
    have bound := safe.spendable env.timestamp
    have split := balanced.split env.timestamp
    have gone := Credit.lapsedCredit_nonneg env.timestamp mid
    have most := safe.safe
    have asked := number_is nonneg small
    obtain ⟨is, named, same⟩ := opened_is (mirrors.accounts a) (mirrors.keyed _) (mirrors.safe a) time realised
    have available := availableOf_is time is safe
    obtain ⟨taken, lots⟩ := consume_is time is safe (asked.min available) (by omega) (min_le_right _ _)
    obtain ⟨s', sent, answer, called, applied, remaining, writes⟩ := Credit.applyCredit_run nonneg run key balanced
      (by have := sound.ids; omega) (by have := sound.accounts; omega) subId
    obtain ⟨after, named', kept⟩ := deduct_is lots is.balance taken (by omega) (by omega) most
      is.expirationPolicy (by omega) (opened (number env.timestamp) v (name a)).2 sent
    have drawn : mid.drawn sent env.timestamp (min due (Credit.spendableCredit env.timestamp mid)) =
        mid.drawn sent env.timestamp due := by
      have lots := draw_capped (Credit.drawable env.timestamp) mid.lots nonneg
      change (draw _ _ mid.lots (min due (Credit.spendableCredit env.timestamp mid))).1 = _ at lots
      unfold Credit.AccountCredit.drawn
      rw [lots, min_assoc, min_self]
    rw [drawn] at after
    have open_ : ¬ number due < 0 := by
      rw [asked.lt_iff Double.zero_is]
      omega
    have left := asked.sub taken (Double.safe_abs (by omega) (by omega))
    rw [called, if_neg open_]
    constructor
    · refine .accepted ((mirrors.same ((account_of_accounts kept).trans same)).commit injective (named'.trans named)
        ⟨after.balance, after.lots, after.expirationPolicy⟩ ⟨balanced.drawn nonneg rfl rfl, ?_⟩ ?_)
      · change mid.balance - min due (Credit.spendableCredit env.timestamp mid) ≤ _
        omega
      · intro b
        rw [writes b, Credit.account_frame frame]
    · refine ⟨fun answer' s'' same' => ?_, fun e same' => by cases same'⟩
      cases same'
      rw [remaining, applied]
      exact ⟨_, rfl, taken, left⟩
  · have refused : Credit.applyCredit env s a subId due = .error (.error .invalidAmount) := by
      have checked : require (0 ≤ due) (Soroban.Failure.error Credit.CreditError.invalidAmount) =
          .error (.error .invalidAmount) := if_neg nonneg
      simp only [Credit.applyCredit, checked]
      rfl
    rw [refused, if_pos (number_neg (not_le.mp nonneg))]
    refine ⟨.rejected mirrors, ?_, fun _ _ => ⟨_, rfl⟩⟩
    intro answer s' same
    cases same

theorem sendCredit_is {time : Number} {t : Nat} (clock : time.Is t) {account : CreditAccount}
    {mid : Credit.AccountCredit} (is : account.Is mid) (safe : Safe mid) (input : TransferCreditInput) {r : Int}
    (asked : input.amount.Is r) (nonneg : 0 ≤ r) (enough : r ≤ Credit.spendableCredit t mid) (v : CreditService)
    (txs : List Credit.CreditTransaction) :
    (sendCredit time v account input).1.Is r ∧ (sendCredit time v account input).2.1.Is (mid.drawn txs t r) ∧
      (sendCredit time v account input).2.1.accountId = account.accountId ∧
      ∀ id, (sendCredit time v account input).2.2.account id = if id = account.accountId then
        refreshAvailable time (sendCredit time v account input).2.1 else v.account id := by
  have split := safe.toBalanced.split t
  have gone := Credit.lapsedCredit_nonneg t mid
  have bound := safe.safe
  obtain ⟨moved, lots⟩ := consume_is clock is safe asked nonneg enough
  have left : mid.balance - min r (Credit.spendableCredit t mid) = mid.balance - r := by omega
  refine ⟨moved, ⟨?_, lots, is.expirationPolicy⟩, rfl, fun id => ?_⟩
  · change Double.Is _ (mid.balance - min r (Credit.spendableCredit t mid))
    rw [left]
    exact is.balance.sub moved (Double.safe_abs (by omega) (by omega))
  · exact commit_account _ (refreshAvailable time (sendCredit time v account input).2.1) id

theorem receiveCredit_is {time : Number} (clock : time.Is env.timestamp) (input : TransferCreditInput)
    {stored received : Credit.AccountCredit} (is : (v.account input.toAccountId).Is stored)
    (key : (v.account input.toAccountId).accountId = input.toAccountId) (safe : Safe stored) {n m : Nat}
    {txs : List Credit.CreditTransaction} (realised : Credit.Realised env n stored txs received m) {moved : Number}
    {r : Int} (granted : moved.Is r) (pos : 0 < r) (fits : received.balance + r ≤ Double.maxSafeInteger)
    {expiry : Option Nat} (due : Option.Rel (fun x (n : Nat) => x.Is n)
      (policyExpiry time (opened time v input.toAccountId).1.expirationPolicy) expiry)
    (arrived : List Credit.CreditTransaction) (id : Nat) :
    (receiveCredit time v moved input).1.Is (received.granted arrived id r env.timestamp expiry) ∧
      Safe (received.granted arrived id r env.timestamp expiry) ∧
      (receiveCredit time v moved input).1.accountId = input.toAccountId ∧
      ∀ other, (receiveCredit time v moved input).2.account other = if other = input.toAccountId then
        refreshAvailable time (receiveCredit time v moved input).1 else v.account other := by
  obtain ⟨after, named, same⟩ := opened_is is key safe clock realised
  obtain ⟨credited, kept, accounts, secure⟩ := grant_is after clock (safe.realised realised) granted pos fits due
    (opened time v input.toAccountId).2 .transferIn input.reason input.fromAccountId arrived id
  refine ⟨credited, secure, kept.trans named, fun other => ?_⟩
  have committed := commit_account (grant time (opened time v input.toAccountId).2 (opened time v input.toAccountId).1
    moved (policyExpiry time (opened time v input.toAccountId).1.expirationPolicy) .transferIn input.reason
    input.fromAccountId).2 (refreshAvailable time (receiveCredit time v moved input).1) other
  have address : (refreshAvailable time (receiveCredit time v moved input).1).accountId = input.toAccountId :=
    kept.trans named
  rw [address, (account_of_accounts accounts).trans same] at committed
  exact committed

theorem transfer_matches (injective : Function.Injective name) (mirrors : Mirrors name v s.toAccounts)
    (time : (number env.timestamp).Is env.timestamp) (allowed : Credit.Allowed env s)
    (sound : Credit.Sound 5 2 s.toAccounts) (recipient : Soroban.Address) (amount : Int) (reason : String)
    (fits : FiguresFit env.timestamp s.toAccounts (.transfer a recipient amount reason)) :
    Matches name s (Credit.exec ⟨env, (Operation.transfer a recipient amount reason).call⟩ s)
      ((Operation.transfer a recipient amount reason).perform name env.timestamp v) := by
  change Matches name s (Credit.transferCredit env s a recipient amount reason)
    (Served.done (transferCredit (number env.timestamp) v _))
  unfold transferCredit
  by_cases pos : 0 < amount
  · have least := Credit.spendableCredit_nonneg env.timestamp (Credit.account s.toAccounts recipient)
    have most := fits.balance
    have granted := number_is pos.le (by omega)
    have open_ : ¬ number amount ≤ 0 := by
      rw [granted.le_iff Double.zero_is]
      omega
    rw [if_neg open_]
    by_cases nodup : a = recipient
    · have refused : Credit.transferCredit env s a recipient amount reason = .error (.error .selfTransfer) := by
        have checked : require (a ≠ recipient) (Soroban.Failure.error Credit.CreditError.selfTransfer) =
            .error (.error .selfTransfer) := if_neg (not_not.mpr nodup)
        simp only [Credit.transferCredit, Credit.requireAuth_allowed allowed, ok_bind,
          (require_eq_ok _ _ ()).mpr pos, checked]
        rfl
      rw [refused, if_pos (congrArg name nodup)]
      exact .rejected mirrors
    · rw [if_neg (mt (@injective a recipient) nodup)]
      obtain ⟨mid, txs, n, m, realised, short, enough⟩ :=
        Credit.transferCredit_run allowed sound pos nodup reason
      obtain ⟨is, named, same⟩ := opened_is (mirrors.accounts a) (mirrors.keyed _) (mirrors.safe a) time realised
      have safe := (mirrors.safe a).realised realised
      have available := availableOf_is time is safe
      have less := available.lt_iff granted
      have split := safe.toBalanced.split env.timestamp
      have gone := Credit.lapsedCredit_nonneg env.timestamp mid
      have bound := safe.safe
      by_cases lacking : Credit.spendableCredit env.timestamp mid < amount
      · rw [short lacking]
        change Matches name s _ (Served.done (if availableOf _ (opened (number env.timestamp) v (name a)).1 < number amount then
          _ else _))
        rw [if_pos (less.mpr lacking)]
        exact .rejected (mirrors.same same)
      · obtain ⟨received, txs', n', m', realised', finish⟩ := enough (not_lt.mp lacking)
        have policy : ∀ secs, received.expirationPolicy = .afterSecs secs →
            (env.timestamp + secs : Nat) ≤ Double.maxSafeInteger := by
          rw [realised'.fixed.2]
          exact fits.expiry
        have spendable := Safe.of_spendable realised' (realised'.balanced (sound.balanced recipient))
        have wide : Double.maxSafeInteger < 2 ^ 127 := by decide
        have sends := sendCredit_is time is safe ⟨name a, name recipient, number amount, reason⟩ granted
          pos.le (not_lt.mp lacking) (opened (number env.timestamp) v (name a)).2
        obtain ⟨sent, sending⟩ : ∃ sent, sent = sendCredit (number env.timestamp)
          (opened (number env.timestamp) v (name a)).2 (opened (number env.timestamp) v (name a)).1
            ⟨name a, name recipient, number amount, reason⟩ := ⟨_, rfl⟩
        rw [← sending, named, same] at sends
        have moved := (sends []).1
        obtain ⟨sender, stored⟩ := (sends []).2.2
        have other : name recipient ≠ name a := fun here => nodup (injective here).symm
        have untouched : sent.2.2.account (name recipient) = v.account (name recipient) := by
          rw [stored, if_neg other]
        have theirs := mirrors.accounts recipient
        have key := mirrors.keyed (name recipient)
        rw [← untouched] at theirs key
        obtain ⟨opening, _, _⟩ := opened_is theirs key (mirrors.safe recipient) time realised'
        obtain ⟨expiry, due, agreed⟩ := policyExpiry_is time opening.expirationPolicy policy
        obtain ⟨s', txs, txs', id, called, writes⟩ := finish expiry due (by omega)
        obtain ⟨credited, secure, receiver, received'⟩ := receiveCredit_is time ⟨name a, name recipient, number amount, reason⟩
          theirs key (mirrors.safe recipient) realised' moved pos (by omega) agreed txs' id
        rw [called]
        change Matches name s _ (Served.done (if availableOf _ (opened (number env.timestamp) v (name a)).1 <
          number amount then _ else _))
        rw [if_neg (mt less.mp lacking)]
        change Matches name s _ (.ok (), (receiveCredit (number env.timestamp) (sendCredit (number env.timestamp)
          (opened (number env.timestamp) v (name a)).2 (opened (number env.timestamp) v (name a)).1
            ⟨name a, name recipient, number amount, reason⟩).2.2 (sendCredit (number env.timestamp)
          (opened (number env.timestamp) v (name a)).2 (opened (number env.timestamp) v (name a)).1
            ⟨name a, name recipient, number amount, reason⟩).1 ⟨name a, name recipient, number amount, reason⟩).2)
        rw [← sending]
        have spent := (sends txs).2.1
        have left : Safe (mid.drawn txs env.timestamp amount) := by
          refine ⟨safe.toBalanced.drawn pos.le rfl rfl, ?_⟩
          change mid.balance - min amount (Credit.spendableCredit env.timestamp mid) ≤ _
          omega
        refine .accepted ⟨fun b => ?_, fun id' => ?_, fun b => ?_⟩
        · rw [received', stored, writes b]
          by_cases here : b = recipient
          · rw [if_pos here, if_pos (congrArg name here)]
            exact ⟨credited.balance, credited.lots, credited.expirationPolicy⟩
          · rw [if_neg here, if_neg (mt (@injective b recipient) here)]
            by_cases there : b = a
            · rw [if_pos there, if_pos (congrArg name there)]
              exact ⟨spent.balance, spent.lots, spent.expirationPolicy⟩
            · rw [if_neg there, if_neg (mt (@injective b a) there)]
              exact mirrors.accounts b
        · rw [received', stored]
          split
          · rename_i here
            exact receiver.trans here.symm
          · split
            · rename_i here
              exact sender.trans here.symm
            · exact mirrors.keyed id'
        · rw [writes b]
          split
          · exact secure
          · split
            · exact left
            · exact mirrors.safe b
  · have refused : Credit.transferCredit env s a recipient amount reason = .error (.error .invalidAmount) := by
      have checked : require (0 < amount) (Soroban.Failure.error Credit.CreditError.invalidAmount) =
          .error (.error .invalidAmount) := if_neg pos
      simp only [Credit.transferCredit, Credit.requireAuth_allowed allowed, ok_bind, checked]
      rfl
    rw [refused, if_pos (number_nonpos (not_lt.mp pos))]
    exact .rejected mirrors

theorem Operation.matches (injective : Function.Injective name) (mirrors : Mirrors name v s.toAccounts)
    (allowed : Credit.Allowed env s) (sound : Credit.Sound 5 2 s.toAccounts) (op : Operation)
    (fits : Fits env.timestamp s.toAccounts op) :
    Matches name s (Credit.exec ⟨env, op.call⟩ s) (op.perform name env.timestamp v) := by
  have time := number_is (Int.natCast_nonneg env.timestamp) fits.time
  cases op with
  | setPolicy a policy => exact setPolicy_matches injective mirrors allowed sound policy fits.figures
  | issue a amount reason actor expiresAt =>
    exact issue_matches injective mirrors time allowed sound amount reason actor expiresAt fits.figures
  | apply a subId due => exact (apply_matches injective mirrors time sound subId fits.figures).1
  | transfer a recipient amount reason =>
    exact transfer_matches injective mirrors time allowed sound recipient amount reason fits.figures
  | expire a => exact expire_matches injective mirrors time sound

end Operations

section Runs

variable {name : Soroban.Address → String} {admin : Soroban.Address} {w : Credit.World} {v : CreditService}

def given (now : Nat) : Credit.Env where
  timestamp := now
  authorized := fun _ => true
  unboundTransactionId := 0

def started (admin : Soroban.Address) : Credit.World :=
  Credit.submit (Ledger.genesis Credit.State.empty) ⟨given 0, .initializeCredit admin⟩

/-- The contract, initialized, and an empty service after the same operations, each at its time. `met` is what each
operation meets at the contract before it. -/
inductive Replayed (name : Soroban.Address → String) (met : Nat → Credit.Accounts → Operation → Prop)
    (admin : Soroban.Address) : Credit.World → CreditService → Prop
  | start : Replayed name met admin (started admin) .empty
  | step {w v now op} (before : Replayed name met admin w v) (order : w.clock ≤ now)
      (fits : met now w.state.toAccounts op) :
      Replayed name met admin (Credit.submit w ⟨given now, op.call⟩) (op.perform name now v).2

theorem Replayed.reachable {met : Nat → Credit.Accounts → Operation → Prop} (run : Replayed name met admin w v) :
    Credit.Reachable (Ledger.inOrder Credit.contract) w := by
  induction run with
  | start =>
    have fresh : Credit.Reachable (Ledger.inOrder Credit.contract) (Ledger.genesis Credit.State.empty) :=
      ⟨Credit.State.empty, rfl, .refl⟩
    have met : Ledger.inOrder Credit.contract (Ledger.genesis Credit.State.empty)
        ⟨given 0, .initializeCredit admin⟩ := Nat.zero_le 0
    exact fresh.submit met
  | step _ order _ ih => exact ih.submit order

theorem sound_of_reachable (reached : Credit.Reachable (Ledger.inOrder Credit.contract) w) {now : Nat}
    {op : Operation} (fits : Fits now w.state.toAccounts op) : Credit.Sound 5 2 w.state.toAccounts :=
  ⟨Credit.keyed_reachable reached, fun a => (Credit.kept_reachable reached a).balanced, fits.ids, fits.accounts⟩

theorem started_mirrors (name : Soroban.Address → String) (admin : Soroban.Address) :
    Mirrors name .empty (started admin).state.toAccounts where
  accounts _ := ⟨Double.zero_is, .nil, trivial⟩
  keyed _ := rfl
  safe _ := ⟨⟨rfl, fun _ mem => absurd mem not_mem_nil, show (0 : Int) < 2 ^ 127 by decide⟩,
    show (0 : Int) ≤ Double.maxSafeInteger by decide⟩

theorem Operation.keepsAdmin {env : Credit.Env} {s s' : Credit.State} (keyed : Credit.Keyed s.toAccounts) (op : Operation)
    (run : Credit.exec ⟨env, op.call⟩ s = .ok s') : s'.admin = s.admin := by
  have ran := Credit.exec_ran run
  cases op with
  | setPolicy => exact (Credit.setExpirationPolicy_ok keyed ran).2.2
  | issue =>
    obtain ⟨_, issued⟩ := ran
    exact (Credit.issueCredit_ok keyed issued).2.2
  | apply =>
    obtain ⟨_, applied⟩ := ran
    exact (Credit.applyCredit_ok keyed applied).2.1.2
  | transfer => exact (Credit.transferCredit_ok keyed ran).1.2
  | expire =>
    obtain ⟨_, expired⟩ := ran
    exact (Credit.expireCredits_ok keyed expired).2.2.2

theorem Replayed.allowed {met : Nat → Credit.Accounts → Operation → Prop} (run : Replayed name met admin w v)
    (now : Nat) : Credit.Allowed (given now) w.state := by
  refine ⟨fun _ => rfl, ?_⟩
  induction run with
  | start => exact Option.some_ne_none _
  | @step w v now op before _ _ ih =>
    cases ran : Credit.exec ⟨given now, op.call⟩ w.state with
    | error e => rwa [Credit.submit, Ledger.submit_error Credit.contract ran]
    | ok s =>
      rw [Credit.submit, Ledger.submit_ok Credit.contract ran]
      change s.admin ≠ none
      rwa [op.keepsAdmin (Credit.keyed_reachable before.reachable) ran]

theorem Matches.settled {tx : Credit.Tx} {served : Served Unit}
    (step : Matches name w.state (Credit.exec tx w.state) served) :
    Mirrors name served.2 (Credit.submit w tx).state.toAccounts := by
  cases ran : Credit.exec tx w.state with
  | error e =>
    rw [ran] at step
    rw [Credit.submit, Ledger.submit_error Credit.contract ran]
    cases step with
    | rejected mirrors => exact mirrors
  | ok s =>
    rw [ran] at step
    rw [Credit.submit, Ledger.submit_ok Credit.contract ran]
    cases step with
    | accepted mirrors => exact mirrors

theorem Replayed.mirrors (injective : Function.Injective name) (run : Replayed name Fits admin w v) :
    Mirrors name v w.state.toAccounts := by
  induction run with
  | start => exact started_mirrors name admin
  | @step w v now op before _ fits ih =>
    exact (op.matches injective ih (before.allowed now) (sound_of_reachable before.reachable fits) fits).settled

theorem Matches.accepts {s : Credit.State} {run : Credit.Outcome Credit.State} {served : Served Unit}
    (step : Matches name s run served) : (∃ s', run = .ok s') ↔ served.1 = .ok () := by
  cases step with
  | accepted => exact ⟨fun _ => rfl, fun _ => ⟨_, rfl⟩⟩
  | rejected =>
    constructor
    · rintro ⟨_, same⟩
      cases same
    · intro same
      cases same

theorem getAccount_available {account : CreditAccount} {stored : Credit.AccountCredit} {now : Number} {t : Nat}
    (is : account.Is stored) (safe : Safe stored) (time : now.Is t) :
    (refreshAvailable now (projectExpiry now account)).available.Is (Credit.spendableCredit t stored) := by
  have split := safe.toBalanced.split t
  have kept := Credit.spendableCredit_nonneg t stored
  have bound := safe.safe
  have lots := (expireLots_is time is.lots Double.zero_is le_rfl (by rw [zero_add]; exact (by omega :
    Credit.lapsedCredit t stored ≤ Double.maxSafeInteger))).2
  have spendable := safe.spendable t
  have same : total (Credit.spendable t) (stored.lots.map (Credit.CreditLot.expire t)) =
      Credit.spendableCredit t stored := Credit.total_expire le_rfl stored.lots
  have sum := foldl_available time lots Double.zero_is le_rfl (by rwa [zero_add, same])
  rw [zero_add, same] at sum
  exact sum

structure ShowsAlike (now : Nat) (account : CreditAccount) (v : CreditService) (s : Credit.State)
    (a : Soroban.Address) : Prop where
  stored : account.Is (Credit.account s.toAccounts a)
  available : ∃ available, Credit.getCreditBalance (given now) s a = .ok available ∧
    (getBalance (number now) v account.accountId).Is available ∧
    (getAccount (number now) v account.accountId).available.Is available

/-- The service simulates the contract as long as no figure passes the largest integer that a number of JavaScript
holds: after any operations every account has the same balance, lots and available amount on both sides, and both accept
the same operations and answer alike to `apply`. -/
theorem credit_replayed (injective : Function.Injective name) (run : Replayed name Fits admin w v) :
    (∀ now : Nat, w.clock ≤ now → now ≤ Double.maxSafeInteger → ∀ a,
      ShowsAlike now (v.account (name a)) v w.state a) ∧
    ∀ now op, w.clock ≤ now → Fits now w.state.toAccounts op →
      ((∃ s', Credit.exec ⟨given now, op.call⟩ w.state = .ok s') ↔ (op.perform name now v).1 = .ok ()) ∧
      ∀ a subscriptionId due, op = .apply a subscriptionId due →
        AppliedAlike (applyCreditToCharge (number now) v (applyInput name a subscriptionId due)).1
          (Credit.applyCredit (given now) w.state a subscriptionId due) := by
  have mirrors := run.mirrors injective
  constructor
  · intro now _ safe a
    have time := number_is (Int.natCast_nonneg now) safe
    have is := mirrors.accounts a
    have key := mirrors.keyed (name a)
    have secure := mirrors.safe a
    refine ⟨is, Credit.spendableCredit now (Credit.account w.state.toAccounts a), ?_, ?_, ?_⟩
    · unfold Credit.getCreditBalance
      rw [secure.toBalanced.available]
      rfl
    · unfold getBalance
      rw [key]
      exact availableOf_is time is secure
    · unfold getAccount
      rw [key]
      exact getAccount_available is secure time
  · intro now op _ fits
    have sound := sound_of_reachable run.reachable fits
    refine ⟨(op.matches injective mirrors (run.allowed now) sound fits).accepts, ?_⟩
    rintro a subscriptionId due rfl
    have time : (number (given now).timestamp).Is (given now).timestamp := number_is (Int.natCast_nonneg now) fits.time
    exact (@apply_matches name v w.state a (given now) injective mirrors time sound subscriptionId due fits.figures).2

def letters (a : Soroban.Address) : String := String.ofList (List.replicate a.id 'a')

theorem letters_injective : Function.Injective letters := by
  intro a b same
  have lists := String.ofList_injective same
  have lengths := congrArg List.length lists
  rw [length_replicate, length_replicate] at lengths
  cases a
  cases b
  exact congrArg Soroban.Address.mk lengths

def replay (ops : List (Nat × Operation)) : Credit.World × CreditService :=
  ops.foldl (fun (w, v) (now, op) => (Credit.submit w ⟨given now, op.call⟩, (op.perform letters now v).2))
    (started ⟨9⟩, .empty)

def welcome : List (Nat × Operation) :=
  [(10, .issue ⟨1⟩ 100 "welcome" "ops" none), (20, .transfer ⟨1⟩ ⟨2⟩ 40 "gift")]

theorem credit_replayed_welcome :
    ShowsAlike 20 ((replay welcome).2.account (letters ⟨2⟩)) (replay welcome).2 (replay welcome).1.state ⟨2⟩ ∧
      (Credit.account (replay welcome).1.state.toAccounts ⟨2⟩).balance = 40 := by
  have issued : Fits 10 (started ⟨9⟩).state.toAccounts (.issue ⟨1⟩ 100 "welcome" "ops" none) :=
    ⟨by decide, ⟨⟨by decide +kernel, by rintro _ ⟨⟩⟩, by rintro _ ⟨⟩⟩, by decide +kernel, by decide +kernel⟩
  have moved : Fits 20 (replay [(10, .issue ⟨1⟩ 100 "welcome" "ops" none)]).1.state.toAccounts
      (.transfer ⟨1⟩ ⟨2⟩ 40 "gift") :=
    ⟨by decide, ⟨by decide +kernel, by rintro _ ⟨⟩⟩, by decide +kernel, by decide +kernel⟩
  have run : Replayed letters Fits ⟨9⟩ (replay welcome).1 (replay welcome).2 :=
    .step (.step .start (by decide) issued) (by decide +kernel) moved
  exact ⟨(credit_replayed letters_injective run).1 20 (by decide +kernel) (by decide) ⟨2⟩, by decide +kernel⟩

theorem credit_diverges : (∃ w v, Replayed letters (fun _ _ _ => True) ⟨9⟩ w v ∧
      (Credit.account w.state.toAccounts ⟨1⟩).balance = 2 ^ 53 + 1 ∧
      ¬ (v.account (letters ⟨1⟩)).balance.Is (Credit.account w.state.toAccounts ⟨1⟩).balance) ∧
    ∃ w v, Replayed letters (fun _ _ _ => True) ⟨9⟩ w v ∧ w.clock ≤ 1 ∧
      (Credit.exec ⟨given 1, .issueCredit ⟨1⟩ 5 "" none⟩ w.state).toOption.isSome = false ∧
      ((Operation.issue ⟨1⟩ 5 "" "ops" none).perform letters 1 v).1.toOption = some () := by
  constructor
  · refine ⟨(replay [(1, .issue ⟨1⟩ (2 ^ 53) "" "ops" none), (2, .issue ⟨1⟩ 1 "" "ops" none)]).1, _,
      .step (.step .start (by decide) trivial) (by decide +kernel) trivial, ?_, ?_⟩
    · decide +kernel
    · decide +kernel
  · have set : Replayed letters (fun _ _ _ => True) ⟨9⟩ (replay [(1, .setPolicy ⟨1⟩ (.afterSecs (2 ^ 64 - 1)))]).1
        (replay [(1, .setPolicy ⟨1⟩ (.afterSecs (2 ^ 64 - 1)))]).2 :=
      @Replayed.step letters _ ⟨9⟩ (started ⟨9⟩) .empty 1 (.setPolicy ⟨1⟩ (.afterSecs (2 ^ 64 - 1))) .start
        (Nat.zero_le 1) trivial
    refine ⟨_, _, set, ?_, ?_, ?_⟩
    · decide +kernel
    · decide +kernel
    · decide +kernel

end Runs

end SubTrackr.Billing
