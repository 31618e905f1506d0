import SubTrackr.Credit.Postings

namespace SubTrackr.Credit

open Lib Soroban

def count (s : Accounts) : Nat := s.nextId.getD 0

def Keyed (s : Accounts) : Prop := ∀ a, (account s a).subscriber = a

inductive Call.Posts : Call → Address → CreditTxKind → Int → Prop where
  | expire {call a loss} : Posts call a .expire loss
  | issue {a amount reason expiresAt} : Posts (.issueCredit a amount reason expiresAt) a .issue amount
  | apply {a subscriptionId amountDue spent} : Posts (.applyCredit a subscriptionId amountDue) a .apply spent
  | sent {a recipient amount reason} : Posts (.transferCredit a recipient amount reason) a .transferOut (-amount)
  | received {sender a amount reason} : Posts (.transferCredit sender a amount reason) a .transferIn amount

inductive Writes : Accounts → Accounts → Prop where
  | refl (s) : Writes s s
  | counted (s n) : Writes s { s with nextId := n }
  | saved {s s' credit} (run : save s credit = .ok s') : Writes s s'
  | trans {s s₁ s'} (first : Writes s s₁) (rest : Writes s₁ s') : Writes s s'

/-- What one account is after a call, where `count` runs from the counter before the call to the one after it. -/
def Posted (env : Env) (call : Call) (s s' : Accounts) (a : Address) : Prop :=
  account s' a = account s a ∨ ∃ n txs m, count s ≤ n ∧ m ≤ count s' ∧
    Posting env n (account s a) txs (account s' a) m ∧ ∀ tx ∈ txs, call.Posts a tx.kind tx.amount

structure Effect (env : Env) (call : Call) (s s' : Accounts) : Prop where
  counted : count s ≤ count s'
  posted : ∀ a, Posted env call s s' a
  written : Writes s s'

def Ran (env : Env) (s s' : State) : Call → Prop
  | .initializeCredit admin => initializeCredit s admin = .ok s'
  | .setExpirationPolicy subscriber policy => setExpirationPolicy env s subscriber policy = .ok s'
  | .issueCredit subscriber amount reason expiresAt =>
    ∃ balance, issueCredit env s subscriber amount reason expiresAt = .ok (balance, s')
  | .applyCredit subscriber subscriptionId amountDue =>
    ∃ answer, applyCredit env s subscriber subscriptionId amountDue = .ok (answer, s')
  | .transferCredit sender recipient amount reason => transferCredit env s sender recipient amount reason = .ok s'
  | .expireCredits subscriber => ∃ expired, expireCredits env s subscriber = .ok (expired, s')
  | .expireCreditsWithCron admin => ∃ results, expireCreditsWithCron env s admin = .ok (results, s')
  | .createWallet subscriber subscriptionId currency =>
    ∃ id, createWallet env s subscriber subscriptionId currency = .ok (id, s')
  | .deposit caller walletId amount => ∃ snapshot wallets,
    deposit env s.toWallets caller walletId amount = .ok (snapshot, wallets) ∧ s' = { s with toWallets := wallets }
  | .withdraw caller walletId amount => ∃ snapshot wallets,
    withdraw env s.toWallets caller walletId amount = .ok (snapshot, wallets) ∧ s' = { s with toWallets := wallets }
  | .drawdown caller walletId amount => ∃ snapshot wallets,
    drawdown env s.toWallets caller walletId amount = .ok (snapshot, wallets) ∧ s' = { s with toWallets := wallets }

section Calls

variable {env : Env} {s s' : State} {admin : Address}

theorem exec_ran {call : Call} (run : exec ⟨env, call⟩ s = .ok s') : Ran env s s' call := by
  have answered {α : Type} {x : Outcome (α × State)} (ran : (do let (_, s) ← x; return s) = Except.ok s') :
      ∃ answer, x = .ok (answer, s') := by
    simp only [bind_eq_ok, pure_eq_ok] at ran
    obtain ⟨⟨answer, _⟩, ran, rfl⟩ := ran
    exact ⟨answer, ran⟩
  have snapshots {x : Outcome (PrepaymentSnapshot × Wallets)} (ran : onWallets s x = .ok s') :
      ∃ snapshot wallets, x = .ok (snapshot, wallets) ∧ s' = { s with toWallets := wallets } := by
    simp only [onWallets, bind_eq_ok, pure_eq_ok] at ran
    obtain ⟨⟨snapshot, wallets⟩, ran, rfl⟩ := ran
    exact ⟨snapshot, wallets, ran, rfl⟩
  cases call with
  | initializeCredit | setExpirationPolicy | transferCredit => exact run
  | issueCredit | applyCredit | expireCredits | expireCreditsWithCron | createWallet => exact answered run
  | deposit | withdraw | drawdown => exact snapshots run

theorem initializeCredit_ok (run : initializeCredit s admin = .ok s') :
    s.admin = none ∧ s' = { s with admin := some admin, nextId := some 0 } := by
  simp only [initializeCredit, bind_eq_ok, pure_eq_ok, require_eq_ok] at run
  obtain ⟨_, fresh, rfl⟩ := run
  exact ⟨fresh, rfl⟩

theorem expireCreditsWithCron_ok {results : List (Address × Int)}
    (run : expireCreditsWithCron env s admin = .ok (results, s')) : s.admin ≠ none ∧ ∃ accounts,
      expireAll env [] s.toAccounts (List.range (s.accountCount.getD 0)) = .ok (results, accounts) ∧
      s' = { s with toAccounts := accounts } := by
  simp only [expireCreditsWithCron, bind_eq_ok, pure_eq_ok, present_eq_ok] at run
  obtain ⟨_, set, _, _, _, _, ⟨_, accounts⟩, swept, same⟩ := run
  cases same
  exact ⟨set ▸ Option.some_ne_none _, accounts, swept, rfl⟩

theorem createWallet_accounts {subscriber : Address} {subId id : Nat} {currency : String}
    (run : createWallet env s subscriber subId currency = .ok (id, s')) :
    s.admin ≠ none ∧ s'.admin = s.admin ∧ s'.toAccounts = s.toAccounts := by
  simp only [createWallet, bind_eq_ok, pure_eq_ok, present_eq_ok] at run
  obtain ⟨_, set, _, _, ⟨_, _⟩, _, same⟩ := run
  cases same
  exact ⟨set ▸ Option.some_ne_none _, rfl, rfl⟩

end Calls

section Parts

variable {env : Env} {s s' : Accounts} {credit mid : AccountCredit}

theorem nextId_ok {id : Nat} (run : nextId s = .ok (id, s')) :
    id = count s ∧ s' = { s with nextId := some (count s + 1) } := by
  simp only [nextId, bind_eq_ok, pure_eq_ok, orPanic_eq_ok, u64_eq_ok] at run
  rcases run with ⟨_, ⟨_, rfl⟩, same⟩
  cases same
  exact ⟨rfl, rfl⟩

theorem record_ok {kind : CreditTxKind} {amount : Int} {reason : String} {counterparty : Option Address}
    (run : record env s credit kind amount reason counterparty = .ok (mid, s')) :
    s' = { s with nextId := some (count s + 1) } ∧ mid = { credit with
      transactions := trim (credit.transactions ++ [transaction env (count s) kind amount reason counterparty]) } := by
  simp only [record, bind_eq_ok, pure_eq_ok] at run
  rcases run with ⟨⟨id, s₁⟩, numbered, same⟩
  rcases nextId_ok numbered with ⟨rfl, rfl⟩
  cases same
  exact ⟨rfl, rfl⟩

theorem realizeExpiry_ok (run : realizeExpiry env s credit = .ok (mid, s')) :
    ∃ txs, Realised env (count s) credit txs mid (count s') ∧ s' = { s with nextId := s'.nextId } := by
  simp only [realizeExpiry, bind_eq_ok, orPanic_eq_ok] at run
  rcases run with ⟨⟨expired, lots⟩, looped, run⟩
  rcases expireFrom_ok looped with ⟨rfl, rfl⟩
  have sum : 0 + total (lapsed env.timestamp) credit.lots = lapsedCredit env.timestamp credit := Int.zero_add _
  simp only [sum] at run
  split at run
  · rename_i some
    simp only [bind_eq_ok, orPanic_eq_ok, i128_eq_ok] at run
    rcases run with ⟨_, ⟨_, rfl⟩, recorded⟩
    rcases record_ok recorded with ⟨rfl, rfl⟩
    exact ⟨_, .expired some, rfl⟩
  · rename_i none
    have nonneg := lapsedCredit_nonneg env.timestamp credit
    have zero : lapsedCredit env.timestamp credit = 0 := by omega
    cases run
    rw [expire_unlapsed zero]
    exact ⟨[], .nothing zero, rfl⟩

theorem register_ok {a : Address} (run : register s a = .ok s') : s'.account = s.account ∧ s'.nextId = s.nextId := by
  unfold register at run
  split at run
  · simp only [bind_eq_ok, pure_eq_ok] at run
    rcases run with ⟨_, _, rfl⟩
    exact ⟨rfl, rfl⟩
  · cases run
    exact ⟨rfl, rfl⟩

theorem save_ok (run : save s credit = .ok s') : count s' = count s ∧
    ∀ a, account s' a = if a = credit.subscriber then credit else account s a := by
  simp only [save, bind_eq_ok, pure_eq_ok] at run
  rcases run with ⟨s₁, registered, rfl⟩
  rcases register_ok registered with ⟨accounts, counter⟩
  refine ⟨congrArg (Option.getD · 0) counter, fun a => ?_⟩
  unfold account
  simp only [put_apply, accounts]
  split <;> rfl

end Parts

structure Updated (env : Env) (call : Call) (s s' : Accounts) (a : Address) : Prop where
  posting : ∃ txs, Posting env (count s) (account s a) txs (account s' a) (count s') ∧
    ∀ tx ∈ txs, call.Posts a tx.kind tx.amount
  others : ∀ b, b ≠ a → account s' b = account s b
  written : Writes s s'

section Updates

variable {env : Env} {call : Call} {s s₁ s' : Accounts} {a b : Address} {credit : AccountCredit}
  {txs : List CreditTransaction}

theorem Updated.of_save (call : Call) (posting : Posting env (count s) (account s a) txs credit (count s₁))
    (posts : ∀ tx ∈ txs, call.Posts a tx.kind tx.amount) (named : (account s a).subscriber = a)
    (frame : s₁ = { s with nextId := s₁.nextId }) (run : save s₁ credit = .ok s') :
    Updated env call s s' a ∧ account s' a = credit := by
  rcases save_ok run with ⟨counter, saved⟩
  have key : credit.subscriber = a := posting.subscriber.trans named
  have result : account s' a = credit := by rw [saved a, key, if_pos rfl]
  refine ⟨⟨⟨txs, ?_, posts⟩, ?_, ?_⟩, result⟩
  · rw [result, counter]
    exact posting
  · intro b other
    rw [saved b, key, if_neg other, frame]
    rfl
  · have counted : Writes s s₁ := by
      rw [frame]
      exact .counted s _
    exact counted.trans (.saved run)

section

variable (updated : Updated env call s s' a)

include updated

theorem Updated.counted : count s ≤ count s' := by
  rcases updated.posting with ⟨txs, posting, _⟩
  exact posting.ids.1

theorem Updated.effect : Effect env call s s' where
  counted := updated.counted
  written := updated.written
  posted b := by
    by_cases here : b = a
    · subst here
      rcases updated.posting with ⟨txs, posting, posts⟩
      exact .inr ⟨_, txs, _, le_rfl, le_rfl, posting, posts⟩
    · exact .inl (updated.others b here)

theorem Updated.keyed (keyed : Keyed s) : Keyed s' := by
  intro b
  by_cases here : b = a
  · subst here
    rcases updated.posting with ⟨txs, posting, _⟩
    exact posting.subscriber.trans (keyed b)
  · rw [updated.others b here]
    exact keyed b

end

theorem Updated.effect_two (first : Updated env call s s₁ a) (second : Updated env call s₁ s' b) (other : a ≠ b) :
    Effect env call s s' where
  counted := first.counted.trans second.counted
  written := first.written.trans second.written
  posted c := by
    by_cases sender : c = a
    · subst sender
      have kept := second.others c other
      rcases first.posting with ⟨txs, posting, posts⟩
      rw [← kept] at posting
      exact .inr ⟨_, txs, _, le_rfl, second.counted, posting, posts⟩
    · have before := first.others c sender
      by_cases recipient : c = b
      · subst recipient
        rcases second.posting with ⟨txs, posting, posts⟩
        rw [before] at posting
        exact .inr ⟨_, txs, _, first.counted, le_rfl, posting, posts⟩
      · exact .inl ((second.others c recipient).trans before)

end Updates

theorem consume_eq (now : Nat) (credit : AccountCredit) {amount : Int} (nonneg : 0 ≤ amount) :
    consume now credit amount = (min amount (spendableCredit now credit),
      { credit with lots := (draw (spendable now) CreditLot.reduce credit.lots amount).1 }) := by
  unfold consume
  rw [consumeFrom_eq now _ nonneg]
  have left := draw_left (drawable now) credit.lots nonneg
  have taken : amount - (draw (spendable now) CreditLot.reduce credit.lots amount).2 =
      min amount (spendableCredit now credit) := by
    unfold spendableCredit
    omega
  exact Prod.ext taken rfl

def KeepsRest (s s' : State) : Prop := s'.toWallets = s.toWallets ∧ s'.admin = s.admin

section Calls

variable {env : Env} {s s' : State} {a : Address}

theorem requireAuth_ok {address : Address} {u : Unit} (run : env.requireAuth address = .ok u) :
    env.authorized address = true := by
  rw [Env.requireAuth, orPanic_eq_ok, Host.requireAuth_eq_ok] at run
  exact run

theorem Realised.posts {n m : Nat} {credit mid : AccountCredit} {txs : List CreditTransaction}
    (realised : Realised env n credit txs mid m) (call : Call) (a : Address) :
    ∀ tx ∈ txs, call.Posts a tx.kind tx.amount := by
  intro tx mem
  rw [realised.kind tx mem]
  exact .expire

theorem posts_concat {call : Call} {txs : List CreditTransaction} {last : CreditTransaction}
    (before : ∀ tx ∈ txs, call.Posts a tx.kind tx.amount) (posts : call.Posts a last.kind last.amount) :
    ∀ tx ∈ txs ++ [last], call.Posts a tx.kind tx.amount := by
  intro tx mem
  rcases List.mem_append.mp mem with earlier | new
  · exact before tx earlier
  · rw [List.mem_singleton.mp new]
    exact posts

theorem setExpirationPolicy_ok {policy : ExpirationPolicy} (keyed : Keyed s.toAccounts)
    (run : setExpirationPolicy env s a policy = .ok s') :
    Updated env (.setExpirationPolicy a policy) s.toAccounts s'.toAccounts a ∧ KeepsRest s s' := by
  simp only [setExpirationPolicy, bind_eq_ok, pure_eq_ok] at run
  rcases run with ⟨admin, _, _, _, accounts, saved, rfl⟩
  have posting : Posting env (count s.toAccounts) (account s.toAccounts a) [] _ (count s.toAccounts) := .policy policy
  exact ⟨(Updated.of_save _ posting (fun _ mem => absurd mem List.not_mem_nil) (keyed a) rfl saved).1, rfl, rfl⟩

theorem issueCredit_ok {amount answer : Int} {reason : String} {expiresAt : Option Nat} (keyed : Keyed s.toAccounts)
    (run : issueCredit env s a amount reason expiresAt = .ok (answer, s')) :
    Updated env (.issueCredit a amount reason expiresAt) s.toAccounts s'.toAccounts a ∧ KeepsRest s s' := by
  simp only [issueCredit, bind_eq_ok, pure_eq_ok, require_eq_ok, orPanic_eq_ok, i128_eq_ok] at run
  rcases run with ⟨admin, _, _, _, _, pos, ⟨mid, s₁⟩, realised, expiry, _, ⟨id, s₂⟩, numbered, _, ⟨⟨_, fits⟩, rfl⟩,
    ⟨credit, s₃⟩, recorded, s₄, saved, same⟩
  rcases realizeExpiry_ok realised with ⟨txs, realised, frame⟩
  rcases nextId_ok numbered with ⟨rfl, rfl⟩
  rcases record_ok recorded with ⟨rfl, rfl⟩
  cases same
  have posting : Posting env (count s.toAccounts) (account s.toAccounts a) _ _ (count s₁ + 2) :=
    @Posting.granted env _ _ txs mid _ .issue amount reason none expiry realised .issue pos fits
  have counted : { s₁ with nextId := some (count s₁ + 2) } = { s.toAccounts with nextId := some (count s₁ + 2) } := by
    rw [frame]
  have updated := Updated.of_save (.issueCredit a amount reason expiresAt) posting
    (posts_concat (realised.posts _ a) .issue) (keyed a) counted saved
  exact ⟨updated.1, rfl, rfl⟩

theorem applyCredit_ok {subId : Nat} {amountDue : Int} {answer : CreditApplied} (keyed : Keyed s.toAccounts)
    (run : applyCredit env s a subId amountDue = .ok (answer, s')) :
    Updated env (.applyCredit a subId amountDue) s.toAccounts s'.toAccounts a ∧ KeepsRest s s' ∧
      0 ≤ amountDue ∧ answer.applied = min amountDue (spendableCredit env.timestamp (account s.toAccounts a)) ∧
      (account s'.toAccounts a).lots = (draw (spendable env.timestamp) CreditLot.reduce
        ((account s.toAccounts a).lots.map (CreditLot.expire env.timestamp)) amountDue).1 := by
  simp only [applyCredit, bind_eq_ok, pure_eq_ok, require_eq_ok] at run
  rcases run with ⟨_, nonneg, ⟨mid, s₁⟩, realised, ⟨credit, s₂⟩, posted, s₃, saved, same⟩
  rcases realizeExpiry_ok realised with ⟨txs, realised, frame⟩
  cases same
  simp only [consume_eq _ _ nonneg] at posted saved ⊢
  have kept := realised.spendable le_rfl
  have available := spendableCredit_nonneg env.timestamp mid
  have applied : min amountDue (spendableCredit env.timestamp mid) =
      min amountDue (spendableCredit env.timestamp (account s.toAccounts a)) := by rw [kept]
  by_cases some : 0 < min amountDue (spendableCredit env.timestamp mid)
  · simp only [if_pos some, bind_eq_ok, orPanic_eq_ok, i128_eq_ok] at posted
    rcases posted with ⟨_, ⟨_, rfl⟩, recorded⟩
    rcases record_ok recorded with ⟨rfl, rfl⟩
    have posting : Posting env (count s.toAccounts) (account s.toAccounts a) _ _ (count s₁ + 1) :=
      @Posting.spent env _ _ txs mid _ .apply amountDue "charge_application" none realised .apply some
    have counted : { s₁ with nextId := Option.some (count s₁ + 1) } =
        { s.toAccounts with nextId := Option.some (count s₁ + 1) } := by rw [frame]
    have updated := Updated.of_save (.applyCredit a subId amountDue) posting
      (posts_concat (realised.posts _ a) .apply) (keyed a) counted saved
    refine ⟨updated.1, ⟨rfl, rfl⟩, nonneg, applied, ?_⟩
    rw [updated.2, ← realised.lots]
  · have zero : min amountDue (spendableCredit env.timestamp mid) = 0 := by omega
    have unused := draw_nothing (drawable env.timestamp) reduce_zero mid.lots nonneg zero
    rw [if_neg some, unused] at posted
    cases posted
    have posting : Posting env (count s.toAccounts) (account s.toAccounts a) txs mid (count s₁) := .realised realised
    have updated := Updated.of_save (.applyCredit a subId amountDue) posting (realised.posts _ a) (keyed a)
      frame saved
    refine ⟨updated.1, ⟨rfl, rfl⟩, nonneg, applied, ?_⟩
    rw [updated.2, ← realised.lots]
    exact unused.symm

/-- `transfer_credit`, which the sender has signed: the sender's account first, then the recipient's. -/
structure Transferred (env : Env) (call : Call) (s s' : Accounts) (sender recipient : Address) (amount : Int)
    (middle : Accounts) : Prop where
  sent : Updated env call s middle sender
  received : Updated env call middle s' recipient
  distinct : sender ≠ recipient
  signed : env.authorized sender = true
  positive : 0 < amount
  enough : amount ≤ spendableCredit env.timestamp (account s sender)
  left : (account s' sender).balance = (account s sender).balance - lapsedCredit env.timestamp (account s sender) - amount
  gained : (account s' recipient).balance =
    (account s recipient).balance - lapsedCredit env.timestamp (account s recipient) + amount

theorem transferCredit_ok {recipient : Address} {amount : Int} {reason : String} (keyed : Keyed s.toAccounts)
    (run : transferCredit env s a recipient amount reason = .ok s') : KeepsRest s s' ∧
      ∃ middle, Transferred env (.transferCredit a recipient amount reason) s.toAccounts s'.toAccounts a recipient
        amount middle := by
  simp only [transferCredit, bind_eq_ok, pure_eq_ok, require_eq_ok, orPanic_eq_ok, i128_eq_ok] at run
  rcases run with ⟨_, signed, _, pos, _, nodup, ⟨mid, s₁⟩, realised, spendable, summed, _, enough, _, ⟨_, rfl⟩,
    ⟨credit, s₂⟩, recorded, middle, saved, ⟨mid', s₃⟩, realised', ⟨id, s₄⟩, numbered, expiry, _, _, ⟨⟨_, fits⟩, rfl⟩,
    ⟨credit', s₅⟩, recorded', s₆, saved', same⟩
  rcases realizeExpiry_ok realised with ⟨txs, realised, frame⟩
  rcases realizeExpiry_ok realised' with ⟨txs', realised', frame'⟩
  simp only [consume_eq _ _ pos.le] at recorded recorded' fits
  rcases record_ok recorded with ⟨rfl, rfl⟩
  rcases nextId_ok numbered with ⟨rfl, rfl⟩
  rcases record_ok recorded' with ⟨rfl, rfl⟩
  cases same
  have kept := realised.spendable le_rfl
  have available : spendable = spendableCredit env.timestamp mid := (availableFrom_ok summed).trans (Int.zero_add _)
  have moved : min amount (spendableCredit env.timestamp mid) = amount := by omega
  have some : 0 < min amount (spendableCredit env.timestamp mid) := by omega
  have counted : { s₁ with nextId := Option.some (count s₁ + 1) } =
      { s.toAccounts with nextId := Option.some (count s₁ + 1) } := by rw [frame]
  have counted' : { s₃ with nextId := Option.some (count s₃ + 2) } =
      { middle with nextId := Option.some (count s₃ + 2) } := by rw [frame']
  have sending : Posting env (count s.toAccounts) (account s.toAccounts a) _ _ (count s₁ + 1) :=
    @Posting.spent env _ _ txs mid _ .transferOut amount reason (Option.some recipient) realised .transferOut some
  have sent := Updated.of_save (.transferCredit a recipient amount reason) sending
    (posts_concat (realised.posts _ a) (by rw [moved]; exact .sent)) (keyed a) counted saved
  have receiving : Posting env (count middle) (account middle recipient) _ _ (count s₃ + 2) :=
    @Posting.granted env _ _ txs' mid' _ .transferIn _ reason (Option.some a) expiry realised' .transferIn some fits
  have received := Updated.of_save (.transferCredit a recipient amount reason) receiving
    (posts_concat (realised'.posts _ recipient) (by rw [moved]; exact .received)) (sent.1.keyed keyed recipient)
    counted' saved'
  refine ⟨⟨rfl, rfl⟩, middle, sent.1, received.1, nodup, requireAuth_ok signed, pos, by omega, ?_, ?_⟩
  · have before := realised.balance
    have lost := realised.amounts
    rw [received.1.others a nodup, sent.2]
    change mid.balance + -min amount (spendableCredit env.timestamp mid) = _
    omega
  · have before := realised'.balance
    have lost := realised'.amounts
    rw [sent.1.others recipient nodup.symm] at before lost
    rw [received.2]
    change mid'.balance + min amount (spendableCredit env.timestamp mid) = _
    omega

end Calls

structure Swept (env : Env) (s s' : Accounts) : Prop where
  counted : count s ≤ count s'
  swept : ∀ a, account s' a = account s a ∨
    ∃ n txs m, count s ≤ n ∧ m ≤ count s' ∧ Realised env n (account s a) txs (account s' a) m
  written : Writes s s'

section Cron

variable {env : Env} {s s₁ s' : Accounts}

theorem Swept.refl (env : Env) (s : Accounts) : Swept env s s := ⟨le_rfl, fun _ => .inl rfl, .refl s⟩

theorem Swept.trans (first : Swept env s s₁) (rest : Swept env s₁ s') : Swept env s s' where
  counted := first.counted.trans rest.counted
  written := first.written.trans rest.written
  swept a := by
    rcases first.swept a with kept | ⟨n, txs, m, low, high, realised⟩
    · rcases rest.swept a with keptToo | ⟨n, txs, m, low, high, realised⟩
      · exact .inl (keptToo.trans kept)
      · rw [kept] at realised
        exact .inr ⟨n, txs, m, first.counted.trans low, high, realised⟩
    · have same : account s' a = account s₁ a := by
        rcases rest.swept a with keptToo | ⟨_, _, _, _, _, again⟩
        · exact keptToo
        · have settled := realised.settled
          generalize account s' a = after at again
          cases again with
          | nothing => rfl
          | expired some => omega
      rw [← same] at realised
      exact .inr ⟨n, txs, m, low, high.trans rest.counted, realised⟩

theorem Swept.keyed (swept : Swept env s s') (keyed : Keyed s) : Keyed s' := by
  intro a
  rcases swept.swept a with kept | ⟨_, _, _, _, _, realised⟩
  · rw [kept]
    exact keyed a
  · exact realised.fixed.1.trans (keyed a)

theorem Swept.saved {a : Address} {mid : AccountCredit} {txs : List CreditTransaction} (keyed : Keyed s)
    (realised : Realised env (count s) (account s a) txs mid (count s₁)) (frame : s₁ = { s with nextId := s₁.nextId })
    (run : save s₁ mid = .ok s') : Swept env s s' := by
  have grown := realised.ids.1
  have named : mid.subscriber = a := realised.fixed.1.trans (keyed a)
  rcases save_ok run with ⟨sameCount, accounts⟩
  have counted : Writes s s₁ := by
    rw [frame]
    exact .counted s _
  refine ⟨by omega, fun b => ?_, counted.trans (.saved run)⟩
  rw [accounts b, named]
  split
  · rename_i here
    subst here
    exact .inr ⟨count s, txs, count s₁, le_rfl, sameCount.ge, realised⟩
  · rw [frame]
    exact .inl rfl

theorem expireRound_ok {results results' : List (Address × Int)} {i : Nat} (keyed : Keyed s)
    (run : expireRound env results s i = .ok (results', s')) : Swept env s s' := by
  unfold expireRound at run
  cases counter : s.counter i with
  | none =>
    rw [counter] at run
    cases run
    exact .refl env s
  | some a =>
    simp only [counter, bind_eq_ok] at run
    rcases run with ⟨⟨mid, s₁⟩, realised, expired, _, run⟩
    rcases realizeExpiry_ok realised with ⟨txs, realised, frame⟩
    split at run
    · simp only [bind_eq_ok, pure_eq_ok] at run
      rcases run with ⟨s₂, saved, same⟩
      cases same
      exact .saved keyed realised frame saved
    · cases run
      have grown : count s ≤ count s₁ := (Posting.realised realised).ids.1
      have kept (b : Address) : account s₁ b = account s b := by rw [frame]; rfl
      have counted : Writes s s₁ := by
        rw [frame]
        exact .counted s _
      exact ⟨grown, fun b => .inl (kept b), counted⟩

theorem expireAll_ok {results results' : List (Address × Int)} {ids : List Nat} (keyed : Keyed s)
    (run : expireAll env results s ids = .ok (results', s')) : Swept env s s' := by
  induction ids generalizing results s with
  | nil =>
    cases run
    exact .refl env _
  | cons i ids ih =>
    simp only [expireAll, bind_eq_ok] at run
    rcases run with ⟨⟨_, s₁⟩, round, rest⟩
    have first := expireRound_ok keyed round
    exact first.trans (ih (first.keyed keyed) rest)

theorem expireCredits_ok {s s' : State} {a : Address} {answer : Int} (keyed : Keyed s.toAccounts)
    (run : expireCredits env s a = .ok (answer, s')) :
    Updated env (.expireCredits a) s.toAccounts s'.toAccounts a ∧ Swept env s.toAccounts s'.toAccounts ∧
      KeepsRest s s' := by
  simp only [expireCredits, bind_eq_ok, pure_eq_ok] at run
  rcases run with ⟨⟨mid, s₁⟩, realised, s₂, saved, _, _, same⟩
  rcases realizeExpiry_ok realised with ⟨txs, realised, frame⟩
  cases same
  have posting : Posting env (count s.toAccounts) (account s.toAccounts a) txs mid (count s₁) := .realised realised
  exact ⟨(Updated.of_save _ posting (realised.posts _ a) (keyed a) frame saved).1, .saved keyed realised frame saved,
    rfl, rfl⟩

theorem Swept.effect {call : Call} (swept : Swept env s s') : Effect env call s s' where
  counted := swept.counted
  written := swept.written
  posted a := by
    rcases swept.swept a with kept | ⟨n, txs, m, low, high, realised⟩
    · exact .inl kept
    · exact .inr ⟨n, txs, m, low, high, .realised realised, realised.posts call a⟩

end Cron

theorem exec_effect {env : Env} {call : Call} {s s' : State} (keyed : Keyed s.toAccounts)
    (run : exec ⟨env, call⟩ s = .ok s') : Effect env call s.toAccounts s'.toAccounts ∨
      s.admin = none ∧ s'.toAccounts = { s.toAccounts with nextId := some 0 } := by
  have run := exec_ran run
  cases call with
  | initializeCredit admin =>
    obtain ⟨fresh, rfl⟩ := initializeCredit_ok run
    exact .inr ⟨fresh, rfl⟩
  | setExpirationPolicy => exact .inl (setExpirationPolicy_ok keyed run).1.effect
  | issueCredit =>
    obtain ⟨_, issued⟩ := run
    exact .inl (issueCredit_ok keyed issued).1.effect
  | applyCredit =>
    obtain ⟨_, applied⟩ := run
    exact .inl (applyCredit_ok keyed applied).1.effect
  | transferCredit =>
    rcases (transferCredit_ok keyed run).2 with ⟨middle, moved⟩
    exact .inl (moved.sent.effect_two moved.received moved.distinct)
  | expireCredits =>
    obtain ⟨_, expired⟩ := run
    exact .inl (expireCredits_ok keyed expired).1.effect
  | expireCreditsWithCron =>
    obtain ⟨_, cron⟩ := run
    obtain ⟨_, _, swept, rfl⟩ := expireCreditsWithCron_ok cron
    exact .inl (expireAll_ok keyed swept).effect
  | createWallet =>
    obtain ⟨_, created⟩ := run
    rw [(createWallet_accounts created).2.2]
    exact .inl (Swept.refl env _).effect
  | deposit | withdraw | drawdown =>
    obtain ⟨_, _, _, rfl⟩ := run
    exact .inl (Swept.refl env _).effect

def accountCount (s : Accounts) : Nat := s.accountCount.getD 0

structure Numbered (s : Accounts) : Prop where
  inverse : ∀ a i, s.accountIndex a = some i ↔ s.counter i = some a
  below : ∀ i, s.counter i ≠ none ↔ i < accountCount s
  stored : ∀ a, s.account a ≠ none ↔ s.accountIndex a ≠ none

section Writes

variable {s s' : Accounts} {a : Address}

theorem Numbered.register (numbered : Numbered s) (run : register s a = .ok s') :
    s'.accountIndex a ≠ none ∧ s'.account = s.account ∧ (∀ b i, s'.accountIndex b = some i ↔ s'.counter i = some b) ∧
      (∀ i, s'.counter i ≠ none ↔ i < accountCount s') ∧
      ∀ b, b ≠ a → s'.accountIndex b = s.accountIndex b := by
  unfold Credit.register at run
  split at run
  · rename_i new
    simp only [bind_eq_ok, pure_eq_ok, orPanic_eq_ok, u32_eq_ok] at run
    rcases run with ⟨_, ⟨_, rfl⟩, rfl⟩
    have unused : s.counter (accountCount s) = none := by
      by_contra used
      exact Nat.lt_irrefl _ ((numbered.below _).mp used)
    refine ⟨?_, rfl, ?_, ?_, fun b other => put_of_ne _ _ other⟩
    · change put s.accountIndex a (accountCount s) a ≠ none
      rw [put_self]
      exact Option.some_ne_none _
    · intro b i
      rw [put_eq_some, put_eq_some]
      constructor
      · intro entry
        rcases entry with ⟨rfl, rfl⟩ | ⟨other, entry⟩
        · exact .inl ⟨rfl, rfl⟩
        · have counter := (numbered.inverse b i).mp entry
          refine .inr ⟨?_, counter⟩
          intro here
          rw [here] at counter
          cases unused.symm.trans counter
      · intro entry
        rcases entry with ⟨rfl, rfl⟩ | ⟨other, entry⟩
        · exact .inl ⟨rfl, rfl⟩
        · have index := (numbered.inverse b i).mpr entry
          refine .inr ⟨?_, index⟩
          intro here
          rw [here, new] at index
          cases index
    · intro i
      change put s.counter (accountCount s) a i ≠ none ↔ i < accountCount s + 1
      rw [put_apply]
      split
      · rename_i here
        subst here
        exact ⟨fun _ => Nat.lt_succ_self _, fun _ => Option.some_ne_none _⟩
      · rename_i other
        have before := numbered.below i
        rw [before]
        omega
  · rename_i known
    cases run
    exact ⟨known, rfl, numbered.inverse, numbered.below, fun _ _ => rfl⟩

theorem Numbered.save (numbered : Numbered s) {credit : AccountCredit} (run : save s credit = .ok s') : Numbered s' := by
  simp only [Credit.save, bind_eq_ok, pure_eq_ok] at run
  rcases run with ⟨s₁, registered, rfl⟩
  rcases numbered.register registered with ⟨known, accounts, inverse, below, others⟩
  refine ⟨inverse, below, fun b => ?_⟩
  change put s₁.account credit.subscriber credit b ≠ none ↔ _
  rw [put_apply]
  split
  · rename_i here
    rw [here]
    exact ⟨fun _ => known, fun _ => Option.some_ne_none _⟩
  · rename_i other
    rw [accounts, others b other]
    exact numbered.stored b

theorem Writes.numbered (writes : Writes s s') (numbered : Numbered s) : Numbered s' := by
  induction writes with
  | refl => exact numbered
  | counted => exact ⟨numbered.inverse, numbered.below, numbered.stored⟩
  | saved run => exact numbered.save run
  | trans _ _ first rest => exact rest (first numbered)

end Writes

theorem empty_keyed : Keyed State.empty.toAccounts := fun _ => rfl

theorem empty_numbered : Numbered State.empty.toAccounts where
  inverse a i := by
    constructor
    · intro entry
      cases entry
    · intro entry
      cases entry
  below i := ⟨fun used => absurd rfl used, fun less => absurd less (Nat.not_lt_zero i)⟩
  stored a := ⟨fun used => absurd rfl used, fun used => absurd rfl used⟩

theorem Effect.keyed {env : Env} {call : Call} {s s' : Accounts} (effect : Effect env call s s') (keyed : Keyed s) :
    Keyed s' := by
  intro a
  rcases effect.posted a with kept | ⟨_, _, _, _, _, posting, _⟩
  · rw [kept]
    exact keyed a
  · exact posting.subscriber.trans (keyed a)

section Runs

variable {guard : World → Tx → Prop} {w : World}

theorem keyed_reachable (reached : Reachable guard w) : Keyed w.state.toAccounts := by
  refine reached.state_invariant (I := fun s => Keyed s.toAccounts) ?_ ?_
  · intro s initial
    rw [initial]
    exact empty_keyed
  · intro w tx s _ _ run keyed
    rcases exec_effect keyed run with effect | ⟨_, same⟩
    · exact effect.keyed keyed
    · rw [same]
      exact keyed

theorem numbered_reachable (reached : Reachable guard w) : Numbered w.state.toAccounts := by
  refine reached.state_invariant (I := fun s => Numbered s.toAccounts) ?_ ?_
  · intro s initial
    rw [initial]
    exact empty_numbered
  · intro w tx s here _ run numbered
    rcases exec_effect (keyed_reachable here) run with effect | ⟨_, same⟩
    · exact effect.written.numbered numbered
    · rw [same]
      exact ⟨numbered.inverse, numbered.below, numbered.stored⟩

end Runs

end SubTrackr.Credit
