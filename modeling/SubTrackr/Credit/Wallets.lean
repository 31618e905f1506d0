import SubTrackr.Credit.Effects

namespace SubTrackr.Credit

open List Lib Soroban

def walletCount (s : Wallets) : Nat := s.nextWalletId.getD 0

def walletTxCount (s : Wallets) (walletId : Nat) : Nat := (s.walletTx walletId).getD 0

def Call.moved (kind : PrepaymentTxKind) (walletId : Nat) : Call → Int
  | .deposit _ id amount => if kind = .deposit ∧ id = walletId then amount else 0
  | .withdraw _ id amount => if kind = .withdraw ∧ id = walletId then amount else 0
  | .drawdown _ id amount => if kind = .drawdown ∧ id = walletId then amount else 0
  | _ => 0

def moved (kind : PrepaymentTxKind) (walletId : Nat) (history : List (Receipt Tx State)) : Int :=
  total (fun r => r.tx.call.moved kind walletId) history

structure Claimed (env : Env) (s : Wallets) (caller : Address) (walletId : Nat) (amount : Int)
    (wallet : PrepaymentWallet) : Prop where
  signed : env.authorized caller = true
  positive : 0 < amount
  stored : s.wallet walletId = some wallet
  owner : wallet.subscriber = caller

structure Moves (call : Call) (walletId : Nat) (before after : PrepaymentWallet) : Prop where
  id : after.id = before.id
  deposited : after.totalDeposited = before.totalDeposited + call.moved .deposit walletId
  withdrawn : after.totalWithdrawn = before.totalWithdrawn + call.moved .withdraw walletId
  drawn : after.totalDrawn = before.totalDrawn + call.moved .drawdown walletId
  balance : after.balance = before.balance + call.moved .deposit walletId - call.moved .withdraw walletId -
    call.moved .drawdown walletId
  covered : 0 ≤ before.balance → 0 ≤ after.balance

inductive WalletEffect (env : Env) (call : Call) (s s' : Wallets) (walletId : Nat) : Prop where
  | kept (wallet : s'.wallet walletId = s.wallet walletId) (counter : s'.walletTx walletId = s.walletTx walletId)
      (still : ∀ kind, call.moved kind walletId = 0) : WalletEffect env call s s' walletId
  | created {wallet : PrepaymentWallet} (new : walletId = walletCount s) (numbered : walletId < walletCount s')
      (made : s'.wallet walletId = some wallet)
      (counter : s'.walletTx walletId = s.walletTx walletId) (still : ∀ kind, call.moved kind walletId = 0)
      (empty : wallet.id = walletId ∧ wallet.balance = 0 ∧ wallet.totalDeposited = 0 ∧ wallet.totalWithdrawn = 0 ∧
        wallet.totalDrawn = 0 ∧ wallet.transactions = []) : WalletEffect env call s s' walletId
  | unrecorded {before after : PrepaymentWallet} (signed : env.authorized before.subscriber = true)
      (stored : s.wallet walletId = some before) (saved : s'.wallet walletId = some after)
      (moves : Moves call walletId before after) (transactions : after.transactions = before.transactions)
      (counter : s'.walletTx = s.walletTx) : WalletEffect env call s s' walletId
  | recorded {before after : PrepaymentWallet} {tx : PrepaymentTransaction}
      (signed : env.authorized before.subscriber = true)
      (stored : s.wallet walletId = some before) (saved : s'.wallet walletId = some after)
      (moves : Moves call walletId before after) (transactions : after.transactions = trim (before.transactions ++ [tx]))
      (number : tx.id = walletTxCount s before.id) (balanceAfter : tx.balanceAfter = after.balance)
      (counter : s'.walletTx = put s.walletTx before.id (walletTxCount s before.id + 1)) :
      WalletEffect env call s s' walletId

def PrepaymentWallet.drawn (wallet : PrepaymentWallet) (now : Nat) (amount : Int) (tx : PrepaymentTransaction) :
    PrepaymentWallet :=
  { wallet with
    balance := wallet.balance - amount
    totalDrawn := wallet.totalDrawn + amount
    updatedAt := now
    transactions := trim (wallet.transactions ++ [tx]) }

theorem drawn_transactions (wallet : PrepaymentWallet) (now : Nat) (amount : Int) (tx : PrepaymentTransaction) :
    (wallet.drawn now amount tx).transactions = trim (wallet.transactions ++ [tx]) := by
  simp only [PrepaymentWallet.drawn]

section Calls

variable {env : Env} {s s' : Wallets} {caller : Address} {walletId : Nat} {amount : Int} {snapshot : PrepaymentSnapshot}

theorem walletOf_ok {wallet : PrepaymentWallet} (run : walletOf env s caller walletId amount = .ok wallet) :
    Claimed env s caller walletId amount wallet := by
  simp only [walletOf, bind_eq_ok, pure_eq_ok, require_eq_ok, present_eq_ok] at run
  rcases run with ⟨_, signed, _, pos, _, held, _, owner, rfl⟩
  rw [Env.requireAuth, orPanic_eq_ok, Host.requireAuth_eq_ok] at signed
  exact ⟨signed, pos, held, owner⟩

theorem deposit_ok (run : deposit env s caller walletId amount = .ok (snapshot, s')) :
    ∃ wallet, Claimed env s caller walletId amount wallet ∧ s' = { s with
      wallet := put s.wallet walletId { wallet with
        balance := wallet.balance + amount
        totalDeposited := wallet.totalDeposited + amount
        updatedAt := env.timestamp } } := by
  simp only [deposit, bind_eq_ok, pure_eq_ok, orPanic_eq_ok, i128_eq_ok] at run
  rcases run with ⟨wallet, claimed, _, ⟨_, rfl⟩, _, ⟨_, rfl⟩, same⟩
  cases same
  exact ⟨wallet, walletOf_ok claimed, rfl⟩

theorem withdraw_ok (run : withdraw env s caller walletId amount = .ok (snapshot, s')) :
    ∃ wallet, Claimed env s caller walletId amount wallet ∧ amount ≤ wallet.balance ∧ s' = { s with
      wallet := put s.wallet walletId { wallet with
        balance := wallet.balance - amount
        totalWithdrawn := wallet.totalWithdrawn + amount
        updatedAt := env.timestamp } } := by
  simp only [withdraw, bind_eq_ok, pure_eq_ok, require_eq_ok, orPanic_eq_ok, i128_eq_ok] at run
  rcases run with ⟨wallet, claimed, _, enough, _, ⟨_, rfl⟩, _, ⟨_, rfl⟩, same⟩
  cases same
  exact ⟨wallet, walletOf_ok claimed, enough, rfl⟩

theorem drawdown_ok (run : drawdown env s caller walletId amount = .ok (snapshot, s')) :
    ∃ wallet tx, Claimed env s caller walletId amount wallet ∧ amount ≤ wallet.balance ∧
      tx.id = walletTxCount s wallet.id ∧ tx.balanceAfter = wallet.balance - amount ∧ s' = { s with
        wallet := put s.wallet walletId (wallet.drawn env.timestamp amount tx)
        walletTx := put s.walletTx wallet.id (walletTxCount s wallet.id + 1) } := by
  simp only [drawdown, recordWalletTransaction, nextWalletTxId, bind_eq_ok, pure_eq_ok, require_eq_ok, orPanic_eq_ok,
    i128_eq_ok, u64_eq_ok] at run
  rcases run with ⟨wallet, claimed, _, enough, _, ⟨_, rfl⟩, _, ⟨_, rfl⟩, _, ⟨_, ⟨_, ⟨_, rfl⟩, rfl⟩, rfl⟩, same⟩
  cases same
  exact ⟨wallet, _, walletOf_ok claimed, enough, rfl, rfl, rfl⟩

end Calls

section Exec

variable {env : Env} {call : Call} {s s' : State} {walletId : Nat}

theorem wallets_kept (same : s'.toWallets = s.toWallets) (still : ∀ kind, call.moved kind walletId = 0) :
    walletCount s.toWallets ≤ walletCount s'.toWallets ∧ WalletEffect env call s.toWallets s'.toWallets walletId := by
  rw [same]
  exact ⟨le_rfl, .kept rfl rfl still⟩

theorem moved_other {kind kind' : PrepaymentTxKind} {id : Nat} {amount : Int} (other : walletId ≠ id) :
    (if kind = kind' ∧ id = walletId then amount else 0) = 0 :=
  if_neg fun same => other same.2.symm

theorem deposit_effect {caller : Address} {id : Nat} {amount : Int} {snapshot : PrepaymentSnapshot} {wallets : Wallets}
    (run : deposit env s.toWallets caller id amount = .ok (snapshot, wallets)) :
    walletCount s.toWallets ≤ walletCount wallets ∧
      WalletEffect env (.deposit caller id amount) s.toWallets wallets walletId := by
  rcases deposit_ok run with ⟨wallet, claimed, rfl⟩
  refine ⟨le_rfl, ?_⟩
  by_cases here : walletId = id
  · subst here
    have pos := claimed.positive
    have signed : env.authorized wallet.subscriber = true := claimed.owner ▸ claimed.signed
    refine .unrecorded signed claimed.stored (put_self ..) ?_ rfl rfl
    refine ⟨rfl, ?_, ?_, ?_, ?_, ?_⟩
    all_goals simp only [Call.moved, reduceCtorEq, and_true, if_true, if_false]
    all_goals omega
  · exact .kept (put_of_ne _ _ here) rfl fun _ => moved_other here

theorem withdraw_effect {caller : Address} {id : Nat} {amount : Int} {snapshot : PrepaymentSnapshot} {wallets : Wallets}
    (run : withdraw env s.toWallets caller id amount = .ok (snapshot, wallets)) :
    walletCount s.toWallets ≤ walletCount wallets ∧
      WalletEffect env (.withdraw caller id amount) s.toWallets wallets walletId := by
  rcases withdraw_ok run with ⟨wallet, claimed, enough, rfl⟩
  refine ⟨le_rfl, ?_⟩
  by_cases here : walletId = id
  · subst here
    have signed : env.authorized wallet.subscriber = true := claimed.owner ▸ claimed.signed
    refine .unrecorded signed claimed.stored (put_self ..) ?_ rfl rfl
    refine ⟨rfl, ?_, ?_, ?_, ?_, ?_⟩
    all_goals simp only [Call.moved, reduceCtorEq, and_true, if_true, if_false]
    all_goals omega
  · exact .kept (put_of_ne _ _ here) rfl fun _ => moved_other here

theorem drawdown_effect {caller : Address} {id : Nat} {amount : Int} {snapshot : PrepaymentSnapshot} {wallets : Wallets}
    (named : ∀ wallet, s.wallet id = some wallet → wallet.id = id)
    (run : drawdown env s.toWallets caller id amount = .ok (snapshot, wallets)) :
    walletCount s.toWallets ≤ walletCount wallets ∧
      WalletEffect env (.drawdown caller id amount) s.toWallets wallets walletId := by
  rcases drawdown_ok run with ⟨wallet, tx, claimed, enough, number, balanceAfter, rfl⟩
  refine ⟨le_rfl, ?_⟩
  by_cases here : walletId = id
  · subst here
    have signed : env.authorized wallet.subscriber = true := claimed.owner ▸ claimed.signed
    have moves : Moves (.drawdown caller walletId amount) walletId wallet (wallet.drawn env.timestamp amount tx) := by
      refine ⟨rfl, ?_, ?_, ?_, ?_, ?_⟩
      all_goals simp only [PrepaymentWallet.drawn, Call.moved, reduceCtorEq, and_true, if_true, if_false]
      all_goals omega
    exact .recorded signed claimed.stored (put_self ..) moves (drawn_transactions ..) number balanceAfter rfl
  · have other : walletId ≠ wallet.id := by
      rw [named wallet claimed.stored]
      exact here
    exact .kept (put_of_ne _ _ here) (put_of_ne _ _ other) fun _ => moved_other here

theorem createWallet_effect {subscriber : Address} {subId id : Nat} {currency : String}
    (run : createWallet env s subscriber subId currency = .ok (id, s')) :
    walletCount s.toWallets ≤ walletCount s'.toWallets ∧
      WalletEffect env (.createWallet subscriber subId currency) s.toWallets s'.toWallets walletId := by
  simp only [createWallet, nextWalletIdOf, bind_eq_ok, pure_eq_ok, orPanic_eq_ok, u64_eq_ok] at run
  rcases run with ⟨admin, _, _, _, _, ⟨_, ⟨_, rfl⟩, rfl⟩, same⟩
  cases same
  refine ⟨Nat.le_succ _, ?_⟩
  by_cases here : walletId = walletCount s.toWallets
  · subst here
    exact .created rfl (Nat.lt_succ_self _) (put_self ..) rfl (fun _ => rfl) ⟨rfl, rfl, rfl, rfl, rfl, rfl⟩
  · exact .kept (put_of_ne _ _ here) rfl fun _ => rfl

theorem exec_wallets (keyed : Keyed s.toAccounts) (named : ∀ id wallet, s.wallet id = some wallet → wallet.id = id)
    (run : exec ⟨env, call⟩ s = .ok s') (walletId : Nat) :
    walletCount s.toWallets ≤ walletCount s'.toWallets ∧ WalletEffect env call s.toWallets s'.toWallets walletId := by
  have run := exec_ran run
  cases call with
  | initializeCredit admin =>
    obtain ⟨_, rfl⟩ := initializeCredit_ok run
    exact wallets_kept rfl fun _ => rfl
  | setExpirationPolicy => exact wallets_kept (setExpirationPolicy_ok keyed run).2.1 fun _ => rfl
  | issueCredit =>
    obtain ⟨_, issued⟩ := run
    exact wallets_kept (issueCredit_ok keyed issued).2.1 fun _ => rfl
  | applyCredit =>
    obtain ⟨_, applied⟩ := run
    exact wallets_kept (applyCredit_ok keyed applied).2.1.1 fun _ => rfl
  | transferCredit => exact wallets_kept (transferCredit_ok keyed run).1.1 fun _ => rfl
  | expireCredits =>
    obtain ⟨_, expired⟩ := run
    exact wallets_kept (expireCredits_ok keyed expired).2.2.1 fun _ => rfl
  | expireCreditsWithCron =>
    obtain ⟨_, cron⟩ := run
    obtain ⟨_, _, _, rfl⟩ := expireCreditsWithCron_ok cron
    exact wallets_kept rfl fun _ => rfl
  | createWallet =>
    obtain ⟨_, created⟩ := run
    exact createWallet_effect created
  | deposit caller id amount =>
    obtain ⟨_, _, deposited, rfl⟩ := run
    exact deposit_effect deposited
  | withdraw caller id amount =>
    obtain ⟨_, _, withdrawn, rfl⟩ := run
    exact withdraw_effect withdrawn
  | drawdown caller id amount =>
    obtain ⟨_, _, drawn, rfl⟩ := run
    exact drawdown_effect (named id) drawn

end Exec

structure Adds (history : List (Receipt Tx State)) (walletId : Nat) (wallet : PrepaymentWallet) : Prop where
  id : wallet.id = walletId
  deposited : wallet.totalDeposited = moved .deposit walletId history
  withdrawn : wallet.totalWithdrawn = moved .withdraw walletId history
  drawn : wallet.totalDrawn = moved .drawdown walletId history
  balance : wallet.balance = moved .deposit walletId history - moved .withdraw walletId history -
    moved .drawdown walletId history
  nonneg : 0 ≤ wallet.balance

structure Accounted (w : World) (walletId : Nat) : Prop where
  unused : w.state.wallet walletId = none → ∀ kind, moved kind walletId w.history = 0
  below : ∀ wallet, w.state.wallet walletId = some wallet → walletId < walletCount w.state.toWallets
  adds : ∀ wallet, w.state.wallet walletId = some wallet → Adds w.history walletId wallet
  numbered : ∀ wallet, w.state.wallet walletId = some wallet →
    ∀ tx ∈ wallet.transactions, tx.id < walletTxCount w.state.toWallets walletId
  past : ∀ r ∈ w.history, ∀ wallet, r.after.wallet walletId = some wallet →
    ∀ tx ∈ wallet.transactions, tx.id < walletTxCount w.state.toWallets walletId

section Step

variable {w : World} {walletId : Nat} {env : Env} {call : Call} {s : State} {history : List (Receipt Tx State)}

theorem moved_concat (kind : PrepaymentTxKind) (walletId : Nat) (history : List (Receipt Tx State))
    (r : Receipt Tx State) :
    moved kind walletId (history ++ [r]) = moved kind walletId history + r.tx.call.moved kind walletId := by
  unfold moved
  rw [total_append, total_cons, total_nil, Int.add_zero]

theorem Adds.moved {r : Receipt Tx State} {before after : PrepaymentWallet} (adds : Adds history walletId before)
    (moves : Moves r.tx.call walletId before after) : Adds (history ++ [r]) walletId after where
  id := moves.id.trans adds.id
  deposited := by rw [moved_concat, moves.deposited, adds.deposited]
  withdrawn := by rw [moved_concat, moves.withdrawn, adds.withdrawn]
  drawn := by rw [moved_concat, moves.drawn, adds.drawn]
  balance := by
    rw [moved_concat, moved_concat, moved_concat, moves.balance, adds.balance]
    omega
  nonneg := moves.covered adds.nonneg

theorem Adds.still {r : Receipt Tx State} {wallet : PrepaymentWallet} (adds : Adds history walletId wallet)
    (still : ∀ kind, r.tx.call.moved kind walletId = 0) : Adds (history ++ [r]) walletId wallet := by
  have same (kind : PrepaymentTxKind) :
      Credit.moved kind walletId (history ++ [r]) = Credit.moved kind walletId history := by
    rw [moved_concat, still kind, Int.add_zero]
  exact ⟨adds.id, (same _).symm ▸ adds.deposited, (same _).symm ▸ adds.withdrawn, (same _).symm ▸ adds.drawn,
    (same .deposit).symm ▸ (same .withdraw).symm ▸ (same .drawdown).symm ▸ adds.balance, adds.nonneg⟩

section

variable (accounted : Accounted w walletId)

include accounted

theorem Accounted.later
    (grown : walletTxCount w.state.toWallets walletId ≤ walletTxCount s.toWallets walletId)
    (numbered : ∀ wallet, s.wallet walletId = some wallet →
      ∀ tx ∈ wallet.transactions, tx.id < walletTxCount s.toWallets walletId) :
    ∀ r ∈ w.history ++ [⟨⟨env, call⟩, w.state, s⟩], ∀ wallet, r.after.wallet walletId = some wallet →
      ∀ tx ∈ wallet.transactions, tx.id < walletTxCount s.toWallets walletId := by
  intro r mem wallet held tx member
  rcases mem_append.mp mem with earlier | last
  · exact (accounted.past r earlier wallet held tx member).trans_le grown
  · rw [mem_singleton.mp last] at held
    exact numbered wallet held tx member

theorem Accounted.saved {after : PrepaymentWallet}
    (saved : s.wallet walletId = some after) (below : walletId < walletCount s.toWallets)
    (adds : Adds (w.history ++ [⟨⟨env, call⟩, w.state, s⟩]) walletId after)
    (grown : walletTxCount w.state.toWallets walletId ≤ walletTxCount s.toWallets walletId)
    (numbered : ∀ tx ∈ after.transactions, tx.id < walletTxCount s.toWallets walletId) :
    Accounted ⟨env.timestamp, s, w.history ++ [⟨⟨env, call⟩, w.state, s⟩]⟩ walletId := by
  have numbered' : ∀ wallet, s.wallet walletId = some wallet →
      ∀ tx ∈ wallet.transactions, tx.id < walletTxCount s.toWallets walletId := by
    intro wallet held
    cases saved.symm.trans held
    exact numbered
  refine ⟨?_, fun _ _ => below, ?_, numbered', accounted.later grown numbered'⟩
  · intro none
    cases none.symm.trans saved
  · intro wallet held
    cases saved.symm.trans held
    exact adds

theorem accounted_step
    (grown : walletCount w.state.toWallets ≤ walletCount s.toWallets)
    (effect : WalletEffect env call w.state.toWallets s.toWallets walletId) :
    Accounted ⟨env.timestamp, s, w.history ++ [⟨⟨env, call⟩, w.state, s⟩]⟩ walletId := by
  cases effect with
  | kept same counter still =>
    have count : walletTxCount s.toWallets walletId = walletTxCount w.state.toWallets walletId :=
      congrArg (Option.getD · 0) counter
    have numbered : ∀ wallet, s.wallet walletId = some wallet →
        ∀ tx ∈ wallet.transactions, tx.id < walletTxCount s.toWallets walletId := by
      rw [same, count]
      exact accounted.numbered
    refine ⟨?_, ?_, ?_, numbered, accounted.later count.ge numbered⟩
    · intro none kind
      rw [moved_concat, still kind, Int.add_zero]
      exact accounted.unused (same ▸ none) kind
    · intro wallet held
      exact (accounted.below wallet (same ▸ held)).trans_le grown
    · intro wallet held
      exact (accounted.adds wallet (same ▸ held)).still still
  | @created wallet new room made counter still empty =>
    rcases empty with ⟨id, balance, deposited, withdrawn, drawn, transactions⟩
    have fresh : w.state.wallet walletId = none := by
      cases held : w.state.wallet walletId with
      | none => rfl
      | some other =>
        have before := accounted.below other held
        omega
    have zero (kind : PrepaymentTxKind) : moved kind walletId w.history = 0 := accounted.unused fresh kind
    have adds : Adds w.history walletId wallet :=
      ⟨id, deposited.trans (zero _).symm, withdrawn.trans (zero _).symm, drawn.trans (zero _).symm,
        by rw [balance, zero, zero, zero]; rfl, balance.ge⟩
    have count : walletTxCount s.toWallets walletId = walletTxCount w.state.toWallets walletId :=
      congrArg (Option.getD · 0) counter
    apply accounted.saved made room (adds.still still) count.ge
    rw [transactions]
    exact fun _ mem => absurd mem not_mem_nil
  | @unrecorded before after _ held saved moves transactions counter =>
    have count : walletTxCount s.toWallets walletId = walletTxCount w.state.toWallets walletId :=
      congrArg (Option.getD · 0) (congrFun counter walletId)
    have room := (accounted.below before held).trans_le grown
    apply accounted.saved saved room ((accounted.adds before held).moved moves) count.ge
    rw [transactions, count]
    exact accounted.numbered before held
  | @recorded before after tx _ held saved moves transactions number balanceAfter counter =>
    have named := (accounted.adds before held).id
    rw [named] at number counter
    have count : walletTxCount s.toWallets walletId = walletTxCount w.state.toWallets walletId + 1 := by
      unfold walletTxCount
      rw [counter, put_self]
      rfl
    have room := (accounted.below before held).trans_le grown
    apply accounted.saved saved room ((accounted.adds before held).moved moves) (by omega)
    rw [transactions]
    intro other mem
    rcases mem_append.mp (trim_mem mem) with old | new
    · have earlier := accounted.numbered before held other old
      omega
    · rw [mem_singleton.mp new]
      omega

end

end Step

theorem accounted_reachable {guard : World → Tx → Prop} {w : World} (reached : Reachable guard w) (walletId : Nat) :
    Accounted w walletId := by
  have named {w : World} (accounted : ∀ walletId, Accounted w walletId) :
      ∀ id wallet, w.state.wallet id = some wallet → wallet.id = id :=
    fun id wallet held => ((accounted id).adds wallet held).id
  refine reached.invariant (I := fun w => ∀ walletId, Accounted w walletId) ?_ ?_ ?_ walletId
  · intro s initial walletId
    rw [initial]
    refine ⟨fun _ _ => rfl, ?_, ?_, ?_, fun _ mem => absurd mem not_mem_nil⟩
    all_goals exact fun _ held => nomatch held
  · intro w tx _ _ accounted walletId
    have here := accounted walletId
    exact ⟨here.unused, here.below, here.adds, here.numbered, here.past⟩
  · intro w tx s here _ run accounted walletId
    rcases exec_wallets (keyed_reachable here) (named accounted) run walletId with ⟨grown, effect⟩
    exact accounted_step (accounted walletId) grown effect

def Call.onWallet (walletId : Nat) : Call → Bool
  | .deposit _ id _ | .withdraw _ id _ | .drawdown _ id _ => id = walletId
  | _ => false

def Call.drawsDown : Call → Bool
  | .drawdown .. => true
  | _ => false

/-- The call at `r` appends one transaction to the wallet, with an id that no transaction of it had before and the
    balance that the call leaves. -/
def Appends (earlier : List (Receipt Tx State)) (r : Receipt Tx State) (walletId : Nat) : Prop :=
  ∃ before after tx, r.before.wallet walletId = some before ∧ r.after.wallet walletId = some after ∧
    after.transactions = trim (before.transactions ++ [tx]) ∧ tx.balanceAfter = after.balance ∧
    (∀ old ∈ before.transactions, old.id ≠ tx.id) ∧
    ∀ past ∈ earlier, ∀ wallet, past.after.wallet walletId = some wallet → ∀ old ∈ wallet.transactions, old.id ≠ tx.id

section Appends

variable {earlier : List (Receipt Tx State)} {r : Receipt Tx State} {walletId : Nat}

theorem Appends.changed (appends : Appends earlier r walletId) : ∃ before after,
    r.before.wallet walletId = some before ∧ r.after.wallet walletId = some after ∧
      after.transactions ≠ before.transactions := by
  rcases appends with ⟨before, after, tx, held, saved, transactions, _, fresh, _⟩
  refine ⟨before, after, held, saved, fun same => ?_⟩
  have last : tx ∈ trim (before.transactions ++ [tx]) := by
    rw [trim_concat _ (length_singleton.trans_le (by decide))]
    exact mem_append_right _ (.head _)
  rw [← transactions, same] at last
  exact fresh tx last rfl

theorem unchanged_appends {before after : PrepaymentWallet} (held : r.before.wallet walletId = some before)
    (saved : r.after.wallet walletId = some after) (same : after.transactions = before.transactions) :
    ¬ Appends earlier r walletId := by
  intro appends
  rcases appends.changed with ⟨other, other', held', saved', changed⟩
  cases held.symm.trans held'
  cases saved.symm.trans saved'
  exact changed same

end Appends

section Receipts

variable {w : World} {env : Env} {s : State} {caller : Address} {walletId : Nat} {amount : Int}

theorem deposit_appends {earlier : List (Receipt Tx State)}
    (run : exec ⟨env, .deposit caller walletId amount⟩ w.state = .ok s) :
    ¬ Appends earlier ⟨⟨env, .deposit caller walletId amount⟩, w.state, s⟩ walletId := by
  obtain ⟨_, _, deposited, rfl⟩ := exec_ran run
  rcases deposit_ok deposited with ⟨wallet, claimed, rfl⟩
  exact unchanged_appends claimed.stored (put_self ..) rfl

theorem withdraw_appends {earlier : List (Receipt Tx State)}
    (run : exec ⟨env, .withdraw caller walletId amount⟩ w.state = .ok s) :
    ¬ Appends earlier ⟨⟨env, .withdraw caller walletId amount⟩, w.state, s⟩ walletId := by
  obtain ⟨_, _, withdrawn, rfl⟩ := exec_ran run
  rcases withdraw_ok withdrawn with ⟨wallet, claimed, _, rfl⟩
  exact unchanged_appends claimed.stored (put_self ..) rfl

theorem drawdown_appends (accounted : Accounted w walletId)
    (run : exec ⟨env, .drawdown caller walletId amount⟩ w.state = .ok s) :
    Appends w.history ⟨⟨env, .drawdown caller walletId amount⟩, w.state, s⟩ walletId := by
  obtain ⟨_, _, drawn, rfl⟩ := exec_ran run
  rcases drawdown_ok drawn with ⟨wallet, tx, claimed, _, number, balanceAfter, rfl⟩
  rw [(accounted.adds wallet claimed.stored).id] at number
  refine ⟨wallet, _, tx, claimed.stored, put_self .., drawn_transactions .., balanceAfter, ?_, ?_⟩
  · intro old mem
    have earlier := accounted.numbered wallet claimed.stored old mem
    omega
  · intro r mem other held old member
    have earlier := accounted.past r mem other held old member
    omega

end Receipts

/-- Every wallet agrees with what was deposited, withdrawn and drawn; of the calls that move this, `drawdown` alone
    records a transaction. -/
theorem wallets_recorded {guard : World → Tx → Prop} {w : World} (reached : Reachable guard w) :
    (∀ walletId wallet, w.state.wallet walletId = some wallet → Adds w.history walletId wallet) ∧
      ∀ i r, w.history[i]? = some r → ∀ walletId, r.tx.call.onWallet walletId = true →
        (Appends (w.history.take i) r walletId ↔ r.tx.call.drawsDown = true) := by
  refine ⟨fun walletId wallet stored => (accounted_reachable reached walletId).adds wallet stored, ?_⟩
  intro i r found walletId touches
  rcases reached.receiptAt i r found with ⟨v, here, _, state, history, run⟩
  rcases r with ⟨⟨env, call⟩, before, after⟩
  cases state
  rw [← history]
  cases call with
  | deposit caller id amount =>
    cases of_decide_eq_true touches
    exact iff_of_false (deposit_appends run) Bool.false_ne_true
  | withdraw caller id amount =>
    cases of_decide_eq_true touches
    exact iff_of_false (withdraw_appends run) Bool.false_ne_true
  | drawdown caller id amount =>
    cases of_decide_eq_true touches
    exact iff_of_true (drawdown_appends (accounted_reachable here _) run) rfl
  | _ => cases touches

def walletRun : World := trial
  [(0, [⟨9⟩], .initializeCredit ⟨9⟩), (0, [⟨9⟩], .createWallet ⟨1⟩ 42 "USD"), (1, [⟨1⟩], .deposit ⟨1⟩ 0 1000),
    (2, [⟨1⟩], .drawdown ⟨1⟩ 0 250), (3, [⟨1⟩], .withdraw ⟨1⟩ 0 100)]

theorem wallets_recorded_run : walletRun.history.length = 5 ∧
    ∀ wallet, walletRun.state.wallet 0 = some wallet → Adds walletRun.history 0 wallet :=
  ⟨by decide +kernel, (wallets_recorded (trial_inOrder (by decide) : Reachable (Ledger.inOrder contract) walletRun)).1 0⟩

theorem deposit_unrecorded : Reachable (Ledger.inOrder contract) walletRun ∧
    ¬ ∀ i r, walletRun.history[i]? = some r → ∀ walletId, r.tx.call.onWallet walletId = true →
      Appends (walletRun.history.take i) r walletId := by
  refine ⟨trial_inOrder (by decide), fun every => ?_⟩
  have facts : (walletRun.history[2]?.map fun r => (r.tx.call.onWallet 0, (r.before.wallet 0).map (·.transactions),
      (r.after.wallet 0).map (·.transactions))) = some (true, some [], some []) := by decide +kernel
  rcases Option.map_eq_some_iff.mp facts with ⟨r, found, same⟩
  simp only [Prod.mk.injEq, Option.map_eq_some_iff] at same
  rcases same with ⟨touches, ⟨before, stored, none⟩, ⟨after, saved, none'⟩⟩
  exact unchanged_appends stored saved (none'.trans none.symm) (every 2 r found 0 touches)

end SubTrackr.Credit
