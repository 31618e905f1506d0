import SubTrackr.Credit.Journal
import SubTrackr.Credit.Wallets

namespace SubTrackr.Credit

open Option Lib Soroban

def registered (s : Accounts) : Finset Address :=
  (Finset.range (accountCount s)).biUnion fun i => (s.counter i).toFinset

def totalBalance (s : Accounts) : Int := ∑ a ∈ registered s, (account s a).balance

section Totals

variable {env : Env} {call : Call} {s s' middle : Accounts} {sender recipient : Address} {amount : Int}

theorem mem_registered (numbered : Numbered s) (a : Address) : a ∈ registered s ↔ s.account a ≠ none := by
  unfold registered
  rw [Finset.mem_biUnion, numbered.stored a]
  constructor
  · intro mem
    rcases mem with ⟨i, _, counter⟩
    have index := (numbered.inverse a i).mpr (mem_toFinset.mp counter)
    rw [index]
    exact some_ne_none i
  · intro indexed
    rcases ne_none_iff_exists'.mp indexed with ⟨i, index⟩
    have counter := (numbered.inverse a i).mp index
    have below := (numbered.below i).mp (counter ▸ some_ne_none a)
    exact ⟨i, Finset.mem_range.mpr below, mem_toFinset.mpr counter⟩

theorem unstored_balance {a : Address} (unstored : s.account a = none) : (account s a).balance = 0 := by
  unfold account
  rw [unstored]
  rfl

theorem totalBalance_eq (numbered : Numbered s) (addresses : Finset Address) (includes : registered s ⊆ addresses) :
    totalBalance s = ∑ a ∈ addresses, (account s a).balance := by
  apply Finset.sum_subset includes
  intro a _ unlisted
  apply unstored_balance
  by_contra held
  exact unlisted ((mem_registered numbered a).mpr held)

theorem sum_of_two {addresses : Finset Address} {f g : Address → Int} {d e : Int} (one : sender ∈ addresses)
    (two : recipient ∈ addresses) (nodup : sender ≠ recipient) (first : g sender = f sender + d)
    (second : g recipient = f recipient + e)
    (others : ∀ a, a ≠ sender → a ≠ recipient → g a = f a) :
    ∑ a ∈ addresses, g a = ∑ a ∈ addresses, f a + (d + e) := by
  have two' : recipient ∈ addresses.erase sender := Finset.mem_erase.mpr ⟨nodup.symm, two⟩
  have rest : ∑ a ∈ (addresses.erase sender).erase recipient, g a =
      ∑ a ∈ (addresses.erase sender).erase recipient, f a := by
    apply Finset.sum_congr rfl
    intro a mem
    have inner := Finset.mem_erase.mp mem
    exact others a (Finset.ne_of_mem_erase inner.2) inner.1
  have before := Finset.add_sum_erase addresses f one
  have before' := Finset.add_sum_erase (addresses.erase sender) f two'
  have after := Finset.add_sum_erase addresses g one
  have after' := Finset.add_sum_erase (addresses.erase sender) g two'
  omega

theorem Transferred.total (moved : Transferred env call s s' sender recipient amount middle) (numbered : Numbered s) :
    totalBalance s' = totalBalance s -
      (lapsedCredit env.timestamp (account s sender) + lapsedCredit env.timestamp (account s recipient)) := by
  have numbered' := moved.received.written.numbered (moved.sent.written.numbered numbered)
  have before := totalBalance_eq numbered (registered s ∪ registered s' ∪ {sender, recipient})
    (fun a mem => Finset.mem_union_left _ (Finset.mem_union_left _ mem))
  have after := totalBalance_eq numbered' (registered s ∪ registered s' ∪ {sender, recipient})
    (fun a mem => Finset.mem_union_left _ (Finset.mem_union_right _ mem))
  have one : sender ∈ registered s ∪ registered s' ∪ {sender, recipient} :=
    Finset.mem_union_right _ (Finset.mem_insert_self _ _)
  have two : recipient ∈ registered s ∪ registered s' ∪ {sender, recipient} :=
    Finset.mem_union_right _ (Finset.mem_insert_of_mem (Finset.mem_singleton_self _))
  have sum := sum_of_two (f := fun a => (account s a).balance) (g := fun a => (account s' a).balance)
    (d := -lapsedCredit env.timestamp (account s sender) - amount)
    (e := -lapsedCredit env.timestamp (account s recipient) + amount) one two moved.distinct
    (by have left := moved.left; omega) (by have gained := moved.gained; omega)
    (fun a other another => by rw [moved.received.others a another, moved.sent.others a other])
  omega

end Totals

/-- The lots of `before` are drawn down by `due` in the order of their issue: the first `n` of them give all they can
    before the next gives anything. -/
structure OldestFirst (now : Nat) (before after : List CreditLot) (due : Int) : Prop where
  order : before.Pairwise InIssueOrder
  same : after.map CreditLot.stub = before.map CreditLot.stub
  drawn : ∀ n, total (spendable now) (after.take n) =
    total (spendable now) (before.take n) - min due (total (spendable now) (before.take n))

def Applies (r : Receipt Tx State) (a : Address) (subscriptionId : Nat) (due : Int) : Prop :=
  ∃ answer available, applyCredit r.tx.env r.before a subscriptionId due = .ok (answer, r.after) ∧
    getCreditBalance r.tx.env r.before a = .ok available ∧ answer.applied = min due available ∧
    OldestFirst r.tx.env.timestamp (account r.before.toAccounts a).lots (account r.after.toAccounts a).lots due

structure Conserved (w : World) : Prop where
  held : ∀ a, (account w.state.toAccounts a).balance = heldCredit (account w.state.toAccounts a)
  lots : ∀ a, ∀ lot ∈ (account w.state.toAccounts a).lots, 0 ≤ lot.remaining ∧
    ∃ amount, IssuedAs w.history a lot amount ∧ lot.remaining ≤ amount
  available : ∀ a env, ∃ available, getCreditBalance env w.state a = .ok available ∧
    available ≤ (account w.state.toAccounts a).balance
  stored : ∀ a, (account w.state.toAccounts a).transactions = trim (journal w.history a)
  balance : ∀ a, (account w.state.toAccounts a).balance = amounts (journal w.history a)
  transfers : ∀ r ∈ w.history, ∀ sender recipient amount reason,
    r.tx.call = .transferCredit sender recipient amount reason →
      totalBalance r.after.toAccounts = totalBalance r.before.toAccounts -
        (lapsedCredit r.tx.env.timestamp (account r.before.toAccounts sender) +
          lapsedCredit r.tx.env.timestamp (account r.before.toAccounts recipient))
  applications : ∀ r ∈ w.history, ∀ a subscriptionId due, r.tx.call = .applyCredit a subscriptionId due →
    Applies r a subscriptionId due

section Conserved

variable {w : World} {a : Address} {env : Env} {s s' : State}

theorem getCreditBalance_eq (balanced : Balanced (account s.toAccounts a)) (env : Env) :
    getCreditBalance env s a = .ok (spendableCredit env.timestamp (account s.toAccounts a)) := by
  unfold getCreditBalance
  rw [balanced.available]
  rfl

theorem applyCredit_applies {subId : Nat} {due : Int} {answer : CreditApplied} (keyed : Keyed s.toAccounts)
    (kept : Balanced (account s.toAccounts a)) (order : (account s.toAccounts a).lots.Pairwise InIssueOrder)
    (run : applyCredit env s a subId due = .ok (answer, s')) :
    Applies ⟨⟨env, .applyCredit a subId due⟩, s, s'⟩ a subId due := by
  rcases applyCredit_ok keyed run with ⟨_, _, nonneg, applied, lots⟩
  refine ⟨answer, _, run, getCreditBalance_eq kept env, applied, order, ?_, fun n => ?_⟩
  · rw [lots, map_draw_stub, map_expire_stub]
  · rw [lots, draw_take (drawable env.timestamp) _ nonneg, ← List.map_take, total_expire le_rfl]

/-- Every account's balance is what its lots hold and what its recorded transactions add up to. -/
theorem credit_conserved (reached : Reachable (Ledger.inOrder contract) w) : Conserved w where
  held a := (kept_reachable reached a).balanced.held
  lots a lot listed := by
    have kept := kept_reachable reached a
    exact ⟨kept.balanced.nonneg lot listed, (kept.issued lot listed).2.2⟩
  available a env := by
    have balanced := (kept_reachable reached a).balanced
    have split := balanced.split env.timestamp
    have gone := lapsedCredit_nonneg env.timestamp (account w.state.toAccounts a)
    exact ⟨_, getCreditBalance_eq balanced env, by omega⟩
  stored a := (kept_reachable reached a).recorded
  balance a := (kept_reachable reached a).balance
  transfers r listed sender recipient amount reason call := by
    rcases reached.receipt r listed with ⟨v, here, _, state, run⟩
    rcases r with ⟨⟨env, _⟩, before, after⟩
    cases call
    cases state
    rcases (transferCredit_ok (keyed_reachable here) run).2 with ⟨middle, moved⟩
    exact moved.total (numbered_reachable here)
  applications r listed a subscriptionId due call := by
    rcases reached.receipt r listed with ⟨v, here, _, state, run⟩
    rcases r with ⟨⟨env, _⟩, before, after⟩
    cases call
    cases state
    have kept := kept_reachable here a
    obtain ⟨_, applied⟩ := exec_ran (show exec ⟨env, .applyCredit a subscriptionId due⟩ v.state = .ok after from run)
    exact applyCredit_applies (keyed_reachable here) kept.balanced kept.sorted applied

end Conserved

def sampleCredit : World := trial
  [(0, [⟨9⟩], .initializeCredit ⟨9⟩), (1, [⟨9⟩], .issueCredit ⟨1⟩ 40 "promo" (some 5)),
    (2, [⟨9⟩], .issueCredit ⟨1⟩ 60 "refund" none),
    (6, [], .applyCredit ⟨1⟩ 7 25), (7, [⟨1⟩], .transferCredit ⟨1⟩ ⟨2⟩ 35 "gift")]

theorem credit_conserved_sample : Conserved sampleCredit ∧ sampleCredit.history.length = 5 ∧
    (journal sampleCredit.history ⟨1⟩).map (·.amount) = [40, 60, -40, -25, -35] :=
  ⟨credit_conserved (trial_inOrder (by decide)), by decide +kernel, by decide +kernel⟩

def manyIssues : World :=
  trial ((0, [⟨9⟩], .initializeCredit ⟨9⟩) :: List.replicate 129 (0, [⟨9⟩], .issueCredit ⟨1⟩ 1 "" none))

theorem history_trimmed : Reachable (Ledger.inOrder contract) manyIssues ∧
    (account manyIssues.state.toAccounts ⟨1⟩).balance = 129 ∧
    amounts (account manyIssues.state.toAccounts ⟨1⟩).transactions = 128 :=
  ⟨trial_inOrder (by decide +kernel), by decide +kernel, by decide +kernel⟩

def Lowers (r : Receipt Tx State) (a : Address) : Prop :=
  ∃ before after, getCreditBalance r.tx.env r.before a = .ok before ∧ getCreditBalance r.tx.env r.after a = .ok after ∧
    after < before

def SignedFor (r : Receipt Tx State) (a : Address) : Prop :=
  r.tx.env.authorized a = true ∨ ∃ admin, r.before.admin = some admin ∧ r.tx.env.authorized admin = true

structure OwnSpending (r : Receipt Tx State) : Prop where
  credit : ∀ a, Lowers r a → SignedFor r a
  wallets : ∀ walletId before after, r.before.wallet walletId = some before → r.after.wallet walletId = some after →
    after.balance < before.balance → SignedFor r before.subscriber

def SignedApplication (r : Receipt Tx State) : Prop :=
  ∀ a subscriptionId due available, r.tx.call = .applyCredit a subscriptionId due → 0 < due →
    getCreditBalance r.tx.env r.before a = .ok available → 0 < available → SignedFor r a

section Posting

variable {env : Env} {n m : Nat} {credit credit' : AccountCredit} {txs : List CreditTransaction}

theorem Posting.lowered (posting : Posting env n credit txs credit' m)
    (less : spendableCredit env.timestamp credit' < spendableCredit env.timestamp credit) :
    ∃ tx ∈ txs, tx.kind.Spends := by
  cases posting with
  | policy => exact absurd less (lt_irrefl _)
  | realised realised => exact absurd (realised.spendable le_rfl) less.ne
  | @granted txs mid m kind amount _ _ expiresAt realised =>
    have before := realised.spendable le_rfl
    have gained := spendable_nonneg env.timestamp ⟨m, amount, env.timestamp, expiresAt⟩
    have after : total (spendable env.timestamp) (mid.lots ++ [⟨m, amount, env.timestamp, expiresAt⟩]) =
        spendableCredit env.timestamp mid + (spendable env.timestamp ⟨m, amount, env.timestamp, expiresAt⟩ + 0) :=
      total_append ..
    change total (spendable env.timestamp) (mid.lots ++ [⟨m, amount, env.timestamp, expiresAt⟩]) < _ at less
    omega
  | spent _ spends => exact ⟨_, List.mem_append_right _ (.head _), spends⟩

end Posting

section Receipts

variable {env : Env} {call : Call} {s s' : State} {a : Address}

theorem lowers_iff (balanced : Balanced (account s.toAccounts a)) (balanced' : Balanced (account s'.toAccounts a)) :
    Lowers ⟨⟨env, call⟩, s, s'⟩ a ↔
      spendableCredit env.timestamp (account s'.toAccounts a) < spendableCredit env.timestamp (account s.toAccounts a) := by
  unfold Lowers
  constructor
  · intro lowers
    rcases lowers with ⟨before, after, read, read', less⟩
    cases (getCreditBalance_eq balanced env).symm.trans read
    cases (getCreditBalance_eq balanced' env).symm.trans read'
    exact less
  · exact fun less => ⟨_, _, getCreditBalance_eq balanced env, getCreditBalance_eq balanced' env, less⟩

theorem applyCredit_spendable {subId : Nat} {due : Int} {answer : CreditApplied} (keyed : Keyed s.toAccounts)
    (run : applyCredit env s a subId due = .ok (answer, s')) : 0 ≤ due ∧
      spendableCredit env.timestamp (account s'.toAccounts a) = spendableCredit env.timestamp (account s.toAccounts a) -
        min due (spendableCredit env.timestamp (account s.toAccounts a)) := by
  rcases applyCredit_ok keyed run with ⟨_, _, nonneg, _, lots⟩
  refine ⟨nonneg, ?_⟩
  unfold spendableCredit
  rw [lots, draw_total (drawable _) _ nonneg, total_expire le_rfl]

theorem exec_lowered (keyed : Keyed s.toAccounts) (run : exec ⟨env, call⟩ s = .ok s')
    (less : spendableCredit env.timestamp (account s'.toAccounts a) <
      spendableCredit env.timestamp (account s.toAccounts a)) :
    env.authorized a = true ∨ ∃ subId due, call = .applyCredit a subId due := by
  rcases exec_effect keyed run with effect | ⟨_, same⟩
  · rcases effect.posted a with same | ⟨n, txs, m, _, _, posting, posts⟩
    · rw [same] at less
      exact absurd less (lt_irrefl _)
    · rcases posting.lowered less with ⟨tx, mem, spends⟩
      have allowed := posts tx mem
      generalize tx.kind = kind at spends allowed
      generalize tx.amount = amount at allowed
      cases spends with
      | apply =>
        cases allowed
        exact .inr ⟨_, _, rfl⟩
      | transferOut =>
        cases allowed
        rcases (transferCredit_ok keyed run).2 with ⟨middle, moved⟩
        exact .inl moved.signed
  · rw [same] at less
    exact absurd less (lt_irrefl _)

theorem exec_walletLowered {id : Nat} {before after : PrepaymentWallet}
    (below : ∀ wallet, s.wallet id = some wallet → id < walletCount s.toWallets)
    (effect : WalletEffect env call s.toWallets s'.toWallets id) (held : s.wallet id = some before)
    (saved : s'.wallet id = some after) (less : after.balance < before.balance) :
    env.authorized before.subscriber = true := by
  cases effect with
  | kept same =>
    cases held.symm.trans (same.symm.trans saved)
    exact absurd less (lt_irrefl _)
  | created new =>
    have room := below before held
    omega
  | unrecorded signed held' =>
    cases held.symm.trans held'
    exact signed
  | recorded signed held' =>
    cases held.symm.trans held'
    exact signed

end Receipts

/-- Credit is spent by its owner or the admin alone, in exactly the runs whose applications are signed. -/
theorem spending_signed {w : World} (reached : Reachable (Ledger.inOrder contract) w) :
    (∀ r ∈ w.history, OwnSpending r) ↔ ∀ r ∈ w.history, SignedApplication r := by
  refine forall₂_congr fun r listed => ?_
  rcases reached.receipt r listed with ⟨v, here, met, state, run⟩
  rcases r with ⟨⟨env, call⟩, before, after⟩
  cases state
  have keyed := keyed_reachable here
  have next : Reachable (Ledger.inOrder contract) (submit v ⟨env, call⟩) := here.submit met
  have left : (submit v ⟨env, call⟩).state = after := congrArg Ledger.state (Ledger.submit_ok contract run)
  have balanced (a : Address) := (kept_reachable here a).balanced
  have balanced' (a : Address) : Balanced (account after.toAccounts a) := left ▸ (kept_reachable next a).balanced
  constructor
  · intro own a subscriptionId due available same positive read some
    cases same
    cases (getCreditBalance_eq (balanced a) env).symm.trans read
    obtain ⟨_, applied⟩ := exec_ran (show exec ⟨env, .applyCredit a subscriptionId due⟩ v.state = .ok after from run)
    have spent := (applyCredit_spendable keyed applied).2
    apply own.credit a
    rw [lowers_iff (balanced a) (balanced' a), spent]
    omega
  · intro signed
    refine ⟨fun a lowers => ?_, fun walletId wallet wallet' stored saved less => ?_⟩
    · have less := (lowers_iff (balanced a) (balanced' a)).mp lowers
      rcases exec_lowered keyed run less with own | ⟨subscriptionId, due, same⟩
      · exact .inl own
      · cases same
        obtain ⟨_, applied⟩ := exec_ran (show exec ⟨env, .applyCredit a subscriptionId due⟩ v.state = .ok after from run)
        rcases applyCredit_spendable keyed applied with ⟨nonneg, spent⟩
        have available := spendableCredit_nonneg env.timestamp (account v.state.toAccounts a)
        exact signed a subscriptionId due _ rfl (by omega) (getCreditBalance_eq (balanced a) env) (by omega)
    · have accounted (id : Nat) := accounted_reachable here id
      have effect := (exec_wallets keyed (fun id wallet stored => ((accounted id).adds wallet stored).id) run walletId).2
      exact .inl (exec_walletLowered (accounted walletId).below effect stored saved less)

def signedRun : World := trial
  [(0, [⟨9⟩], .initializeCredit ⟨9⟩), (1, [⟨9⟩], .issueCredit ⟨1⟩ 40 "promo" none), (2, [⟨1⟩], .applyCredit ⟨1⟩ 7 25)]

theorem spending_signed_run : (∀ r ∈ signedRun.history, OwnSpending r) ↔ ∀ r ∈ signedRun.history, SignedApplication r :=
  spending_signed (trial_inOrder (by decide))

def unsignedRun : World := trial
  [(0, [⟨9⟩], .initializeCredit ⟨9⟩), (1, [⟨9⟩], .issueCredit ⟨1⟩ 40 "promo" none), (2, [], .applyCredit ⟨1⟩ 7 25)]

theorem application_unsigned : Reachable (Ledger.inOrder contract) unsignedRun ∧
    ¬ ∀ r ∈ unsignedRun.history, OwnSpending r := by
  refine ⟨trial_inOrder (by decide), fun every => ?_⟩
  have facts : (unsignedRun.history[2]?.map fun r => ((getCreditBalance r.tx.env r.before ⟨1⟩).toOption,
      (getCreditBalance r.tx.env r.after ⟨1⟩).toOption, r.before.admin, r.tx.env.authorized ⟨1⟩,
      r.tx.env.authorized ⟨9⟩)) = some (some 40, some 15, some ⟨9⟩, false, false) := by decide +kernel
  rcases map_eq_some_iff.mp facts with ⟨r, found, same⟩
  simp only [Prod.mk.injEq, toOption_eq_some] at same
  rcases same with ⟨before, after, admin, unsigned, unsigned'⟩
  rcases (every r (List.mem_of_getElem? found)).credit ⟨1⟩ ⟨40, 15, before, after, by decide⟩ with own | ⟨other, set, own⟩
  · exact Bool.noConfusion (unsigned.symm.trans own)
  · cases admin.symm.trans set
    exact Bool.noConfusion (unsigned'.symm.trans own)

end SubTrackr.Credit
