import SubTrackr.Credit.Views

namespace SubTrackr.Credit

open Lib Soroban

structure Allowed (env : Env) (s : State) : Prop where
  signed : ∀ a, env.authorized a = true
  admin : s.admin ≠ none

def Rewrites (s s' : Accounts) (a : Address) (credit : AccountCredit) : Prop :=
  ∀ b, account s' b = if b = a then credit else account s b

def AccountCredit.granted (mid : AccountCredit) (txs : List CreditTransaction) (id : Nat) (amount : Int)
    (issuedAt : Nat) (expiresAt : Option Nat) : AccountCredit :=
  { mid with
    lots := mid.lots ++ [⟨id, amount, issuedAt, expiresAt⟩], balance := mid.balance + amount, transactions := txs }

def AccountCredit.drawn (mid : AccountCredit) (txs : List CreditTransaction) (now : Nat) (amount : Int) :
    AccountCredit :=
  { mid with
    lots := (draw (spendable now) CreditLot.reduce mid.lots amount).1
    balance := mid.balance - min amount (spendableCredit now mid), transactions := txs }

def grantExpiry (now : Nat) (policy : ExpirationPolicy) : Option Nat → Outcome (Option Nat)
  | some t => .ok (some t)
  | none => policyExpiry now policy

section Parts

variable {env : Env} {s s₁ : Accounts} {mid credit : AccountCredit}

theorem requireAuth_allowed {v : State} (allowed : Allowed env v) (a : Address) : env.requireAuth a = .ok () := by
  have signed := allowed.signed a
  unfold Env.requireAuth Host.requireAuth
  rw [signed]
  rfl

theorem record_eq (room : count s + 1 < 2 ^ 64) (kind : CreditTxKind) (amount : Int) (reason : String)
    (counterparty : Option Address) : record env s credit kind amount reason counterparty =
      .ok ({ credit with
        transactions := trim (credit.transactions ++ [transaction env (count s) kind amount reason counterparty]) },
        { s with nextId := some (count s + 1) }) := by
  unfold record
  rw [nextId_eq room]
  rfl

theorem realizeExpiry_run (sound : Sound 1 0 s) (a : Address) : ∃ mid s₁ txs,
    realizeExpiry env s (account s a) = .ok (mid, s₁) ∧ Realised env (count s) (account s a) txs mid (count s₁) ∧
      s₁ = { s with nextId := s₁.nextId } ∧ mid.subscriber = a ∧ Balanced mid ∧ count s₁ ≤ count s + 1 := by
  obtain ⟨⟨mid, s₁⟩, run⟩ := @realizeExpiry_total env s _ (sound.balanced a) sound.ids
  obtain ⟨txs, realised, frame⟩ := realizeExpiry_ok run
  have one := realised.short
  have next := realised.ids.1
  exact ⟨mid, s₁, txs, run, realised, frame, realised.fixed.1.trans (sound.keyed a),
    realised.balanced (sound.balanced a), by omega⟩

theorem account_frame (frame : s₁ = { s with nextId := s₁.nextId }) (a : Address) : account s₁ a = account s a := by
  rw [frame]
  rfl

theorem save_run (room : accountCount s₁ + 1 < 2 ^ 32) (credit : AccountCredit) :
    ∃ s', save s₁ credit = .ok s' ∧ Rewrites s₁ s' credit.subscriber credit ∧ count s' = count s₁ ∧
      accountCount s' ≤ accountCount s₁ + 1 := by
  obtain ⟨s', run⟩ := @save_total s₁ credit room
  exact ⟨s', run, (save_ok run).2, (save_ok run).1, save_accountCount run⟩

end Parts

section Calls

variable {env : Env} {s : State} {mid : AccountCredit} {s₁ : Accounts} {a : Address}

theorem setExpirationPolicy_run (allowed : Allowed env s) (sound : Sound 0 1 s.toAccounts) (a : Address)
    (policy : ExpirationPolicy) : ∃ s', setExpirationPolicy env s a policy = .ok s' ∧
      Rewrites s.toAccounts s'.toAccounts a { account s.toAccounts a with expirationPolicy := policy } := by
  obtain ⟨admin, known⟩ := Option.ne_none_iff_exists'.mp allowed.admin
  obtain ⟨s', saved, writes, _⟩ := save_run sound.accounts { account s.toAccounts a with expirationPolicy := policy }
  rw [show (account s.toAccounts a).subscriber = a from sound.keyed a] at writes
  unfold setExpirationPolicy requireAdmin
  rw [known]
  simp only [present, ok_bind, requireAuth_allowed allowed, saved]
  exact ⟨_, rfl, writes⟩

theorem issueCredit_run (allowed : Allowed env s) {amount : Int} (pos : 0 < amount)
    (realised : realizeExpiry env s.toAccounts (account s.toAccounts a) = .ok (mid, s₁)) (key : mid.subscriber = a)
    {expiresAt expiry : Option Nat} (due : grantExpiry env.timestamp mid.expirationPolicy expiresAt = .ok expiry)
    (ids : count s₁ + 2 < 2 ^ 64) (accounts : accountCount s₁ + 1 < 2 ^ 32) (low : 0 ≤ mid.balance)
    (fits : mid.balance + amount < 2 ^ 127) (reason : String) :
    ∃ s' txs id, issueCredit env s a amount reason expiresAt = .ok (mid.balance + amount, s') ∧
      Rewrites s₁ s'.toAccounts a (mid.granted txs id amount env.timestamp expiry) := by
  obtain ⟨admin, known⟩ := Option.ne_none_iff_exists'.mp allowed.admin
  have sum : i128 (mid.balance + amount) = .ok (mid.balance + amount) :=
    (i128_eq_ok ..).mpr ⟨⟨by omega, fits⟩, rfl⟩
  have second : count { s₁ with nextId := some (count s₁ + 1) } + 1 < 2 ^ 64 := by
    change count s₁ + 1 + 1 < 2 ^ 64
    omega
  obtain ⟨s', saved, writes, _⟩ := @save_run { s₁ with nextId := some (count s₁ + 1 + 1) } accounts
    (mid.granted (trim (mid.transactions ++ [transaction env (count s₁ + 1) .issue amount reason none])) (count s₁)
      amount env.timestamp expiry)
  change Rewrites s₁ s' mid.subscriber _ at writes
  rw [key] at writes
  refine ⟨{ s with toAccounts := s', events := s.events ++ [.issue a amount] }, _, _, ?_, writes⟩
  have finish : ((save { s₁ with nextId := some (count s₁ + 1 + 1) }
      (mid.granted (trim (mid.transactions ++ [transaction env (count s₁ + 1) .issue amount reason none])) (count s₁)
        amount env.timestamp expiry)) >>= fun accounts => (.ok (mid.balance + amount,
          { s with toAccounts := accounts, events := s.events ++ [.issue a amount] }) : Outcome (Int × State))) =
      .ok (mid.balance + amount, { s with toAccounts := s', events := s.events ++ [.issue a amount] }) := by
    rw [saved]
    rfl
  unfold issueCredit requireAdmin
  simp only [known, present, ok_bind, requireAuth_allowed allowed, (require_eq_ok _ _ ()).mpr pos, realised,
    nextId_eq (by omega : count s₁ + 1 < 2 ^ 64), sum, orPanic_ok, record_eq second]
  cases expiresAt with
  | some t =>
    cases due
    rw [← known]
    exact finish
  | none =>
    change policyExpiry env.timestamp mid.expirationPolicy = .ok expiry at due
    simp only [due, ok_bind]
    rw [← known]
    exact finish

theorem applyCredit_run {due : Int} (nonneg : 0 ≤ due)
    (realised : realizeExpiry env s.toAccounts (account s.toAccounts a) = .ok (mid, s₁)) (key : mid.subscriber = a)
    (balanced : Balanced mid) (ids : count s₁ + 1 < 2 ^ 64) (accounts : accountCount s₁ + 1 < 2 ^ 32)
    (subId : Nat) : ∃ s' txs answer,
      applyCredit env s a subId due = .ok (answer, s') ∧
      answer.applied = min due (spendableCredit env.timestamp mid) ∧ answer.remainingDue = due - answer.applied ∧
      Rewrites s₁ s'.toAccounts a (mid.drawn txs env.timestamp due) := by
  have split := balanced.split env.timestamp
  have low := spendableCredit_nonneg env.timestamp mid
  have gone := lapsedCredit_nonneg env.timestamp mid
  have fits := balanced.fits
  unfold applyCredit
  simp only [(require_eq_ok _ _ ()).mpr nonneg, ok_bind, realised, consume_eq env.timestamp mid nonneg]
  by_cases spends : 0 < min due (spendableCredit env.timestamp mid)
  · have left : i128 (mid.balance - min due (spendableCredit env.timestamp mid)) = .ok _ :=
      (i128_eq_ok ..).mpr ⟨⟨by omega, by omega⟩, rfl⟩
    obtain ⟨s', saved, writes, _⟩ := @save_run { s₁ with nextId := some (count s₁ + 1) } accounts
      (mid.drawn (trim (mid.transactions ++ [transaction env (count s₁) .apply
        (-min due (spendableCredit env.timestamp mid)) "charge_application" none])) env.timestamp due)
    change Rewrites s₁ s' mid.subscriber _ at writes
    rw [key] at writes
    simp only [if_pos spends, left, orPanic_ok, ok_bind, record_eq ids]
    change ∃ s'' txs answer, (save { s₁ with nextId := some (count s₁ + 1) } (mid.drawn ..) >>= _) = _ ∧ _
    rw [saved]
    exact ⟨_, _, _, rfl, rfl, rfl, writes⟩
  · have zero : min due (spendableCredit env.timestamp mid) = 0 := by omega
    obtain ⟨s', saved, writes, _⟩ := @save_run s₁ accounts (mid.drawn mid.transactions env.timestamp due)
    change Rewrites s₁ s' mid.subscriber _ at writes
    rw [key] at writes
    have idle : ({ mid with lots := (draw (spendable env.timestamp) CreditLot.reduce mid.lots due).1 } : AccountCredit) =
        mid.drawn mid.transactions env.timestamp due := by
      unfold AccountCredit.drawn
      rw [zero, Int.sub_zero]
    simp only [zero, Int.lt_irrefl, if_false, ok_bind]
    rw [idle, saved]
    exact ⟨_, _, _, rfl, rfl, rfl, writes⟩

theorem expireCredits_run (realised : realizeExpiry env s.toAccounts (account s.toAccounts a) = .ok (mid, s₁))
    (key : mid.subscriber = a) (accounts : accountCount s₁ + 1 < 2 ^ 32) (low : 0 ≤ mid.balance)
    (less : mid.balance ≤ (account s.toAccounts a).balance) (fits : (account s.toAccounts a).balance < 2 ^ 127) :
    ∃ s', expireCredits env s a = .ok ((account s.toAccounts a).balance - mid.balance, s') ∧
      Rewrites s₁ s'.toAccounts a mid := by
  obtain ⟨s', saved, writes, _⟩ := @save_run s₁ accounts mid
  rw [key] at writes
  have lost : i128 ((account s.toAccounts a).balance - mid.balance) = .ok _ :=
    (i128_eq_ok ..).mpr ⟨⟨by omega, by omega⟩, rfl⟩
  unfold expireCredits
  simp only [realised, ok_bind, saved, lost, orPanic_ok]
  exact ⟨_, rfl, writes⟩

/-- A transfer, from the sender's realised account to the recipient's: the last clause is for a transfer that neither
the policy's expiry nor the recipient's balance takes out of the machine's range. -/
theorem transferCredit_run (allowed : Allowed env s) (sound : Sound 5 2 s.toAccounts) {amount : Int}
    (pos : 0 < amount) {recipient : Address} (nodup : a ≠ recipient) (reason : String) :
    ∃ mid txs n m, Realised env n (account s.toAccounts a) txs mid m ∧
      (spendableCredit env.timestamp mid < amount →
        transferCredit env s a recipient amount reason = .error (.error .insufficientCredit)) ∧
      (amount ≤ spendableCredit env.timestamp mid →
        ∃ received txs n m, Realised env n (account s.toAccounts recipient) txs received m ∧
          ∀ expiry, policyExpiry env.timestamp received.expirationPolicy = .ok expiry →
            received.balance + amount < 2 ^ 127 →
            ∃ s' sent arrived id, transferCredit env s a recipient amount reason = .ok s' ∧
              ∀ b, account s'.toAccounts b =
                if b = recipient then received.granted arrived id amount env.timestamp expiry
                else if b = a then mid.drawn sent env.timestamp amount else account s.toAccounts b) := by
  obtain ⟨mid, s₁, txs, run, realised, frame, key, balanced, _⟩ :=
    @realizeExpiry_run env s.toAccounts ⟨sound.keyed, sound.balanced, by have := sound.ids; omega,
      by have := sound.accounts; omega⟩ a
  have sound₁ : Sound 4 2 s₁ := sound.realised realised frame
  have room₁ := sound₁.ids
  have available := balanced.available env.timestamp
  refine ⟨mid, txs, _, _, realised, ?_, ?_⟩
  · intro short
    have refused : require (amount ≤ spendableCredit env.timestamp mid) (Failure.error CreditError.insufficientCredit) =
        .error (.error .insufficientCredit) := if_neg (by omega)
    unfold transferCredit
    simp only [requireAuth_allowed allowed, ok_bind, (require_eq_ok _ _ ()).mpr pos,
      (require_eq_ok _ _ ()).mpr nodup, run, available, orPanic_ok, refused]
    rfl
  · intro enough
    have split := balanced.split env.timestamp
    have gone := lapsedCredit_nonneg env.timestamp mid
    have bound := balanced.fits
    have moved : min amount (spendableCredit env.timestamp mid) = amount := min_eq_left enough
    have left : i128 (mid.balance - amount) = .ok (mid.balance - amount) :=
      (i128_eq_ok ..).mpr ⟨⟨by omega, by omega⟩, rfl⟩
    have counted : Sound 3 2 { s₁ with nextId := some (count s₁ + 1) } := sound₁.counted le_rfl
    obtain ⟨sent, recorded⟩ : ∃ sent, sent =
        trim (mid.transactions ++ [transaction env (count s₁) .transferOut (-amount) reason (some recipient)]) := ⟨_, rfl⟩
    obtain ⟨drawn, sender⟩ : ∃ drawn, drawn = mid.drawn sent env.timestamp amount := ⟨_, rfl⟩
    have backed : Balanced drawn := by
      rw [sender]
      exact balanced.drawn pos.le rfl rfl
    obtain ⟨s₂, saved, writes, _, _⟩ := @save_run { s₁ with nextId := some (count s₁ + 1) }
      (by have := counted.accounts; omega) drawn
    have sound₂ : Sound 3 1 s₂ := counted.save backed saved
    have named : drawn.subscriber = a := by
      rw [sender]
      exact key
    rw [named] at writes
    have untouched : account s₂ recipient = account s.toAccounts recipient := by
      rw [writes recipient, if_neg nodup.symm]
      exact account_frame frame recipient
    obtain ⟨received, s₃, txs', run', realised', frame', key', balanced', _⟩ :=
      @realizeExpiry_run env s₂ ⟨sound₂.keyed, sound₂.balanced, by have := sound₂.ids; omega,
        by have := sound₂.accounts; omega⟩ recipient
    have sound₃ : Sound 2 1 s₃ := sound₂.realised realised' frame'
    have room₃ := sound₃.ids
    have low := balanced'.split env.timestamp
    have spendable' := spendableCredit_nonneg env.timestamp received
    have gone' := lapsedCredit_nonneg env.timestamp received
    rw [untouched] at realised'
    refine ⟨received, txs', _, _, realised', fun expiry due fits => ?_⟩
    have sum : i128 (received.balance + amount) = .ok (received.balance + amount) :=
      (i128_eq_ok ..).mpr ⟨⟨by omega, fits⟩, rfl⟩
    have second : count { s₃ with nextId := some (count s₃ + 1) } + 1 < 2 ^ 64 := by
      change count s₃ + 1 + 1 < 2 ^ 64
      omega
    obtain ⟨arrived, recorded'⟩ : ∃ arrived, arrived =
        trim (received.transactions ++ [transaction env (count s₃ + 1) .transferIn amount reason (some a)]) := ⟨_, rfl⟩
    obtain ⟨s₄, saved', writes', _, _⟩ := @save_run { s₃ with nextId := some (count s₃ + 1 + 1) } sound₃.accounts
      (received.granted arrived (count s₃) amount env.timestamp expiry)
    change Rewrites s₃ s₄ received.subscriber _ at writes'
    rw [key'] at writes'
    refine ⟨{ s with toAccounts := s₄ }, sent, arrived, count s₃, ?_, fun b => ?_⟩
    · have consumed := consume_eq env.timestamp mid pos.le
      rw [moved] at consumed
      have sending : ({ mid with
          lots := (draw (spendable env.timestamp) CreditLot.reduce mid.lots amount).1
          balance := mid.balance - amount, transactions := sent } : AccountCredit) = drawn := by
        rw [sender, AccountCredit.drawn, moved]
      unfold transferCredit
      simp only [requireAuth_allowed allowed, ok_bind, (require_eq_ok _ _ ()).mpr pos,
        (require_eq_ok _ _ ()).mpr nodup, run, available, orPanic_ok, (require_eq_ok _ _ ()).mpr enough, consumed,
        left, record_eq (by omega : count s₁ + 1 < 2 ^ 64), ← recorded, sending, saved, run',
        nextId_eq (by omega : count s₃ + 1 < 2 ^ 64), due, sum, record_eq second]
      change (save { s₃ with nextId := some (count s₃ + 1 + 1) } (received.granted
        (trim (received.transactions ++ [transaction env (count s₃ + 1) .transferIn amount reason (some a)])) _ _ _ _) >>=
          _) = _
      rw [← recorded', saved']
      rfl
    · rw [writes' b, account_frame frame' b, writes b, ← sender]
      split
      · rfl
      · split
        · rfl
        · exact account_frame frame b

end Calls

end SubTrackr.Credit
