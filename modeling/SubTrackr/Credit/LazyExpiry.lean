import SubTrackr.Credit.Views

namespace SubTrackr.Credit

open List Lib Soroban

/-- The same contract in two runs, as far as the account calls can tell at `now`. -/
structure Matched (now : Nat) (s v : State) : Prop where
  admin : s.admin = v.admin
  views : ∀ a, view now (account s.toAccounts a) = view now (account v.toAccounts a)

section Calls

variable {env : Env} {now ids accounts : Nat} {s v : State} {a : Address}

theorem Paired.mono {s v : Accounts} {ids' accounts' : Nat} (paired : Paired now ids accounts s v) (fewer : ids' ≤ ids)
    (less : accounts' ≤ accounts) : Paired now ids' accounts' s v := by
  have sound {s : Accounts} (sound : Sound ids accounts s) : Sound ids' accounts' s := by
    have room := sound.ids
    have place := sound.accounts
    exact ⟨sound.keyed, sound.balanced, by omega, by omega⟩
  exact ⟨sound paired.left, sound paired.right, paired.views⟩

section

variable (paired : Paired env.timestamp 5 2 s.toAccounts v.toAccounts) (same : s.admin = v.admin)

include paired same

theorem applyCredit_agree
    (a : Address) (subId : Nat) (due : Int) :
    Agree (fun x y => x.1 = y.1 ∧ Matched env.timestamp x.2 y.2) (applyCredit env s a subId due)
      (applyCredit env v a subId due) := by
  unfold applyCredit
  apply Agree.bind_same
  intro _ checked
  have nonneg := (require_eq_ok ..).mp checked
  have enough : Paired env.timestamp 2 1 s.toAccounts v.toAccounts := paired.mono (by decide) (by decide)
  apply (realizeExpiry_agree enough (paired.twin a)).bind
  intro x y realised
  rcases x with ⟨credit, accounts⟩
  rcases y with ⟨credit', accounts'⟩
  rcases realised with ⟨level, paired⟩
  change Level env.timestamp credit credit' at level
  rcases level.consumed nonneg with ⟨moved, rest, rest', taken, taken', least, balance, drawn⟩
  have available := spendableCredit_nonneg env.timestamp credit
  have posted : Agree (fun x y => Level env.timestamp x.1 y.1 ∧ Paired env.timestamp 0 1 x.2 y.2)
      (if 0 < moved then (do
          let balance ← orPanic (i128 (rest.balance - moved))
          record env accounts { rest with balance } .apply (-moved) "charge_application" none)
        else .ok (rest, accounts))
      (if 0 < moved then (do
          let balance ← orPanic (i128 (rest'.balance - moved))
          record env accounts' { rest' with balance } .apply (-moved) "charge_application" none)
        else .ok (rest', accounts')) := by
    split
    · rw [← balance] at drawn ⊢
      apply Agree.bind_same
      intro left fits
      rcases (i128_eq_ok ..).mp ((orPanic_eq_ok ..).mp fits) with ⟨_, rfl⟩
      exact record_agree paired drawn ..
    · have zero : moved = 0 := by omega
      rw [zero, Int.sub_zero, Int.sub_zero] at drawn
      exact .ok ⟨drawn, paired.mono (by decide) le_rfl⟩
  simp only [taken, taken']
  apply posted.bind
  intro x y posted
  apply (save_agree posted.2 posted.1.toTwin).bind
  intro accounts accounts' paired
  exact .ok ⟨congrArg (CreditApplied.mk _ _ _) posted.1.balance, same, paired.views⟩

theorem setExpirationPolicy_agree (a : Address) (policy : ExpirationPolicy) :
    Agree (Matched env.timestamp) (setExpirationPolicy env s a policy) (setExpirationPolicy env v a policy) := by
  have enough : Paired env.timestamp 5 1 s.toAccounts v.toAccounts := paired.mono le_rfl (by decide)
  have twin := paired.twin a
  have left := twin.left
  have right := twin.right
  simp only [setExpirationPolicy, requireAdmin, ← same]
  apply Agree.bind_same
  intro admin _
  apply Agree.bind_same
  intro _ _
  have changed : Twin env.timestamp { account s.toAccounts a with expirationPolicy := policy }
      { account v.toAccounts a with expirationPolicy := policy } :=
    ⟨twin.subscriber, congrArg (fun seen => (policy, seen.2)) twin.views, ⟨left.held, left.nonneg, left.fits⟩,
      ⟨right.held, right.nonneg, right.fits⟩⟩
  apply (save_agree enough changed).bind
  intro accounts accounts' paired
  exact .ok ⟨rfl, paired.views⟩

theorem issueCredit_agree
    (a : Address) (amount : Int) (reason : String) (expiresAt : Option Nat) :
    Agree (fun x y => x.1 = y.1 ∧ Matched env.timestamp x.2 y.2) (issueCredit env s a amount reason expiresAt)
      (issueCredit env v a amount reason expiresAt) := by
  have enough : Paired env.timestamp 3 1 s.toAccounts v.toAccounts := paired.mono (by decide) (by decide)
  simp only [issueCredit, requireAdmin, ← same]
  apply Agree.bind_same
  intro admin _
  apply Agree.bind_same
  intro _ _
  apply Agree.bind_same
  intro _ checked
  have pos := (require_eq_ok ..).mp checked
  apply (realizeExpiry_agree enough (paired.twin a)).bind
  intro x y realised
  rcases x with ⟨credit, accounts⟩
  rcases y with ⟨credit', accounts'⟩
  rcases realised with ⟨level, paired⟩
  change Level env.timestamp credit credit' at level
  have policy : credit.expirationPolicy = credit'.expirationPolicy := congrArg Prod.fst level.views
  have balance : credit.balance = credit'.balance := level.balance
  simp only [← policy, ← balance]
  apply Agree.bind_same
  intro expiry _
  apply (nextId_agree paired).bind
  intro x y paired
  apply Agree.bind_same
  intro sum fits
  rcases (i128_eq_ok ..).mp ((orPanic_eq_ok ..).mp fits) with ⟨⟨_, bound⟩, rfl⟩
  have granted := level.granted x.1 y.1 env.timestamp expiry pos bound
  simp only [← balance, ← policy] at granted
  apply (record_agree paired granted ..).bind
  intro x y recorded
  apply (save_agree recorded.2 recorded.1.toTwin).bind
  intro accounts accounts' paired
  exact .ok ⟨recorded.1.balance, rfl, paired.views⟩

theorem transferCredit_agree
    (sender recipient : Address) (amount : Int) (reason : String) :
    Agree (Matched env.timestamp) (transferCredit env s sender recipient amount reason)
      (transferCredit env v sender recipient amount reason) := by
  unfold transferCredit
  apply Agree.bind_same
  intro _ _
  apply Agree.bind_same
  intro _ checked
  have pos := (require_eq_ok ..).mp checked
  apply Agree.bind_same
  intro _ _
  apply (realizeExpiry_agree paired (paired.twin sender)).bind
  intro x y realised
  rcases x with ⟨credit, accounts⟩
  rcases y with ⟨credit', accounts'⟩
  rcases realised with ⟨level, paired⟩
  change Level env.timestamp credit credit' at level
  simp only [level.left.available, level.right.available, ← spendableCredit_same level.views]
  apply Agree.bind_same
  intro spendable summed
  have available := (ok_eq_ok ..).mp ((orPanic_eq_ok ..).mp summed)
  apply Agree.bind_same
  intro _ checked
  have enough := (require_eq_ok ..).mp checked
  rcases level.consumed pos.le with ⟨moved, rest, rest', taken, taken', least, balance, drawn⟩
  have some : 0 < moved := by omega
  simp only [taken, taken', ← balance] at drawn ⊢
  apply Agree.bind_same
  intro left fits
  rcases (i128_eq_ok ..).mp ((orPanic_eq_ok ..).mp fits) with ⟨_, rfl⟩
  apply (record_agree paired drawn ..).bind
  intro x y recorded
  apply (save_agree recorded.2 recorded.1.toTwin).bind
  intro accounts accounts' paired
  apply (realizeExpiry_agree paired (paired.twin recipient)).bind
  intro x y realised
  rcases x with ⟨credit, accounts⟩
  rcases y with ⟨credit', accounts'⟩
  rcases realised with ⟨level, paired⟩
  change Level env.timestamp credit credit' at level
  have policy : credit.expirationPolicy = credit'.expirationPolicy := congrArg Prod.fst level.views
  have balance : credit.balance = credit'.balance := level.balance
  simp only [← policy, ← balance]
  apply (nextId_agree paired).bind
  intro x y paired
  apply Agree.bind_same
  intro expiry _
  apply Agree.bind_same
  intro sum fits
  rcases (i128_eq_ok ..).mp ((orPanic_eq_ok ..).mp fits) with ⟨⟨_, bound⟩, rfl⟩
  have granted := level.granted x.1 y.1 env.timestamp expiry some bound
  simp only [← balance, ← policy] at granted
  apply (record_agree paired granted ..).bind
  intro x y recorded
  apply (save_agree recorded.2 recorded.1.toTwin).bind
  intro accounts accounts' paired
  exact .ok ⟨same, paired.views⟩

end

def Call.loud : Call → Bool
  | .initializeCredit _ | .setExpirationPolicy .. | .issueCredit .. | .applyCredit .. | .transferCredit .. => true
  | _ => false

theorem loud_agree {call : Call} (loud : call.loud = true) (paired : Paired env.timestamp 5 2 s.toAccounts v.toAccounts)
    (same : s.admin = v.admin) : Agree (Matched env.timestamp) (exec ⟨env, call⟩ s) (exec ⟨env, call⟩ v) := by
  cases call with
  | initializeCredit admin =>
    simp only [exec, initializeCredit, ← same]
    apply Agree.bind_same
    intro _ _
    exact .ok ⟨rfl, paired.views⟩
  | setExpirationPolicy a policy => exact setExpirationPolicy_agree paired same a policy
  | issueCredit a amount reason expiresAt =>
    apply (issueCredit_agree paired same a amount reason expiresAt).bind
    exact fun x y issued => .ok issued.2
  | applyCredit a subId due =>
    apply (applyCredit_agree paired same a subId due).bind
    exact fun x y applied => .ok applied.2
  | transferCredit sender recipient amount reason => exact transferCredit_agree paired same sender recipient amount reason
  | _ => cases loud

theorem Swept.view {s s' : Accounts} (swept : Swept env s s') (order : env.timestamp ≤ now) (a : Address) :
    view now (account s' a) = view now (account s a) := by
  rcases swept.swept a with kept | ⟨_, _, _, _, _, realised⟩
  · rw [kept]
  · exact view_later realised.view order

theorem quiet_step {call : Call} {s' : State} (quiet : call.loud = false) (keyed : Keyed s.toAccounts)
    (run : exec ⟨env, call⟩ s = .ok s') : s'.admin = s.admin ∧ Swept env s.toAccounts s'.toAccounts := by
  have run := exec_ran run
  cases call with
  | expireCredits a =>
    obtain ⟨_, expired⟩ := run
    rcases expireCredits_ok keyed expired with ⟨_, swept, rest⟩
    exact ⟨rest.2, swept⟩
  | expireCreditsWithCron =>
    obtain ⟨_, cron⟩ := run
    obtain ⟨_, _, swept, rfl⟩ := expireCreditsWithCron_ok cron
    exact ⟨rfl, expireAll_ok keyed swept⟩
  | createWallet =>
    obtain ⟨_, created⟩ := run
    obtain ⟨_, same, accounts⟩ := createWallet_accounts created
    rw [accounts]
    exact ⟨same, .refl env _⟩
  | deposit | withdraw | drawdown =>
    obtain ⟨_, _, _, rfl⟩ := run
    exact ⟨rfl, .refl env _⟩
  | _ => cases quiet

theorem quiet_settle {call : Call} (quiet : call.loud = false) (keyed : Keyed s.toAccounts) (order : env.timestamp ≤ now) :
    (Ledger.settle contract ⟨env, call⟩ s).admin = s.admin ∧
      ∀ a, view now (account (Ledger.settle contract ⟨env, call⟩ s).toAccounts a) = view now (account s.toAccounts a) := by
  rcases Ledger.settle_cases contract ⟨env, call⟩ s with run | same
  · rcases quiet_step quiet keyed run with ⟨admin, swept⟩
    exact ⟨admin, swept.view order⟩
  · rw [same]
    exact ⟨rfl, fun _ => rfl⟩

end Calls

section Cron

variable {env : Env} {s s' : Accounts} {results results' : List (Address × Int)} {a : Address}

theorem save_known {credit : AccountCredit} (known : s.accountIndex credit.subscriber ≠ none)
    (run : save s credit = .ok s') : s'.counter = s.counter := by
  simp only [save, register, if_neg known, bind_eq_ok, pure_eq_ok] at run
  rcases run with ⟨_, rfl, rfl⟩
  rfl

theorem Swept.settled (swept : Swept env s s') (settled : lapsedCredit env.timestamp (account s a) = 0) :
    lapsedCredit env.timestamp (account s' a) = 0 := by
  rcases swept.swept a with kept | ⟨_, _, _, _, _, realised⟩
  · rw [kept]
    exact settled
  · exact realised.settled

theorem expireRound_settles {i : Nat} (keyed : Keyed s) (numbered : Numbered s)
    (run : expireRound env results s i = .ok (results', s')) : s'.counter = s.counter ∧
      ∀ a, s.counter i = some a → lapsedCredit env.timestamp (account s' a) = 0 := by
  unfold expireRound at run
  cases counter : s.counter i with
  | none =>
    rw [counter] at run
    cases run
    exact ⟨rfl, fun a other => by cases other⟩
  | some a =>
    simp only [counter, bind_eq_ok, orPanic_eq_ok, i128_eq_ok] at run
    rcases run with ⟨⟨mid, s₁⟩, realised, expired, ⟨_, rfl⟩, run⟩
    rcases realizeExpiry_ok realised with ⟨txs, realised, frame⟩
    have named : mid.subscriber = a := realised.fixed.1.trans (keyed a)
    split at run
    · simp only [bind_eq_ok, pure_eq_ok] at run
      rcases run with ⟨s₂, saved, same⟩
      cases same
      have known : s₁.accountIndex mid.subscriber ≠ none := by
        rw [frame, named]
        change s.accountIndex a ≠ none
        rw [(numbered.inverse a i).mpr counter]
        exact Option.some_ne_none i
      refine ⟨?_, fun b here => ?_⟩
      · rw [save_known known saved, frame]
      · cases here
        rw [(save_ok saved).2 a, if_pos named.symm]
        exact realised.settled
    · rename_i unchanged
      cases run
      have lost := realised.amounts
      have left := realised.balance
      have gone := lapsedCredit_nonneg env.timestamp (account s a)
      change ¬ 0 < (account s a).balance - mid.balance at unchanged
      refine ⟨by rw [frame], fun b here => ?_⟩
      cases here
      have kept : account s₁ a = account s a := by rw [frame]; rfl
      rw [kept]
      omega

theorem expireAll_settles {ids : List Nat} (keyed : Keyed s) (numbered : Numbered s)
    (run : expireAll env results s ids = .ok (results', s')) :
    ∀ i ∈ ids, ∀ a, s.counter i = some a → lapsedCredit env.timestamp (account s' a) = 0 := by
  induction ids generalizing results s with
  | nil => exact fun _ mem => absurd mem not_mem_nil
  | cons i ids ih =>
    simp only [expireAll, bind_eq_ok] at run
    rcases run with ⟨⟨_, s₁⟩, round, rest⟩
    have first := expireRound_ok keyed round
    rcases expireRound_settles keyed numbered round with ⟨same, settled⟩
    intro j mem a counter
    rcases mem_cons.mp mem with here | later
    · subst here
      exact (expireAll_ok (first.keyed keyed) rest).settled (settled a counter)
    · exact ih (first.keyed keyed) (first.written.numbered numbered) rest j later a (same ▸ counter)

theorem expireCreditsWithCron_settles {s s' : State} {admin : Address} {results : List (Address × Int)}
    (keyed : Keyed s.toAccounts) (numbered : Numbered s.toAccounts)
    (run : expireCreditsWithCron env s admin = .ok (results, s')) (a : Address) :
    lapsedCredit env.timestamp (account s'.toAccounts a) = 0 := by
  obtain ⟨_, _, swept, rfl⟩ := expireCreditsWithCron_ok run
  by_cases held : s.account a = none
  · apply (expireAll_ok keyed swept).settled
    unfold account
    rw [held]
    rfl
  · rcases Option.ne_none_iff_exists'.mp ((numbered.stored a).mp held) with ⟨i, index⟩
    have counter := (numbered.inverse a i).mp index
    have below := (numbered.below i).mp (counter ▸ Option.some_ne_none a)
    exact expireAll_settles keyed numbered swept i (mem_range.mpr below) a counter

end Cron

def Roomy (s : Accounts) : Prop := count s + 5 < 2 ^ 64 ∧ accountCount s + 2 < 2 ^ 32

def roomy (w : World) (tx : Tx) : Prop := Ledger.inOrder contract w tx ∧ Roomy w.state.toAccounts

instance (s : Accounts) : Decidable (Roomy s) := inferInstanceAs (Decidable (_ ∧ _))

instance (w : World) (tx : Tx) : Decidable (roomy w tx) :=
  inferInstanceAs (Decidable (w.clock ≤ tx.env.timestamp ∧ Roomy w.state.toAccounts))

def Call.expires : Call → Bool
  | .expireCredits _ | .expireCreditsWithCron _ => true
  | _ => false

def expiryCall (_ : World) (tx : Tx) : Prop := tx.call.expires = true

instance (w : World) (tx : Tx) : Decidable (expiryCall w tx) := inferInstanceAs (Decidable (_ = true))

section Runs

variable {w v : World} {env : Env}

theorem paired_of_reachable (left : Reachable roomy w) (right : Reachable roomy v) (room : Roomy w.state.toAccounts)
    (room' : Roomy v.state.toAccounts) (matched : Matched env.timestamp w.state v.state) :
    Paired env.timestamp 5 2 w.state.toAccounts v.state.toAccounts := by
  have sound {w : World} (reached : Reachable roomy w) (room : Roomy w.state.toAccounts) :
      Sound 5 2 w.state.toAccounts := by
    have ordered : Reachable (Ledger.inOrder contract) w := reached.mono fun _ _ met => met.1
    exact ⟨keyed_reachable ordered, fun a => (kept_reachable ordered a).balanced, room.1, room.2⟩
  exact ⟨sound left room, sound right room', matched.views⟩

theorem matched_padded (padded : Ledger.Padded contract Initialised roomy expiryCall w v) :
    ∀ now, w.clock ≤ now → v.clock ≤ now → Matched now w.state v.state := by
  refine padded.related (R := Matched) (fun _ _ met => met.1) ?_ ?_ ?_
  · intro s now initial
    exact ⟨rfl, fun _ => rfl⟩
  · intro w v tx before left right matched now later
    rcases tx with ⟨env, call⟩
    have here := matched _ le_rfl
    cases loud : call.loud with
    | true =>
      have paired := paired_of_reachable before.left before.right left.2 right.2 here
      have agree := loud_agree loud paired here.admin
      obtain after | ⟨one, two⟩ := Ledger.settle_agree (c := contract) (t := ⟨env, call⟩) agree
      · exact ⟨after.admin, fun a => view_later (after.views a) later⟩
      · rw [one, two]
        exact matched now later
    | false =>
      have now' := matched now later
      rcases quiet_settle loud (keyed_reachable before.left) later with ⟨admin, views⟩
      rcases quiet_settle loud (keyed_reachable before.right) later with ⟨admin', views'⟩
      refine ⟨admin.trans (now'.admin.trans admin'.symm), fun a => ?_⟩
      rw [views a, views' a, now'.views a]
  · intro w v tx before allowed _ matched now earlier later
    rcases tx with ⟨env, call⟩
    have quiet : call.loud = false := by
      unfold expiryCall at allowed
      cases call <;> first | rfl | cases allowed
    have here := matched now earlier later
    rcases quiet_settle quiet (keyed_reachable before.right) later with ⟨admin, views⟩
    exact ⟨here.admin.trans admin.symm, fun a => (here.views a).trans (views a).symm⟩

end Runs

/-- What `get_credit_balance` and `apply_credit` answer and whether `transfer_credit` goes through. -/
structure SameAnswers (env : Env) (s v : State) : Prop where
  balance : ∀ a, getCreditBalance env s a = getCreditBalance env v a
  applied : ∀ a subscriptionId due, (applyCredit env s a subscriptionId due).map (·.1) =
    (applyCredit env v a subscriptionId due).map (·.1)
  transfer : ∀ sender recipient amount reason, (transferCredit env s sender recipient amount reason).map (fun _ => ()) =
    (transferCredit env v sender recipient amount reason).map (fun _ => ())

theorem Paired.sameAnswers {env : Env} {s v : State} (paired : Paired env.timestamp 5 2 s.toAccounts v.toAccounts)
    (same : s.admin = v.admin) : SameAnswers env s v where
  balance a := by
    have views := spendableCredit_same (paired.views a)
    unfold getCreditBalance
    rw [(paired.left.balanced a).available, (paired.right.balanced a).available, views]
  applied a subId due := (applyCredit_agree paired same a subId due).map_eq fun _ _ agreed => agreed.1
  transfer sender recipient amount reason :=
    (transferCredit_agree paired same sender recipient amount reason).map_eq fun _ _ _ => rfl

/-- Expiry calls put into a run change no later answer, and each run of the cron leaves no account with credit still
    to expire. -/
theorem expiry_unseen {w v : World} (padded : Ledger.Padded contract Initialised roomy expiryCall w v) :
    (∀ env : Env, w.clock ≤ env.timestamp → v.clock ≤ env.timestamp → Roomy w.state.toAccounts →
      Roomy v.state.toAccounts → SameAnswers env w.state v.state) ∧
    Numbered v.state.toAccounts ∧ ∀ r ∈ v.history, ∀ admin, r.tx.call = .expireCreditsWithCron admin →
      ∀ a, lapsedCredit r.tx.env.timestamp (account r.after.toAccounts a) = 0 := by
  refine ⟨?_, numbered_reachable padded.right, ?_⟩
  · intro env left right room room'
    have matched := matched_padded padded env.timestamp left right
    exact (paired_of_reachable padded.left padded.right room room' matched).sameAnswers matched.admin
  · intro r listed admin call
    rcases padded.right.receipt r listed with ⟨u, here, _, state, run⟩
    rcases r with ⟨⟨env, _⟩, before, after⟩
    cases call
    cases state
    obtain ⟨_, swept⟩ := exec_ran (show exec ⟨env, .expireCreditsWithCron admin⟩ u.state = .ok after from run)
    exact expireCreditsWithCron_settles (keyed_reachable here) (numbered_reachable here) swept

def lazyRun : World := trial
  [(0, [⟨9⟩], .initializeCredit ⟨9⟩), (1, [⟨9⟩], .issueCredit ⟨1⟩ 40 "promo" (some 5)),
    (8, [], .applyCredit ⟨1⟩ 7 25)]

def eagerRun : World := trial
  [(0, [⟨9⟩], .initializeCredit ⟨9⟩), (1, [⟨9⟩], .issueCredit ⟨1⟩ 40 "promo" (some 5)), (5, [], .expireCredits ⟨1⟩),
    (6, [⟨9⟩], .expireCreditsWithCron ⟨9⟩), (8, [], .applyCredit ⟨1⟩ 7 25)]

theorem expiry_unseen_eagerRun :
    SameAnswers (.signedBy 9 [⟨1⟩]) lazyRun.state eagerRun.state ∧ eagerRun.history.length = 5 := by
  have start : Ledger.Padded contract Initialised roomy expiryCall (.genesis .empty) (.genesis .empty) := .genesis rfl
  have initialised := start.both ⟨.signedBy 0 [⟨9⟩], .initializeCredit ⟨9⟩⟩ (by decide +kernel) (by decide +kernel)
  have issued := initialised.both ⟨.signedBy 1 [⟨9⟩], .issueCredit ⟨1⟩ 40 "promo" (some 5)⟩ (by decide +kernel)
    (by decide +kernel)
  have expired := issued.inserted ⟨.signedBy 5 [], .expireCredits ⟨1⟩⟩ (by decide +kernel) (by decide +kernel)
  have swept := expired.inserted ⟨.signedBy 6 [⟨9⟩], .expireCreditsWithCron ⟨9⟩⟩ (by decide +kernel) (by decide +kernel)
  have applied := swept.both ⟨.signedBy 8 [], .applyCredit ⟨1⟩ 7 25⟩ (by decide +kernel) (by decide +kernel)
  have padded : Ledger.Padded contract Initialised roomy expiryCall lazyRun eagerRun := applied
  have answers := (expiry_unseen padded).1 (.signedBy 9 [⟨1⟩]) (by decide) (by decide) (by decide +kernel)
    (by decide +kernel)
  exact ⟨answers, by decide +kernel⟩

section Crowd

variable {env : Env} {a b : Address}

theorem expireCredits_fresh {s : State} (fresh : s.accountIndex a = none) (unstored : s.account a = none)
    (room : accountCount s.toAccounts + 1 < 2 ^ 32) : ∃ s', exec ⟨env, .expireCredits a⟩ s = .ok s' ∧
      accountCount s'.toAccounts = accountCount s.toAccounts + 1 ∧
      ∀ b, b ≠ a → s'.accountIndex b = s.accountIndex b := by
  have empty : account s.toAccounts a =
      { subscriber := a, balance := 0, lots := [], transactions := [], expirationPolicy := .never } := by
    unfold account
    rw [unstored]
    rfl
  have realised : realizeExpiry env s.toAccounts (account s.toAccounts a) =
      .ok (account s.toAccounts a, s.toAccounts) := by
    rw [empty]
    rfl
  have fits : u32 (s.accountCount.getD 0 + 1) = .ok (accountCount s.toAccounts + 1) := (u32_eq_ok ..).mpr ⟨room, rfl⟩
  have nothing : i128 ((account s.toAccounts a).balance - (account s.toAccounts a).balance) = .ok 0 := by
    rw [Int.sub_self]
    rfl
  have named : (account s.toAccounts a).subscriber = a := by rw [empty]
  simp only [exec, expireCredits, realised, nothing, save, register, named, if_pos fresh, fits, orPanic_ok, ok_bind]
  refine ⟨_, rfl, rfl, fun b other => put_of_ne _ _ other⟩

theorem save_index {s s' : Accounts} {credit : AccountCredit} (run : save s credit = .ok s') :
    accountCount s ≤ accountCount s' ∧ (∀ b, b ≠ credit.subscriber → s'.accountIndex b = s.accountIndex b) ∧
      (s.accountIndex credit.subscriber = none → accountCount s + 1 < 2 ^ 32) := by
  simp only [save, register, bind_eq_ok, pure_eq_ok] at run
  rcases run with ⟨s₁, registered, rfl⟩
  split at registered
  · simp only [bind_eq_ok, pure_eq_ok, orPanic_eq_ok, u32_eq_ok] at registered
    rcases registered with ⟨_, ⟨room, rfl⟩, rfl⟩
    exact ⟨Nat.le_succ _, fun b other => put_of_ne _ _ other, fun _ => room⟩
  · rename_i known
    cases registered
    exact ⟨le_rfl, fun _ _ => rfl, fun unknown => absurd unknown known⟩

theorem transferCredit_room {s s' : State} {amount : Int} {reason : String} (keyed : Keyed s.toAccounts)
    (run : transferCredit env s a b amount reason = .ok s') (fresh : s.accountIndex b = none) :
    accountCount s.toAccounts + 1 < 2 ^ 32 := by
  simp only [transferCredit, bind_eq_ok, pure_eq_ok, require_eq_ok, orPanic_eq_ok] at run
  rcases run with ⟨_, _, _, pos, _, nodup, ⟨mid, s₁⟩, realised, _, _, _, _, _, _, ⟨credit, s₂⟩, recorded, middle,
    saved, ⟨mid', s₃⟩, realised', ⟨id, s₄⟩, numbered, _, _, _, _, ⟨credit', s₅⟩, recorded', s₆, saved', _⟩
  rcases realizeExpiry_ok realised with ⟨txs, realised, frame⟩
  rcases realizeExpiry_ok realised' with ⟨txs', realised', frame'⟩
  simp only [consume_eq _ _ pos.le] at recorded recorded'
  rcases record_ok recorded with ⟨rfl, rfl⟩
  rcases nextId_ok numbered with ⟨rfl, rfl⟩
  rcases record_ok recorded' with ⟨rfl, rfl⟩
  have sender : mid.subscriber = a := realised.fixed.1.trans (keyed a)
  rcases save_index saved with ⟨grown, others, _⟩
  have moved : account middle b = account s.toAccounts b := by
    have other : b ≠ mid.subscriber := fun same => nodup (sender.symm.trans same.symm)
    rw [(save_ok saved).2 b, if_neg other, frame]
    rfl
  have recipient : mid'.subscriber = b := by
    rw [realised'.fixed.1, moved]
    exact keyed b
  have still : middle.accountIndex b = none := by
    have other : b ≠ mid.subscriber := fun same => nodup (sender.symm.trans same.symm)
    rw [others b other, frame]
    exact fresh
  have room : accountCount s₃ + 1 < 2 ^ 32 := by
    apply (save_index saved').2.2
    change s₃.accountIndex mid'.subscriber = none
    rw [recipient, frame']
    exact still
  have same : accountCount s₃ = accountCount middle := by rw [frame']; rfl
  have first : accountCount s₁ = accountCount s.toAccounts := by rw [frame]; rfl
  change accountCount s₁ ≤ accountCount middle at grown
  omega

end Crowd

def crowd (n : Nat) : List Tx := (List.range n).map fun i => ⟨.signedBy 0 [], .expireCredits ⟨i + 100⟩⟩

def beforeCrowd : World := trial [(0, [⟨9⟩], .initializeCredit ⟨9⟩), (0, [⟨9⟩], .issueCredit ⟨1⟩ 10 "" none)]

def afterCrowd (n : Nat) : World := Ledger.run contract beforeCrowd (crowd n)

theorem afterCrowd_succ (n : Nat) :
    afterCrowd (n + 1) = submit (afterCrowd n) ⟨.signedBy 0 [], .expireCredits ⟨n + 100⟩⟩ := by
  unfold afterCrowd crowd Ledger.run
  rw [range_succ, map_append, foldl_append]
  rfl

theorem afterCrowd_padded (n : Nat) :
    Ledger.Padded contract Initialised (Ledger.inOrder contract) expiryCall beforeCrowd (afterCrowd n) := by
  have reached : Reachable (Ledger.inOrder contract) beforeCrowd := trial_inOrder (by decide)
  apply (Ledger.Padded.of_reachable reached).run_inOrder
  · intro tx mem v
    rcases mem_map.mp mem with ⟨i, _, rfl⟩
    rfl
  · have times : (crowd n).map contract.time = List.replicate n 0 := by
      unfold crowd
      rw [map_map, eq_replicate_iff]
      refine ⟨by rw [length_map, length_range], fun time mem => ?_⟩
      rcases mem_map.mp mem with ⟨i, _, rfl⟩
      rfl
    have start : beforeCrowd.clock = 0 := by decide
    rw [times, start, ← replicate_succ]
    exact (isChain_replicate_of_rel _ le_rfl)

theorem afterCrowd_accounts (n : Nat) (fits : n + 2 ≤ 2 ^ 32) : accountCount (afterCrowd n).state.toAccounts = n + 1 ∧
      ∀ k, k = 2 ∨ n + 100 ≤ k → (afterCrowd n).state.accountIndex ⟨k⟩ = none := by
  induction n with
  | zero =>
    refine ⟨by decide +kernel, fun k later => ?_⟩
    have numbered := numbered_reachable (afterCrowd_padded 0).right
    have one : accountCount (afterCrowd 0).state.toAccounts = 1 := by decide +kernel
    have first : (afterCrowd 0).state.counter 0 = some ⟨1⟩ := by decide +kernel
    by_contra used
    rcases Option.ne_none_iff_exists'.mp used with ⟨i, index⟩
    have counter := (numbered.inverse _ i).mp index
    have below := (numbered.below i).mp (counter ▸ Option.some_ne_none _)
    have zero : i = 0 := by omega
    subst zero
    cases first.symm.trans counter
    omega
  | succ n ih =>
    rcases ih (by omega) with ⟨counted, free⟩
    have reached := (afterCrowd_padded n).right
    have fresh := free (n + 100) (.inr le_rfl)
    have unstored : (afterCrowd n).state.account ⟨n + 100⟩ = none := by
      by_contra held
      exact ((numbered_reachable reached).stored _).mp held fresh
    rcases @expireCredits_fresh (.signedBy 0 []) _ _ fresh unstored (by omega) with ⟨s', run, next, others⟩
    rw [afterCrowd_succ]
    have after : submit (afterCrowd n) ⟨.signedBy 0 [], .expireCredits ⟨n + 100⟩⟩ = _ :=
      Ledger.submit_ok contract (w := afterCrowd n) (t := ⟨.signedBy 0 [], .expireCredits ⟨n + 100⟩⟩) run
    rw [after]
    refine ⟨by rw [next, counted], fun k later => ?_⟩
    have other : (⟨k⟩ : Address) ≠ ⟨n + 100⟩ := by
      intro same
      have equal := congrArg Address.id same
      change k = n + 100 at equal
      omega
    rw [others _ other]
    exact free k (by omega)

theorem crowd_seen :
    Ledger.Padded contract Initialised (Ledger.inOrder contract) expiryCall beforeCrowd (afterCrowd (2 ^ 32 - 2)) ∧
    (transferCredit (.signedBy 0 [⟨1⟩]) beforeCrowd.state ⟨1⟩ ⟨2⟩ 5 "gift").toBool = true ∧
    (transferCredit (.signedBy 0 [⟨1⟩]) (afterCrowd (2 ^ 32 - 2)).state ⟨1⟩ ⟨2⟩ 5 "gift").toBool = false := by
  refine ⟨afterCrowd_padded _, by decide +kernel, ?_⟩
  rcases afterCrowd_accounts (2 ^ 32 - 2) (by omega) with ⟨counted, free⟩
  have keyed := keyed_reachable (afterCrowd_padded (2 ^ 32 - 2)).right
  cases run : transferCredit (.signedBy 0 [⟨1⟩]) (afterCrowd (2 ^ 32 - 2)).state ⟨1⟩ ⟨2⟩ 5 "gift" with
  | error => rfl
  | ok =>
    have room := transferCredit_room keyed run (free 2 (.inl rfl))
    omega

end SubTrackr.Credit
