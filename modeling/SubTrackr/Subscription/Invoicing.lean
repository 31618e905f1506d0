import SubTrackr.Subscription.Registry
import SubTrackr.Invoice.Generate

namespace SubTrackr.Subscriptions

open Lib Soroban

def Env.invoicing (env : Env) (invoices : Address → Invoices.State) : Env :=
  { env with
    invokeContract := fun s contract function args =>
      if function = "generate_invoice" then
        (Invoices.invokeGenerateInvoice env.toHost (invoices contract) s.subscription s.plan args).map fun _ => ()
      else env.invokeContract s contract function args }

theorem invoiceCharge_traps {env : Env} {invoices : Address → Invoices.State} {s : State} {id : Nat}
    {period : TimeRange} {invoice : Address} (configured : s.invoiceContract = some invoice) (s' : State) :
    invoiceCharge (env.invoicing invoices) s id period ≠ .ok s' := by
  intro run
  simp only [invoiceCharge, configured, bind_eq_ok] at run
  rcases run with ⟨_, called, _⟩
  simp [Env.invoicing, Invoices.invokeGenerateInvoice, Except.map] at called

theorem invoiceCharge_none {env : Env} {s : State} (unconfigured : s.invoiceContract = none) (id : Nat)
    (period : TimeRange) : invoiceCharge env s id period = .ok s := by
  simp only [invoiceCharge, unconfigured]

/-- `t` differs from `s` only in what a charge of a subscription does not look at, and in the invoice contract. -/
structure SameForCharge (s t : State) : Prop where
  subscription : t.subscription = s.subscription
  chargeCommitment : t.chargeCommitment = s.chargeCommitment
  plan : ∀ p plan, s.plan p = some plan → ∃ plan', t.plan p = some plan' ∧ SameTerms plan plan'
  admin : t.admin = s.admin
  rateLimit : t.rateLimit = s.rateLimit
  lastCall : ∀ a, t.lastCall (a, "charge_subscription") = s.lastCall (a, "charge_subscription")
  mevProtectionConfig : t.mevProtectionConfig = s.mevProtectionConfig
  mevAlertCount : t.mevAlertCount = s.mevAlertCount
  revenue : t.toRevenueBooks = s.toRevenueBooks

theorem SameForCharge.refl (s : State) : SameForCharge s s :=
  ⟨rfl, rfl, fun _ plan held => ⟨plan, held, .refl plan⟩, rfl, rfl, fun _ => rfl, rfl, rfl, rfl⟩

theorem SameForCharge.trans {s t u : State} (first : SameForCharge s t) (second : SameForCharge t u) :
    SameForCharge s u where
  subscription := second.subscription.trans first.subscription
  chargeCommitment := second.chargeCommitment.trans first.chargeCommitment
  plan p plan stored := by
    rcases first.plan p plan stored with ⟨mid, midStored, sameMid⟩
    rcases second.plan p mid midStored with ⟨plan', stored', same⟩
    exact ⟨plan', stored', sameMid.trans same⟩
  admin := second.admin.trans first.admin
  rateLimit := second.rateLimit.trans first.rateLimit
  lastCall a := (second.lastCall a).trans (first.lastCall a)
  mevProtectionConfig := second.mevProtectionConfig.trans first.mevProtectionConfig
  mevAlertCount := second.mevAlertCount.trans first.mevAlertCount
  revenue := second.revenue.trans first.revenue

section Simulation

variable {env : Env} {s s' t : State}

section

variable (same : SameForCharge s t)

include same

theorem SameForCharge.enforceRateLimit {caller : Address}
    (run : enforceRateLimit env s caller "charge_subscription" = .ok s') :
    ∃ t', enforceRateLimit env t caller "charge_subscription" = .ok t' ∧ SameForCharge s' t' ∧
      t'.invoiceContract = t.invoiceContract := by
  unfold Subscriptions.enforceRateLimit at run ⊢
  rw [same.rateLimit, same.lastCall]
  cases limit : s.rateLimit "charge_subscription" with
  | none =>
    simp only [limit] at run ⊢
    cases run
    exact ⟨t, rfl, same, rfl⟩
  | some minSecs =>
    simp only [limit] at run ⊢
    by_cases unlimited : minSecs = 0
    · rw [if_pos unlimited] at run ⊢
      cases run
      exact ⟨t, rfl, same, rfl⟩
    · rw [if_neg unlimited] at run ⊢
      simp only [bind_eq_ok, pure_eq_ok] at run ⊢
      rcases run with ⟨_, elapsed, rfl⟩
      refine ⟨_, ⟨_, elapsed, rfl⟩, { same with rateLimit := rfl, lastCall := fun a => ?_ }, rfl⟩
      simp only [put_apply, same.lastCall]

theorem SameForCharge.limitCalls {caller : Address}
    (run : limitCalls env s caller "charge_subscription" = .ok s') :
    ∃ t', limitCalls env t caller "charge_subscription" = .ok t' ∧ SameForCharge s' t' ∧
      t'.invoiceContract = t.invoiceContract := by
  simp only [Subscriptions.limitCalls, getAdmin, same.admin, bind_eq_ok] at run ⊢
  rcases run with ⟨admin, known, run⟩
  by_cases limited : caller ≠ admin
  · rw [if_pos limited] at run
    rcases same.enforceRateLimit run with ⟨t', run', same', kept⟩
    exact ⟨t', ⟨admin, known, by rw [if_pos limited]; exact run'⟩, same', kept⟩
  · rw [if_neg limited] at run
    cases run
    exact ⟨t, ⟨admin, known, if_neg limited⟩, same, rfl⟩

theorem SameForCharge.storeResumed (id : Nat) (checked : Subscription × Bool) :
    SameForCharge (storeResumed s id checked) (storeResumed t id checked) ∧
      (storeResumed t id checked).invoiceContract = t.invoiceContract := by
  unfold Subscriptions.storeResumed
  by_cases resumes : checked.2 = true
  · simp only [resumes, if_true]
    refine ⟨{ same with subscription := ?_ }, trivial⟩
    rw [same.subscription]
  · simp only [resumes]
    exact ⟨same, rfl⟩

theorem SameForCharge.recordMevGasAlert {id gasPrice threshold : Nat}
    (run : recordMevGasAlert env s id gasPrice threshold = .ok s') :
    ∃ t', recordMevGasAlert env t id gasPrice threshold = .ok t' ∧ SameForCharge s' t' ∧
      t'.invoiceContract = t.invoiceContract := by
  unfold Subscriptions.recordMevGasAlert at run ⊢
  by_cases silent : threshold = u64Max ∨ gasPrice ≤ threshold
  · rw [if_pos silent] at run ⊢
    cases run
    exact ⟨t, rfl, same, rfl⟩
  · rw [if_neg silent] at run ⊢
    simp only [same.mevAlertCount, bind_eq_ok, pure_eq_ok] at run ⊢
    rcases run with ⟨count, counted, rfl⟩
    exact ⟨_, ⟨count, counted, rfl⟩, { same with mevAlertCount := rfl }, rfl⟩

end

theorem generateRevenueSchedule_same {id planId : Nat} {total : Int} {chargeTime interval : Nat}
    (run : generateRevenueSchedule s id planId total chargeTime interval = .ok s')
    (same : t.toRevenueBooks = s.toRevenueBooks) :
    ∃ t', generateRevenueSchedule t id planId total chargeTime interval = .ok t' ∧
      t'.toRevenueBooks = s'.toRevenueBooks ∧ t'.invoiceContract = t.invoiceContract := by
  simp only [generateRevenueSchedule, same, bind_eq_ok, pure_eq_ok] at run ⊢
  rcases run with ⟨schedule, built, rfl⟩
  exact ⟨_, ⟨schedule, built, rfl⟩, rfl, rfl⟩

theorem updateMerchantRevenueBalances_same {merchant : Address} {recognised deferred : Int}
    (run : updateMerchantRevenueBalances s merchant recognised deferred = .ok s')
    (same : t.toRevenueBooks = s.toRevenueBooks) :
    ∃ t', updateMerchantRevenueBalances t merchant recognised deferred = .ok t' ∧
      t'.invoiceContract = t.invoiceContract := by
  simp only [updateMerchantRevenueBalances, same, bind_eq_ok, pure_eq_ok] at run ⊢
  rcases run with ⟨first, firstFits, second, secondFits, rfl⟩
  exact ⟨_, ⟨first, firstFits, second, secondFits, rfl⟩, rfl⟩

theorem trackMerchantSubscription_invoiceContract (s : State) (merchant : Address) (id : Nat) :
    (trackMerchantSubscription s merchant id).invoiceContract = s.invoiceContract := by
  rcases trackMerchantSubscription_only s merchant id with ⟨_, same⟩
  rw [same]

theorem SameForCharge.collect (same : SameForCharge s t) {id : Nat} {sub : Subscription} {plan plan' : Plan}
    (terms : SameTerms plan plan') (uninvoiced : t.invoiceContract = none)
    (run : collect env s id sub plan = .ok s') : ∃ t', collect env t id sub plan' = .ok t' := by
  simp only [Subscriptions.collect, terms.merchant, terms.price, terms.token, terms.interval, bind_eq_ok] at run ⊢
  rcases run with ⟨_, paid, next, dated, total, added, gas, spent, count, counted, _, scheduled, _, balanced, _⟩
  rcases generateRevenueSchedule_same (t := recordPayment t _ _) scheduled same.revenue with
    ⟨t₁, scheduled', revenue, kept₁⟩
  rcases updateMerchantRevenueBalances_same balanced revenue with ⟨t₂, balanced', kept₂⟩
  have noInvoice (event : Event) :
      ((trackMerchantSubscription t₂ plan.merchant id).publish event).invoiceContract = none := by
    rw [State.publish, trackMerchantSubscription_invoiceContract, kept₂, kept₁]
    exact uninvoiced
  exact ⟨_, (), paid, next, dated, total, added, gas, spent, count, counted, t₁, scheduled', t₂, balanced',
    invoiceCharge_none (noInvoice _) ..⟩

theorem getMevConfig_same (same : SameForCharge s t) : getMevConfig t = getMevConfig s := by
  rw [getMevConfig, same.mevProtectionConfig]
  rfl

theorem SameForCharge.chargeSubscriptionGuarded (same : SameForCharge s t) (uninvoiced : t.invoiceContract = none)
    {id : Nat} {max : Int} {gasPrice : Nat} {privateMempool revealed : Bool}
    (run : chargeSubscriptionGuarded env s id max gasPrice privateMempool revealed = .ok s') :
    ∃ t', chargeSubscriptionGuarded env t id max gasPrice privateMempool revealed = .ok t' := by
  simp only [Subscriptions.chargeSubscriptionGuarded, same.subscription, bind_eq_ok, expect_eq_ok] at run ⊢
  rcases run with ⟨sub, held, s₁, limited, _, authorized, checked, seen, _, active, _, isDue, plan, planStored,
    _, guarded, _, bounded, _, routed, s₂, alerted, collected⟩
  rcases same.limitCalls limited with ⟨t₁, limited', same₁, kept₁⟩
  rcases same₁.storeResumed id checked with ⟨same₂, kept₂⟩
  rcases same₂.plan _ plan planStored with ⟨plan', planStored', terms⟩
  rcases same₂.recordMevGasAlert alerted with ⟨t₂, alerted', same₃, kept₃⟩
  have noInvoice : t₂.invoiceContract = none := by rw [kept₃, kept₂, kept₁, uninvoiced]
  rcases same₃.collect terms noInvoice collected with ⟨t', collected'⟩
  refine ⟨t', sub, held, t₁, limited', (), authorized, checked, seen, (), active, (), isDue, plan', planStored',
    (), ?_, (), ?_, (), ?_, t₂, ?_, collected'⟩
  · rw [getMevConfig_same same₂, terms.price]
    exact guarded
  · rw [getMevConfig_same same₂, terms.price]
    exact bounded
  · rw [getMevConfig_same same₂]
    exact routed
  · rw [getMevConfig_same same₂]
    exact alerted'

end Simulation

theorem collect_invoiced {env : Env} {s s' : State} {id : Nat} {sub : Subscription} {plan : Plan}
    (run : collect env s id sub plan = .ok s') :
    ∃ before period, before.invoiceContract = s.invoiceContract ∧ invoiceCharge env before id period = .ok s' := by
  simp only [collect, bind_eq_ok] at run
  rcases run with ⟨_, _, _, _, _, _, _, _, _, _, s₁, scheduled, s₂, balanced, invoiced⟩
  refine ⟨_, _, ?_, invoiced⟩
  have scheduledSettings := (generateRevenueSchedule_only scheduled).settings
  have balancedSettings := (updateMerchantRevenueBalances_only balanced).settings
  have settings : (trackMerchantSubscription s₂ plan.merchant id).toSettings = s.toSettings :=
    (trackMerchantSubscription_only ..).settings.trans (balancedSettings.trans scheduledSettings)
  simp only [State.publish, settings]

theorem chargeSubscriptionGuarded_invoiced {env : Env} {s s' : State} {id : Nat} {max : Int} {gasPrice : Nat}
    {privateMempool revealed : Bool}
    (run : chargeSubscriptionGuarded env s id max gasPrice privateMempool revealed = .ok s') :
    ∃ before period, before.invoiceContract = s.invoiceContract ∧ invoiceCharge env before id period = .ok s' := by
  simp only [chargeSubscriptionGuarded, bind_eq_ok] at run
  rcases run with ⟨sub, _, s₁, limited, _, _, checked, _, _, _, _, _, plan, _, _, _, _, _, _, _, s₂, alerted, collected⟩
  rcases collect_invoiced collected with ⟨before, period, same, invoiced⟩
  refine ⟨before, period, ?_, invoiced⟩
  have alertedSettings := (recordMevGasAlert_frame alerted).2
  have resumedSettings : (storeResumed s₁ id checked).toSettings = s₁.toSettings := by
    unfold storeResumed
    split <;> rfl
  rcases limitCalls_frame limited with ⟨_, rfl⟩
  rw [same, alertedSettings, resumedSettings]

theorem uncharged_when_invoiced {env : Env} {invoices : Address → Invoices.State} {s s' : State} {id : Nat}
    {max : Int} {gasPrice : Nat} {privateMempool revealed : Bool}
    (run : chargeSubscriptionGuarded (env.invoicing invoices) s id max gasPrice privateMempool revealed = .ok s') :
    s.invoiceContract = none := by
  rcases chargeSubscriptionGuarded_invoiced run with ⟨before, period, same, invoiced⟩
  cases configured : s.invoiceContract with
  | none => rfl
  | some invoice => exact absurd invoiced (invoiceCharge_traps (same.trans configured) s')

def deactivatesOrConfigures (_ : World) (tx : Tx) : Prop :=
  (∃ merchant planId, tx.call = .deactivatePlan merchant planId) ∨
  ∃ invoice, tx.call = .setInvoiceContract invoice

theorem limitCalls_same {env : Env} {s s' : State} {caller : Address} {functionName : String}
    (other : functionName ≠ "charge_subscription") (run : limitCalls env s caller functionName = .ok s') :
    SameForCharge s s' := by
  simp only [limitCalls, bind_eq_ok, ite_eq_ok, enforceRateLimit] at run
  rcases run with ⟨_, _, ⟨_, run⟩ | ⟨_, same⟩⟩
  · cases limit : s.rateLimit functionName with
    | none =>
      simp only [limit, ok_eq_ok] at run
      subst run
      exact .refl s
    | some minSecs =>
      simp only [limit, ite_eq_ok, bind_eq_ok, pure_eq_ok, ok_eq_ok] at run
      rcases run with ⟨_, rfl⟩ | ⟨_, _, _, rfl⟩
      · exact .refl s
      · refine { SameForCharge.refl s with lastCall := fun a => put_of_ne _ _ ?_ }
        exact fun same => other (congrArg Prod.snd same).symm
  · cases same
    exact .refl s

theorem deactivatePlan_same {env : Env} {s s' : State} {merchant : Address} {planId : Nat}
    (run : deactivatePlan env s merchant planId = .ok s') : SameForCharge s s' := by
  simp only [deactivatePlan, bind_eq_ok, pure_eq_ok, ensure_eq_ok, expect_eq_ok] at run
  rcases run with ⟨_, _, s₁, limited, _, _, plan, held, _, _, rfl⟩
  have same := limitCalls_same (by decide) limited
  refine same.trans { SameForCharge.refl s₁ with plan := fun p terms read => ?_ }
  exact put_sameTerms held ⟨rfl, rfl, rfl, rfl⟩ read

theorem setInvoiceContract_same {env : Env} {s s' : State} {invoice : Address}
    (run : setInvoiceContract env s invoice = .ok s') : SameForCharge s s' := by
  simp only [setInvoiceContract, bind_eq_ok, pure_eq_ok] at run
  rcases run with ⟨_, _, _, _, rfl⟩
  exact { SameForCharge.refl s with }

theorem deactivatesOrConfigures_same {w w' : World} (later : Steps deactivatesOrConfigures w w') :
    SameForCharge w.state w'.state := by
  refine later.kept SameForCharge.refl (fun _ _ _ => SameForCharge.trans) ?_
  intro v tx s met run
  rcases tx with ⟨env, call⟩
  rcases met with ⟨merchant, planId, deactivates⟩ | ⟨invoice, configures⟩
  · cases deactivates
    exact deactivatePlan_same run
  · cases configures
    exact setInvoiceContract_same run

theorem exec_uninvoiced {env : Env} {invoices : Address → Invoices.State} {s s' : State} {call : Call} {id : Nat}
    {max : Int} (path : call.Charges id max) (run : exec ⟨env.invoicing invoices, call⟩ s = .ok s') :
    s.invoiceContract = none := by
  cases path with
  | direct =>
    simp only [exec, chargeSubscription, bind_eq_ok] at run
    rcases run with ⟨_, _, run⟩
    exact uncharged_when_invoiced run
  | @revealed _ _ _ gasPrice privateMempool =>
    simp only [exec, revealCharge, bind_eq_ok] at run
    rcases run with ⟨_, _, _, _, _, _, _, _, _, _, _, _, run⟩
    have none :=
      uncharged_when_invoiced (s := unsealed (env.invoicing invoices) s id max gasPrice privateMempool) run
    exact none

theorem SameForCharge.exec {env : Env} {s s' t : State} (same : SameForCharge s t)
    (uninvoiced : t.invoiceContract = none) {call : Call} {id : Nat} {max : Int} (path : call.Charges id max)
    (run : exec ⟨env, call⟩ s = .ok s') : ∃ t', exec ⟨env, call⟩ t = .ok t' := by
  cases path with
  | direct =>
    simp only [Subscriptions.exec, chargeSubscription, bind_eq_ok] at run ⊢
    rcases run with ⟨_, signed, run⟩
    rcases same.chargeSubscriptionGuarded uninvoiced run with ⟨t', run'⟩
    exact ⟨t', (), signed, run'⟩
  | @revealed _ _ _ gasPrice privateMempool =>
    simp only [Subscriptions.exec, revealCharge, same.chargeCommitment, bind_eq_ok] at run ⊢
    rcases run with ⟨_, signed, pending, held, _, early, _, late, _, opened, _, committer, run⟩
    have opened' : SameForCharge (unsealed env s id max gasPrice privateMempool)
        (unsealed env t id max gasPrice privateMempool) :=
      { same with chargeCommitment := by simp only [unsealed, same.chargeCommitment] }
    rcases opened'.chargeSubscriptionGuarded uninvoiced run with ⟨t', run'⟩
    rw [unsealed, same.chargeCommitment] at run'
    exact ⟨t', (), signed, pending, held, (), early, (), late, (), opened, (), committer, run'⟩

/-- A charge that goes through still goes through after any deactivations and configurations exactly when they
    leave no invoice contract configured. -/
theorem charge_after_configuration {env : Env} {invoices : Address → Invoices.State} {call : Call} {id : Nat}
    {max : Int} {w w' : World} {s : State} (path : call.Charges id max)
    (run : exec ⟨env.invoicing invoices, call⟩ w.state = .ok s) (later : Steps deactivatesOrConfigures w w') :
    (∃ s', exec ⟨env.invoicing invoices, call⟩ w'.state = .ok s') ↔ w'.state.invoiceContract = none := by
  constructor
  · intro goesThrough
    rcases goesThrough with ⟨s', run'⟩
    exact exec_uninvoiced path run'
  · intro uninvoiced
    exact (deactivatesOrConfigures_same later).exec uninvoiced path run

def subscribed : World := trial [(0, .createPlan ⟨1⟩ "basic" 500 ⟨7⟩ .daily), (0, .subscribe ⟨2⟩ 1)]

def billing : Env := (Env.willing 86400).invoicing fun _ => .empty

theorem goesThrough_subscribed : ∃ s, exec ⟨billing, .chargeSubscription 1⟩ subscribed.state = .ok s :=
  toBool_eq_true (by decide)

theorem charge_after_configuration_deactivated :
    ∃ s', exec ⟨billing, .chargeSubscription 1⟩ (submit subscribed ⟨.willing 10, .deactivatePlan ⟨1⟩ 1⟩).state =
      .ok s' := by
  have later : Steps deactivatesOrConfigures subscribed (submit subscribed ⟨.willing 10, .deactivatePlan ⟨1⟩ 1⟩) :=
    .single ⟨_, .inl ⟨⟨1⟩, 1, rfl⟩, rfl⟩
  rcases goesThrough_subscribed with ⟨s, run⟩
  exact (charge_after_configuration .direct run later).mpr rfl

theorem charge_fails_after_configuration :
    ¬ ∀ (env : Env) (invoices : Address → Invoices.State) (call : Call) (id : Nat) (max : Int) (w w' : World)
      (s : State), Reachable Ledger.anyTx w → call.Charges id max →
      exec ⟨env.invoicing invoices, call⟩ w.state = .ok s → Steps deactivatesOrConfigures w w' →
      ∃ s', exec ⟨env.invoicing invoices, call⟩ w'.state = .ok s' := by
  intro holds
  have reached : Reachable Ledger.anyTx subscribed := trial_reachable fun _ _ _ _ => trivial
  have later : Steps deactivatesOrConfigures subscribed (submit subscribed ⟨.willing 10, .setInvoiceContract ⟨8⟩⟩) :=
    .single ⟨_, .inr ⟨⟨8⟩, rfl⟩, rfl⟩
  rcases goesThrough_subscribed with ⟨s, charged⟩
  rcases holds (.willing 86400) (fun _ => .empty) _ 1 _ _ _ s reached .direct charged later with ⟨s', run⟩
  have unconfigured : some (⟨8⟩ : Address) = none := exec_uninvoiced .direct run
  cases unconfigured

end SubTrackr.Subscriptions
