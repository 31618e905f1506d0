import SubTrackr.Subscription.EntryPoints

namespace SubTrackr.Subscriptions

open Lib Soroban

def Call.Administrative : Call → Prop
  | .setInvoiceContract _ | .clearInvoiceContract | .setRateLimit _ _ | .removeRateLimit _
  | .configureMevProtection _ _ | .setRevenueRule _ _ _ _ => True
  | _ => False

def Rebuilt (r : Registry) (index : Store (Address × Nat) Nat) : Prop :=
  ∀ key, index key = r.userPlanIndex key ∨
    ∃ i sub, r.subscription i = some sub ∧ sub.status ≠ .cancelled ∧
      key = (sub.subscriber, sub.planId) ∧ index key = some sub.id

def newPlan (env : Env) (count : Nat) (merchant : Address) (name : String) (price : Int)
    (token : Address) (interval : Interval) : Plan :=
  { id := count, merchant, name, price, token, interval
    active := true, subscriberCount := 0, createdAt := env.timestamp }

def newSubscription (now count planId : Nat) (subscriber : Address) (interval : Interval) : Subscription :=
  { id := count, planId, subscriber, status := .active
    startedAt := now, lastChargedAt := now, nextChargeAt := now + interval.seconds
    totalPaid := 0, totalGasSpent := 0, chargeCount := 0
    pausedAt := 0, pauseDuration := 0, refundRequestedAmount := 0 }

def paused (now duration : Nat) (sub : Subscription) : Subscription :=
  { sub with status := .paused, pausedAt := now, pauseDuration := duration }

def charged (now : Nat) (plan : Plan) (sub : Subscription) : Subscription :=
  { sub with
    lastChargedAt := now
    nextChargeAt := now + plan.interval.seconds
    totalPaid := sub.totalPaid + plan.price
    totalGasSpent := sub.totalGasSpent + 100000
    chargeCount := sub.chargeCount + 1 }

inductive Billable (now : Nat) : Subscription → Subscription → Prop where
  | active {sub} (status : sub.status = .active) : Billable now sub sub
  | elapsed {sub} (status : sub.status = .paused) (elapsed : sub.pausedAt + sub.pauseDuration ≤ now) :
      Billable now sub (resumed sub)

inductive Call.Charges : Call → Nat → Int → Prop where
  | direct {id} : Call.Charges (.chargeSubscription id) id i128Max
  | revealed {id salt maxChargeAmount gasPrice privateMempool} :
      Call.Charges (.revealCharge id salt maxChargeAmount gasPrice privateMempool) id maxChargeAmount

inductive Amendment (now : Nat) (plan : Store Nat Plan) :
    Call → Nat → Subscription → Subscription → Prop where
  | pause {id sub} (status : sub.status = .active) :
      Amendment now plan (.pauseSubscription sub.subscriber id) id sub (paused now maxPauseDuration sub)
  | pauseFor {id sub duration} (status : sub.status = .active) :
      Amendment now plan (.pauseBySubscriber sub.subscriber id duration) id sub (paused now duration sub)
  | resume {id sub terms} (status : sub.status = .paused) (stored : plan sub.planId = some terms) :
      Amendment now plan (.resumeSubscription sub.subscriber id) id sub
        { resumed sub with nextChargeAt := now + terms.interval.seconds }
  | requestRefund {id sub amount} (positive : 0 < amount) (bounded : amount ≤ sub.totalPaid) :
      Amendment now plan (.requestRefund id amount) id sub { sub with refundRequestedAmount := amount }
  | approveRefund {id sub} (requested : 0 < sub.refundRequestedAmount) :
      Amendment now plan (.approveRefund id) id sub
        { sub with totalPaid := sub.totalPaid - sub.refundRequestedAmount, refundRequestedAmount := 0 }
  | rejectRefund {id sub} : Amendment now plan (.rejectRefund id) id sub { sub with refundRequestedAmount := 0 }

def movedByCharge (id : Nat) (plan : Plan) (sub : Subscription) : TokenTransfer :=
  ⟨id, plan.token, sub.subscriber, plan.merchant, plan.price⟩

def Call.consume (commitments : Store Nat ChargeCommitment) : Call → Store Nat ChargeCommitment
  | .revealCharge id _ _ _ _ => remove commitments id
  | _ => commitments

def moveId (lists : Store Address (List Nat)) (owner recipient : Address) (id : Nat) :
    Store Address (List Nat) :=
  let without := put lists owner (((lists owner).getD []).filter (· ≠ id))
  put without recipient ((without recipient).getD [] ++ [id])

def committed (env : Env) (s : State) (id : Nat) (subscriber : Address) (commitment : BytesN 32) :
    ChargeCommitment :=
  ⟨id, subscriber, commitment, env.timestamp, env.timestamp + (getMevConfig s).revealDelaySecs,
    env.timestamp + (getMevConfig s).commitTtlSecs⟩

inductive Effect (env : Env) (s : State) : Call → Books → Prop where
  | administer {call} (administrative : call.Administrative) : Effect env s call s.toBooks
  | migrate {fromVersion index} (rebuilt : Rebuilt s.toRegistry index) :
      Effect env s (.migrate fromVersion) { s.toBooks with userPlanIndex := index }
  | createPlan {merchant name price token interval} (positive : 0 < price) :
      Effect env s (.createPlan merchant name price token interval)
        { s.toBooks with
          plan := put s.plan (s.planCount.getD 0 + 1)
            (newPlan env (s.planCount.getD 0 + 1) merchant name price token interval)
          planCount := some (s.planCount.getD 0 + 1)
          merchantPlans := put s.merchantPlans merchant
            ((s.merchantPlans merchant).getD [] ++ [s.planCount.getD 0 + 1]) }
  | deactivatePlan {planId plan} (stored : s.plan planId = some plan) :
      Effect env s (.deactivatePlan plan.merchant planId)
        { s.toBooks with plan := put s.plan planId { plan with active := false } }
  | subscribe {subscriber planId plan} (stored : s.plan planId = some plan)
      (outsider : plan.merchant ≠ subscriber)
      (fresh : ∀ i, s.userPlanIndex (subscriber, planId) = some i →
        ∃ sub, s.subscription i = some sub ∧ sub.status = .cancelled) :
      Effect env s (.subscribe subscriber planId)
        { s.toBooks with
          subscription := put s.subscription (s.subscriptionCount.getD 0 + 1)
            (newSubscription env.timestamp (s.subscriptionCount.getD 0 + 1) planId subscriber plan.interval)
          subscriptionCount := some (s.subscriptionCount.getD 0 + 1)
          userSubscriptions := put s.userSubscriptions subscriber
            ((s.userSubscriptions subscriber).getD [] ++ [s.subscriptionCount.getD 0 + 1])
          userPlanIndex := put s.userPlanIndex (subscriber, planId) (s.subscriptionCount.getD 0 + 1)
          plan := put s.plan planId { plan with subscriberCount := plan.subscriberCount + 1 } }
  | cancel {id sub plan} (stored : s.subscription id = some sub) (live : sub.status ≠ .cancelled)
      (planStored : s.plan sub.planId = some plan) :
      Effect env s (.cancelSubscription sub.subscriber id)
        { s.toBooks with
          subscription := put s.subscription id { sub with status := .cancelled }
          userPlanIndex := remove s.userPlanIndex (sub.subscriber, sub.planId)
          plan := put s.plan sub.planId { plan with subscriberCount := plan.subscriberCount - 1 } }
  | amend {call id sub sub'} (stored : s.subscription id = some sub)
      (amendment : Amendment env.timestamp s.plan call id sub sub') :
      Effect env s call { s.toBooks with subscription := put s.subscription id sub' }
  | charge {call id maxChargeAmount sub due plan} (path : call.Charges id maxChargeAmount)
      (stored : s.subscription id = some sub) (planStored : s.plan sub.planId = some plan)
      (billable : Billable env.timestamp sub due) (isDue : sub.nextChargeAt ≤ env.timestamp) :
      Effect env s call
        { s.toBooks with
          subscription := put s.subscription id (charged env.timestamp plan due)
          transfers := s.transfers ++ [movedByCharge id plan sub]
          chargeCommitment := call.consume s.chargeCommitment }
  | commit {id sub commitment} (stored : s.subscription id = some sub) :
      Effect env s (.commitCharge id commitment)
        { s.toBooks with
          chargeCommitment := put s.chargeCommitment id (committed env s id sub.subscriber commitment) }
  | requestTransfer {id sub recipient} (stored : s.subscription id = some sub)
      (live : sub.status ≠ .cancelled) (other : sub.subscriber ≠ recipient) :
      Effect env s (.requestTransfer id recipient)
        { s.toBooks with pendingTransfer := put s.pendingTransfer id recipient }
  | acceptTransfer {id sub recipient} (stored : s.subscription id = some sub)
      (pending : s.pendingTransfer id = some recipient) :
      Effect env s (.acceptTransfer id recipient)
        { s.toBooks with
          subscription := put s.subscription id { sub with subscriber := recipient }
          userSubscriptions := moveId s.userSubscriptions sub.subscriber recipient id
          userPlanIndex := put (remove s.userPlanIndex (sub.subscriber, sub.planId))
            (recipient, sub.planId) sub.id
          pendingTransfer := remove s.pendingTransfer id }

variable {env : Env} {s s' : State}

theorem limitCalls_frame {caller : Address} {functionName : String}
    (run : limitCalls env s caller functionName = .ok s') :
    ∃ lastCall, s' = { s with lastCall := lastCall } := by
  simp only [limitCalls, bind_eq_ok, ite_eq_ok, enforceRateLimit] at run
  rcases run with ⟨_, _, ⟨_, run⟩ | ⟨_, same⟩⟩
  · cases limit : s.rateLimit functionName with
    | none => simp only [limit, ok_eq_ok] at run; exact ⟨s.lastCall, run.symm⟩
    | some minSecs =>
      simp only [limit, ite_eq_ok, bind_eq_ok, pure_eq_ok, ok_eq_ok] at run
      rcases run with ⟨_, same⟩ | ⟨_, _, _, rfl⟩
      · exact ⟨s.lastCall, same.symm⟩
      · exact ⟨_, rfl⟩
  · rw [ok_eq_ok] at same
    exact ⟨s.lastCall, same.symm⟩

theorem createPlan_effect {merchant token : Address} {name : String} {price : Int}
    {interval : Interval} (run : createPlan env s merchant name price token interval = .ok s') :
    Effect env s (.createPlan merchant name price token interval) s'.toBooks := by
  simp only [createPlan, bind_eq_ok, pure_eq_ok, ensure_eq_ok, u64_eq_ok] at run
  rcases run with ⟨_, _, _, limited, _, _, _, pos, _, ⟨_, rfl⟩, rfl⟩
  rcases limitCalls_frame limited with ⟨_, rfl⟩
  exact .createPlan pos

theorem deactivatePlan_effect {merchant : Address} {planId : Nat}
    (run : deactivatePlan env s merchant planId = .ok s') :
    Effect env s (.deactivatePlan merchant planId) s'.toBooks := by
  simp only [deactivatePlan, bind_eq_ok, pure_eq_ok, ensure_eq_ok, expect_eq_ok] at run
  rcases run with ⟨_, _, _, limited, _, _, plan, held, _, rfl, rfl⟩
  rcases limitCalls_frame limited with ⟨_, rfl⟩
  exact .deactivatePlan held

theorem notSubscribed_ok {existing : Option Nat} {u : Unit}
    (run : notSubscribed s existing = .ok u) (i : Nat) (found : existing = some i) :
    ∃ sub, s.subscription i = some sub ∧ sub.status = .cancelled := by
  subst found
  simp only [notSubscribed, bind_eq_ok, ensure_eq_ok, expect_eq_ok] at run
  exact run

variable {subscriber : Address}

theorem subscribe_effect {planId : Nat}
    (run : subscribe env s subscriber planId = .ok s') :
    Effect env s (.subscribe subscriber planId) s'.toBooks := by
  simp only [subscribe, bind_eq_ok, pure_eq_ok, ensure_eq_ok, expect_eq_ok, u64_eq_ok, u32_eq_ok] at run
  obtain ⟨_, _, _, limited, _, _, plan, held, _, _, _, outsider, _, fresh, _, ⟨_, rfl⟩, _, ⟨_, rfl⟩,
    _, ⟨_, rfl⟩, rfl⟩ := run
  rcases limitCalls_frame limited with ⟨_, rfl⟩
  exact .subscribe held outsider (notSubscribed_ok fresh)

variable {id : Nat}

theorem cancelSubscription_effect
    (run : cancelSubscription env s subscriber id = .ok s') :
    Effect env s (.cancelSubscription subscriber id) s'.toBooks := by
  simp only [cancelSubscription, bind_eq_ok, pure_eq_ok, ensure_eq_ok, expect_eq_ok] at run
  rcases run with ⟨_, _, _, limited, _, _, sub, held, _, rfl, _, status, plan, planStored, rfl⟩
  rcases limitCalls_frame limited with ⟨_, rfl⟩
  have live : sub.status ≠ .cancelled := by
    rcases status with status | status <;> rw [status] <;> decide
  exact .cancel held live planStored

theorem pauseBySubscriber_ok {duration : Nat}
    (run : pauseBySubscriber env s subscriber id duration = .ok s') :
    ∃ sub, s.subscription id = some sub ∧ sub.subscriber = subscriber ∧ sub.status = .active ∧
      s'.toBooks =
        { s.toBooks with subscription := put s.subscription id (paused env.timestamp duration sub) } := by
  simp only [pauseBySubscriber, bind_eq_ok, pure_eq_ok, ensure_eq_ok, expect_eq_ok] at run
  rcases run with ⟨_, _, _, limited, _, _, sub, held, _, owner, _, status, _, _, rfl⟩
  rcases limitCalls_frame limited with ⟨_, rfl⟩
  exact ⟨sub, held, owner, status, rfl⟩

theorem pauseBySubscriber_effect {duration : Nat}
    (run : pauseBySubscriber env s subscriber id duration = .ok s') :
    Effect env s (.pauseBySubscriber subscriber id duration) s'.toBooks := by
  rcases pauseBySubscriber_ok run with ⟨sub, held, rfl, status, same⟩
  rw [same]
  exact .amend held (.pauseFor status)

theorem pauseSubscription_effect
    (run : pauseSubscription env s subscriber id = .ok s') :
    Effect env s (.pauseSubscription subscriber id) s'.toBooks := by
  simp only [pauseSubscription, bind_eq_ok] at run
  rcases run with ⟨_, _, _, limited, run⟩
  rcases limitCalls_frame limited with ⟨_, rfl⟩
  rcases pauseBySubscriber_ok run with ⟨sub, held, rfl, status, same⟩
  rw [same]
  exact .amend held (.pause status)

theorem checkAndResumeInternal_ok {sub : Subscription} {checked : Subscription × Bool}
    (run : checkAndResumeInternal env sub = .ok checked) :
    (checked = (sub, false) ∧ (sub.status = .paused → env.timestamp < sub.pausedAt + sub.pauseDuration)) ∨
    (checked = (resumed sub, true) ∧ sub.status = .paused ∧
      sub.pausedAt + sub.pauseDuration ≤ env.timestamp) := by
  simp only [checkAndResumeInternal, ite_eq_ok, bind_eq_ok, pure_eq_ok, u64_eq_ok, ok_eq_ok] at run
  rcases run with ⟨status, _, ⟨_, rfl⟩, rfl⟩ | ⟨status, rfl⟩
  · by_cases elapsed : sub.pausedAt + sub.pauseDuration ≤ env.timestamp
    · right
      simp only [elapsed, if_true, status, and_self]
    · left
      simp only [elapsed, if_false, true_and]
      omega
  · exact .inl ⟨rfl, fun paused => absurd paused status⟩

theorem resumeSubscription_effect
    (run : resumeSubscription env s subscriber id = .ok s') :
    Effect env s (.resumeSubscription subscriber id) s'.toBooks := by
  simp only [resumeSubscription, bind_eq_ok, pure_eq_ok, ensure_eq_ok, expect_eq_ok, u64_eq_ok] at run
  obtain ⟨_, _, _, limited, _, _, sub, held, _, rfl, checked, found, _, resumable, plan, planStored,
    _, ⟨_, rfl⟩, rfl⟩ := run
  rcases limitCalls_frame limited with ⟨_, rfl⟩
  simp only [Subscriptions.resumable, ite_eq_ok, ok_eq_ok] at found
  rcases found with ⟨status, rfl⟩ | ⟨status, found⟩
  · exact .amend held (.resume status planStored)
  -- an active record makes `check_and_resume_internal` answer false, which fails the assertion
  · rcases checkAndResumeInternal_ok found with ⟨rfl, _⟩ | ⟨_, isPaused, _⟩
    · cases resumable
    · exact absurd isPaused status

theorem requestRefund_effect {amount : Int}
    (run : requestRefund env s id amount = .ok s') :
    Effect env s (.requestRefund id amount) s'.toBooks := by
  simp only [requestRefund, bind_eq_ok, pure_eq_ok, ensure_eq_ok, expect_eq_ok] at run
  rcases run with ⟨_, _, sub, held, _, limited, _, _, _, pos, _, bounded, rfl⟩
  rcases limitCalls_frame limited with ⟨_, rfl⟩
  exact .amend held (.requestRefund pos bounded)

theorem approveRefund_effect
    (run : approveRefund env s id = .ok s') : Effect env s (.approveRefund id) s'.toBooks := by
  simp only [approveRefund, bind_eq_ok, pure_eq_ok, ensure_eq_ok, expect_eq_ok, i128_eq_ok] at run
  rcases run with ⟨_, _, sub, held, _, _, _, requested, _, _, _, ⟨_, rfl⟩, rfl⟩
  exact .amend held (.approveRefund requested)

theorem rejectRefund_effect
    (run : rejectRefund env s id = .ok s') : Effect env s (.rejectRefund id) s'.toBooks := by
  simp only [rejectRefund, bind_eq_ok, pure_eq_ok, ensure_eq_ok, expect_eq_ok] at run
  rcases run with ⟨_, _, sub, held, _, _, _, _, rfl⟩
  exact .amend held .rejectRefund

theorem requestTransfer_effect {recipient : Address}
    (run : requestTransfer env s id recipient = .ok s') :
    Effect env s (.requestTransfer id recipient) s'.toBooks := by
  simp only [requestTransfer, bind_eq_ok, pure_eq_ok, ensure_eq_ok, expect_eq_ok] at run
  rcases run with ⟨_, _, sub, held, _, limited, _, _, _, live, _, other, rfl⟩
  rcases limitCalls_frame limited with ⟨_, rfl⟩
  exact .requestTransfer held live other

theorem acceptTransfer_effect {recipient : Address}
    (run : acceptTransfer env s id recipient = .ok s') :
    Effect env s (.acceptTransfer id recipient) s'.toBooks := by
  simp only [acceptTransfer, bind_eq_ok, pure_eq_ok, ensure_eq_ok, expect_eq_ok] at run
  rcases run with ⟨_, _, _, limited, _, _, sub, held, _, pending, _, rfl, rfl⟩
  rcases limitCalls_frame limited with ⟨_, rfl⟩
  exact .acceptTransfer held pending

theorem commitCharge_effect {commitment : BytesN 32}
    (run : commitCharge env s id commitment = .ok s') :
    Effect env s (.commitCharge id commitment) s'.toBooks := by
  simp only [commitCharge, bind_eq_ok, pure_eq_ok, expect_eq_ok, u64_eq_ok] at run
  rcases run with ⟨_, _, sub, held, _, _, _, _, _, ⟨_, rfl⟩, _, ⟨_, rfl⟩, rfl⟩
  exact .commit held

theorem administer_effect {call : Call}
    (administrative : call.Administrative) (run : exec ⟨env, call⟩ s = .ok s') :
    Effect env s call s'.toBooks := by
  have same : s'.toBooks = s.toBooks := by
    cases call <;> simp only [Call.Administrative] at administrative
    all_goals
      simp only [exec, setInvoiceContract, clearInvoiceContract, setRateLimit, removeRateLimit,
        configureMevProtection, setRevenueRule, setRecognitionRule, State.publish, bind_eq_ok, pure_eq_ok] at run
      grind
  rw [same]
  exact .administer administrative

theorem RevenueOnly.books (only : RevenueOnly s s') : s'.toBooks = s.toBooks := by
  rcases only with ⟨_, rfl⟩
  rfl

theorem RevenueOnly.settings (only : RevenueOnly s s') : s'.toSettings = s.toSettings := by
  rcases only with ⟨_, rfl⟩
  rfl

variable {gasPrice : Nat}

theorem recordMevGasAlert_frame {threshold : Nat}
    (run : recordMevGasAlert env s id gasPrice threshold = .ok s') :
    s'.toBooks = s.toBooks ∧ s'.toSettings = s.toSettings := by
  simp only [recordMevGasAlert, ite_eq_ok, bind_eq_ok, pure_eq_ok, ok_eq_ok] at run
  rcases run with ⟨_, rfl⟩ | ⟨_, _, _, rfl⟩
  · exact ⟨rfl, rfl⟩
  · exact ⟨rfl, rfl⟩

theorem invoiceCharge_ok {period : TimeRange}
    (run : invoiceCharge env s id period = .ok s') : s' = s := by
  unfold invoiceCharge at run
  cases configured : s.invoiceContract with
  | none =>
    simp only [configured, ok_eq_ok] at run
    exact run.symm
  | some invoice =>
    simp only [configured, bind_eq_ok, pure_eq_ok] at run
    rcases run with ⟨_, _, same⟩
    exact same.symm

variable {maxChargeAmount : Int}

theorem checkMaxCharge_ok {price : Int} {maxFeeBps : Nat} {u : Unit}
    (run : checkMaxCharge maxChargeAmount price maxFeeBps = .ok u) :
    maxChargeAmount = i128Max ∨ price ≤ maxChargeAmount := by
  simp only [checkMaxCharge, ite_eq_ok, bind_eq_ok, ensure_eq_ok] at run
  rcases run with ⟨_, _, bounded, _⟩ | ⟨unbounded, _⟩
  · exact .inr bounded
  · exact .inl (not_not.mp unbounded)

structure ChargeRun (env : Env) (s s' : State) (id : Nat) (maxChargeAmount : Int) (revealed : Bool)
    (sub due : Subscription) (plan : Plan) : Prop where
  stored : s.subscription id = some sub
  planStored : s.plan sub.planId = some plan
  billable : Billable env.timestamp sub due
  isDue : sub.nextChargeAt ≤ env.timestamp
  authorized : env.authorized sub.subscriber = true
  guarded : revealed = true ∨ plan.price < (getMevConfig s).largeChargeThreshold
  bounded : maxChargeAmount = i128Max ∨ plan.price ≤ maxChargeAmount
  paid : env.tokenTransfer plan.token sub.subscriber plan.merchant plan.price = true
  fits : sub.totalPaid + plan.price < 2 ^ 127
  books : s'.toBooks =
    { s.toBooks with
      subscription := put s.subscription id (charged env.timestamp plan due)
      transfers := s.transfers ++ [movedByCharge id plan sub] }

theorem collect_ok {sub : Subscription} {plan : Plan}
    (run : collect env s id sub plan = .ok s') :
    env.tokenTransfer plan.token sub.subscriber plan.merchant plan.price = true ∧
      sub.totalPaid + plan.price < 2 ^ 127 ∧
      s'.toBooks =
        { s.toBooks with
          subscription := put s.subscription id (charged env.timestamp plan sub)
          transfers := s.transfers ++ [movedByCharge id plan sub] } := by
  simp only [collect, bind_eq_ok, require_eq_ok, u64_eq_ok, u32_eq_ok, i128_eq_ok] at run
  obtain ⟨_, paid, _, ⟨_, rfl⟩, _, ⟨⟨_, fits⟩, rfl⟩, _, ⟨_, rfl⟩, _, ⟨_, rfl⟩, _, scheduled, _, balanced,
    invoiced⟩ := run
  refine ⟨paid, fits, ?_⟩
  rw [invoiceCharge_ok invoiced]
  calc (State.publish _ _).toBooks
      = (trackMerchantSubscription _ plan.merchant id).toBooks := rfl
    _ = _ := (trackMerchantSubscription_only ..).books
    _ = _ := (updateMerchantRevenueBalances_only balanced).books
    _ = _ := (generateRevenueSchedule_only scheduled).books

theorem chargeSubscriptionGuarded_ok {privateMempool revealed : Bool}
    (run : chargeSubscriptionGuarded env s id maxChargeAmount gasPrice privateMempool revealed = .ok s') :
    ∃ sub due plan, ChargeRun env s s' id maxChargeAmount revealed sub due plan := by
  simp only [chargeSubscriptionGuarded, bind_eq_ok, expect_eq_ok, ensure_eq_ok,
    Host.requireAuth_eq_ok] at run
  obtain ⟨sub, held, _, limited, _, authorized, checked, found, _, status, _, isDue, plan, planStored,
    _, guarded, _, bounded, _, _, alertState, alerted, collected⟩ := run
  rcases limitCalls_frame limited with ⟨_, rfl⟩
  rcases collect_ok collected with ⟨paid, fits, books⟩
  rw [(recordMevGasAlert_frame alerted).1] at books
  have unbounded := checkMaxCharge_ok bounded
  rcases checkAndResumeInternal_ok found with ⟨rfl, _⟩ | ⟨rfl, isPaused, elapsed⟩
  · exact ⟨sub, sub, plan, held, planStored, .active status, isDue, authorized, guarded, unbounded, paid,
      fits, books⟩
  -- the resumed record is written before the charged one, and the second write covers the first
  · have covered : put (put s.subscription id (resumed sub)) id (charged env.timestamp plan (resumed sub)) =
        put s.subscription id (charged env.timestamp plan (resumed sub)) := put_put ..
    refine ⟨sub, resumed sub, plan, held, planStored, .elapsed isPaused elapsed, isDue, authorized, guarded,
      unbounded, paid, fits, ?_⟩
    rw [books, ← covered]
    rfl

theorem chargeSubscription_effect
    (run : chargeSubscription env s id = .ok s') : Effect env s (.chargeSubscription id) s'.toBooks := by
  simp only [chargeSubscription, bind_eq_ok] at run
  rcases run with ⟨_, _, run⟩
  rcases chargeSubscriptionGuarded_ok run with ⟨sub, due, plan, ran⟩
  rw [ran.books]
  exact .charge .direct ran.stored ran.planStored ran.billable ran.isDue

structure RevealRun (env : Env) (s : State) (id : Nat) (salt : BytesN 32) (maxChargeAmount : Int)
    (pending : ChargeCommitment) : Prop where
  stored : s.chargeCommitment id = some pending
  notEarly : pending.minRevealAt ≤ env.timestamp
  notLate : env.timestamp ≤ pending.expiresAt
  opened : pending.commitment = buildChargeCommitment env id maxChargeAmount salt
  authorized : env.authorized pending.subscriber = true

def unsealed (env : Env) (s : State) (id : Nat) (maxChargeAmount : Int) (gasPrice : Nat)
    (privateMempool : Bool) : State :=
  { s with
    chargeCommitment := remove s.chargeCommitment id
    events := s.events ++ [.chargeRevealed id maxChargeAmount gasPrice privateMempool env.timestamp] }

section

variable {privateMempool : Bool} {salt : BytesN 32} (run : revealCharge env s id salt maxChargeAmount gasPrice privateMempool = .ok s')

include run

theorem revealCharge_ok :
    ∃ pending, RevealRun env s id salt maxChargeAmount pending ∧
      ∃ sub due plan, ChargeRun env (unsealed env s id maxChargeAmount gasPrice privateMempool) s' id
        maxChargeAmount true sub due plan := by
  simp only [revealCharge, bind_eq_ok, expect_eq_ok, ensure_eq_ok, Host.requireAuth_eq_ok] at run
  rcases run with ⟨_, _, pending, held, _, notEarly, _, notLate, _, opened, _, authorized, run⟩
  exact ⟨pending, ⟨held, notEarly, notLate, opened, authorized⟩, chargeSubscriptionGuarded_ok run⟩

theorem revealCharge_effect :
    Effect env s (.revealCharge id salt maxChargeAmount gasPrice privateMempool) s'.toBooks := by
  rcases revealCharge_ok run with ⟨_, _, sub, due, plan, ran⟩
  rw [ran.books]
  exact .charge .revealed ran.stored ran.planStored ran.billable ran.isDue

end

theorem migrateSubscription_rebuilt (s : State) (i : Nat) :
    ∃ index, migrateSubscription s i = { s with userPlanIndex := index } ∧ Rebuilt s.toRegistry index := by
  have kept : Rebuilt s.toRegistry s.userPlanIndex := fun _ => .inl rfl
  cases held : s.subscription i with
  | none => exact ⟨s.userPlanIndex, by simp only [migrateSubscription, held], kept⟩
  | some sub =>
    by_cases live : sub.status ≠ .cancelled
    · refine ⟨put s.userPlanIndex (sub.subscriber, sub.planId) sub.id, ?_, fun key => ?_⟩
      · simp only [migrateSubscription, held, if_pos live]
      · by_cases same : key = (sub.subscriber, sub.planId)
        · exact .inr ⟨i, sub, held, live, same, by rw [same, put_self]⟩
        · exact .inl (put_of_ne _ _ same)
    · exact ⟨s.userPlanIndex, by simp only [migrateSubscription, held, if_neg live], kept⟩

theorem migrateSubscription_foldl (ids : List Nat) (s : State) :
    ∃ index, ids.foldl migrateSubscription s = { s with userPlanIndex := index } ∧
      Rebuilt s.toRegistry index := by
  induction ids generalizing s with
  | nil => exact ⟨s.userPlanIndex, rfl, fun _ => .inl rfl⟩
  | cons i ids ih =>
    rcases migrateSubscription_rebuilt s i with ⟨first, firstRun, firstRebuilt⟩
    rcases ih { s with userPlanIndex := first } with ⟨index, rest, rebuilt⟩
    refine ⟨index, by rw [List.foldl_cons, firstRun, rest], fun key => ?_⟩
    rcases rebuilt key with kept | found
    · rcases firstRebuilt key with keptFirst | foundFirst
      · exact .inl (kept.trans keptFirst)
      · rcases foundFirst with ⟨j, sub, held, live, same, entry⟩
        exact .inr ⟨j, sub, held, live, same, kept.trans entry⟩
    · exact .inr found

theorem migrate_effect {fromVersion : Nat}
    (run : migrate env s fromVersion = .ok s') : Effect env s (.migrate fromVersion) s'.toBooks := by
  simp only [migrate, bind_eq_ok, ite_eq_ok, pure_eq_ok, error_eq_ok, and_false, or_false] at run
  rcases run with ⟨_, _, ⟨_, rfl⟩ | ⟨_, _, _, _, rfl⟩⟩
  · exact .migrate fun _ => .inl rfl
  · rcases migrateSubscription_foldl (List.range' 1 (s.subscriptionCount.getD 0)) s with ⟨index, loop, rebuilt⟩
    rw [loop]
    exact .migrate rebuilt

theorem exec_effect {call : Call} (run : exec ⟨env, call⟩ s = .ok s') : Effect env s call s'.toBooks := by
  cases call with
  | migrate => exact migrate_effect run
  | commitCharge => exact commitCharge_effect run
  | revealCharge => exact revealCharge_effect run
  | createPlan => exact createPlan_effect run
  | deactivatePlan => exact deactivatePlan_effect run
  | subscribe => exact subscribe_effect run
  | cancelSubscription => exact cancelSubscription_effect run
  | pauseSubscription => exact pauseSubscription_effect run
  | pauseBySubscriber => exact pauseBySubscriber_effect run
  | resumeSubscription => exact resumeSubscription_effect run
  | chargeSubscription => exact chargeSubscription_effect run
  | requestRefund => exact requestRefund_effect run
  | approveRefund => exact approveRefund_effect run
  | rejectRefund => exact rejectRefund_effect run
  | requestTransfer => exact requestTransfer_effect run
  | acceptTransfer => exact acceptTransfer_effect run
  | _ => exact administer_effect trivial run

end SubTrackr.Subscriptions
