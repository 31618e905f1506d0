import SubTrackr.Subscription.Recognition
import SubTrackr.Subscription.Refunds
import SubTrackr.Lib.Sums

namespace SubTrackr.Subscriptions

open List Lib Soroban

section

structure SameRevenue (s s' : State) : Prop where
  revenueSchedule : s'.revenueSchedule = s.revenueSchedule
  revenueDeferredBalance : s'.revenueDeferredBalance = s.revenueDeferredBalance

theorem SameRevenue.of_books {s s' : State} (same : s'.toRevenueBooks = s.toRevenueBooks) : SameRevenue s s' :=
  ⟨congrArg RevenueBooks.revenueSchedule same, congrArg RevenueBooks.revenueDeferredBalance same⟩

variable {env : Env} {s s' : State}

theorem limitCalls_revenue {caller : Address} {functionName : String}
    (run : limitCalls env s caller functionName = .ok s') : s'.toRevenueBooks = s.toRevenueBooks := by
  rcases limitCalls_frame run with ⟨_, rfl⟩
  rfl

theorem SameRevenue.of_limited {t : State} {caller : Address} {functionName : String}
    (limits : limitCalls env s caller functionName = .ok t) (same : s'.toRevenueBooks = t.toRevenueBooks) :
    SameRevenue s s' :=
  .of_books (same.trans (limitCalls_revenue limits))

theorem recordMevGasAlert_revenue {id gasPrice threshold : Nat}
    (run : recordMevGasAlert env s id gasPrice threshold = .ok s') : s'.toRevenueBooks = s.toRevenueBooks := by
  simp only [recordMevGasAlert, ite_eq_ok, bind_eq_ok, pure_eq_ok, ok_eq_ok] at run
  rcases run with ⟨_, rfl⟩ | ⟨_, _, _, rfl⟩
  · rfl
  · rfl

theorem storeResumed_revenue (s : State) (id : Nat) (checked : Subscription × Bool) :
    (storeResumed s id checked).toRevenueBooks = s.toRevenueBooks := by
  unfold storeResumed
  split
  · rfl
  · rfl

theorem migrateSubscription_revenue (ids : List Nat) (s : State) :
    (ids.foldl migrateSubscription s).toRevenueBooks = s.toRevenueBooks := by
  rcases migrateSubscription_foldl ids s with ⟨index, loop, _⟩
  rw [loop]

theorem trackMerchantSubscription_same (s : State) (merchant : Address) (id : Nat) :
    SameRevenue s (trackMerchantSubscription s merchant id) := by
  unfold trackMerchantSubscription
  dsimp only
  split
  · exact ⟨rfl, rfl⟩
  · exact ⟨rfl, rfl⟩

structure Booked (env : Env) (s s' : State) (id : Nat) (sub : Subscription) (plan : Plan) (schedule : RevenueSchedule) :
    Prop where
  built : buildSchedule (s.revenueRecognitionRule sub.planId) id plan.price env.timestamp plan.interval.seconds =
    .ok schedule
  fits : (s.revenueDeferredBalance plan.merchant).getD 0 + plan.price < 2 ^ 127
  schedules : s'.revenueSchedule = put s.revenueSchedule id schedule
  balances : s'.revenueDeferredBalance =
    put s.revenueDeferredBalance plan.merchant ((s.revenueDeferredBalance plan.merchant).getD 0 + plan.price)

theorem collect_booked {id : Nat} {sub : Subscription} {plan : Plan} (run : collect env s id sub plan = .ok s') :
    ∃ schedule, Booked env s s' id sub plan schedule := by
  simp only [collect, bind_eq_ok] at run
  obtain ⟨_, _, _, _, _, _, _, _, _, _, scheduled, generated, balanced, updated, invoiced⟩ := run
  simp only [generateRevenueSchedule, bind_eq_ok, pure_eq_ok] at generated
  obtain ⟨schedule, built, rfl⟩ := generated
  simp only [updateMerchantRevenueBalances, bind_eq_ok, pure_eq_ok, i128_eq_ok] at updated
  obtain ⟨_, _, _, ⟨⟨_, fits⟩, rfl⟩, rfl⟩ := updated
  rw [invoiceCharge_ok invoiced]
  refine ⟨schedule, built, fits, ?_, ?_⟩
  · exact (trackMerchantSubscription_same _ plan.merchant id).revenueSchedule
  · exact (trackMerchantSubscription_same _ plan.merchant id).revenueDeferredBalance

theorem chargeSubscriptionGuarded_booked {id : Nat} {maxChargeAmount : Int} {gasPrice : Nat} {privateMempool revealed : Bool}
    (run : chargeSubscriptionGuarded env s id maxChargeAmount gasPrice privateMempool revealed = .ok s') :
    ∃ sub plan schedule, s.subscription id = some sub ∧ s.plan sub.planId = some plan ∧
      Booked env s s' id sub plan schedule := by
  simp only [chargeSubscriptionGuarded, bind_eq_ok, expect_eq_ok] at run
  obtain ⟨sub, held, limited, limits, _, _, checked, found, _, _, _, _, plan, planStored, _, _, _, _, _, _, alerted,
    alerts, collected⟩ := run
  have revenue : alerted.toRevenueBooks = s.toRevenueBooks :=
    ((recordMevGasAlert_revenue alerts).trans (storeResumed_revenue ..)).trans (limitCalls_revenue limits)
  have samePlan : checked.1.planId = sub.planId := by
    rcases checkAndResumeInternal_ok found with ⟨rfl, _⟩ | ⟨rfl, _⟩
    · rfl
    · rfl
  have plans : (storeResumed limited id checked).plan = s.plan := by
    rcases limitCalls_frame limits with ⟨_, rfl⟩
    unfold storeResumed
    split
    · rfl
    · rfl
  obtain ⟨schedule, booked⟩ := collect_booked collected
  rw [plans, samePlan] at planStored
  refine ⟨sub, plan, schedule, held, planStored, ?_, ?_, ?_, ?_⟩
  · have built := booked.built
    rwa [revenue, samePlan] at built
  · have fits := booked.fits
    rwa [revenue] at fits
  · have schedules := booked.schedules
    rwa [revenue] at schedules
  · have balances := booked.balances
    rwa [revenue] at balances

theorem exec_booked {call : Call} {id : Nat} {max : Int} (path : call.Charges id max)
    (run : exec ⟨env, call⟩ s = .ok s') :
    ∃ sub plan schedule, s.subscription id = some sub ∧ s.plan sub.planId = some plan ∧
      Booked env s s' id sub plan schedule := by
  cases path with
  | direct =>
    obtain ⟨_, _, charged⟩ := (bind_eq_ok ..).mp run
    exact chargeSubscriptionGuarded_booked charged
  | revealed =>
    simp only [exec, revealCharge, bind_eq_ok, expect_eq_ok] at run
    obtain ⟨_, _, _, _, _, _, _, _, _, _, _, _, charged⟩ := run
    obtain ⟨sub, plan, schedule, held, planStored, booked⟩ := chargeSubscriptionGuarded_booked charged
    exact ⟨sub, plan, schedule, held, planStored, booked.built, booked.fits, booked.schedules, booked.balances⟩

theorem exec_sameRevenue {call : Call} (uncharged : ∀ id max, ¬ call.Charges id max)
    (run : exec ⟨env, call⟩ s = .ok s') : SameRevenue s s' := by
  cases call with
  | migrate fromVersion =>
    simp only [exec, migrate, bind_eq_ok, ite_eq_ok, pure_eq_ok, error_eq_ok, and_false, or_false] at run
    rcases run with ⟨_, _, ⟨_, rfl⟩ | ⟨_, _, _, _, rfl⟩⟩
    · exact ⟨rfl, rfl⟩
    · exact .of_books (migrateSubscription_revenue _ _)
  | setInvoiceContract | clearInvoiceContract | setRateLimit | removeRateLimit =>
    simp only [exec, setInvoiceContract, bind_eq_ok, pure_eq_ok, clearInvoiceContract, setRateLimit,
      removeRateLimit] at run
    obtain ⟨_, _, _, _, rfl⟩ := run
    exact ⟨rfl, rfl⟩
  | configureMevProtection =>
    simp only [exec, configureMevProtection, bind_eq_ok, pure_eq_ok] at run
    obtain ⟨_, _, _, _, _, _, _, _, _, _, rfl⟩ := run
    exact ⟨rfl, rfl⟩
  | setRevenueRule | rejectRefund =>
    simp only [exec, setRevenueRule, bind_eq_ok, pure_eq_ok, rejectRefund] at run
    obtain ⟨_, _, _, _, _, _, _, _, rfl⟩ := run
    exact ⟨rfl, rfl⟩
  | commitCharge | approveRefund =>
    simp only [exec, commitCharge, bind_eq_ok, pure_eq_ok, approveRefund] at run
    obtain ⟨_, _, _, _, _, _, _, _, _, _, _, _, rfl⟩ := run
    exact ⟨rfl, rfl⟩
  | revealCharge => exact absurd .revealed (uncharged _ _)
  | createPlan | deactivatePlan =>
    simp only [exec, createPlan, bind_eq_ok, pure_eq_ok, deactivatePlan] at run
    obtain ⟨_, _, _, limits, _, _, _, _, _, _, rfl⟩ := run
    exact .of_limited limits rfl
  | subscribe =>
    simp only [exec, subscribe, bind_eq_ok, pure_eq_ok] at run
    obtain ⟨_, _, _, limits, _, _, _, _, _, _, _, _, _, _, _, _, _, _, _, _, rfl⟩ := run
    exact .of_limited limits rfl
  | cancelSubscription | pauseBySubscriber =>
    simp only [exec, cancelSubscription, bind_eq_ok, pure_eq_ok, pauseBySubscriber] at run
    obtain ⟨_, _, _, limits, _, _, _, _, _, _, _, _, _, _, rfl⟩ := run
    exact .of_limited limits rfl
  | pauseSubscription =>
    simp only [exec, pauseSubscription, pauseBySubscriber, bind_eq_ok, pure_eq_ok] at run
    obtain ⟨_, _, _, limits, _, _, _, limits', _, _, _, _, _, _, _, _, _, _, rfl⟩ := run
    have inner := limitCalls_revenue limits'
    exact .of_limited limits inner
  | resumeSubscription =>
    simp only [exec, resumeSubscription, bind_eq_ok, pure_eq_ok] at run
    obtain ⟨_, _, _, limits, _, _, _, _, _, _, _, _, _, _, _, _, _, _, rfl⟩ := run
    exact .of_limited limits rfl
  | chargeSubscription => exact absurd .direct (uncharged _ _)
  | requestRefund | requestTransfer =>
    simp only [exec, requestRefund, bind_eq_ok, pure_eq_ok, requestTransfer] at run
    obtain ⟨_, _, _, _, _, limits, _, _, _, _, _, _, rfl⟩ := run
    exact .of_limited limits rfl
  | acceptTransfer =>
    simp only [exec, acceptTransfer, bind_eq_ok, pure_eq_ok] at run
    obtain ⟨_, _, _, limits, _, _, _, _, _, _, _, _, rfl⟩ := run
    exact .of_limited limits rfl

end

def Registry.merchantOf (r : Registry) (id : Nat) : Option Address :=
  (r.subscription id).bind fun sub => (r.plan sub.planId).map (·.merchant)

def Registry.subscriptionsOf (r : Registry) (merchant : Address) : List Nat :=
  (List.range (r.subscriptionCount.getD 0 + 1)).filter (r.merchantOf · = some merchant)

def chargedFor (s : State) (merchant : Address) : Int :=
  ((s.transfers.filter (·.subscriptionId ∈ s.subscriptionsOf merchant)).map (·.amount)).sum

def bookable (w : World) (tx : Tx) : Prop :=
  ∀ id max sub plan, tx.call.Charges id max → w.state.subscription id = some sub → w.state.plan sub.planId = some plan →
    (∀ t ∈ w.state.transfers, t.subscriptionId ≠ id) ∧
    Prorates (w.state.revenueRecognitionRule sub.planId) plan.interval.seconds plan.price

/-- Of no entry has a whole unit accrued. -/
def Unearned (s : State) (merchant : Address) (now : Nat) : Prop :=
  ∀ id ∈ s.subscriptionsOf merchant, ∀ schedule, s.revenueSchedule id = some schedule → ∀ e ∈ schedule.entries,
    e.recognisedAmount * ((now - e.periodStart : Nat) : Int) < (e.periodEnd - e.periodStart : Nat)

structure Accounted (s : State) : Prop where
  owned : ∀ t ∈ s.transfers, s.merchantOf t.subscriptionId = some t.recipient ∧ 0 ≤ t.amount
  unscheduled : ∀ id, s.revenueSchedule id = none → ∀ t ∈ s.transfers, t.subscriptionId ≠ id
  charged : ∀ id schedule, s.revenueSchedule id = some schedule → ∃ t ∈ s.transfers, t.subscriptionId = id
  scheduled : ∀ id schedule, s.revenueSchedule id = some schedule → Proratable schedule.entries ∧
    Slice.total schedule.slices = fiber TokenTransfer.subscriptionId TokenTransfer.amount s.transfers id
  deferred : ∀ merchant, (s.revenueDeferredBalance merchant).getD 0 = fiber TokenTransfer.recipient TokenTransfer.amount s.transfers merchant

variable {s : State} {env : Env} {id : Nat} {merchant : Address}

theorem Registry.merchantOf_eq_some {r : Registry} : r.merchantOf id = some merchant ↔
      ∃ sub plan, r.subscription id = some sub ∧ r.plan sub.planId = some plan ∧ plan.merchant = merchant := by
  simp [Registry.merchantOf, Option.bind_eq_some_iff]

theorem Registry.WellFormed.mem_subscriptionsOf {r : Registry} (wf : r.WellFormed) :
    id ∈ r.subscriptionsOf merchant ↔ r.merchantOf id = some merchant := by
  unfold Registry.subscriptionsOf
  rw [mem_filter, decide_eq_true_iff, and_iff_right_iff_imp]
  intro owned
  obtain ⟨sub, plan, held, -, -⟩ := Registry.merchantOf_eq_some.mp owned
  have bound := ((wf.records.known id).mp ⟨sub, held⟩).2
  exact mem_range.mpr (by omega)

theorem Effect.merchantOf {call : Call} {books : Books} (effect : Effect env s call books) (wf : s.toRegistry.WellFormed)
    (owned : s.merchantOf id = some merchant) : books.merchantOf id = some merchant := by
  obtain ⟨sub, plan, held, planStored, rfl⟩ := Registry.merchantOf_eq_some.mp owned
  obtain ⟨sub', plan', held', planStored', -, same⟩ := effect.recordAfter wf held planStored
  exact Registry.merchantOf_eq_some.mpr ⟨sub', plan', held', planStored', same.merchant⟩

theorem Accounted.uncharged (accounted : Accounted s) (wf : s.toRegistry.WellFormed) {call : Call} {s' : State}
    (run : exec ⟨env, call⟩ s = .ok s') (uncharged : ∀ id max, ¬ call.Charges id max) : Accounted s' := by
  have effect := exec_effect run
  have transfers : s'.transfers = s.transfers := effect.uncharged uncharged
  obtain ⟨schedules, balances⟩ := exec_sameRevenue uncharged run
  constructor
  · intro t mem
    rw [transfers] at mem
    obtain ⟨owned, nonneg⟩ := accounted.owned t mem
    exact ⟨effect.merchantOf wf owned, nonneg⟩
  · rw [schedules, transfers]
    exact accounted.unscheduled
  · rw [schedules, transfers]
    exact accounted.charged
  · rw [schedules, transfers]
    exact accounted.scheduled
  · rw [balances, transfers]
    exact accounted.deferred

theorem Accounted.charge (accounted : Accounted s) (wf : s.toRegistry.WellFormed)
    (prices : ∀ p plan, s.plan p = some plan → 0 < plan.price) {call : Call} {s' : State} {max : Int}
    (path : call.Charges id max) (run : exec ⟨env, call⟩ s = .ok s')
    (first : ∀ t ∈ s.transfers, t.subscriptionId ≠ id)
    (prorates : ∀ sub plan, s.subscription id = some sub → s.plan sub.planId = some plan →
      Prorates (s.revenueRecognitionRule sub.planId) plan.interval.seconds plan.price) : Accounted s' := by
  have effect := exec_effect run
  obtain ⟨sub, plan, schedule, held, planStored, booked⟩ := exec_booked path run
  obtain ⟨sub', due, plan', held', planStored', -, -, transfers⟩ := effect.billed path
  obtain rfl : sub = sub' := Option.some.inj (held.symm.trans held')
  obtain rfl : plan = plan' := Option.some.inj (planStored.symm.trans planStored')
  replace transfers : s'.transfers = s.transfers ++ [movedByCharge id plan sub] := transfers
  have pos := prices _ plan planStored
  have balance : 0 ≤ (s.revenueDeferredBalance plan.merchant).getD 0 := by
    rw [accounted.deferred]
    refine sum_nonneg fun amount mem => ?_
    obtain ⟨t, member, rfl⟩ := mem_map.mp mem
    exact (accounted.owned t (mem_filter.mp member).1).2
  have small : plan.price ≤ i128Max := by
    have fits := booked.fits
    rw [i128Max]
    omega
  obtain ⟨proratable, all⟩ :=
    proratable_of_buildSchedule booked.built pos.le small (prorates sub plan held planStored)
  have owner : s.merchantOf id = some plan.merchant :=
    Registry.merchantOf_eq_some.mpr ⟨sub, plan, held, planStored, rfl⟩
  constructor
  · intro t mem
    rw [transfers] at mem
    rcases mem_append.mp mem with earlier | last
    · obtain ⟨owned, nonneg⟩ := accounted.owned t earlier
      exact ⟨effect.merchantOf wf owned, nonneg⟩
    · rw [mem_singleton.mp last]
      exact ⟨effect.merchantOf wf owner, pos.le⟩
  · intro j none t mem
    rw [booked.schedules, put_apply] at none
    split at none
    · cases none
    · rename_i other
      rw [transfers] at mem
      rcases mem_append.mp mem with earlier | last
      · exact accounted.unscheduled j none t earlier
      · rw [mem_singleton.mp last]
        exact fun same => other same.symm
  · intro j schedule' found
    rw [booked.schedules] at found
    rw [transfers]
    rcases (put_eq_some ..).mp found with ⟨rfl, rfl⟩ | ⟨-, kept⟩
    · exact ⟨_, mem_append_right _ (mem_singleton.mpr rfl), rfl⟩
    · obtain ⟨t, member, mine⟩ := accounted.charged j schedule' kept
      exact ⟨t, mem_append_left _ member, mine⟩
  · intro j schedule' found
    rw [booked.schedules] at found
    rw [transfers, fiber_concat]
    rcases (put_eq_some ..).mp found with ⟨rfl, rfl⟩ | ⟨other, kept⟩
    · refine ⟨proratable, ?_⟩
      rw [all, fiber_of_absent _ _ first]
      simp [movedByCharge]
    · obtain ⟨fits, sum⟩ := accounted.scheduled j schedule' kept
      refine ⟨fits, ?_⟩
      rw [sum, if_neg (fun same => other same.symm), add_zero]
  · intro m
    rw [booked.balances, transfers, fiber_concat, put_apply]
    split
    · rename_i mine
      subst mine
      rw [← accounted.deferred]
      simp [movedByCharge]
    · rename_i other
      rw [if_neg (fun same => other same.symm), add_zero]
      exact accounted.deferred m

theorem accounted_of_bookable {w : World} (reached : Reachable bookable w) : Accounted w.state := by
  refine reached.state_invariant ?_ ?_
  · intro s initial
    obtain ⟨admin, rfl⟩ := (initialised_iff s).mp initial
    exact
      { owned := nofun
        unscheduled := nofun
        charged := nofun
        scheduled := nofun
        deferred := fun _ => rfl }
  · intro w tx s here bookable run accounted
    obtain ⟨env, call⟩ := tx
    by_cases charges : ∃ id max, call.Charges id max
    · obtain ⟨id, max, path⟩ := charges
      obtain ⟨sub, plan, -, held, planStored, -⟩ := exec_booked path run
      refine accounted.charge (wellFormed here) (prices_pos here) path run (bookable id max sub plan path held planStored).1 ?_
      intro sub plan held planStored
      exact (bookable id max sub plan path held planStored).2
    · exact accounted.uncharged (wellFormed here) run fun id max path => charges ⟨id, max, path⟩

def recognisedAt (s : State) (id now : Nat) : Int :=
  ((s.revenueSchedule id).map fun schedule => Slice.accrued schedule.slices now).getD 0

theorem Proratable.nonneg_slices {schedule : RevenueSchedule} (fits : Proratable schedule.entries) :
    ∀ slice ∈ schedule.slices, 0 ≤ slice.amount := by
  intro slice member
  obtain ⟨e, mem, rfl⟩ := mem_map.mp member
  exact fits.nonneg e mem

theorem recognizeRevenue_ok (accounted : Accounted s) (authorized : env.authorized env.proxy = true)
    (owned : s.merchantOf id = some merchant) :
    recognizeRevenue env s id = .ok ⟨id, merchant, recognisedAt s id env.timestamp,
      fiber TokenTransfer.subscriptionId TokenTransfer.amount s.transfers id - recognisedAt s id env.timestamp, env.timestamp⟩ := by
  obtain ⟨sub, plan, held, planStored, rfl⟩ := Registry.merchantOf_eq_some.mp owned
  have signed : env.requireAuth env.proxy = .ok () := (Host.requireAuth_eq_ok ..).mpr authorized
  rw [recognizeRevenue, signed, ok_bind, held, expect, present, ok_bind, planStored, expect, present, ok_bind, recognitionOf]
  cases found : s.revenueSchedule id with
  | none =>
    have none := fiber_of_absent TokenTransfer.subscriptionId TokenTransfer.amount (accounted.unscheduled id found)
    rw [recognisedAt, found, none]
    rfl
  | some schedule =>
    obtain ⟨fits, all⟩ := accounted.scheduled id schedule found
    dsimp only
    rw [splitRecognisedDeferred_ok fits, recognisedAt, found, all]
    rfl

theorem recognisedAt_nonneg (accounted : Accounted s) (id now : Nat) : 0 ≤ recognisedAt s id now := by
  unfold recognisedAt
  cases found : s.revenueSchedule id with
  | none => exact le_refl 0
  | some schedule => exact Slice.accrued_nonneg (accounted.scheduled id schedule found).1.nonneg_slices

theorem recognisedAt_eq_zero_iff (accounted : Accounted s) (id now : Nat) :
    recognisedAt s id now = 0 ↔ ∀ schedule, s.revenueSchedule id = some schedule → ∀ e ∈ schedule.entries,
      e.recognisedAmount * ((now - e.periodStart : Nat) : Int) < (e.periodEnd - e.periodStart : Nat) := by
  unfold recognisedAt
  cases found : s.revenueSchedule id with
  | none => exact iff_of_true rfl nofun
  | some schedule =>
    have fits := (accounted.scheduled id schedule found).1
    have zero : Slice.accrued schedule.slices now = 0 ↔ _ := Slice.accrued_eq_zero_iff fits.nonneg_slices
    constructor
    · intro none schedule' same e mem
      cases same
      exact (Slice.part_eq_zero_iff (fits.proper e mem) (fits.nonneg e mem)).mp
        (zero.mp none e.slice (mem_map_of_mem mem))
    · intro early
      refine zero.mpr fun slice member => ?_
      obtain ⟨e, mem, rfl⟩ := mem_map.mp member
      exact (Slice.part_eq_zero_iff (fits.proper e mem) (fits.nonneg e mem)).mpr (early schedule rfl e mem)

theorem subscriptionsOf_nodup (r : Registry) (merchant : Address) : (r.subscriptionsOf merchant).Nodup :=
  nodup_range.filter _

theorem Accounted.deferred_eq (accounted : Accounted s) (wf : s.toRegistry.WellFormed) (merchant : Address) :
    (s.revenueDeferredBalance merchant).getD 0 = chargedFor s merchant := by
  rw [accounted.deferred, fiber, chargedFor]
  congr 2
  refine filter_congr fun t mem => ?_
  have owned := (accounted.owned t mem).1
  rw [decide_eq_decide, wf.mem_subscriptionsOf, owned, Option.some.injEq]

structure RevenueKept (env : Env) (s : State) (merchant : Address) (reports : List Recognition) (deferred : Int) : Prop where
  reported : (s.subscriptionsOf merchant).mapM (recognizeRevenue env s) = .ok reports
  complete : (reports.map fun r => r.recognisedRevenue + r.deferredRevenue).sum = chargedFor s merchant
  balance : getDeferredRevenue env s merchant = .ok deferred
  unrecognised : deferred = chargedFor s merchant - (reports.map (·.recognisedRevenue)).sum ↔ Unearned s merchant env.timestamp

theorem revenueKept (accounted : Accounted s) (wf : s.toRegistry.WellFormed) (authorized : env.authorized env.proxy = true)
    (merchant : Address) : ∃ reports deferred, RevenueKept env s merchant reports deferred := by
  have signed : env.requireAuth env.proxy = .ok () := (Host.requireAuth_eq_ok ..).mpr authorized
  have reported := mapM_ok fun id (mem : id ∈ s.subscriptionsOf merchant) =>
    recognizeRevenue_ok accounted authorized (wf.mem_subscriptionsOf.mp mem)
  refine ⟨_, (s.revenueDeferredBalance merchant).getD 0, reported, ?_, ?_, ?_⟩
  · rw [map_map, chargedFor, ← sum_fibers TokenTransfer.subscriptionId TokenTransfer.amount (subscriptionsOf_nodup _ _)]
    congr 1
    exact map_congr_left fun id _ => add_sub_cancel _ _
  · rw [getDeferredRevenue, signed]
    rfl
  · rw [accounted.deferred_eq wf, map_map, eq_comm, sub_eq_self]
    constructor
    · intro zero id mem
      refine (recognisedAt_eq_zero_iff accounted id env.timestamp).mp ?_
      refine all_zero_of_le_zero_le_of_sum_eq_zero ?_ zero (mem_map_of_mem mem)
      intro amount member
      obtain ⟨j, -, rfl⟩ := mem_map.mp member
      exact recognisedAt_nonneg accounted j env.timestamp
    · intro early
      refine sum_eq_zero fun amount member => ?_
      obtain ⟨j, mem, rfl⟩ := mem_map.mp member
      exact (recognisedAt_eq_zero_iff accounted j env.timestamp).mpr (early j mem)

structure Lasting (s s' : State) : Prop where
  owners : ∀ id merchant, s.merchantOf id = some merchant → s'.merchantOf id = some merchant
  schedules : ∀ id schedule, s.revenueSchedule id = some schedule → s'.revenueSchedule id = some schedule

theorem lasting_of_bookable {w w' : World} (reached : Reachable bookable w) (steps : Steps bookable w w') :
    Lasting w.state w'.state := by
  refine steps.relates (fun _ => ⟨fun _ _ owned => owned, fun _ _ found => found⟩) ?_ reached ?_
  · intro s t u first second
    exact ⟨fun id merchant owned => second.owners id merchant (first.owners id merchant owned),
      fun id schedule found => second.schedules id schedule (first.schedules id schedule found)⟩
  · intro w tx s here bookable run
    obtain ⟨env, call⟩ := tx
    refine ⟨fun id merchant owned => (exec_effect run).merchantOf (wellFormed here) owned, ?_⟩
    intro j schedule found
    by_cases charges : ∃ id max, call.Charges id max
    · obtain ⟨id, max, path⟩ := charges
      obtain ⟨sub, plan, schedule', held, planStored, booked⟩ := exec_booked path run
      have other : j ≠ id := by
        rintro rfl
        obtain ⟨t, mem, mine⟩ := (accounted_of_bookable here).charged j schedule found
        exact (bookable j max sub plan path held planStored).1 t mem mine
      rw [booked.schedules, put_of_ne _ _ other]
      exact found
    · rw [(exec_sameRevenue (fun id max path => charges ⟨id, max, path⟩) run).revenueSchedule]
      exact found

theorem recognisedAt_mono (accounted : Accounted s) {s' : State} (accounted' : Accounted s') (lasting : Lasting s s')
    {now later : Nat} (ordered : now ≤ later) (id : Nat) : recognisedAt s id now ≤ recognisedAt s' id later := by
  cases found : s.revenueSchedule id with
  | none =>
    have zero : recognisedAt s id now = 0 := by
      rw [recognisedAt, found]
      rfl
    rw [zero]
    exact recognisedAt_nonneg accounted' id later
  | some schedule =>
    rw [recognisedAt, found, recognisedAt, lasting.schedules id schedule found]
    exact Slice.accrued_mono (accounted.scheduled id schedule found).1.nonneg_slices ordered

def subscribedOnce : List (Nat × Call) := [(0, .createPlan ⟨2⟩ "Pro" 1000 ⟨3⟩ .monthly), (0, .subscribe ⟨4⟩ 1)]

def chargedOnce : World := submit (trial subscribedOnce) ⟨.willing 2592000, .chargeSubscription 1⟩

theorem chargedOnce_bookable : Reachable bookable chargedOnce := by
  have subscribed : Reachable bookable (trial subscribedOnce) := by
    refine trial_reachable ?_
    intro now call mem w id max sub plan path
    rcases mem_cons.mp mem with same | mem
    · cases same
      cases path
    · cases mem_singleton.mp mem
      cases path
  have met : bookable (trial subscribedOnce) ⟨.willing 2592000, .chargeSubscription 1⟩ := by
    intro id max sub plan path held planStored
    cases path
    cases held
    cases planStored
    exact ⟨nofun, by decide⟩
  exact subscribed.submit met

end SubTrackr.Subscriptions
