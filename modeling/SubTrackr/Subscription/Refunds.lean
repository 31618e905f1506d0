import SubTrackr.Subscription.Registry
import Mathlib.Algebra.Order.BigOperators.Group.List

namespace SubTrackr.Subscriptions

open Lib Soroban

def signedAmount (merchant : Address) (t : TokenTransfer) : Int :=
  if t.recipient = merchant then t.amount else if t.sender = merchant then -t.amount else 0

def netPaid (merchant : Address) (id : Nat) (transfers : List TokenTransfer) : Int :=
  ((transfers.filter (·.subscriptionId = id)).map (signedAmount merchant)).sum

theorem netPaid_append (merchant : Address) (id : Nat) (transfers : List TokenTransfer) (t : TokenTransfer) :
    netPaid merchant id (transfers ++ [t]) =
      netPaid merchant id transfers + if t.subscriptionId = id then signedAmount merchant t else 0 := by
  unfold netPaid
  by_cases mine : t.subscriptionId = id
  · simp [mine]
  · simp [mine]

variable {env : Env} {s : State} {call : Call} {books : Books} {id : Nat}

theorem Effect.netPaid_uncharged
    (effect : Effect env s call books) (merchant : Address)
    (uncharged : ∀ max, ¬ call.Charges id max) :
    netPaid merchant id books.transfers = netPaid merchant id s.transfers := by
  by_cases other : ∃ j max, call.Charges j max
  · rcases other with ⟨j, max, path⟩
    rcases effect.billed path with ⟨sub, _, plan, _, _, _, _, moved⟩
    have elsewhere : (movedByCharge j plan sub).subscriptionId ≠ id := by
      intro same
      subst same
      exact uncharged max path
    rw [moved, netPaid_append, if_neg elsewhere, add_zero]
  · rw [effect.uncharged fun j max path => other ⟨j, max, path⟩]

variable {sub : Subscription}

theorem Effect.netPaid_charged
    (effect : Effect env s call books) {max : Int} (path : call.Charges id max)
    (held : s.subscription id = some sub) {plan : Plan} (planStored : s.plan sub.planId = some plan) :
    netPaid plan.merchant id books.transfers = netPaid plan.merchant id s.transfers + plan.price := by
  rcases effect.billed path with ⟨found, _, terms, read, planRead, _, _, moved⟩
  obtain rfl : sub = found := Option.some.inj (held.symm.trans read)
  obtain rfl : plan = terms := Option.some.inj (planStored.symm.trans planRead)
  rw [moved, netPaid_append]
  simp [movedByCharge, signedAmount]

def approvedAmount (id : Nat) (r : Receipt Tx State) : Int :=
  match r.tx.call, r.before.subscription id with
  | .approveRefund j, some sub => if j = id then sub.refundRequestedAmount else 0
  | _, _ => 0

def approvedRefunds (id : Nat) (history : List (Receipt Tx State)) : Int :=
  (history.map (approvedAmount id)).sum

theorem approvedRefunds_append (id : Nat) (history : List (Receipt Tx State)) (r : Receipt Tx State) :
    approvedRefunds id (history ++ [r]) = approvedRefunds id history + approvedAmount id r := by
  simp [approvedRefunds]

theorem approvedAmount_other {r : Receipt Tx State} (other : r.tx.call ≠ .approveRefund id) :
    approvedAmount id r = 0 := by
  unfold approvedAmount
  split
  · next j sub approves _ =>
    rw [if_neg]
    intro same
    subst same
    exact other approves
  · rfl

theorem approvedAmount_self {r : Receipt Tx State}
    (approves : r.tx.call = .approveRefund id) (held : r.before.subscription id = some sub) :
    approvedAmount id r = sub.refundRequestedAmount := by
  simp [approvedAmount, approves, held]

theorem Effect.approved
    (effect : Effect env s (.approveRefund id) books) :
    ∃ sub, s.subscription id = some sub ∧ 0 < sub.refundRequestedAmount := by
  cases effect with
  | administer administrative => exact administrative.elim
  | charge path => cases path
  | amend held amendment =>
    cases amendment with
    | approveRefund requested => exact ⟨_, held, requested⟩

variable {guard : World → Tx → Prop} {w : World}

theorem approvedAmount_pos (reached : Reachable guard w)
    {r : Receipt Tx State} (mem : r ∈ w.history) (approves : r.tx.call = .approveRefund id) :
    0 < approvedAmount id r := by
  rcases r with ⟨⟨env, call⟩, before, after⟩
  rcases reached.receipt _ mem with ⟨_, _, _, _, run⟩
  obtain rfl : call = .approveRefund id := approves
  have effect : Effect env before (.approveRefund id) after.toBooks := exec_effect run
  rcases effect.approved with ⟨sub, held, requested⟩
  rwa [approvedAmount_self rfl held]

theorem approvedRefunds_eq_zero_iff (reached : Reachable guard w)
    (id : Nat) : approvedRefunds id w.history = 0 ↔ ∀ r ∈ w.history, r.tx.call ≠ .approveRefund id := by
  have nonneg : ∀ x ∈ w.history.map (approvedAmount id), 0 ≤ x := by
    simp only [List.mem_map]
    intro _ mapped
    rcases mapped with ⟨r, mem, rfl⟩
    by_cases approves : r.tx.call = .approveRefund id
    · exact (approvedAmount_pos reached mem approves).le
    · rw [approvedAmount_other approves]
  constructor
  · intro zero r mem approves
    have none := List.all_zero_of_le_zero_le_of_sum_eq_zero nonneg zero (List.mem_map_of_mem mem)
    exact absurd none (approvedAmount_pos reached mem approves).ne'
  · intro none
    refine List.sum_eq_zero fun x mem => ?_
    rcases List.mem_map.mp mem with ⟨r, here, rfl⟩
    exact approvedAmount_other (none r here)

theorem Effect.priced (effect : Effect env s call books)
    (priced : ∀ p plan, s.plan p = some plan → 0 < plan.price) :
    ∀ p plan, books.plan p = some plan → 0 < plan.price := by
  have rewritten {q : Nat} {terms terms' : Plan} (held : s.plan q = some terms)
      (same : terms'.price = terms.price) (p : Nat) (plan : Plan) (read : put s.plan q terms' p = some plan) :
      0 < plan.price := by
    rcases (put_eq_some ..).mp read with ⟨rfl, rfl⟩ | ⟨_, kept⟩
    · rw [same]
      exact priced _ terms held
    · exact priced p plan kept
  cases effect with
  | createPlan pos =>
    intro p plan read
    rcases (put_eq_some ..).mp read with ⟨_, rfl⟩ | ⟨_, kept⟩
    · exact pos
    · exact priced p plan kept
  | deactivatePlan held => exact rewritten held rfl
  | subscribe held => exact rewritten held rfl
  | cancel _ _ held => exact rewritten held rfl
  | _ => exact priced

theorem prices_pos (reached : Reachable guard w) : ∀ p plan, w.state.plan p = some plan → 0 < plan.price := by
  refine reached.state_invariant (I := fun s => ∀ p plan, s.plan p = some plan → 0 < plan.price) ?_ ?_
  · intro s initial p plan held
    rcases (initialised_iff s).mp initial with ⟨admin, rfl⟩
    cases held
  · intro w tx s _ _ run priced
    rcases tx with ⟨env, call⟩
    exact (exec_effect run).priced priced

def RefundBounded (sub : Subscription) : Prop :=
  0 ≤ sub.refundRequestedAmount ∧ sub.refundRequestedAmount ≤ sub.totalPaid

theorem Change.refundBounded {sub' : Subscription}
    (change : Change env s id call sub sub') (priced : ∀ p plan, s.plan p = some plan → 0 < plan.price)
    (bounded : RefundBounded sub) : RefundBounded sub' := by
  rcases bounded with ⟨low, high⟩
  cases change with
  | kept | cancelled | moved => exact ⟨low, high⟩
  | amended amendment =>
    cases amendment with
    | pause | pauseFor | resume => exact ⟨low, high⟩
    | requestRefund pos bounded => exact ⟨pos.le, bounded⟩
    | approveRefund => exact ⟨le_rfl, Int.sub_nonneg_of_le high⟩
    | rejectRefund => exact ⟨le_rfl, low.trans high⟩
  | charged _ planStored billable =>
    have price := priced _ _ planStored
    cases billable with
    | active | elapsed => exact ⟨low, high.trans (Int.le_add_of_nonneg_right price.le)⟩

theorem refund_bounds (reached : Reachable guard w) :
    ∀ id sub, w.state.subscription id = some sub → RefundBounded sub := by
  refine reached.state_invariant (I := fun s => ∀ id sub, s.subscription id = some sub → RefundBounded sub) ?_ ?_
  · intro s initial id sub held
    rcases (initialised_iff s).mp initial with ⟨admin, rfl⟩
    cases held
  · intro w tx s earlier _ run bounded id sub' held'
    rcases tx with ⟨env, call⟩
    have effect : Effect env w.state call s.toBooks := exec_effect run
    cases held : w.state.subscription id with
    | none =>
      rcases effect.created held held' with ⟨_, _, _, _, _, _, rfl⟩
      exact ⟨le_rfl, le_rfl⟩
    | some sub =>
      rcases effect.change (wellFormed earlier) held with ⟨found, read, change⟩
      have same : sub' = found := Option.some.inj (held'.symm.trans read)
      subst same
      exact change.refundBounded (prices_pos earlier) (bounded id sub held)

theorem unborn_books (reached : Reachable guard w) : ∀ id, w.state.subscription id = none →
      (∀ merchant, netPaid merchant id w.state.transfers = 0) ∧ approvedRefunds id w.history = 0 := by
  refine reached.invariant
    (I := fun w : World => ∀ id, w.state.subscription id = none →
      (∀ merchant, netPaid merchant id w.state.transfers = 0) ∧ approvedRefunds id w.history = 0)
    ?_ (fun _ _ _ _ holds => holds) ?_
  · intro s initial id _
    rcases (initialised_iff s).mp initial with ⟨admin, rfl⟩
    exact ⟨fun _ => rfl, rfl⟩
  · intro w tx s earlier _ run holds id absent
    rcases tx with ⟨env, call⟩
    have effect : Effect env w.state call s.toBooks := exec_effect run
    have before := effect.absent (wellFormed earlier) absent
    have uncharged : ∀ max, ¬ call.Charges id max := by
      intro max path
      rcases effect.billed path with ⟨sub, _, _, held, _⟩
      exact nomatch before.symm.trans held
    have unapproved : call ≠ .approveRefund id := by
      intro same
      subst same
      rcases effect.approved with ⟨sub, held, _⟩
      exact nomatch before.symm.trans held
    rcases holds id before with ⟨paid, approved⟩
    refine ⟨fun merchant => (effect.netPaid_uncharged merchant uncharged).trans (paid merchant), ?_⟩
    rw [approvedRefunds_append, approved, approvedAmount_other unapproved, add_zero]

theorem Change.totalPaid {sub' : Subscription}
    (change : Change env s id call sub sub') (held : s.subscription id = some sub) (s' : State) :
    (∃ max plan, call.Charges id max ∧ s.plan sub.planId = some plan ∧
      sub'.totalPaid + approvedAmount id ⟨⟨env, call⟩, s, s'⟩ = sub.totalPaid + plan.price) ∨
    (∀ max, ¬ call.Charges id max) ∧
      sub'.totalPaid + approvedAmount id ⟨⟨env, call⟩, s, s'⟩ = sub.totalPaid := by
  have unapproved (other : call ≠ .approveRefund id) : approvedAmount id ⟨⟨env, call⟩, s, s'⟩ = 0 :=
    approvedAmount_other other
  cases change with
  | kept other =>
    refine .inr ⟨fun max path => other path.record, ?_⟩
    have notApproved : call ≠ .approveRefund id := by
      intro same
      subst same
      exact other rfl
    rw [unapproved notApproved, add_zero]
  | cancelled | moved => exact .inr ⟨fun _ => nofun, add_zero _⟩
  | amended amendment =>
    refine .inr ⟨amendment.uncharged id, ?_⟩
    cases amendment with
    | approveRefund =>
      rw [approvedAmount_self rfl held]
      exact Int.sub_add_cancel ..
    | _ => exact add_zero _
  | charged path planStored billable =>
    have notApproved : call ≠ .approveRefund id := by
      intro same
      subst same
      cases path
    refine .inl ⟨_, _, path, planStored, ?_⟩
    rw [unapproved notApproved, add_zero]
    cases billable with
    | active => rfl
    | elapsed => rfl

theorem netPaid_eq (reached : Reachable guard w) :
    ∀ id sub plan, w.state.subscription id = some sub → w.state.plan sub.planId = some plan →
      netPaid plan.merchant id w.state.transfers = sub.totalPaid + approvedRefunds id w.history := by
  refine reached.invariant
    (I := fun w : World => ∀ id sub plan, w.state.subscription id = some sub → w.state.plan sub.planId = some plan →
      netPaid plan.merchant id w.state.transfers = sub.totalPaid + approvedRefunds id w.history)
    ?_ (fun _ _ _ _ holds => holds) ?_
  · intro s initial id sub _ held
    rcases (initialised_iff s).mp initial with ⟨admin, rfl⟩
    cases held
  · intro w tx s earlier _ run holds id sub' plan' held' planStored'
    rcases tx with ⟨env, call⟩
    have effect : Effect env w.state call s.toBooks := exec_effect run
    have wf := wellFormed earlier
    rw [approvedRefunds_append]
    cases held : w.state.subscription id with
    | none =>
      rcases effect.created held held' with ⟨subscriber, planId, _, rfl, _, _, rfl⟩
      rcases unborn_books earlier id held with ⟨paid, approved⟩
      have uncharged : ∀ max, ¬ Call.Charges (.subscribe subscriber planId) id max := fun _ => nofun
      have unapproved : Call.subscribe subscriber planId ≠ .approveRefund id := nofun
      rw [effect.netPaid_uncharged plan'.merchant uncharged, paid, approved, approvedAmount_other unapproved]
      rfl
    | some sub =>
      rcases effect.recordBefore wf held held' planStored' with ⟨plan, planStored, change, same⟩
      have before := holds id sub plan held planStored
      rw [same.merchant]
      show netPaid plan.merchant id s.transfers = sub'.totalPaid + (approvedRefunds id w.history + _)
      rcases change.totalPaid held s with ⟨_, _, path, read, paid⟩ | ⟨uncharged, paid⟩
      · have charged := effect.netPaid_charged path held planStored
        have samePlan := Option.some.inj (planStored.symm.trans read)
        subst samePlan
        omega
      · have moved := effect.netPaid_uncharged plan.merchant uncharged
        omega

/-- The refund ledger of a reachable state: the request is within bounds, and the record agrees with the tokens
    moved exactly when no refund of the subscription has been approved. -/
theorem refund_ledger {w : World} (reached : Reachable Ledger.anyTx w) (id : Nat) {sub : Subscription}
    {plan : Plan} (stored : w.state.subscription id = some sub) (planStored : w.state.plan sub.planId = some plan) :
    (0 ≤ sub.refundRequestedAmount ∧ sub.refundRequestedAmount ≤ sub.totalPaid) ∧
    (sub.totalPaid = netPaid plan.merchant id w.state.transfers ↔
      ∀ r ∈ w.history, r.tx.call ≠ .approveRefund id) := by
  have net := netPaid_eq reached id sub plan stored planStored
  refine ⟨refund_bounds reached id sub stored, ?_⟩
  rw [← approvedRefunds_eq_zero_iff reached, net]
  constructor
  · intro same
    omega
  · intro none
    omega

def refundRequested : World :=
  trial [(0, .createPlan ⟨1⟩ "basic" 500 ⟨7⟩ .daily), (0, .subscribe ⟨2⟩ 1), (86400, .chargeSubscription 1),
    (90000, .requestRefund 1 200)]

theorem refundRequested_reachable : Reachable Ledger.anyTx refundRequested := trial_reachable fun _ _ _ _ => trivial

theorem refund_ledger_rejected :
    netPaid ⟨1⟩ 1 (submit refundRequested ⟨.willing 90001, .rejectRefund 1⟩).state.transfers = 500 := by
  have rejected : Reachable Ledger.anyTx (submit refundRequested ⟨.willing 90001, .rejectRefund 1⟩) :=
    refundRequested_reachable.submit trivial
  exact ((refund_ledger rejected 1 rfl rfl).2.mpr (by decide)).symm

theorem refund_ledger_fails_after_approval :
    ¬ ∀ (w : World) (id : Nat) (sub : Subscription) (plan : Plan), Reachable Ledger.anyTx w →
      w.state.subscription id = some sub → w.state.plan sub.planId = some plan →
      (0 ≤ sub.refundRequestedAmount ∧ sub.refundRequestedAmount ≤ sub.totalPaid) ∧
      sub.totalPaid = netPaid plan.merchant id w.state.transfers := by
  intro holds
  have approved : Reachable Ledger.anyTx (submit refundRequested ⟨.willing 90001, .approveRefund 1⟩) :=
    refundRequested_reachable.submit trivial
  have same := (holds _ 1 _ _ approved rfl rfl).2
  exact absurd same (by decide)

end SubTrackr.Subscriptions
