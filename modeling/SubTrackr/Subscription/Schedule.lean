import SubTrackr.Subscription.Registry

namespace SubTrackr.Subscriptions

open List Lib Soroban

abbrev inOrder : World → Tx → Prop := Ledger.inOrder contract

structure OnSchedule (w : World) (id : Nat) (sub : Subscription) (plan : Plan) : Prop where
  past : sub.lastChargedAt ≤ w.clock
  ahead : sub.lastChargedAt ≤ sub.nextChargeAt
  near : sub.nextChargeAt ≤ w.clock + plan.interval.seconds
  charges : ∀ r ∈ w.history, ∀ max, r.tx.call.Charges id max →
    r.tx.env.timestamp + plan.interval.seconds ≤ sub.nextChargeAt

section Step

variable {w : World} {env : Env} {call : Call} {s : State} {id : Nat} {sub sub' : Subscription} {plan : Plan}

section

variable (schedule : OnSchedule w id sub plan)

include schedule

theorem OnSchedule.wait {now : Nat} (later : w.clock ≤ now) :
    OnSchedule { w with clock := now } id sub plan where
  past := schedule.past.trans later
  ahead := schedule.ahead
  near := by
    have near := schedule.near
    simp only
    omega
  charges := schedule.charges

theorem OnSchedule.uncharged (later : w.clock ≤ env.timestamp)
    (uncharged : ∀ max, ¬ call.Charges id max) (sameLast : sub'.lastChargedAt = sub.lastChargedAt)
    (noEarlier : sub.nextChargeAt ≤ sub'.nextChargeAt)
    (near : sub'.nextChargeAt ≤ env.timestamp + plan.interval.seconds) :
    OnSchedule ⟨env.timestamp, s, w.history ++ [⟨⟨env, call⟩, w.state, s⟩]⟩ id sub' plan where
  past := by
    rw [sameLast]
    exact schedule.past.trans later
  ahead := by
    rw [sameLast]
    exact schedule.ahead.trans noEarlier
  near := near
  charges r mem max path := by
    rcases mem_append.mp mem with earlier | last
    · exact (schedule.charges r earlier max path).trans noEarlier
    · obtain rfl := mem_singleton.mp last
      exact absurd path (uncharged max)

theorem OnSchedule.charged (isDue : sub.nextChargeAt ≤ env.timestamp)
    (due : Subscription) :
    OnSchedule ⟨env.timestamp, s, w.history ++ [⟨⟨env, call⟩, w.state, s⟩]⟩ id (charged env.timestamp plan due)
      plan where
  past := le_rfl
  ahead := Nat.le_add_right ..
  near := le_rfl
  charges r mem max path := by
    simp only [Subscriptions.charged]
    rcases mem_append.mp mem with earlier | last
    · have before := schedule.charges r earlier max path
      omega
    · obtain rfl := mem_singleton.mp last
      exact le_rfl

end

theorem Change.noEarlier (change : Change env w.state id call sub sub') (schedule : OnSchedule w id sub plan)
    (planStored : w.state.plan sub.planId = some plan) (later : w.clock ≤ env.timestamp) :
    sub.nextChargeAt ≤ sub'.nextChargeAt := by
  cases change with
  | kept => exact le_rfl
  | cancelled => exact le_rfl
  | moved => exact le_rfl
  | charged _ _ _ isDue => exact isDue.trans (Nat.le_add_right ..)
  | amended amendment =>
    cases amendment with
    | resume _ termsStored =>
      obtain rfl := Option.some.inj (planStored.symm.trans termsStored)
      have near := schedule.near
      simp only
      omega
    | _ => exact le_rfl

theorem Change.onSchedule (change : Change env w.state id call sub sub') (schedule : OnSchedule w id sub plan)
    (planStored : w.state.plan sub.planId = some plan) (later : w.clock ≤ env.timestamp) :
    OnSchedule ⟨env.timestamp, s, w.history ++ [⟨⟨env, call⟩, w.state, s⟩]⟩ id sub' plan := by
  have noEarlier := change.noEarlier schedule planStored later
  have near : sub.nextChargeAt ≤ env.timestamp + plan.interval.seconds :=
    schedule.near.trans (Nat.add_le_add_right later _)
  cases change with
  | kept other => exact schedule.uncharged later (fun max path => other path.record) rfl noEarlier near
  | cancelled | moved => exact schedule.uncharged later (fun _ => nofun) rfl noEarlier near
  | charged _ termsStored _ isDue =>
    obtain rfl := Option.some.inj (planStored.symm.trans termsStored)
    exact schedule.charged isDue _
  | amended amendment =>
    have uncharged := amendment.uncharged id
    cases amendment with
    | pause => exact schedule.uncharged later uncharged rfl noEarlier near
    | pauseFor => exact schedule.uncharged later uncharged rfl noEarlier near
    | resume _ termsStored =>
      obtain rfl := Option.some.inj (planStored.symm.trans termsStored)
      exact schedule.uncharged later uncharged rfl noEarlier le_rfl
    | requestRefund => exact schedule.uncharged later uncharged rfl noEarlier near
    | approveRefund => exact schedule.uncharged later uncharged rfl noEarlier near
    | rejectRefund => exact schedule.uncharged later uncharged rfl noEarlier near

end Step

theorem charge_known {guard : World → Tx → Prop} {w : World} (reached : Reachable guard w) :
    ∀ r ∈ w.history, ∀ id max, r.tx.call.Charges id max → ∃ sub, w.state.subscription id = some sub := by
  refine reached.invariant
    (I := fun w : World => ∀ r ∈ w.history, ∀ id max, r.tx.call.Charges id max →
      ∃ sub, w.state.subscription id = some sub)
    (fun _ _ _ mem => absurd mem not_mem_nil) (fun _ _ _ _ holds => holds) ?_
  intro w tx s here _ run holds r mem id max path
  rcases tx with ⟨env, call⟩
  have effect : Effect env w.state call s.toBooks := exec_effect run
  have known : ∃ sub, w.state.subscription id = some sub := by
    rcases mem_append.mp mem with earlier | last
    · exact holds r earlier id max path
    · obtain rfl := mem_singleton.mp last
      rcases effect.billed path with ⟨sub, _, _, held, _⟩
      exact ⟨sub, held⟩
  rcases known with ⟨sub, held⟩
  rcases effect.change (wellFormed here) held with ⟨sub', held', _⟩
  exact ⟨sub', held'⟩

theorem onSchedule {w : World} (reached : Reachable inOrder w) :
    ∀ id sub plan, w.state.subscription id = some sub → w.state.plan sub.planId = some plan →
      OnSchedule w id sub plan := by
  refine reached.invariant
    (I := fun w : World => ∀ id sub plan, w.state.subscription id = some sub →
      w.state.plan sub.planId = some plan → OnSchedule w id sub plan) ?_ ?_ ?_
  · intro s initial id sub _ held
    rcases (initialised_iff s).mp initial with ⟨admin, rfl⟩
    cases held
  · intro w tx _ later holds id sub plan held planStored
    exact (holds id sub plan held planStored).wait later
  · intro w tx s here later run holds id sub' plan' held' planStored'
    rcases tx with ⟨env, call⟩
    have effect : Effect env w.state call s.toBooks := exec_effect run
    have wf := wellFormed here
    have scheduled (plan : Plan) (same : SameTerms plan plan') (schedule : OnSchedule
        ⟨env.timestamp, s, w.history ++ [⟨⟨env, call⟩, w.state, s⟩]⟩ id sub' plan) :
        OnSchedule ⟨env.timestamp, s, w.history ++ [⟨⟨env, call⟩, w.state, s⟩]⟩ id sub' plan' := by
      rcases schedule with ⟨past, ahead, near, charges⟩
      rw [← same.interval] at near charges
      exact ⟨past, ahead, near, charges⟩
    cases held : w.state.subscription id with
    | none =>
      rcases effect.created held held' with ⟨_, planId, plan, rfl, planStored, _, rfl⟩
      rcases effect.terms wf planStored with ⟨terms, termsStored, same⟩
      obtain rfl : plan' = terms := Option.some.inj (planStored'.symm.trans termsStored)
      refine scheduled plan same ⟨le_rfl, Nat.le_add_right .., le_rfl, fun r mem max path => ?_⟩
      rcases mem_append.mp mem with earlier | last
      · rcases charge_known here r earlier id max path with ⟨sub, known⟩
        exact nomatch held.symm.trans known
      · obtain rfl := mem_singleton.mp last
        cases path
    | some sub =>
      rcases effect.recordBefore wf held held' planStored' with ⟨plan, planStored, change, same⟩
      exact scheduled plan same (change.onSchedule (holds id sub plan held planStored) planStored later)

def Spaced (s : State) (r r' : Receipt Tx State) : Prop :=
  ∀ id max max', r.tx.call.Charges id max → r'.tx.call.Charges id max' →
    ∃ sub plan, s.subscription id = some sub ∧ s.plan sub.planId = some plan ∧
      r.tx.env.timestamp + plan.interval.seconds ≤ r'.tx.env.timestamp

theorem Effect.spaced {env : Env} {s : State} {call : Call} {s' : State} {r r' : Receipt Tx State}
    (effect : Effect env s call s'.toBooks) (wf : s.toRegistry.WellFormed) (spaced : Spaced s r r') :
    Spaced s' r r' := by
  intro id max max' first second
  rcases spaced id max max' first second with ⟨sub, plan, held, planStored, apart⟩
  rcases effect.recordAfter wf held planStored with ⟨sub', plan', held', planStored', _, same⟩
  refine ⟨sub', plan', held', planStored', ?_⟩
  rw [same.interval]
  exact apart

theorem spaced {w : World} (reached : Reachable inOrder w) : w.history.Pairwise (Spaced w.state) := by
  refine reached.invariant (I := fun w : World => w.history.Pairwise (Spaced w.state))
    (fun _ _ => List.Pairwise.nil) (fun _ _ _ _ holds => holds) ?_
  intro w tx s here later run holds
  rcases tx with ⟨env, call⟩
  have effect : Effect env w.state call s.toBooks := exec_effect run
  have wf := wellFormed here
  refine pairwise_append.mpr ⟨holds.imp (effect.spaced wf), pairwise_singleton .., ?_⟩
  intro r mem r' last id max max' first second
  obtain rfl := mem_singleton.mp last
  rcases effect.billed second with ⟨sub, due, plan, held, planStored, _, isDue, _⟩
  have apart := (onSchedule here id sub plan held planStored).charges r mem max first
  rcases effect.recordAfter wf held planStored with ⟨sub', plan', held', planStored', _, same⟩
  refine ⟨sub', plan', held', planStored', ?_⟩
  rw [same.interval]
  exact apart.trans isDue

theorem charge_after_pause {guard : World → Tx → Prop} {w : World} (reached : Reachable guard w)
    {r : Receipt Tx State} (mem : r ∈ w.history) {id : Nat} {max : Int} (path : r.tx.call.Charges id max)
    {sub : Subscription} (held : r.before.subscription id = some sub) (status : sub.status = .paused) :
    sub.pausedAt + sub.pauseDuration ≤ r.tx.env.timestamp := by
  rcases r with ⟨⟨env, call⟩, before, after⟩
  rcases reached.receipt _ mem with ⟨_, _, _, _, run⟩
  have effect : Effect env before call after.toBooks := exec_effect run
  rcases effect.billed path with ⟨found, due, _, read, _, billable, _⟩
  obtain rfl : found = sub := Option.some.inj (read.symm.trans held)
  cases billable with
  | active active => exact nomatch active.symm.trans status
  | elapsed _ elapsed => exact elapsed

theorem next_charge_monotone {w w' : World} (reached : Reachable inOrder w) (later : Steps inOrder w w') :
    ∀ id sub, w.state.subscription id = some sub →
      ∃ sub', w'.state.subscription id = some sub' ∧ sub.nextChargeAt ≤ sub'.nextChargeAt := by
  refine later.relates
    (R := fun s t => ∀ id sub, s.subscription id = some sub →
      ∃ sub', t.subscription id = some sub' ∧ sub.nextChargeAt ≤ sub'.nextChargeAt)
    (fun _ _ sub held => ⟨sub, held, le_rfl⟩) ?_ reached ?_
  · intro s t u first second id sub held
    rcases first id sub held with ⟨mid, midStored, before⟩
    rcases second id mid midStored with ⟨sub', held', after⟩
    exact ⟨sub', held', before.trans after⟩
  · intro v tx s here inTime run id sub held
    rcases tx with ⟨env, call⟩
    have wf := wellFormed here
    rcases (exec_effect run).change wf held with ⟨sub', held', change⟩
    rcases wf.records.planned id sub held with ⟨plan, planStored⟩
    exact ⟨sub', held', change.noEarlier (onSchedule here id sub plan held planStored) planStored inTime⟩

def chargedTwice : World :=
  trial [(0, .createPlan ⟨1⟩ "basic" 500 ⟨7⟩ .daily), (0, .subscribe ⟨2⟩ 1), (86400, .chargeSubscription 1),
    (90000, .pauseBySubscriber ⟨2⟩ 1 100000), (190000, .chargeSubscription 1)]

def pauseLength (now : Nat) (record : Option Subscription) : Nat :=
  match record with
  | some sub => if sub.status = .paused then min (now - sub.pausedAt) sub.pauseDuration else 0
  | none => 0

def isPaused (record : Option Subscription) : Bool := record.any (·.status = .paused)

def endedPause (id : Nat) (r : Receipt Tx State) : Nat :=
  if isPaused (r.after.subscription id) then 0
  else pauseLength r.tx.env.timestamp (r.before.subscription id)

def pausedTime (id : Nat) (w : World) : Nat :=
  (w.history.map (endedPause id)).sum + pauseLength w.clock (w.state.subscription id)

theorem pauseLength_mono {now later : Nat} (record : Option Subscription) (noEarlier : now ≤ later) :
    pauseLength now record ≤ pauseLength later record := by
  cases record with
  | none => exact le_rfl
  | some sub =>
    unfold pauseLength
    by_cases status : sub.status = .paused
    · simp only [status, if_true]
      omega
    · simp only [status, if_false, le_refl]

theorem pausedTime_wait {id : Nat} {w : World} {now : Nat} (later : w.clock ≤ now) :
    pausedTime id w ≤ pausedTime id { w with clock := now } :=
  Nat.add_le_add_left (pauseLength_mono _ later) _

section Step

variable {w : World} {env : Env} {call : Call} {s : State} {id : Nat} {sub sub' : Subscription} {plan : Plan}

section

variable (change : Change env w.state id call sub sub')

include change

theorem Change.samePause (before : sub.status = .paused)
    (after : sub'.status = .paused) :
    sub'.pausedAt = sub.pausedAt ∧ sub'.pauseDuration = sub.pauseDuration := by
  cases change with
  | kept => exact ⟨rfl, rfl⟩
  | cancelled => cases after
  | moved => exact ⟨rfl, rfl⟩
  | charged _ _ billable =>
    cases billable with
    | active active => exact nomatch active.symm.trans before
    | elapsed => cases after
  | amended amendment =>
    cases amendment with
    | pause active => exact nomatch active.symm.trans before
    | pauseFor active => exact nomatch active.symm.trans before
    | resume => cases after
    | requestRefund | approveRefund | rejectRefund => exact ⟨rfl, rfl⟩

theorem Change.startedAt : sub'.startedAt = sub.startedAt := by
  cases change with
  | kept => rfl
  | cancelled => rfl
  | moved => rfl
  | charged _ _ billable => cases billable <;> rfl
  | amended amendment => cases amendment <;> rfl

theorem Change.pausedTime_le
    (held : w.state.subscription id = some sub) (held' : s.subscription id = some sub') :
    pausedTime id { w with clock := env.timestamp } ≤
      pausedTime id ⟨env.timestamp, s, w.history ++ [⟨⟨env, call⟩, w.state, s⟩]⟩ := by
  have ended : endedPause id ⟨⟨env, call⟩, w.state, s⟩ =
      if sub'.status = .paused then 0 else pauseLength env.timestamp (some sub) := by
    simp only [endedPause, isPaused, held, held', Option.any_some, decide_eq_true_eq]
  have running : pauseLength env.timestamp (some sub) ≤
      endedPause id ⟨⟨env, call⟩, w.state, s⟩ + pauseLength env.timestamp (some sub') := by
    rw [ended]
    by_cases after : sub'.status = .paused
    · by_cases before : sub.status = .paused
      · have same := change.samePause before after
        simp only [pauseLength, before, after, same.1, same.2, if_true]
        omega
      · simp only [pauseLength, before, if_false]
        omega
    · rw [if_neg after]
      omega
  unfold pausedTime
  simp only [map_append, map_cons, map_nil, sum_append, sum_cons, sum_nil, held,
    held']
  omega

end

end Step

/-- An uncharged subscription is resumed explicitly only when it has been paused for all of its life. -/
def resumesFullyPaused (id : Nat) (w : World) (tx : Tx) : Prop :=
  inOrder w tx ∧
  ∀ subscriber sub, tx.call = .resumeSubscription subscriber id → w.state.subscription id = some sub →
    sub.status = .paused → sub.chargeCount = 0 →
    tx.env.timestamp ≤ sub.startedAt + pausedTime id { w with clock := tx.env.timestamp }

/-- The record of `id`, created with its first charge at `firstDue`, keeps to the bound while it is uncharged. -/
structure WithinPauses (id firstDue : Nat) (w : World) (sub : Subscription) (plan : Plan) : Prop where
  stored : w.state.subscription id = some sub
  planStored : w.state.plan sub.planId = some plan
  started : sub.startedAt + plan.interval.seconds = firstDue
  bound : sub.chargeCount = 0 → sub.nextChargeAt ≤ firstDue + pausedTime id w

theorem WithinPauses.bound_step {id firstDue : Nat} {w : World} {env : Env} {call : Call} {s : State}
    {sub sub' : Subscription} {plan : Plan} (within : WithinPauses id firstDue w sub plan)
    (met : resumesFullyPaused id w ⟨env, call⟩) (change : Change env w.state id call sub sub')
    (held' : s.subscription id = some sub') (uncharged : sub'.chargeCount = 0) :
    sub'.nextChargeAt ≤
      firstDue + pausedTime id ⟨env.timestamp, s, w.history ++ [⟨⟨env, call⟩, w.state, s⟩]⟩ := by
  have waited : pausedTime id w ≤ pausedTime id { w with clock := env.timestamp } := pausedTime_wait met.1
  have grown := change.pausedTime_le within.stored held'
  have kept (same : sub'.nextChargeAt = sub.nextChargeAt) (sameCount : sub'.chargeCount = sub.chargeCount) :
      sub'.nextChargeAt ≤
        firstDue + pausedTime id ⟨env.timestamp, s, w.history ++ [⟨⟨env, call⟩, w.state, s⟩]⟩ := by
    have bound := within.bound (sameCount.symm.trans uncharged)
    omega
  cases change with
  | kept | cancelled | moved => exact kept rfl rfl
  | charged => exact nomatch uncharged
  | amended amendment =>
    cases amendment with
    | pause | pauseFor | requestRefund | approveRefund | rejectRefund => exact kept rfl rfl
    | @resume _ _ terms status termsStored =>
      have same : plan = terms := Option.some.inj (within.planStored.symm.trans termsStored)
      have started := within.started
      have fully : env.timestamp ≤ sub.startedAt + pausedTime id { w with clock := env.timestamp } :=
        met.2 sub.subscriber sub rfl within.stored status uncharged
      rw [same] at started
      simp only
      omega

theorem WithinPauses.step {id firstDue : Nat} {w : World} {env : Env} {call : Call} {s : State}
    {sub : Subscription} {plan : Plan} (within : WithinPauses id firstDue w sub plan)
    (wf : w.state.toRegistry.WellFormed) (met : resumesFullyPaused id w ⟨env, call⟩)
    (effect : Effect env w.state call s.toBooks) :
    ∃ sub' plan', WithinPauses id firstDue ⟨env.timestamp, s, w.history ++ [⟨⟨env, call⟩, w.state, s⟩]⟩
      sub' plan' := by
  rcases effect.recordAfter wf within.stored within.planStored with
    ⟨sub', plan', held', planStored', change, same⟩
  refine ⟨sub', plan', held', planStored', ?_, within.bound_step met change held'⟩
  rw [change.startedAt, same.interval]
  exact within.started

theorem WithinPauses.created {id : Nat} {guard : World → Tx → Prop} {w : World} {tx : Tx} {first : Subscription}
    (reached : Reachable guard w) (absent : w.state.subscription id = none)
    (created : (submit w tx).state.subscription id = some first) :
    ∃ plan, WithinPauses id first.nextChargeAt (submit w tx) first plan := by
  rcases tx with ⟨env, call⟩
  cases run : contract.exec ⟨env, call⟩ w.state with
  | error e =>
    rw [submit, Ledger.submit_error contract run] at created
    exact nomatch absent.symm.trans created
  | ok s =>
    rw [submit, Ledger.submit_ok contract run] at created ⊢
    have effect : Effect env w.state call s.toBooks := exec_effect run
    rcases effect.created absent created with ⟨_, planId, plan, _, planStored, _, fresh⟩
    rcases effect.terms (wellFormed reached) planStored with ⟨plan', planStored', same⟩
    rw [fresh] at created ⊢
    refine ⟨plan', created, planStored', ?_, fun _ => Nat.le_add_right ..⟩
    rw [same.interval]
    rfl

def planning : Tx := ⟨.willing 0, .createPlan ⟨1⟩ "basic" 500 ⟨7⟩ .daily⟩

def planned : World := submit (Ledger.genesis (.initial ⟨9⟩)) planning

theorem planned_reachable {guard : World → Tx → Prop}
    (met : guard (Ledger.genesis (.initial ⟨9⟩)) planning) : Reachable guard planned :=
  (Reachable.initial guard ⟨9⟩).submit met

def subscribing : Tx := ⟨.willing 0, .subscribe ⟨2⟩ 1⟩

def pausing (now : Nat) : Tx := ⟨.willing now, .pauseSubscription ⟨2⟩ 1⟩

def pausedFrom (now : Nat) : World := submit (submit planned subscribing) (pausing now)

def resuming : Tx := ⟨.willing 50, .resumeSubscription ⟨2⟩ 1⟩

end SubTrackr.Subscriptions
