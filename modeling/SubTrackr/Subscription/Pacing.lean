import SubTrackr.Subscription.Refunds
import SubTrackr.Subscription.Schedule

namespace SubTrackr.Subscriptions

open Lib Soroban

/-- Each charge has moved the price once, and has put off the next one by an interval at least. -/
structure Paced (s : State) (id : Nat) (sub : Subscription) (plan : Plan) : Prop where
  paid : netPaid plan.merchant id s.transfers = sub.chargeCount * plan.price
  waited : sub.startedAt + (sub.chargeCount + 1) * plan.interval.seconds ≤ sub.nextChargeAt

variable {w w' : World} {id : Nat} {sub : Subscription} {plan : Plan}

theorem Change.paced {env : Env} {call : Call} {s : State} {sub' : Subscription}
    (change : Change env w.state id call sub sub') (effect : Effect env w.state call s.toBooks)
    (held : w.state.subscription id = some sub) (planStored : w.state.plan sub.planId = some plan)
    (schedule : OnSchedule w id sub plan) (later : w.clock ≤ env.timestamp) (paced : Paced w.state id sub plan) :
    Paced s id sub' plan := by
  have noEarlier := change.noEarlier schedule planStored later
  have started := change.startedAt
  have idle (uncharged : ∀ max, ¬ call.Charges id max) (count : sub'.chargeCount = sub.chargeCount) :
      Paced s id sub' plan := by
    refine ⟨(effect.netPaid_uncharged _ uncharged).trans ?_, ?_⟩
    all_goals rw [count]
    · exact paced.paid
    · exact started ▸ paced.waited.trans noEarlier
  cases change with
  | kept other => exact idle (fun max path => other path.record) rfl
  | cancelled | moved => exact idle (fun _ => nofun) rfl
  | amended amendment => exact idle (amendment.uncharged id) (by cases amendment <;> rfl)
  | @charged _ _ _ due _ path termsStored billable isDue =>
    obtain rfl := Option.some.inj (planStored.symm.trans termsStored)
    have count : (Subscriptions.charged env.timestamp plan due).chargeCount = sub.chargeCount + 1 := by cases billable <;> rfl
    refine ⟨?_, ?_⟩
    all_goals rw [count]
    · rw [effect.netPaid_charged path held planStored, paced.paid, Nat.cast_add_one, add_mul, one_mul]
    · rw [started, Nat.succ_mul, ← Nat.add_assoc]
      exact Nat.add_le_add_right (paced.waited.trans isDue) _

theorem paced (reached : Reachable inOrder w) : ∀ id sub plan, w.state.subscription id = some sub →
    w.state.plan sub.planId = some plan → Paced w.state id sub plan := by
  refine reached.invariant (I := fun w : World => ∀ id sub plan, w.state.subscription id = some sub →
    w.state.plan sub.planId = some plan → Paced w.state id sub plan) ?_ (fun _ _ _ _ holds => holds) ?_
  · intro s initial id sub _ held
    rcases (initialised_iff s).mp initial with ⟨admin, rfl⟩
    cases held
  · intro w tx s earlier later run holds id sub' plan' held' planStored'
    rcases tx with ⟨env, call⟩
    have effect : Effect env w.state call s.toBooks := exec_effect run
    have wf := wellFormed earlier
    cases held : w.state.subscription id with
    | none =>
      rcases effect.created held held' with ⟨_, planId, plan, rfl, planStored, _, rfl⟩
      rcases effect.terms wf planStored with ⟨terms, termsStored, same⟩
      obtain rfl : plan' = terms := Option.some.inj (planStored'.symm.trans termsStored)
      refine ⟨(effect.netPaid_uncharged _ fun _ => nofun).trans ?_, ?_⟩
      · simp [(unborn_books earlier id held).1, newSubscription]
      · simp [newSubscription, same.interval]
    | some sub =>
      rcases effect.recordBefore wf held held' planStored' with ⟨plan, planStored, change, same⟩
      obtain ⟨paid, waited⟩ := change.paced effect held planStored (onSchedule earlier id sub plan held planStored) later
        (holds id sub plan held planStored)
      rw [← same.merchant, ← same.price] at paid
      rw [← same.interval] at waited
      exact ⟨paid, waited⟩

end SubTrackr.Subscriptions
