import SubTrackr.Subscription.Effects

namespace SubTrackr.Subscriptions

open Option Lib Soroban

structure SameHolder (sub sub' : Subscription) : Prop where
  id : sub'.id = sub.id
  planId : sub'.planId = sub.planId
  subscriber : sub'.subscriber = sub.subscriber
  cancelled : sub'.status = .cancelled ↔ sub.status = .cancelled

theorem Amendment.sameHolder {now : Nat} {plan : Store Nat Plan} {call : Call} {id : Nat}
    {sub sub' : Subscription} (amendment : Amendment now plan call id sub sub') : SameHolder sub sub' := by
  cases amendment with
  | pause status => exact ⟨rfl, rfl, rfl, by simp [paused, status]⟩
  | pauseFor status => exact ⟨rfl, rfl, rfl, by simp [paused, status]⟩
  | resume status => exact ⟨rfl, rfl, rfl, by simp [resumed, status]⟩
  | requestRefund | approveRefund | rejectRefund => exact ⟨rfl, rfl, rfl, Iff.rfl⟩

theorem Billable.sameHolder {now : Nat} {sub due : Subscription} (billable : Billable now sub due)
    (plan : Plan) : SameHolder sub (charged now plan due) := by
  cases billable with
  | active => exact ⟨rfl, rfl, rfl, Iff.rfl⟩
  | elapsed status => exact ⟨rfl, rfl, rfl, by simp [charged, resumed, status]⟩

def liveOn (p : Nat) (sub : Subscription) : Bool := sub.planId = p ∧ sub.status ≠ .cancelled

theorem liveOn_self {sub : Subscription} (live : sub.status ≠ .cancelled) : liveOn sub.planId sub = true := by
  simp [liveOn, live]

theorem liveOn_cancelled {sub : Subscription} (p : Nat) (cancelled : sub.status = .cancelled) :
    liveOn p sub = false := by
  simp [liveOn, cancelled]

theorem liveOn_other {sub : Subscription} {p : Nat} (other : p ≠ sub.planId) : liveOn p sub = false := by
  simp [liveOn, Ne.symm other]

theorem SameHolder.liveOn {sub sub' : Subscription} (same : SameHolder sub sub') (p : Nat) :
    liveOn p sub' = liveOn p sub := by
  simp only [Subscriptions.liveOn, same.planId, ne_eq, same.cancelled]

section Parts

variable {plan : Store Nat Plan} {planCount count id p : Nat} {subscription : Store Nat Subscription}
  {index : Store (Address × Nat) Nat} {lists : Store Address (List Nat)} {sub sub' : Subscription} {terms : Plan}

structure Records (plan : Store Nat Plan) (planCount : Nat) (subscription : Store Nat Subscription)
    (count : Nat) : Prop where
  known : ∀ i, (∃ sub, subscription i = some sub) ↔ 1 ≤ i ∧ i ≤ count
  selfId : ∀ i sub, subscription i = some sub → sub.id = i
  planned : ∀ i sub, subscription i = some sub → ∃ terms, plan sub.planId = some terms
  plansKnown : ∀ p terms, plan p = some terms → p ≤ planCount

def Indexed (subscription : Store Nat Subscription) (index : Store (Address × Nat) Nat) : Prop :=
  ∀ a p i, index (a, p) = some i →
    ∃ sub, subscription i = some sub ∧ sub.subscriber = a ∧ sub.planId = p

def owner (subscription : Store Nat Subscription) (id : Nat) : Option Address :=
  (subscription id).map (·.subscriber)

def Listed (subscription : Store Nat Subscription) (lists : Store Address (List Nat)) : Prop :=
  ∀ u id, ((lists u).getD []).count id = if owner subscription id = some u then 1 else 0

def Counted (plan : Store Nat Plan) (subscription : Store Nat Subscription) (count : Nat) : Prop :=
  ∀ p terms, plan p = some terms → terms.subscriberCount = tally subscription (liveOn p) count

section

variable (records : Records plan planCount subscription count)

include records

theorem Records.mem_Icc
    (held : subscription id = some sub) : id ∈ Finset.Icc 1 count :=
  Finset.mem_Icc.mpr ((records.known id).mp ⟨sub, held⟩)

theorem Records.fresh : subscription (count + 1) = none := by
  cases held : subscription (count + 1) with
  | none => rfl
  | some sub =>
    have bound := ((records.known _).mp ⟨sub, held⟩).2
    omega

theorem Records.replace
    (held : subscription id = some sub) (sameId : sub'.id = sub.id) (samePlan : sub'.planId = sub.planId) :
    Records plan planCount (put subscription id sub') count where
  known i := by
    rw [← records.known i]
    by_cases same : i = id
    · rw [same, put_self, held]
      exact ⟨fun _ => ⟨sub, rfl⟩, fun _ => ⟨sub', rfl⟩⟩
    · rw [put_of_ne _ _ same]
  selfId i found read := by
    rcases (put_eq_some ..).mp read with ⟨rfl, rfl⟩ | ⟨_, kept⟩
    · rw [sameId, records.selfId _ _ held]
    · exact records.selfId i found kept
  planned i found read := by
    rcases (put_eq_some ..).mp read with ⟨rfl, rfl⟩ | ⟨_, kept⟩
    · rw [samePlan]
      exact records.planned _ _ held
    · exact records.planned i found kept
  plansKnown := records.plansKnown

theorem Records.putPlan (bound : p ≤ planCount) : Records (put plan p terms) planCount subscription count where
  known := records.known
  selfId := records.selfId
  planned i sub stored := by
    by_cases same : sub.planId = p
    · exact ⟨terms, by rw [same, put_self]⟩
    · rw [put_of_ne _ _ same]
      exact records.planned i sub stored
  plansKnown q found read := by
    rcases (put_eq_some ..).mp read with ⟨rfl, _⟩ | ⟨_, kept⟩
    · exact bound
    · exact records.plansKnown q found kept

theorem Records.morePlans : Records plan (planCount + 1) subscription count where
  known := records.known
  selfId := records.selfId
  planned := records.planned
  plansKnown q found read := Nat.le_succ_of_le (records.plansKnown q found read)

theorem Records.add (numbered : sub.id = count + 1)
    (planStored : plan sub.planId = some terms) :
    Records plan planCount (put subscription (count + 1) sub) (count + 1) where
  known i := by
    by_cases same : i = count + 1
    · rw [same, put_self]
      exact ⟨fun _ => ⟨by omega, by omega⟩, fun _ => ⟨sub, rfl⟩⟩
    · rw [put_of_ne _ _ same, records.known i]
      omega
  selfId i found read := by
    rcases (put_eq_some ..).mp read with ⟨rfl, rfl⟩ | ⟨_, kept⟩
    · exact numbered
    · exact records.selfId i found kept
  planned i found read := by
    rcases (put_eq_some ..).mp read with ⟨_, rfl⟩ | ⟨_, kept⟩
    · exact ⟨terms, planStored⟩
    · exact records.planned i found kept
  plansKnown := records.plansKnown

end

section

variable (indexed : Indexed subscription index)

include indexed

theorem Indexed.replace (held : subscription id = some sub)
    (sameSubscriber : sub'.subscriber = sub.subscriber) (samePlan : sub'.planId = sub.planId) :
    Indexed (put subscription id sub') index := by
  intro a p i entry
  rcases indexed a p i entry with ⟨found, read, rfl, rfl⟩
  by_cases same : i = id
  · subst same
    obtain rfl : sub = found := Option.some.inj (held.symm.trans read)
    exact ⟨sub', put_self .., sameSubscriber, samePlan⟩
  · exact ⟨found, by rwa [put_of_ne _ _ same], rfl, rfl⟩

theorem Indexed.add (fresh : subscription id = none) : Indexed (put subscription id sub) index := by
  intro a p i entry
  rcases indexed a p i entry with ⟨found, read, owned⟩
  have other : i ≠ id := by
    intro same
    subst same
    rw [fresh] at read
    cases read
  exact ⟨found, by rwa [put_of_ne _ _ other], owned⟩

theorem Indexed.enter (held : subscription id = some sub) :
    Indexed subscription (put index (sub.subscriber, sub.planId) id) := by
  intro a p i entry
  rcases (put_eq_some ..).mp entry with ⟨same, rfl⟩ | ⟨_, kept⟩
  · rcases Prod.mk.inj same with ⟨rfl, rfl⟩
    exact ⟨sub, held, rfl, rfl⟩
  · exact indexed a p i kept

theorem Indexed.move (held : subscription id = some sub)
    (recipient : Address) :
    Indexed (put subscription id { sub with subscriber := recipient })
      (put (remove index (sub.subscriber, sub.planId)) (recipient, sub.planId) id) := by
  intro a p i entry
  rcases (put_eq_some ..).mp entry with ⟨same, rfl⟩ | ⟨_, kept⟩
  · rcases Prod.mk.inj same with ⟨rfl, rfl⟩
    exact ⟨_, put_self .., rfl, rfl⟩
  · rcases (remove_eq_some ..).mp kept with ⟨otherKey, kept⟩
    rcases indexed a p i kept with ⟨found, read, rfl, rfl⟩
    have other : i ≠ id := by
      intro same
      subst same
      obtain rfl : sub = found := Option.some.inj (held.symm.trans read)
      exact otherKey rfl
    exact ⟨found, by rwa [put_of_ne _ _ other], rfl, rfl⟩

theorem Indexed.leave (key : Address × Nat) : Indexed subscription (remove index key) :=
  fun a p i entry => indexed a p i ((remove_eq_some ..).mp entry).2

end

theorem owner_put (subscription : Store Nat Subscription) (id j : Nat) (sub : Subscription) :
    owner (put subscription id sub) j = if j = id then some sub.subscriber else owner subscription j := by
  unfold owner
  rw [put_apply]
  split <;> rfl

theorem owner_replace (held : subscription id = some sub) (sameSubscriber : sub'.subscriber = sub.subscriber) :
    owner (put subscription id sub') = owner subscription := by
  funext j
  rw [owner_put]
  split
  · next same => rw [same, owner, held, map_some, sameSubscriber]
  · rfl

theorem Listed.replace (mem : Listed subscription lists) (held : subscription id = some sub)
    (sameSubscriber : sub'.subscriber = sub.subscriber) : Listed (put subscription id sub') lists := by
  unfold Listed
  rw [owner_replace held sameSubscriber]
  exact mem

theorem Listed.add (mem : Listed subscription lists) (fresh : subscription id = none) : Listed (put subscription id sub)
      (put lists sub.subscriber ((lists sub.subscriber).getD [] ++ [id])) := by
  have unowned : owner subscription id = none := by rw [owner, fresh, map_none]
  intro u j
  have before := mem u j
  by_cases mine : u = sub.subscriber
  · subst mine
    rw [owner_put, put_self, getD_some, List.count_append, before]
    by_cases same : j = id
    · subst same
      simp [unowned]
    · simp [same, Ne.symm same]
  · rw [owner_put, put_of_ne _ _ mine, before]
    by_cases same : j = id
    · subst same
      simp [unowned, Ne.symm mine]
    · simp [same]

theorem Listed.without (listed : Listed subscription lists) {a : Address}
    (owned : owner subscription id = some a) (u : Address) (j : Nat) :
    ((put lists a (((lists a).getD []).filter (· ≠ id)) u).getD []).count j =
      if j ≠ id ∧ owner subscription j = some u then 1 else 0 := by
  have before := listed u j
  by_cases same : j = id
  · subst same
    rw [if_neg (by simp)]
    by_cases mine : u = a
    · rw [mine, put_self, getD_some, List.count_eq_zero]
      simp
    · rw [put_of_ne _ _ mine, before, owned, if_neg]
      exact fun claimed => mine (Option.some.inj claimed).symm
  · have kept : ((put lists a (((lists a).getD []).filter (· ≠ id)) u).getD []).count j =
        ((lists u).getD []).count j := by
      by_cases mine : u = a
      · rw [mine, put_self, getD_some, List.count_filter (by simpa using same)]
      · rw [put_of_ne _ _ mine]
    rw [kept, before]
    simp only [ne_eq, same, not_false_eq_true, true_and]

theorem Listed.move (mem : Listed subscription lists) (held : subscription id = some sub)
    (recipient : Address) :
    Listed (put subscription id { sub with subscriber := recipient })
      (moveId lists sub.subscriber recipient id) := by
  have owned : owner subscription id = some sub.subscriber := by rw [owner, held, map_some]
  intro u j
  have without := mem.without owned u j
  rw [owner_put]
  unfold moveId
  by_cases mine : u = recipient
  · subst mine
    rw [put_self, getD_some, List.count_append, without]
    by_cases same : j = id
    · simp [same]
    · simp [same, Ne.symm same]
  · rw [put_of_ne _ _ mine, without]
    by_cases same : j = id
    · simp [same, Ne.symm mine]
    · simp [same]

section

variable (counted : Counted plan subscription count)

include counted

theorem Counted.replace
    (records : Records plan planCount subscription count) (held : subscription id = some sub)
    (sameLive : ∀ p, liveOn p sub' = liveOn p sub) : Counted plan (put subscription id sub') count := by
  intro p terms read
  have moved := tally_put (liveOn p) sub' (records.mem_Icc held) held
  rw [sameLive p] at moved
  rw [counted p terms read]
  omega

theorem Counted.putPlan (stored : plan p = some terms)
    {terms' : Plan} (sameCount : terms'.subscriberCount = terms.subscriberCount) :
    Counted (put plan p terms') subscription count := by
  intro q found read
  rcases (put_eq_some ..).mp read with ⟨rfl, rfl⟩ | ⟨_, kept⟩
  · rw [sameCount, counted _ terms stored]
  · exact counted q found kept

theorem Counted.addPlan
    (records : Records plan planCount subscription count) (empty : terms.subscriberCount = 0) :
    Counted (put plan (planCount + 1) terms) subscription count := by
  intro q found read
  rcases (put_eq_some ..).mp read with ⟨rfl, rfl⟩ | ⟨_, kept⟩
  · rw [empty]
    refine (tally_eq_zero fun i sub held => ?_).symm
    rcases records.planned i sub held with ⟨terms, planStored⟩
    have bound := records.plansKnown _ terms planStored
    exact liveOn_other (by omega)
  · exact counted q found kept

theorem Counted.add (planStored : plan sub.planId = some terms)
    (live : sub.status ≠ .cancelled) :
    Counted (put plan sub.planId { terms with subscriberCount := terms.subscriberCount + 1 })
      (put subscription (count + 1) sub) (count + 1) := by
  intro q found read
  rw [tally_put_succ]
  rcases (put_eq_some ..).mp read with ⟨rfl, rfl⟩ | ⟨other, kept⟩
  · rw [liveOn_self live, ← counted _ terms planStored]
    rfl
  · rw [liveOn_other other, ← counted q found kept]
    rfl

theorem Counted.cancel
    (records : Records plan planCount subscription count) (held : subscription id = some sub)
    (live : sub.status ≠ .cancelled) (planStored : plan sub.planId = some terms) :
    Counted (put plan sub.planId { terms with subscriberCount := terms.subscriberCount - 1 })
      (put subscription id { sub with status := .cancelled }) count := by
  intro q found read
  have moved := tally_put (liveOn q) { sub with status := .cancelled } (records.mem_Icc held) held
  have gone : liveOn q { sub with status := .cancelled } = false := liveOn_cancelled q rfl
  rw [gone, Bool.toNat_false] at moved
  rcases (put_eq_some ..).mp read with ⟨rfl, rfl⟩ | ⟨other, kept⟩
  · rw [liveOn_self live, Bool.toNat_true, ← counted _ terms planStored] at moved
    exact (Nat.eq_sub_of_add_eq moved).symm
  · rw [liveOn_other other, Bool.toNat_false, ← counted q found kept] at moved
    exact moved.symm

end

end Parts

structure Registry.WellFormed (r : Registry) : Prop where
  records : Records r.plan (r.planCount.getD 0) r.subscription (r.subscriptionCount.getD 0)
  indexed : Indexed r.subscription r.userPlanIndex
  listed : Listed r.subscription r.userSubscriptions
  counted : Counted r.plan r.subscription (r.subscriptionCount.getD 0)

theorem initial_wellFormed (admin : Address) : (State.initial admin).toRegistry.WellFormed where
  records := {
    known := fun i => by
      constructor
      · intro holds
        rcases holds with ⟨_, held⟩
        cases held
      · intro holds
        rcases holds with ⟨low, high⟩
        have none : i ≤ 0 := high
        omega
    selfId := fun _ _ held => nomatch held
    planned := fun _ _ held => nomatch held
    plansKnown := fun _ _ held => nomatch held }
  indexed := fun _ _ _ entry => nomatch entry
  listed := fun _ _ => rfl
  counted := fun _ _ held => nomatch held

theorem Registry.WellFormed.replace {r : Registry} (wf : r.WellFormed) {id : Nat} {sub sub' : Subscription}
    (held : r.subscription id = some sub) (same : SameHolder sub sub') :
    ({ r with subscription := put r.subscription id sub' } : Registry).WellFormed where
  records := wf.records.replace held same.id same.planId
  indexed := wf.indexed.replace held same.subscriber same.planId
  listed := wf.listed.replace held same.subscriber
  counted := wf.counted.replace wf.records held same.liveOn

theorem Rebuilt.indexed {r : Registry} (wf : r.WellFormed) {index : Store (Address × Nat) Nat}
    (rebuilt : Rebuilt r index) : Indexed r.subscription index := by
  intro a p i entry
  rcases rebuilt (a, p) with kept | ⟨j, sub, held, _, same, found⟩
  · exact wf.indexed a p i (kept ▸ entry)
  · rcases Prod.mk.inj same with ⟨rfl, rfl⟩
    obtain rfl : sub.id = i := Option.some.inj (found.symm.trans entry)
    exact ⟨sub, by rwa [wf.records.selfId j sub held], rfl, rfl⟩

variable {env : Env} {s : State} {call : Call} {books : Books}

theorem Effect.wellFormed
    (effect : Effect env s call books) (wf : s.toRegistry.WellFormed) : books.toRegistry.WellFormed := by
  rcases id wf with ⟨records, indexed, mem, counted⟩
  cases effect with
  | administer => exact wf
  | commit => exact wf
  | requestTransfer => exact ⟨records, indexed, mem, counted⟩
  | migrate rebuilt => exact ⟨records, rebuilt.indexed wf, mem, counted⟩
  | createPlan => exact ⟨records.morePlans.putPlan le_rfl, indexed, mem, counted.addPlan records rfl⟩
  | deactivatePlan held =>
    exact ⟨records.putPlan (records.plansKnown _ _ held), indexed, mem, counted.putPlan held rfl⟩
  | @subscribe subscriber planId plan held =>
    let sub := newSubscription env.timestamp (s.subscriptionCount.getD 0 + 1) planId subscriber plan.interval
    have added : Records s.plan _ (put s.subscription _ sub) _ := records.add rfl held
    have entered : Indexed (put s.subscription _ sub) (put s.userPlanIndex (sub.subscriber, sub.planId) _) :=
      (indexed.add records.fresh).enter (put_self ..)
    have enlisted : Listed (put s.subscription _ sub) _ := mem.add records.fresh
    have tallied : Counted _ (put s.subscription _ sub) _ := counted.add held nofun
    exact ⟨added.putPlan (records.plansKnown _ _ held), entered, enlisted, tallied⟩
  | @cancel id sub plan held live planStored =>
    have replaced : Records s.plan _ (put s.subscription id { sub with status := .cancelled }) _ :=
      records.replace held rfl rfl
    have kept : Indexed (put s.subscription id { sub with status := .cancelled }) s.userPlanIndex :=
      indexed.replace held rfl rfl
    exact ⟨replaced.putPlan (records.plansKnown _ _ planStored), kept.leave _,
      mem.replace held rfl, counted.cancel records held live planStored⟩
  | amend held amendment => exact wf.replace held amendment.sameHolder
  | charge _ held _ billable => exact wf.replace held (billable.sameHolder _)
  | @acceptTransfer id sub recipient held =>
    obtain rfl : sub.id = id := records.selfId id sub held
    have sameLive : ∀ p, liveOn p { sub with subscriber := recipient } = liveOn p sub := fun _ => rfl
    exact ⟨records.replace held rfl rfl, indexed.move held recipient, mem.move held recipient,
      counted.replace records held sameLive⟩

theorem wellFormed {guard : World → Tx → Prop} {w : World} (reached : Reachable guard w) :
    w.state.toRegistry.WellFormed := by
  refine reached.state_invariant (I := fun s => s.toRegistry.WellFormed) ?_ ?_
  · intro s initial
    rcases (initialised_iff s).mp initial with ⟨admin, rfl⟩
    exact initial_wellFormed admin
  · intro w tx s _ _ run wf
    rcases tx with ⟨env, call⟩
    exact (exec_effect run).wellFormed wf

def handedOver : World :=
  trial [(0, .createPlan ⟨1⟩ "basic" 500 ⟨7⟩ .daily), (0, .subscribe ⟨2⟩ 1), (10, .requestTransfer 1 ⟨3⟩),
    (20, .acceptTransfer 1 ⟨3⟩)]

structure SameTerms (plan plan' : Plan) : Prop where
  merchant : plan'.merchant = plan.merchant
  price : plan'.price = plan.price
  token : plan'.token = plan.token
  interval : plan'.interval = plan.interval

theorem SameTerms.refl (plan : Plan) : SameTerms plan plan := ⟨rfl, rfl, rfl, rfl⟩

theorem SameTerms.trans {plan plan' plan'' : Plan} (first : SameTerms plan plan')
    (second : SameTerms plan' plan'') : SameTerms plan plan'' :=
  ⟨second.merchant.trans first.merchant, second.price.trans first.price, second.token.trans first.token,
    second.interval.trans first.interval⟩

theorem put_sameTerms {plans : Store Nat Plan} {p q : Nat} {plan terms terms' : Plan}
    (held : plans q = some terms) (same : SameTerms terms terms') (read : plans p = some plan) :
    ∃ plan', put plans q terms' p = some plan' ∧ SameTerms plan plan' := by
  by_cases here : p = q
  · subst here
    obtain rfl : terms = plan := Option.some.inj (held.symm.trans read)
    exact ⟨terms', put_self .., same⟩
  · exact ⟨plan, by rwa [put_of_ne _ _ here], .refl plan⟩

theorem Effect.terms (effect : Effect env s call books)
    (wf : s.toRegistry.WellFormed) {p : Nat} {plan : Plan} (held : s.plan p = some plan) :
    ∃ plan', books.plan p = some plan' ∧ SameTerms plan plan' := by
  cases effect with
  | createPlan =>
    have bound := wf.records.plansKnown p plan held
    have other : p ≠ s.planCount.getD 0 + 1 := by omega
    exact ⟨plan, (put_of_ne _ _ other).trans held, .refl plan⟩
  | deactivatePlan found => exact put_sameTerms found ⟨rfl, rfl, rfl, rfl⟩ held
  | subscribe found => exact put_sameTerms found ⟨rfl, rfl, rfl, rfl⟩ held
  | cancel _ _ found => exact put_sameTerms found ⟨rfl, rfl, rfl, rfl⟩ held
  | _ => exact ⟨plan, held, .refl plan⟩

def Call.record : Call → Option Nat
  | .revealCharge id _ _ _ _ | .chargeSubscription id => some id
  | .cancelSubscription _ id | .pauseSubscription _ id | .pauseBySubscriber _ id _
  | .resumeSubscription _ id => some id
  | .requestRefund id _ | .approveRefund id | .rejectRefund id => some id
  | .acceptTransfer id _ => some id
  | _ => none

theorem Call.Charges.record {id : Nat} {max : Int} (path : call.Charges id max) : call.record = some id := by
  cases path <;> rfl

theorem Call.Charges.unique {id id' : Nat} {max max' : Int} (first : call.Charges id max)
    (second : call.Charges id' max') : id = id' :=
  Option.some.inj (first.record.symm.trans second.record)

theorem Amendment.record {now : Nat} {plan : Store Nat Plan} {id : Nat} {sub sub' : Subscription}
    (amendment : Amendment now plan call id sub sub') : call.record = some id := by
  cases amendment <;> rfl

theorem Amendment.uncharged {now : Nat} {plan : Store Nat Plan} {id : Nat}
    {sub sub' : Subscription} (amendment : Amendment now plan call id sub sub') (j : Nat) (max : Int) :
    ¬ call.Charges j max := by
  cases amendment <;> exact nofun

theorem Call.Administrative.record (administrative : call.Administrative) : call.record = none := by
  cases call <;> first | rfl | exact False.elim administrative

inductive Change (env : Env) (s : State) (id : Nat) : Call → Subscription → Subscription → Prop where
  | kept {call sub} (other : call.record ≠ some id) : Change env s id call sub sub
  | cancelled {sub} (live : sub.status ≠ .cancelled) :
      Change env s id (.cancelSubscription sub.subscriber id) sub { sub with status := .cancelled }
  | amended {call sub sub'} (amendment : Amendment env.timestamp s.plan call id sub sub') :
      Change env s id call sub sub'
  | charged {call maxChargeAmount sub due plan} (path : call.Charges id maxChargeAmount)
      (planStored : s.plan sub.planId = some plan) (billable : Billable env.timestamp sub due)
      (isDue : sub.nextChargeAt ≤ env.timestamp) :
      Change env s id call sub (charged env.timestamp plan due)
  | moved {sub recipient} (pending : s.pendingTransfer id = some recipient) :
      Change env s id (.acceptTransfer id recipient) sub { sub with subscriber := recipient }

theorem put_change {id j : Nat} {sub found found' : Subscription}
    (held : s.subscription id = some sub) (read : s.subscription j = some found)
    (rewritten : call.record = some j) (change : Change env s j call found found') :
    ∃ sub', put s.subscription j found' id = some sub' ∧ Change env s id call sub sub' := by
  by_cases here : j = id
  · subst here
    obtain rfl : found = sub := Option.some.inj (read.symm.trans held)
    exact ⟨found', put_self .., change⟩
  · refine ⟨sub, by rwa [put_of_ne _ _ (Ne.symm here)], .kept ?_⟩
    rw [rewritten]
    exact fun same => here (Option.some.inj same)

theorem Effect.change (effect : Effect env s call books)
    (wf : s.toRegistry.WellFormed) {id : Nat} {sub : Subscription} (held : s.subscription id = some sub) :
    ∃ sub', books.subscription id = some sub' ∧ Change env s id call sub sub' := by
  cases effect with
  | administer administrative =>
    exact ⟨sub, held, .kept (by rw [administrative.record]; exact nofun)⟩
  | subscribe =>
    have bound := ((wf.records.known id).mp ⟨sub, held⟩).2
    have other : id ≠ s.subscriptionCount.getD 0 + 1 := by omega
    exact ⟨sub, (put_of_ne _ _ other).trans held, .kept nofun⟩
  | cancel read live => exact put_change held read rfl (.cancelled live)
  | amend read amendment => exact put_change held read amendment.record (.amended amendment)
  | charge path read planStored billable isDue =>
    exact put_change held read path.record (.charged path planStored billable isDue)
  | acceptTransfer read pending => exact put_change held read rfl (.moved pending)
  | _ => exact ⟨sub, held, .kept nofun⟩

theorem Change.planId {id : Nat} {sub sub' : Subscription}
    (change : Change env s id call sub sub') : sub'.planId = sub.planId := by
  cases change with
  | amended amendment => exact amendment.sameHolder.planId
  | charged _ _ billable => exact (billable.sameHolder _).planId
  | _ => rfl

section

variable (effect : Effect env s call books)

include effect

theorem Effect.recordAfter
    (wf : s.toRegistry.WellFormed) {id : Nat} {sub : Subscription} {plan : Plan}
    (held : s.subscription id = some sub) (planStored : s.plan sub.planId = some plan) :
    ∃ sub' plan', books.subscription id = some sub' ∧ books.plan sub'.planId = some plan' ∧
      Change env s id call sub sub' ∧ SameTerms plan plan' := by
  rcases effect.change wf held with ⟨sub', held', change⟩
  rcases effect.terms wf planStored with ⟨plan', planStored', same⟩
  refine ⟨sub', plan', held', ?_, change, same⟩
  rw [change.planId]
  exact planStored'

theorem Effect.recordBefore
    (wf : s.toRegistry.WellFormed) {id : Nat} {sub sub' : Subscription} {plan' : Plan}
    (held : s.subscription id = some sub) (held' : books.subscription id = some sub')
    (planStored' : books.plan sub'.planId = some plan') :
    ∃ plan, s.plan sub.planId = some plan ∧ Change env s id call sub sub' ∧ SameTerms plan plan' := by
  rcases wf.records.planned id sub held with ⟨plan, planStored⟩
  rcases effect.recordAfter wf held planStored with ⟨found, terms, read, termsRead, change, same⟩
  have sameRecord : found = sub' := Option.some.inj (read.symm.trans held')
  subst sameRecord
  have samePlan : terms = plan' := Option.some.inj (termsRead.symm.trans planStored')
  subst samePlan
  exact ⟨plan, planStored, change, same⟩

theorem Effect.absent
    (wf : s.toRegistry.WellFormed) {id : Nat} (absent : books.subscription id = none) :
    s.subscription id = none := by
  cases held : s.subscription id with
  | none => rfl
  | some sub =>
    rcases effect.change wf held with ⟨sub', held', _⟩
    exact nomatch absent.symm.trans held'

theorem Effect.created {id : Nat} {sub : Subscription} (absent : s.subscription id = none)
    (held : books.subscription id = some sub) :
    ∃ subscriber planId plan, call = .subscribe subscriber planId ∧ s.plan planId = some plan ∧
      plan.merchant ≠ subscriber ∧ sub = newSubscription env.timestamp id planId subscriber plan.interval := by
  have not_put {j : Nat} {found found' : Subscription} (read : s.subscription j = some found)
      (written : put s.subscription j found' id = some sub) : False := by
    rcases (put_eq_some ..).mp written with ⟨rfl, _⟩ | ⟨_, kept⟩
    · rw [absent] at read
      cases read
    · rw [absent] at kept
      cases kept
  cases effect with
  | @subscribe subscriber planId plan planStored outsider =>
    rcases (put_eq_some ..).mp held with ⟨rfl, rfl⟩ | ⟨_, kept⟩
    · exact ⟨subscriber, planId, plan, rfl, planStored, outsider, rfl⟩
    · rw [absent] at kept
      cases kept
  | cancel read => exact (not_put read held).elim
  | amend read => exact (not_put read held).elim
  | charge _ read => exact (not_put read held).elim
  | acceptTransfer read => exact (not_put read held).elim
  | _ => exact nomatch absent.symm.trans held

theorem Effect.billed
    {id : Nat} {max : Int} (path : call.Charges id max) :
    ∃ sub due plan, s.subscription id = some sub ∧ s.plan sub.planId = some plan ∧
      Billable env.timestamp sub due ∧ sub.nextChargeAt ≤ env.timestamp ∧
      books.transfers = s.transfers ++ [movedByCharge id plan sub] := by
  cases effect with
  | charge path' held planStored billable isDue =>
    obtain rfl := path'.unique path
    exact ⟨_, _, _, held, planStored, billable, isDue, rfl⟩
  | administer administrative => exact nomatch administrative.record.symm.trans path.record
  | amend _ amendment => exact absurd path (amendment.uncharged id max)
  | _ => cases path

theorem Effect.uncharged
    (uncharged : ∀ id max, ¬ call.Charges id max) : books.transfers = s.transfers := by
  cases effect with
  | charge path => exact absurd path (uncharged _ _)
  | _ => rfl

end

end SubTrackr.Subscriptions
