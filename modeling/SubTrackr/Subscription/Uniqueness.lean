import SubTrackr.Subscription.Registry

namespace SubTrackr.Subscriptions

open Lib Soroban

def Held (subscription : Store Nat Subscription) (a : Address) (p i : Nat) : Prop :=
  ∃ sub, subscription i = some sub ∧ sub.subscriber = a ∧ sub.planId = p ∧ sub.status ≠ .cancelled

def Sound (subscription : Store Nat Subscription) (index : Store (Address × Nat) Nat) (i : Nat) : Prop :=
  ∀ a p, index (a, p) = some i → Held subscription a p i

def Exact (subscription : Store Nat Subscription) (index : Store (Address × Nat) Nat) : Prop :=
  ∀ a p i, index (a, p) = some i ↔ Held subscription a p i

section Updates

variable {subscription : Store Nat Subscription} {index : Store (Address × Nat) Nat} {id i : Nat}
  {sub sub' : Subscription}

theorem held_self (held : subscription id = some sub) (live : sub.status ≠ .cancelled) :
    Held subscription sub.subscriber sub.planId id :=
  ⟨sub, held, rfl, rfl, live⟩

theorem Held.key {a : Address} {p : Nat} (held : Held subscription a p id) (stored : subscription id = some sub) :
    (a, p) = (sub.subscriber, sub.planId) := by
  rcases held with ⟨found, read, rfl, rfl, _⟩
  obtain rfl : sub = found := Option.some.inj (stored.symm.trans read)
  rfl

theorem held_put (a : Address) (p i : Nat) : Held (put subscription id sub') a p i ↔
      (i = id ∧ sub'.subscriber = a ∧ sub'.planId = p ∧ sub'.status ≠ .cancelled) ∨
      (i ≠ id ∧ Held subscription a p i) := by
  unfold Held
  by_cases same : i = id
  · simp [same]
  · simp [same, put_of_ne _ _ same]

theorem held_of_ne {a : Address} {p : Nat} (other : i ≠ id) :
    Held (put subscription id sub') a p i ↔ Held subscription a p i := by
  rw [held_put]
  exact ⟨fun held => held.elim (fun same => absurd same.1 other) (·.2), fun held => .inr ⟨other, held⟩⟩

theorem held_replace (held : subscription id = some sub) (same : SameHolder sub sub') (a : Address)
    (p i : Nat) : Held (put subscription id sub') a p i ↔ Held subscription a p i := by
  by_cases here : i = id
  · subst here
    simp [Held, held, same.subscriber, same.planId, same.cancelled]
  · exact held_of_ne here

section

variable (sound : Sound subscription index i)

include sound

theorem Sound.replace (held : subscription id = some sub)
    (same : SameHolder sub sub') : Sound (put subscription id sub') index i :=
  fun a p entry => (held_replace held same a p i).mpr (sound a p entry)

theorem Sound.subscribe (fresh : subscription id = none)
    (live : sub.status ≠ .cancelled) :
    Sound (put subscription id sub) (put index (sub.subscriber, sub.planId) id) i := by
  intro a p entry
  rcases (put_eq_some ..).mp entry with ⟨same, rfl⟩ | ⟨_, kept⟩
  · rcases Prod.mk.inj same with ⟨rfl, rfl⟩
    exact held_self (put_self ..) live
  · have held := sound a p kept
    refine (held_of_ne ?_).mpr held
    intro same
    subst same
    rcases held with ⟨found, read, _⟩
    rw [fresh] at read
    cases read

theorem Sound.cancel (stored : subscription id = some sub) :
    Sound (put subscription id sub') (remove index (sub.subscriber, sub.planId)) i := by
  intro a p entry
  rcases (remove_eq_some ..).mp entry with ⟨otherKey, kept⟩
  have held := sound a p kept
  refine (held_of_ne ?_).mpr held
  intro same
  subst same
  exact otherKey (held.key stored)

theorem Sound.move (stored : subscription id = some sub)
    (live : i = id → sub.status ≠ .cancelled) (recipient : Address) :
    Sound (put subscription id { sub with subscriber := recipient })
      (put (remove index (sub.subscriber, sub.planId)) (recipient, sub.planId) id) i := by
  intro a p entry
  rcases (put_eq_some ..).mp entry with ⟨same, rfl⟩ | ⟨_, kept⟩
  · rcases Prod.mk.inj same with ⟨rfl, rfl⟩
    exact held_self (put_self ..) (live rfl)
  · rcases (remove_eq_some ..).mp kept with ⟨otherKey, kept⟩
    have held := sound a p kept
    refine (held_of_ne ?_).mpr held
    intro same
    subst same
    exact otherKey (held.key stored)

end

theorem Exact.unique (indexed : Exact subscription index) {a : Address} {p i j : Nat}
    (first : Held subscription a p i) (second : Held subscription a p j) : i = j :=
  Option.some.inj (((indexed a p i).mpr first).symm.trans ((indexed a p j).mpr second))

end Updates

theorem Rebuilt.sound {r : Registry} {index : Store (Address × Nat) Nat} {i : Nat} (rebuilt : Rebuilt r index)
    (wf : r.WellFormed) (sound : Sound r.subscription r.userPlanIndex i) : Sound r.subscription index i := by
  intro a p entry
  rcases rebuilt (a, p) with kept | ⟨j, sub, held, live, same, found⟩
  · exact sound a p (kept ▸ entry)
  · rcases Prod.mk.inj same with ⟨rfl, rfl⟩
    obtain rfl : sub.id = j := wf.records.selfId j sub held
    obtain rfl : sub.id = i := Option.some.inj (found.symm.trans entry)
    exact held_self held live

theorem Effect.sound {env : Env} {s : State} {call : Call} {books : Books} {i : Nat}
    (effect : Effect env s call books) (wf : s.toRegistry.WellFormed)
    (sound : Sound s.subscription s.userPlanIndex i)
    (live : ∀ recipient sub, call = .acceptTransfer i recipient → s.subscription i = some sub →
      s.pendingTransfer i = some recipient → sub.status ≠ .cancelled) :
    Sound books.subscription books.userPlanIndex i := by
  cases effect with
  | administer | commit | requestTransfer | createPlan | deactivatePlan => exact sound
  | migrate rebuilt => exact rebuilt.sound wf sound
  | subscribe => exact sound.subscribe wf.records.fresh nofun
  | cancel held => exact sound.cancel held
  | amend held amendment => exact sound.replace held amendment.sameHolder
  | charge _ held _ billable => exact sound.replace held (billable.sameHolder _)
  | @acceptTransfer id sub recipient held pending =>
    have accepted : i = id → sub.status ≠ .cancelled := by
      intro same
      subst same
      exact live recipient sub rfl held pending
    obtain rfl : sub.id = id := wf.records.selfId id sub held
    exact sound.move held accepted recipient

theorem Rebuilt.same {r : Registry} {index : Store (Address × Nat) Nat} (rebuilt : Rebuilt r index)
    (selfId : ∀ i sub, r.subscription i = some sub → sub.id = i) (indexed : Exact r.subscription r.userPlanIndex) :
    index = r.userPlanIndex := by
  funext key
  rcases rebuilt key with kept | ⟨i, sub, held, live, rfl, entry⟩
  · exact kept
  · rw [entry, (indexed ..).mpr (held_self held live), selfId i sub held]

/-- An acceptance takes over a subscription that is not cancelled, to a plan that the recipient holds no other
    subscription to. -/
def takesOverAfresh (w : World) (tx : Tx) : Prop :=
  ∀ id recipient sub, tx.call = .acceptTransfer id recipient → w.state.subscription id = some sub →
    w.state.pendingTransfer id = some recipient →
    sub.status ≠ .cancelled ∧ ∀ j, j ≠ id → ¬ Held w.state.subscription recipient sub.planId j

/-- Whoever holds a subscription finds it in the index: a call that fills a key finds no other holding there, and
    a call that empties one takes the holding away. -/
theorem Effect.complete {env : Env} {w : World} {call : Call} {books : Books} {a : Address} {p i : Nat}
    (effect : Effect env w.state call books) (wf : w.state.toRegistry.WellFormed)
    (indexed : Exact w.state.subscription w.state.userPlanIndex) (afresh : takesOverAfresh w ⟨env, call⟩)
    (held : Held books.subscription a p i) : books.userPlanIndex (a, p) = some i := by
  have found : Held w.state.subscription a p i → w.state.userPlanIndex (a, p) = some i := (indexed a p i).mpr
  cases effect with
  | administer | commit | requestTransfer | createPlan | deactivatePlan => exact found held
  | migrate rebuilt =>
    have same := rebuilt.same wf.records.selfId indexed
    subst same
    exact found held
  | amend stored amendment => exact found ((held_replace stored amendment.sameHolder a p i).mp held)
  | charge _ stored _ billable => exact found ((held_replace stored (billable.sameHolder _) a p i).mp held)
  | @subscribe subscriber planId _ _ _ fresh =>
    rcases (held_put a p i).mp held with ⟨rfl, rfl, rfl, _⟩ | ⟨_, earlier⟩
    · exact put_self ..
    · have otherKey : (a, p) ≠ (subscriber, planId) := by
        intro same
        cases same
        rcases fresh i (found earlier) with ⟨sub, read, cancelled⟩
        rcases earlier with ⟨sub', stored, _, _, live⟩
        obtain rfl : sub' = sub := Option.some.inj (stored.symm.trans read)
        exact live cancelled
      exact (put_of_ne _ _ otherKey).trans (found earlier)
  | @cancel id sub _ stored live =>
    rcases (held_put a p i).mp held with ⟨_, _, _, stillLive⟩ | ⟨other, earlier⟩
    · exact absurd rfl stillLive
    · have otherKey : (a, p) ≠ (sub.subscriber, sub.planId) := by
        intro same
        cases same
        exact other (indexed.unique earlier (held_self stored live))
      exact (remove_of_ne _ otherKey).trans (found earlier)
  | @acceptTransfer id sub recipient stored pending =>
    rcases afresh id recipient sub rfl stored pending with ⟨live, unheld⟩
    obtain rfl : sub.id = id := wf.records.selfId id sub stored
    rcases (held_put a p i).mp held with ⟨rfl, rfl, rfl, _⟩ | ⟨other, earlier⟩
    · exact put_self ..
    · have oldKey : (a, p) ≠ (sub.subscriber, sub.planId) := by
        intro same
        cases same
        exact other (indexed.unique earlier (held_self stored live))
      have newKey : (a, p) ≠ (recipient, sub.planId) := by
        intro same
        cases same
        exact unheld i other earlier
      exact (put_of_ne _ _ newKey).trans ((remove_of_ne _ oldKey).trans (found earlier))

/-- At most one subscription that is not cancelled for each user and plan, and the index holds exactly it. -/
def OnePerPlan (r : Registry) : Prop :=
  (∀ a p i j, Held r.subscription a p i → Held r.subscription a p j → i = j) ∧
  ∀ a p i, r.userPlanIndex (a, p) = some i ↔ Held r.subscription a p i

theorem onePerPlan {w : World} (reached : Reachable takesOverAfresh w) : OnePerPlan w.state.toRegistry := by
  have indexed : Exact w.state.subscription w.state.userPlanIndex := by
    refine reached.state_invariant (I := fun s => Exact s.subscription s.userPlanIndex) ?_ ?_
    · intro s initial a p i
      rcases (initialised_iff s).mp initial with ⟨admin, rfl⟩
      constructor
      · intro entry
        cases entry
      · intro holds
        rcases holds with ⟨_, stored, _⟩
        cases stored
    · intro w tx s earlier afresh run indexed
      rcases tx with ⟨env, call⟩
      have effect := exec_effect run
      intro a p i
      constructor
      · refine effect.sound (wellFormed earlier) (fun a p => (indexed a p i).mp) ?_ a p
        exact fun recipient sub accepts stored pending => (afresh i recipient sub accepts stored pending).1
      · exact effect.complete (wellFormed earlier) indexed afresh
  exact ⟨fun a p i j => indexed.unique, indexed⟩

def offeredTo (recipient : Address) : World :=
  trial [(0, .createPlan ⟨1⟩ "basic" 500 ⟨7⟩ .daily), (0, .subscribe ⟨2⟩ 1), (10, .requestTransfer 1 recipient)]

theorem offeredTo_reachable {guard : World → Tx → Prop} (recipient : Address)
    (met : ∀ w tx, (∀ id taker, tx.call ≠ .acceptTransfer id taker) → guard w tx) :
    Reachable guard (offeredTo recipient) := by
  refine trial_reachable fun now call mem w => met w _ fun id taker accepts => ?_
  simp only at accepts
  subst accepts
  simp at mem

theorem onePerPlan_accepted :
    OnePerPlan (submit (offeredTo ⟨3⟩) ⟨.willing 20, .acceptTransfer 1 ⟨3⟩⟩).state.toRegistry := by
  have reached : Reachable takesOverAfresh (offeredTo ⟨3⟩) :=
    offeredTo_reachable ⟨3⟩ fun _ _ other id recipient _ accepts => absurd accepts (other id recipient)
  refine onePerPlan (reached.submit ?_)
  intro id recipient sub accepts stored pending
  cases accepts
  cases stored
  refine ⟨nofun, fun j other held => ?_⟩
  rcases held with ⟨found, read, _⟩
  rcases ((wellFormed reached).records.known j).mp ⟨found, read⟩ with ⟨low, high⟩
  have bound : j ≤ 1 := high
  omega

theorem onePerPlan_fails_after_transfer : ¬ ∀ w, Reachable Ledger.anyTx w → OnePerPlan w.state.toRegistry := by
  intro holds
  obtain ⟨unique, _⟩ := holds (trial [(0, .createPlan ⟨1⟩ "basic" 500 ⟨7⟩ .daily), (0, .subscribe ⟨2⟩ 1),
    (0, .subscribe ⟨3⟩ 1), (10, .requestTransfer 1 ⟨3⟩), (20, .acceptTransfer 1 ⟨3⟩)])
    (trial_reachable fun _ _ _ _ => trivial)
  have same : 1 = 2 := unique ⟨3⟩ 1 1 2 ⟨_, rfl, rfl, rfl, nofun⟩ ⟨_, rfl, rfl, rfl, nofun⟩
  omega

/-- Storage of version 1: records stand under their own ids, which `subscribe` hands out from 1 to the count, and
    there is no index. Nothing but the last field keeps version 1 from subscribing a user twice to a plan. -/
structure VersionOne (s : State) : Prop where
  numbered : ∀ i sub, s.subscription i = some sub → 1 ≤ i ∧ i ≤ s.subscriptionCount.getD 0
  selfId : ∀ i sub, s.subscription i = some sub → sub.id = i
  unindexed : ∀ key, s.userPlanIndex key = none
  unique : ∀ a p i j, Held s.subscription a p i → Held s.subscription a p j → i = j

/-- What `migrate` must leave: the version 2 index, and every other entry as it was. -/
structure Migrated (s s' : State) : Prop where
  indexed : Exact s'.subscription s'.userPlanIndex
  others : s' = { s with userPlanIndex := s'.userPlanIndex }
  again : ∀ env : Env, env.authorized env.proxy = true → migrate env s' 1 = .ok s'

section Loop

variable {s : State} {a : Address} {p i j : Nat}

theorem migrateSubscription_held (selfId : ∀ i sub, s.subscription i = some sub → sub.id = i)
    (held : Held s.subscription a p i) : (migrateSubscription s i).userPlanIndex (a, p) = some i := by
  rcases held with ⟨sub, stored, rfl, rfl, live⟩
  simp only [migrateSubscription, stored, if_pos live, put_self]
  exact congrArg some (selfId i sub stored)

theorem migrateSubscription_other (unheld : ¬ Held s.subscription a p j) :
    (migrateSubscription s j).userPlanIndex (a, p) = s.userPlanIndex (a, p) := by
  cases held : s.subscription j with
  | none => simp only [migrateSubscription, held]
  | some sub =>
    by_cases live : sub.status ≠ .cancelled
    · have otherKey : (a, p) ≠ (sub.subscriber, sub.planId) := by
        intro same
        rcases Prod.mk.inj same with ⟨rfl, rfl⟩
        exact unheld (held_self held live)
      simp only [migrateSubscription, held, if_pos live]
      exact put_of_ne _ _ otherKey
    · simp only [migrateSubscription, held, if_neg live]

theorem foldl_migrateSubscription_held (selfId : ∀ i sub, s.subscription i = some sub → sub.id = i)
    (held : Held s.subscription a p i) (only : ∀ j, Held s.subscription a p j → j = i) (ids : List Nat)
    (entered : i ∈ ids ∨ s.userPlanIndex (a, p) = some i) :
    (ids.foldl migrateSubscription s).userPlanIndex (a, p) = some i := by
  induction ids generalizing s with
  | nil =>
    rcases entered with mem | entry
    · cases mem
    · exact entry
  | cons j ids ih =>
    rcases migrateSubscription_rebuilt s j with ⟨index, run, _⟩
    have same : (migrateSubscription s j).subscription = s.subscription := by rw [run]
    have next : i ∈ ids ∨ (migrateSubscription s j).userPlanIndex (a, p) = some i := by
      by_cases here : j = i
      · subst here
        exact .inr (migrateSubscription_held selfId held)
      · have kept := migrateSubscription_other fun heldHere => here (only j heldHere)
        rcases entered with mem | entry
        · rcases List.mem_cons.mp mem with rfl | later
          · exact absurd rfl here
          · exact .inl later
        · exact .inr (kept.trans entry)
    rw [← same] at held selfId only
    exact ih selfId held only next

end Loop

theorem migrate_one {env : Env} {s : State} (signed : env.authorized env.proxy = true) :
    migrate env s 1 = .ok ((List.range' 1 (s.subscriptionCount.getD 0)).foldl migrateSubscription s) := by
  have authorised : env.requireAuth env.proxy = .ok () := (Host.requireAuth_eq_ok ..).mpr signed
  unfold migrate
  rw [authorised]
  rfl

/-- The migration from version 1 leaves the index that the version 2 calls maintain, and nothing else. -/
theorem migrate_agrees {env : Env} {s : State} (signed : env.authorized env.proxy = true) (one : VersionOne s) :
    ∃ s', migrate env s 1 = .ok s' ∧ Migrated s s' := by
  rcases migrateSubscription_foldl (List.range' 1 (s.subscriptionCount.getD 0)) s with ⟨index, loop, rebuilt⟩
  refine ⟨_, migrate_one signed, ?_⟩
  have indexed : Exact s.subscription index := by
    intro a p i
    constructor
    · intro entry
      rcases rebuilt (a, p) with kept | ⟨j, sub, stored, live, same, found⟩
      · have empty := one.unindexed (a, p)
        cases entry.symm.trans (kept.trans empty)
      · rcases Prod.mk.inj same with ⟨rfl, rfl⟩
        cases Option.some.inj (entry.symm.trans found)
        rw [one.selfId j sub stored]
        exact held_self stored live
    · intro held
      have listed : i ∈ List.range' 1 (s.subscriptionCount.getD 0) := by
        rcases held with ⟨sub, stored, _⟩
        have bounds := one.numbered i sub stored
        rw [List.mem_range'_1]
        omega
      have entered := foldl_migrateSubscription_held one.selfId held
        (fun j other => one.unique a p j i other held) _ (.inl listed)
      rw [loop] at entered
      exact entered
  rw [loop]
  refine ⟨indexed, rfl, fun env' signed' => ?_⟩
  rw [migrate_one signed']
  rcases migrateSubscription_foldl (List.range' 1 (s.subscriptionCount.getD 0)) { s with userPlanIndex := index } with
    ⟨index', loop', rebuilt'⟩
  have same : index' = index := rebuilt'.same one.selfId indexed
  rw [loop', same]

def oldSubscription (id : Nat) (status : SubscriptionStatus) : Subscription :=
  { newSubscription 0 id 1 ⟨2⟩ .monthly with status }

def oldStorage : State :=
  { State.initial ⟨9⟩ with
    subscription := put (put (fun _ => none) 1 (oldSubscription 1 .cancelled)) 2 (oldSubscription 2 .active)
    subscriptionCount := some 3 }

theorem oldStorage_eq_some {i : Nat} {sub : Subscription} (held : oldStorage.subscription i = some sub) :
    i = 1 ∧ sub = oldSubscription 1 .cancelled ∨ i = 2 ∧ sub = oldSubscription 2 .active := by
  rcases (put_eq_some ..).mp held with ⟨rfl, rfl⟩ | ⟨_, first⟩
  · exact .inr ⟨rfl, rfl⟩
  · rcases (put_eq_some ..).mp first with ⟨rfl, rfl⟩ | ⟨_, none⟩
    · exact .inl ⟨rfl, rfl⟩
    · cases none

theorem oldStorage_versionOne : VersionOne oldStorage where
  numbered i sub stored := by
    have count : oldStorage.subscriptionCount.getD 0 = 3 := rfl
    rcases oldStorage_eq_some stored with ⟨rfl, _⟩ | ⟨rfl, _⟩ <;> omega
  selfId i sub stored := by
    rcases oldStorage_eq_some stored with ⟨rfl, rfl⟩ | ⟨rfl, rfl⟩ <;> rfl
  unindexed _ := rfl
  unique a p i j first second := by
    have second_only (k : Nat) (held : Held oldStorage.subscription a p k) : k = 2 := by
      rcases held with ⟨sub, stored, _, _, live⟩
      rcases oldStorage_eq_some stored with ⟨_, rfl⟩ | ⟨two, _⟩
      · exact absurd rfl live
      · exact two
    rw [second_only i first, second_only j second]

theorem migrate_agrees_oldStorage : ∃ s', migrate (.willing 0) oldStorage 1 = .ok s' ∧ Migrated oldStorage s' :=
  migrate_agrees rfl oldStorage_versionOne

def HeldByOutsider (r : Registry) (id : Nat) : Prop :=
  ∀ sub, r.subscription id = some sub → sub.status ≠ .cancelled →
    ∃ plan, r.plan sub.planId = some plan ∧ sub.subscriber ≠ plan.merchant

/-- The merchant of the plan does not accept `id` while it is not cancelled. -/
def acceptedByOutsider (id : Nat) (w : World) (tx : Tx) : Prop :=
  ∀ recipient sub plan, tx.call = .acceptTransfer id recipient → w.state.subscription id = some sub →
    w.state.pendingTransfer id = some recipient → sub.status ≠ .cancelled →
    w.state.plan sub.planId = some plan → recipient ≠ plan.merchant

theorem Effect.keepsOutside {env : Env} {w : World} {call : Call} {books : Books} {id : Nat}
    (effect : Effect env w.state call books) (wf : w.state.toRegistry.WellFormed)
    (outside : HeldByOutsider w.state.toRegistry id) (accepted : acceptedByOutsider id w ⟨env, call⟩) :
    HeldByOutsider books.toRegistry id := by
  intro sub' held' live'
  cases held : w.state.subscription id with
  | none =>
    rcases effect.created held held' with ⟨subscriber, planId, plan, rfl, planStored, outsider, rfl⟩
    rcases effect.terms wf planStored with ⟨plan', planStored', same⟩
    exact ⟨plan', planStored', by rw [same.merchant]; exact outsider.symm⟩
  | some sub =>
    rcases effect.change wf held with ⟨found, read, change⟩
    obtain rfl : sub' = found := Option.some.inj (held'.symm.trans read)
    have kept (same : SameHolder sub sub') :
        ∃ plan, books.plan sub'.planId = some plan ∧ sub'.subscriber ≠ plan.merchant := by
      have live : sub.status ≠ .cancelled := fun gone => live' (same.cancelled.mpr gone)
      rcases outside sub held live with ⟨plan, planStored, outsider⟩
      rcases effect.terms wf planStored with ⟨plan', planStored', terms⟩
      refine ⟨plan', by rw [same.planId, planStored'], ?_⟩
      rw [same.subscriber, terms.merchant]
      exact outsider
    cases change with
    | kept => exact kept ⟨rfl, rfl, rfl, Iff.rfl⟩
    | cancelled => exact absurd rfl live'
    | amended amendment => exact kept amendment.sameHolder
    | charged _ _ billable => exact kept (billable.sameHolder _)
    | @moved _ recipient pending =>
      rcases outside sub held live' with ⟨plan, planStored, _⟩
      rcases effect.terms wf planStored with ⟨plan', planStored', terms⟩
      refine ⟨plan', planStored', ?_⟩
      rw [terms.merchant]
      exact accepted recipient sub plan rfl held pending live' planStored

/-- No merchant subscribes to itself in a run in which no merchant accepts a subscription to its own plan. -/
theorem heldByOutsider {id : Nat} {w : World} (reached : Reachable (acceptedByOutsider id) w) :
    HeldByOutsider w.state.toRegistry id := by
  refine reached.state_invariant (I := fun s => HeldByOutsider s.toRegistry id) ?_ ?_
  · intro s initial sub stored
    rcases (initialised_iff s).mp initial with ⟨admin, rfl⟩
    cases stored
  · intro w tx s earlier accepted run outside
    rcases tx with ⟨env, call⟩
    exact (exec_effect run).keepsOutside (wellFormed earlier) outside accepted

theorem heldByOutsider_accepted :
    HeldByOutsider (submit (offeredTo ⟨3⟩) ⟨.willing 20, .acceptTransfer 1 ⟨3⟩⟩).state.toRegistry 1 := by
  have reached : Reachable (acceptedByOutsider 1) (offeredTo ⟨3⟩) :=
    offeredTo_reachable ⟨3⟩ fun _ _ other recipient _ _ accepts => absurd accepts (other 1 recipient)
  refine heldByOutsider (reached.submit ?_)
  intro recipient sub plan accepts stored _ _ planStored
  cases accepts
  cases stored
  cases planStored
  decide

theorem heldByOutsider_fails_after_transfer :
    ¬ ∀ w, Reachable Ledger.anyTx w → ∀ id, HeldByOutsider w.state.toRegistry id := by
  intro holds
  have reached : Reachable Ledger.anyTx (offeredTo ⟨1⟩) := offeredTo_reachable ⟨1⟩ fun _ _ _ => trivial
  obtain ⟨plan, planStored, outsider⟩ :=
    holds (submit (offeredTo ⟨1⟩) ⟨.willing 20, .acceptTransfer 1 ⟨1⟩⟩) (reached.submit trivial) 1 _ rfl nofun
  cases planStored
  exact outsider rfl

structure Frozen (sub sub' : Subscription) : Prop where
  cancelled : sub'.status = .cancelled
  subscriber : sub'.subscriber = sub.subscriber
  totalPaid : sub'.totalPaid ≤ sub.totalPaid
  chargeCount : sub'.chargeCount = sub.chargeCount
  lastChargedAt : sub'.lastChargedAt = sub.lastChargedAt

theorem Frozen.refl {sub : Subscription} (cancelled : sub.status = .cancelled) : Frozen sub sub :=
  ⟨cancelled, rfl, le_rfl, rfl, rfl⟩

theorem Frozen.trans {sub sub' sub'' : Subscription} (first : Frozen sub sub') (second : Frozen sub' sub'') :
    Frozen sub sub'' :=
  ⟨second.cancelled, second.subscriber.trans first.subscriber, second.totalPaid.trans first.totalPaid,
    second.chargeCount.trans first.chargeCount, second.lastChargedAt.trans first.lastChargedAt⟩

def acceptedBeforeCancelled (id : Nat) (w : World) (tx : Tx) : Prop :=
  ∀ recipient sub, tx.call = .acceptTransfer id recipient → w.state.subscription id = some sub →
    w.state.pendingTransfer id = some recipient → sub.status ≠ .cancelled

theorem Change.frozen {env : Env} {w : World} {call : Call} {id : Nat} {sub sub' : Subscription}
    (change : Change env w.state id call sub sub') (held : w.state.subscription id = some sub)
    (cancelled : sub.status = .cancelled) (accepted : acceptedBeforeCancelled id w ⟨env, call⟩) :
    Frozen sub sub' := by
  cases change with
  | kept => exact .refl cancelled
  | cancelled live => exact absurd cancelled live
  | amended amendment =>
    cases amendment with
    | pause status => exact nomatch status.symm.trans cancelled
    | pauseFor status => exact nomatch status.symm.trans cancelled
    | resume status => exact nomatch status.symm.trans cancelled
    | requestRefund | rejectRefund => exact ⟨cancelled, rfl, le_rfl, rfl, rfl⟩
    | approveRefund requested => exact ⟨cancelled, rfl, Int.sub_le_self _ requested.le, rfl, rfl⟩
  | charged _ _ billable =>
    cases billable with
    | active status => exact nomatch status.symm.trans cancelled
    | elapsed status => exact nomatch status.symm.trans cancelled
  | @moved _ recipient pending => exact absurd cancelled (accepted recipient sub rfl held pending)

theorem index_sound {id : Nat} {w : World} (reached : Reachable (acceptedBeforeCancelled id) w) :
    Sound w.state.subscription w.state.userPlanIndex id := by
  refine reached.state_invariant (I := fun s => Sound s.subscription s.userPlanIndex id) ?_ ?_
  · intro s initial a p entry
    rcases (initialised_iff s).mp initial with ⟨admin, rfl⟩
    cases entry
  · intro w tx s earlier accepted run sound
    rcases tx with ⟨env, call⟩
    exact (exec_effect run).sound (wellFormed earlier) sound accepted

def withdrawn : World := submit (offeredTo ⟨3⟩) ⟨.willing 15, .cancelSubscription ⟨2⟩ 1⟩

theorem withdrawn_reachable {guard : World → Tx → Prop}
    (met : ∀ w tx, (∀ id taker, tx.call ≠ .acceptTransfer id taker) → guard w tx) :
    Reachable guard withdrawn := by
  have other : guard (offeredTo ⟨3⟩) ⟨.willing 15, .cancelSubscription ⟨2⟩ 1⟩ := met _ _ nofun
  exact (offeredTo_reachable ⟨3⟩ met).submit other

end SubTrackr.Subscriptions
