import SubTrackr.Subscription.Refunds

namespace SubTrackr.Subscriptions

open Lib Soroban

def Call.Seals (id : Nat) : Call → Prop
  | .commitCharge j _ => j = id
  | .revealCharge j _ _ _ _ => j = id
  | _ => False

theorem Effect.unsealed {env : Env} {s : State} {call : Call} {books : Books} (effect : Effect env s call books)
    {id : Nat} (other : ¬ call.Seals id) : books.chargeCommitment id = s.chargeCommitment id := by
  cases effect with
  | commit => exact put_of_ne _ _ (Ne.symm other)
  | charge path =>
    cases path with
    | direct => rfl
    | revealed => exact remove_of_ne _ (Ne.symm other)
  | _ => rfl

theorem Effect.sealed {env : Env} {s : State} {id : Nat} {commitment : BytesN 32} {books : Books}
    (effect : Effect env s (.commitCharge id commitment) books) :
    ∃ sub, s.subscription id = some sub ∧
      books.chargeCommitment id = some (committed env s id sub.subscriber commitment) := by
  cases effect with
  | administer administrative => exact administrative.elim
  | charge path => cases path
  | amend _ amendment => cases amendment
  | commit held => exact ⟨_, held, put_self ..⟩

theorem Effect.opened {env : Env} {s : State} {id : Nat} {salt : BytesN 32} {max : Int} {gasPrice : Nat}
    {privateMempool : Bool} {books : Books}
    (effect : Effect env s (.revealCharge id salt max gasPrice privateMempool) books) :
    books.chargeCommitment id = none := by
  cases effect with
  | administer administrative => exact administrative.elim
  | amend _ amendment => cases amendment
  | charge => exact remove_self ..

/-- `c`, at `j`, recorded `pending` for `id` in the name of `committer`, and no receipt since then has recorded or
    consumed a commitment of `id`. -/
structure RecordedAt (history : List (Receipt Tx State)) (id j : Nat) (c : Receipt Tx State)
    (committer : Subscription) (commitment : BytesN 32) (pending : ChargeCommitment) : Prop where
  found : history[j]? = some c
  commits : c.tx.call = .commitCharge id commitment
  holder : c.before.subscription id = some committer
  recorded : pending = committed c.tx.env c.before id committer.subscriber commitment
  since : ∀ k r, j < k → history[k]? = some r → ¬ r.tx.call.Seals id

theorem pending_recorded {guard : World → Tx → Prop} {w : World} (reached : Reachable guard w) :
    ∀ id pending, w.state.chargeCommitment id = some pending →
      ∃ j c committer commitment, RecordedAt w.history id j c committer commitment pending := by
  intro id pending held
  have rule := Ledger.Reachable.lastAt (fun tx : Tx => tx.call.Seals id) (fun s : State => s.chargeCommitment id)
    reached ?_
  · rcases rule with ⟨s, initial, same, _⟩ | ⟨j, c, last, same⟩
    · rcases (initialised_iff s).mp initial with ⟨admin, rfl⟩
      cases same.symm.trans held
    · rcases reached.receiptAt j c last.found with ⟨_, _, _, _, _, run⟩
      have seals := last.holds
      have found := last.found
      have since := last.since
      rcases c with ⟨⟨env, call⟩, before, after⟩
      have effect : Effect env before call after.toBooks := exec_effect run
      have written : after.chargeCommitment id = some pending := same.symm.trans held
      cases call with
      | commitCharge k commitment =>
        cases seals
        rcases effect.sealed with ⟨committer, holder, recorded⟩
        exact ⟨j, _, committer, commitment, found, rfl, holder, Option.some.inj (written.symm.trans recorded), since⟩
      | revealCharge k salt max gasPrice privateMempool =>
        cases seals
        cases effect.opened.symm.trans written
      | _ => exact seals.elim
  · intro w tx s _ run other
    exact (exec_effect run).unsealed other

structure Consumes (history : List (Receipt Tx State)) (id j i : Nat) : Prop where
  order : j < i
  commits : ∃ c commitment, history[j]? = some c ∧ c.tx.call = .commitCharge id commitment
  reveals : ∃ r, history[i]? = some r ∧ r.tx.call.Seals id ∧ ∃ max, r.tx.call.Charges id max
  between : ∀ k r, j < k → k < i → history[k]? = some r → ¬ r.tx.call.Seals id

theorem Consumes.unique {history : List (Receipt Tx State)} {id j i i' : Nat} (first : Consumes history id j i)
    (second : Consumes history id j i') : i = i' := by
  rcases first.reveals with ⟨r, found, seals, _⟩
  rcases second.reveals with ⟨r', found', seals', _⟩
  rcases Nat.lt_trichotomy i i' with before | same | after
  · exact absurd seals (second.between i r first.order before found)
  · exact same
  · exact absurd seals' (first.between i' r' second.order after found')

theorem large_charge_opens {env : Env} {call : Call} {s s' : State} {id : Nat} {max : Int} {sub : Subscription}
    {plan : Plan} (run : exec ⟨env, call⟩ s = .ok s') (path : call.Charges id max)
    (held : s.subscription id = some sub) (planStored : s.plan sub.planId = some plan)
    (large : (getMevConfig s).largeChargeThreshold ≤ plan.price) :
    (max = i128Max ∨ plan.price ≤ max) ∧ sub.totalPaid + plan.price < 2 ^ 127 ∧
      ∃ salt gasPrice privateMempool pending, call = .revealCharge id salt max gasPrice privateMempool ∧
        s.chargeCommitment id = some pending ∧ pending.minRevealAt ≤ env.timestamp ∧
        env.timestamp ≤ pending.expiresAt := by
  have sameRecord {base : State} {revealed : Bool} {found due : Subscription} {terms : Plan}
      (ran : ChargeRun env base s' id max revealed found due terms) (sameSubs : base.subscription = s.subscription)
      (samePlans : base.plan = s.plan) : found = sub ∧ terms = plan := by
    have read := ran.stored
    have planRead := ran.planStored
    rw [sameSubs, held] at read
    cases read
    rw [samePlans, planStored] at planRead
    cases planRead
    exact ⟨rfl, rfl⟩
  cases path with
  | direct =>
    simp only [exec, chargeSubscription, bind_eq_ok] at run
    rcases run with ⟨_, _, run⟩
    rcases chargeSubscriptionGuarded_ok run with ⟨found, due, terms, ran⟩
    rcases sameRecord ran rfl rfl with ⟨rfl, rfl⟩
    rcases ran.guarded with revealed | small
    · cases revealed
    · omega
  | @revealed _ salt _ gasPrice privateMempool =>
    rcases revealCharge_ok run with ⟨pending, opened, found, due, terms, ran⟩
    rcases sameRecord ran rfl rfl with ⟨rfl, rfl⟩
    exact ⟨ran.bounded, ran.fits, salt, gasPrice, privateMempool, pending, rfl, opened.stored, opened.notEarly,
      opened.notLate⟩

/-- The commitment that a reveal of a large charge opens is in the name of the present subscriber. -/
def revealedByCommitter (w : World) (tx : Tx) : Prop :=
  ∀ id salt max gasPrice privateMempool sub plan pending,
    tx.call = .revealCharge id salt max gasPrice privateMempool → w.state.subscription id = some sub →
    w.state.plan sub.planId = some plan → (getMevConfig w.state).largeChargeThreshold ≤ plan.price →
    w.state.chargeCommitment id = some pending → pending.subscriber = sub.subscriber

structure Covered (history : List (Receipt Tx State)) (id i : Nat) (r : Receipt Tx State) (sub : Subscription)
    (j : Nat) (c : Receipt Tx State) (committer : Subscription) : Prop where
  consumes : Consumes history id j i
  found : history[j]? = some c
  holder : c.before.subscription id = some committer
  samePayer : committer.subscriber = sub.subscriber
  notEarly : c.tx.env.timestamp + (getMevConfig c.before).revealDelaySecs ≤ r.tx.env.timestamp
  notLate : r.tx.env.timestamp ≤ c.tx.env.timestamp + (getMevConfig c.before).commitTtlSecs

/-- Every charge at or above the threshold consumed a commitment that the paying subscriber recorded for the same
    subscription within the delay and the lifetime of the commitment, and is not above the revealed maximum; no
    commitment is consumed twice. -/
theorem commit_reveal {w : World} (reached : Reachable revealedByCommitter w) :
    (∀ i r id max sub plan, w.history[i]? = some r → r.tx.call.Charges id max →
      r.before.subscription id = some sub → r.before.plan sub.planId = some plan →
      (getMevConfig r.before).largeChargeThreshold ≤ plan.price →
      plan.price ≤ max ∧ r.after.transfers = r.before.transfers ++ [movedByCharge id plan sub] ∧
        ∃ j c committer, Covered w.history id i r sub j c committer) ∧
    ∀ id j i i', Consumes w.history id j i → Consumes w.history id j i' → i = i' := by
  refine ⟨?_, fun _ _ _ _ => Consumes.unique⟩
  intro i r id max sub plan found path stored planStored large
  rcases reached.receiptAt i r found with ⟨v, here, met, sameState, sameHistory, run⟩
  rcases r with ⟨⟨env, call⟩, before, after⟩
  simp only at path stored planStored large sameState run
  subst sameState
  have effect : Effect env v.state call after.toBooks := exec_effect run
  rcases large_charge_opens run path stored planStored large with
    ⟨bounded, fits, salt, gasPrice, privateMempool, pending, reveals, sealed, notEarly, notLate⟩
  rcases refund_bounds here id sub stored with ⟨low, high⟩
  have withinMax : plan.price ≤ max := by
    rcases bounded with unbounded | bounded
    · rw [unbounded]
      unfold i128Max
      omega
    · exact bounded
  refine ⟨withinMax, ?_, ?_⟩
  · rcases effect.billed path with ⟨read, _, terms, readStored, termsStored, _, _, moved⟩
    cases Option.some.inj (stored.symm.trans readStored)
    cases Option.some.inj (planStored.symm.trans termsStored)
    exact moved
  · rcases pending_recorded here id pending sealed with ⟨j, c, committer, commitment, recorded⟩
    have samePayer := met id salt max gasPrice privateMempool sub plan pending reveals stored planStored large sealed
    have early := recorded.found
    rw [sameHistory] at early
    have order : j < i := by
      have bound := (List.getElem?_eq_some_iff.mp early).1
      rw [List.length_take] at bound
      omega
    rw [List.getElem?_take_of_lt order] at early
    rw [recorded.recorded] at samePayer notEarly notLate
    refine ⟨j, c, committer, ⟨order, ⟨c, commitment, early, recorded.commits⟩, ?_, ?_⟩, early, recorded.holder,
      samePayer, notEarly, notLate⟩
    · refine ⟨_, found, ?_, max, path⟩
      rw [reveals]
      rfl
    · intro k r' later before found'
      refine recorded.since k r' later ?_
      rw [sameHistory, List.getElem?_take_of_lt before]
      exact found'

def digest : BytesN 32 :=
  #v[226, 25, 136, 178, 32, 198, 139, 152, 48, 228, 253, 212, 233, 214, 144, 144, 81, 36, 59, 208, 174, 71, 245, 24,
    135, 54, 53, 188, 173, 220, 11, 139]

def revealing : Tx :=
  ⟨{ Env.willing 86430 with sha256 := fun _ => digest }, .revealCharge 1 (Vector.replicate 32 0) 500 0 false⟩

def largeCharges : MevProtectionConfig := ⟨100, 100, 30, 3600, false, u64Max⟩

def sealedWith (between : List (Nat × Call)) : World :=
  trial ([(0, .configureMevProtection ⟨9⟩ largeCharges), (0, .createPlan ⟨1⟩ "basic" 500 ⟨7⟩ .daily),
    (0, .subscribe ⟨2⟩ 1), (86400, .commitCharge 1 digest)] ++ between)

theorem commit_reveal_revealed : ∃ j c committer, Covered (submit (sealedWith []) revealing).history 1 4
    ⟨revealing, (sealedWith []).state, (submit (sealedWith []) revealing).state⟩
    (newSubscription 0 1 1 ⟨2⟩ .daily) j c committer := by
  have start : Reachable revealedByCommitter (sealedWith []) := by
    refine trial_reachable fun now call listed w id salt max gasPrice privateMempool sub plan pending reveals => ?_
    simp only at reveals
    subst reveals
    simp at listed
  have met : revealedByCommitter (sealedWith []) revealing := by
    intro id salt max gasPrice privateMempool sub plan pending reveals stored _ _ sealed
    cases reveals
    cases Option.some.inj stored
    cases Option.some.inj sealed
    rfl
  exact ((commit_reveal (start.submit met)).1 4 _ 1 500 _ _ rfl .revealed rfl rfl (by decide)).2.2

theorem commit_reveal_fails_after_transfer :
    ¬ ∀ (w : World), Reachable Ledger.anyTx w → ∀ i r id max sub plan, w.history[i]? = some r →
      r.tx.call.Charges id max → r.before.subscription id = some sub → r.before.plan sub.planId = some plan →
      (getMevConfig r.before).largeChargeThreshold ≤ plan.price →
      ∃ j c committer, Covered w.history id i r sub j c committer := by
  intro holds
  have reached : Reachable Ledger.anyTx
      (submit (sealedWith [(86401, .requestTransfer 1 ⟨3⟩), (86402, .acceptTransfer 1 ⟨3⟩)]) revealing) :=
    Ledger.Reachable.submit (trial_reachable fun _ _ _ _ => trivial) trivial
  rcases holds _ reached 6 _ 1 500 _ _ rfl .revealed rfl rfl (by decide) with ⟨j, c, committer, covered⟩
  rcases covered.consumes.commits with ⟨c', commitment, found, commits⟩
  have order := covered.consumes.order
  have holder := covered.holder
  have samePayer := covered.samePayer
  have same := Option.some.inj (found.symm.trans covered.found)
  subst same
  have cases : j = 3 ∨ j = 0 ∨ j = 1 ∨ j = 2 ∨ j = 4 ∨ j = 5 := by omega
  rcases cases with rfl | rfl | rfl | rfl | rfl | rfl
  · cases Option.some.inj found
    cases Option.some.inj holder
    exact absurd samePayer (by decide)
  all_goals
    cases Option.some.inj found
    cases commits

end SubTrackr.Subscriptions
