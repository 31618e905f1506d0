import SubTrackr.Fraud.Contract

namespace SubTrackr.Fraud

open Lib Soroban

structure World where
  state : State
  registrations : List (Nat × Address)

def World.deployed : World := ⟨.empty, []⟩

structure Tx where
  host : Host
  call : Call

def Call.registration : Call → Option (Nat × Address)
  | .registerSubscription subscriber _ id _ => some (id, subscriber)
  | _ => none

def perform (w : World) (tx : Tx) : World :=
  match exec tx.host w.state tx.call with
  | .ok s => ⟨s, w.registrations ++ tx.call.registration.toList⟩
  | .error _ => w

/-- A subscription under review is blocked when its case says so, and only then. -/
def Synced (s : State) : Prop :=
  ∀ id case, s.reviewCase id = some case →
    ∃ profile, s.subscription id = some profile ∧ (profile.isBlocked = true ↔ case.action = .block)

structure Lawful (w : World) (tx : Tx) : Prop where
  signed (id : Nat) (subscriber : Address) : (id, subscriber) ∈ w.registrations →
    (perform w tx).state.subscription id ≠ w.state.subscription id → tx.call.signer = some subscriber
  counted (id : Nat) (profile : SubscriptionProfile) : w.state.subscription id = some profile →
    ∃ later, (perform w tx).state.subscription id = some later ∧ profile.chargebacks ≤ later.chargebacks
  reviewed (id : Nat) (case later : FraudCase) : w.state.reviewCase id = some case →
    (perform w tx).state.reviewCase id = some later → case.action ≠ .approve → later.action = .approve →
      ∃ reviewer, tx.call.signer = some reviewer ∧ reviewer ≠ case.subscriber
  synced : Synced (perform w tx).state

def Honest (w : World) (tx : Tx) : Prop :=
  match tx.call with
  | .registerSubscription subscriber _ id _ => tx.host.authorized subscriber = true →
      ∀ profile, w.state.subscription id = some profile → profile.subscriber = subscriber ∧ profile.chargebacks = 0 ∧
        ∀ case, w.state.reviewCase id = some case → case.action ≠ .block
  | .recordUsagePattern subscriber id expectedUsage observedUsage => tx.host.authorized subscriber = true →
      ∀ profile, w.state.subscription id = some profile → profile.subscriber = subscriber ∨
        profile.expectedUsage = expectedUsage ∧ profile.observedUsage = observedUsage ∧
          profile.lastActivityAt = tx.host.timestamp
  | .recordChargeback subscriber id => tx.host.authorized subscriber = true →
      ∀ profile, w.state.subscription id = some profile →
        profile.subscriber = subscriber ∨ profile.chargebacks = u32Max ∧ profile.lastActivityAt = tx.host.timestamp
  | .assessRisk _ => True
  | .flagSubscription id => ∀ profile score, w.state.subscription id = some profile →
      scoreProfile tx.host.timestamp w.state profile (getSubscriptions w.state profile.subscriber) = .ok score →
        profile.scored score = profile ∧
          ∀ case, w.state.reviewCase id = some case → score.action = .approve → case.action = .approve
  | .resolveCase subscriber id approved => tx.host.authorized subscriber = true →
      ∀ profile case, w.state.subscription id = some profile → w.state.reviewCase id = some case →
        profile.isBlocked = !approved ∧ (approved = true → case.action ≠ .approve → case.subscriber ≠ subscriber)
  | .getFraudReport merchantId => ∀ id ∈ getMerchantSubscriptions w.state merchantId, ∀ profile score,
      w.state.subscription id = some profile → w.state.reviewCase id = none →
        scoreProfile tx.host.timestamp w.state profile (getSubscriptions w.state profile.subscriber) = .ok score →
          reviewThreshold ≤ score.totalScore → (profile.isBlocked = true ↔ score.action = .block)

structure Kept (signer : Option Address) (profile later : SubscriptionProfile) : Prop where
  subscriber : later.subscriber = profile.subscriber
  chargebacks : profile.chargebacks ≤ later.chargebacks
  signed : later ≠ profile → signer = some profile.subscriber

theorem Kept.refl (signer : Option Address) (profile : SubscriptionProfile) : Kept signer profile profile :=
  ⟨rfl, le_rfl, fun changed => absurd rfl changed⟩

def WellFormed (s : State) : Prop :=
  ∀ id profile, s.subscription id = some profile → profile.subscriptionId = id ∧ profile.chargebacks ≤ u32Max

structure Fair (call : Call) (s s' : State) : Prop where
  kept (id : Nat) (profile : SubscriptionProfile) : s.subscription id = some profile →
    ∃ later, s'.subscription id = some later ∧ Kept call.signer profile later
  registered (id : Nat) (subscriber : Address) : call.registration = some (id, subscriber) →
    ∃ later, s'.subscription id = some later ∧ later.subscriber = subscriber
  reviewed (id : Nat) (case later : FraudCase) : s.reviewCase id = some case → s'.reviewCase id = some later →
    case.action ≠ .approve → later.action = .approve → ∃ reviewer, call.signer = some reviewer ∧ reviewer ≠ case.subscriber
  wellFormed : WellFormed s'
  synced : Synced s'

structure Consistent (w : World) : Prop where
  wellFormed : WellFormed w.state
  owned (id : Nat) (subscriber : Address) : (id, subscriber) ∈ w.registrations →
    ∃ profile, w.state.subscription id = some profile ∧ profile.subscriber = subscriber
  synced : Synced w.state

theorem consistent_deployed : Consistent .deployed where
  wellFormed _ _ stored := nomatch stored
  owned _ _ listed := absurd listed List.not_mem_nil
  synced _ _ stored := nomatch stored

section Fair

variable {call : Call} {s s' : State}

theorem Fair.same (wellFormed : WellFormed s) (synced : Synced s) (none : call.registration = none) : Fair call s s where
  kept id profile stored := ⟨profile, stored, .refl _ _⟩
  registered id subscriber registers := by simp [none] at registers
  reviewed id case later stored stored' unapproved approved := by
    rw [stored] at stored'
    cases stored'
    exact absurd approved unapproved
  wellFormed := wellFormed
  synced := synced

theorem Fair.save {saved : SubscriptionProfile} (wellFormed : WellFormed s) (synced : Synced s)
    (cases_same : s'.reviewCase = s.reviewCase) (stores : s'.subscription = put s.subscription saved.subscriptionId saved)
    (capped : saved.chargebacks ≤ u32Max)
    (kept : ∀ profile, s.subscription saved.subscriptionId = some profile → Kept call.signer profile saved ∧
      ∀ case, s.reviewCase saved.subscriptionId = some case → (saved.isBlocked = true ↔ case.action = .block))
    (registered : ∀ id subscriber, call.registration = some (id, subscriber) →
      saved.subscriptionId = id ∧ saved.subscriber = subscriber) : Fair call s s' where
  kept id profile stored := by
    rw [stores]
    by_cases here : id = saved.subscriptionId
    · rw [here] at stored
      exact ⟨saved, by rw [here, put_self], (kept profile stored).1⟩
    · exact ⟨profile, by rw [put_of_ne _ _ here, stored], .refl _ _⟩
  registered id subscriber registers := by
    obtain ⟨here, owner⟩ := registered id subscriber registers
    exact ⟨saved, by rw [stores, ← here, put_self], owner⟩
  reviewed id case later stored held' unapproved approved := by
    rw [cases_same, stored] at held'
    cases held'
    exact absurd approved unapproved
  wellFormed id profile stored := by
    rw [stores, put_eq_some] at stored
    obtain ⟨here, rfl⟩ | ⟨_, stored⟩ := stored
    · exact ⟨here.symm, capped⟩
    · exact wellFormed id profile stored
  synced id case stored := by
    rw [cases_same] at stored
    obtain ⟨profile, found, blocked⟩ := synced id case stored
    rw [stores]
    by_cases here : id = saved.subscriptionId
    · rw [here] at stored found
      exact ⟨saved, by rw [here, put_self], (kept profile found).2 case stored⟩
    · exact ⟨profile, by rw [put_of_ne _ _ here, found], blocked⟩

theorem Fair.cases (wellFormed : WellFormed s) (profiles_same : s'.subscription = s.subscription)
    (synced : Synced s') (none : call.registration = none)
    (reviewed : ∀ id case later, s.reviewCase id = some case → s'.reviewCase id = some later →
      case.action ≠ .approve → later.action = .approve → ∃ reviewer, call.signer = some reviewer ∧ reviewer ≠ case.subscriber) :
    Fair call s s' where
  kept id profile stored := ⟨profile, by rw [profiles_same, stored], .refl _ _⟩
  registered id subscriber registers := by simp [none] at registers
  reviewed := reviewed
  wellFormed id profile stored := wellFormed id profile (profiles_same ▸ stored)
  synced := synced

end Fair

section Survey

variable {now : Nat} {s : State}

structure Surveyed (now : Nat) (s : State) (ids : List Nat) (survey : Survey) : Prop where
  profiles : survey.state.subscription = s.subscription
  subscribers : survey.state.subscriberSubscriptions = s.subscriberSubscriptions
  old (id : Nat) (case : FraudCase) : s.reviewCase id = some case → survey.state.reviewCase id = some case
  opened (id : Nat) (case : FraudCase) : survey.state.reviewCase id = some case → s.reviewCase id = none →
    id ∈ ids ∧ ∃ profile score, s.subscription id = some profile ∧
      scoreProfile now s profile (getSubscriptions s profile.subscriber) = .ok score ∧
        reviewThreshold ≤ score.totalScore ∧ case = caseOf score .pending

theorem scoreProfile_subscriptionId {profile : SubscriptionProfile} {ids : List Nat} {score : RiskScore}
    (scored : scoreProfile now s profile ids = .ok score) : score.subscriptionId = profile.subscriptionId := by
  obtain ⟨velocityScore, _, rest⟩ := (bind_eq_ok ..).mp scored
  cases rest
  rfl

theorem scoreProfile_congr {t : State} (same : t.subscription = s.subscription) (profile : SubscriptionProfile)
    (ids : List Nat) : scoreProfile now t profile ids = scoreProfile now s profile ids := by
  simp only [scoreProfile, determineVelocityScore, same]

theorem persistCase_reviewCase (s : State) (score : RiskScore) (status : FraudReviewStatus) :
    (persistCase s score status).reviewCase = put s.reviewCase score.subscriptionId (caseOf score status) := rfl

theorem Survey.withCase_state (survey : Survey) (score : RiskScore) : (survey.withCase score).state = survey.state ∨
      survey.state.reviewCase score.subscriptionId = none ∧ reviewThreshold ≤ score.totalScore ∧
        (survey.withCase score).state = persistCase survey.state score .pending := by
  unfold Survey.withCase
  split
  · exact .inl rfl
  · rename_i unopened
    split
    · rename_i risky
      exact .inr ⟨unopened, risky, rfl⟩
    · exact .inl rfl

theorem Survey.round_state {survey after : Survey} {id : Nat} (done : survey.round now id = .ok after) :
    after.state = survey.state ∨ ∃ profile score, survey.state.subscription id = some profile ∧
      scoreProfile now survey.state profile (getSubscriptions survey.state profile.subscriber) = .ok score ∧
        survey.state.reviewCase score.subscriptionId = none ∧ reviewThreshold ≤ score.totalScore ∧
          after.state = persistCase survey.state score .pending := by
  unfold Survey.round at done
  split at done
  · cases done
    exact .inl rfl
  · rename_i profile held
    obtain ⟨score, scored, done⟩ := (bind_eq_ok ..).mp done
    obtain ⟨totalRisk, _, done⟩ := (bind_eq_ok ..).mp done
    cases done
    obtain same | ⟨unopened, risky, opens⟩ := Survey.withCase_state _ score
    · exact .inl same
    · exact .inr ⟨profile, score, held, scored, unopened, risky, opens⟩

theorem Surveyed.round {survey after : Survey} {ids : List Nat} {id : Nat} (wellFormed : WellFormed s)
    (surveyed : Surveyed now s ids survey) (mem : id ∈ ids) (done : survey.round now id = .ok after) :
    Surveyed now s ids after := by
  obtain same | ⟨profile, score, held, scored, unopened, risky, opens⟩ := Survey.round_state done
  · exact ⟨same ▸ surveyed.profiles, same ▸ surveyed.subscribers, same ▸ surveyed.old, same ▸ surveyed.opened⟩
  · rw [surveyed.profiles] at held
    have named := (wellFormed id profile held).1
    have about := scoreProfile_subscriptionId scored
    rw [scoreProfile_congr surveyed.profiles, show getSubscriptions survey.state profile.subscriber =
      getSubscriptions s profile.subscriber by simp only [getSubscriptions, surveyed.subscribers]] at scored
    refine ⟨by rw [opens]; exact surveyed.profiles, by rw [opens]; exact surveyed.subscribers, ?_, ?_⟩
    · intro other case old
      have old := surveyed.old other case old
      have apart : other ≠ score.subscriptionId := by
        rintro rfl
        simp [unopened] at old
      rw [opens, persistCase_reviewCase, put_of_ne _ _ apart, old]
    · intro other case opened absent
      rw [opens, persistCase_reviewCase, put_eq_some] at opened
      obtain ⟨here, rfl⟩ | ⟨_, opened⟩ := opened
      · rw [here, about, named]
        exact ⟨mem, profile, score, held, scored, risky, rfl⟩
      · exact surveyed.opened other case opened absent

theorem surveyed_of_rounds {survey : Survey} {ids rest : List Nat} {after : Survey} (wellFormed : WellFormed s)
    (surveyed : Surveyed now s ids survey) (mem : ∀ id ∈ rest, id ∈ ids)
    (done : rest.foldlM (Survey.round now) survey = .ok after) : Surveyed now s ids after := by
  induction rest generalizing survey with
  | nil =>
    cases done
    exact surveyed
  | cons id rest ih =>
    rw [List.foldlM_cons] at done
    obtain ⟨middle, first, done⟩ := (bind_eq_ok ..).mp done
    exact ih (surveyed.round wellFormed (mem id (by simp)) first) (fun id later => mem id (by simp [later])) done

theorem surveyed_start (now : Nat) (s : State) (ids : List Nat) : Surveyed now s ids (.start s) where
  profiles := rfl
  subscribers := rfl
  old _ _ stored := stored
  opened id case stored absent := by simp [Survey.start, absent] at stored

end Survey

section Calls

variable {host : Host} {s s' : State}

section

variable (wellFormed : WellFormed s) (synced : Synced s)

include wellFormed synced

theorem registerSubscription_fair {subscriber merchant : Address} {id createdAt : Nat} (honest : host.authorized subscriber = true → ∀ profile, s.subscription id = some profile →
      profile.subscriber = subscriber ∧ profile.chargebacks = 0 ∧ ∀ case, s.reviewCase id = some case → case.action ≠ .block)
    (run : registerSubscription host subscriber merchant id createdAt s = .ok s') :
    Fair (.registerSubscription subscriber merchant id createdAt) s s' := by
  obtain ⟨_, auth, run⟩ := (bind_eq_ok ..).mp run
  have signed := (host.requireAuth_eq_ok _ _).mp auth
  cases run
  refine @Fair.save _ _ _ (freshProfile subscriber merchant id createdAt) wellFormed synced rfl rfl (Nat.zero_le _) ?_ ?_
  · intro profile held
    obtain ⟨owner, none, unblocked⟩ := honest signed profile held
    refine ⟨⟨owner.symm, none.le, fun _ => congrArg some owner.symm⟩, fun case opened => ?_⟩
    simp [freshProfile, unblocked case opened]
  · intro other registrant registers
    cases registers
    exact ⟨rfl, rfl⟩

theorem recordUsagePattern_fair {subscriber : Address} {id expectedUsage observedUsage : Nat} (honest : host.authorized subscriber = true → ∀ profile, s.subscription id = some profile →
      profile.subscriber = subscriber ∨ profile.expectedUsage = expectedUsage ∧ profile.observedUsage = observedUsage ∧
        profile.lastActivityAt = host.timestamp)
    (run : recordUsagePattern host subscriber id expectedUsage observedUsage s = .ok s') :
    Fair (.recordUsagePattern subscriber id expectedUsage observedUsage) s s' := by
  obtain ⟨_, auth, run⟩ := (bind_eq_ok ..).mp run
  have signed := (host.requireAuth_eq_ok _ _).mp auth
  cases held : s.subscription id with
  | none =>
    simp only [held] at run
    cases run
    exact .same wellFormed synced rfl
  | some profile =>
    simp only [held] at run
    cases run
    obtain ⟨rfl, capped⟩ := wellFormed id profile held
    refine .save wellFormed synced rfl rfl capped ?_ (fun _ _ registers => nomatch registers)
    intro found same
    obtain rfl := Option.some.inj (held.symm.trans same)
    refine ⟨⟨rfl, le_rfl, fun changed => ?_⟩, fun case opened => ?_⟩
    · obtain owner | ⟨expected, observed, active⟩ := honest signed profile held
      · exact congrArg some owner.symm
      · exact absurd (by rw [← expected, ← observed, ← active]) changed
    · obtain ⟨found, same, blocked⟩ := synced _ case opened
      obtain rfl := Option.some.inj (held.symm.trans same)
      exact blocked

theorem recordChargeback_fair {subscriber : Address} {id : Nat}
    (honest : host.authorized subscriber = true → ∀ profile, s.subscription id = some profile →
      profile.subscriber = subscriber ∨ profile.chargebacks = u32Max ∧ profile.lastActivityAt = host.timestamp)
    (run : recordChargeback host subscriber id s = .ok s') : Fair (.recordChargeback subscriber id) s s' := by
  obtain ⟨_, auth, run⟩ := (bind_eq_ok ..).mp run
  have signed := (host.requireAuth_eq_ok _ _).mp auth
  cases held : s.subscription id with
  | none =>
    simp only [held] at run
    cases run
    exact .same wellFormed synced rfl
  | some profile =>
    simp only [held] at run
    cases run
    obtain ⟨rfl, capped⟩ := wellFormed id profile held
    refine .save wellFormed synced rfl rfl (min_le_right _ _) ?_ (fun _ _ registers => nomatch registers)
    intro found same
    obtain rfl := Option.some.inj (held.symm.trans same)
    refine ⟨⟨rfl, le_min (Nat.le_succ _) capped, fun changed => ?_⟩, fun case opened => ?_⟩
    · obtain owner | ⟨full, active⟩ := honest signed profile held
      · exact congrArg some owner.symm
      · exact absurd (by rw [full, ← active, min_eq_right (Nat.le_succ _), ← full]) changed
    · obtain ⟨found, same, blocked⟩ := synced _ case opened
      obtain rfl := Option.some.inj (held.symm.trans same)
      exact blocked

theorem flagSubscription_fair {id : Nat}
    (honest : ∀ profile score, s.subscription id = some profile →
      scoreProfile host.timestamp s profile (getSubscriptions s profile.subscriber) = .ok score →
        profile.scored score = profile ∧
          ∀ case, s.reviewCase id = some case → score.action = .approve → case.action = .approve)
    (run : flagSubscription host id s = .ok s') : Fair (.flagSubscription id) s s' := by
  obtain ⟨profile, held, run⟩ := (bind_eq_ok ..).mp run
  rw [expect_eq_ok] at held
  obtain ⟨score, scored, run⟩ := (bind_eq_ok ..).mp run
  obtain ⟨unchanged, unmoved⟩ := honest profile score held scored
  have named := (wellFormed id profile held).1
  have about := (scoreProfile_subscriptionId scored).trans named
  simp only [updateProfileAction, persistCase, held, about, unchanged] at run
  cases run
  have profiles : put s.subscription profile.subscriptionId profile = s.subscription := by
    rw [named]
    exact Function.update_eq_self_iff.mpr held.symm
  have blocked : profile.isBlocked = true ↔ score.action = .block := by
    rw [← unchanged]
    simp [SubscriptionProfile.scored]
  refine .cases wellFormed profiles ?_ rfl ?_
  · intro other case opened
    simp only [saveProfile, put_eq_some, profiles] at opened ⊢
    obtain ⟨rfl, rfl⟩ | ⟨_, opened⟩ := opened
    · exact ⟨profile, held, blocked⟩
    · exact synced other case opened
  · intro other case later opened held' unapproved approved
    simp only [saveProfile, put_eq_some] at held'
    obtain ⟨rfl, rfl⟩ | ⟨_, held'⟩ := held'
    · exact absurd (unmoved case opened approved) unapproved
    · rw [opened] at held'
      cases held'
      exact absurd approved unapproved

theorem resolveCase_fair {subscriber : Address} {id : Nat} {approved : Bool} (honest : host.authorized subscriber = true →
      ∀ profile case, s.subscription id = some profile → s.reviewCase id = some case →
        profile.isBlocked = !approved ∧ (approved = true → case.action ≠ .approve → case.subscriber ≠ subscriber))
    (run : resolveCase host subscriber id approved s = .ok s') : Fair (.resolveCase subscriber id approved) s s' := by
  obtain ⟨_, auth, run⟩ := (bind_eq_ok ..).mp run
  have signed := (host.requireAuth_eq_ok _ _).mp auth
  cases opened : s.reviewCase id with
  | none =>
    simp only [opened] at run
    cases run
    exact .same wellFormed synced rfl
  | some case =>
    simp only [opened] at run
    cases run
    obtain ⟨profile, stored, _⟩ := synced id case opened
    obtain ⟨agrees, apart⟩ := honest signed profile case stored opened
    refine .cases wellFormed rfl ?_ rfl ?_
    · intro other found held'
      rw [put_eq_some] at held'
      obtain ⟨rfl, rfl⟩ | ⟨_, held'⟩ := held'
      · refine ⟨profile, stored, ?_⟩
        cases approved <;> simp [FraudCase.review, agrees]
      · exact synced other found held'
    · intro other found later before after unapproved granted
      rw [put_eq_some] at after
      obtain ⟨rfl, rfl⟩ | ⟨_, after⟩ := after
      · obtain rfl := Option.some.inj (opened.symm.trans before)
        have approves : approved = true := by
          cases approved with
          | true => rfl
          | false => simp [FraudCase.review] at granted
        exact ⟨subscriber, rfl, (apart approves unapproved).symm⟩
      · rw [before] at after
        cases after
        exact absurd granted unapproved

theorem getFraudReport_fair {merchant : Address} {report : FraudReport}
    (honest : ∀ id ∈ getMerchantSubscriptions s merchant, ∀ profile score,
      s.subscription id = some profile → s.reviewCase id = none →
        scoreProfile host.timestamp s profile (getSubscriptions s profile.subscriber) = .ok score →
          reviewThreshold ≤ score.totalScore → (profile.isBlocked = true ↔ score.action = .block))
    (run : getFraudReport host merchant s = .ok (s', report)) : Fair (.getFraudReport merchant) s s' := by
  obtain ⟨survey, done, run⟩ := (bind_eq_ok ..).mp run
  cases run
  have surveyed := surveyed_of_rounds wellFormed (surveyed_start host.timestamp s _) (fun _ mem => mem) done
  refine .cases wellFormed surveyed.profiles ?_ rfl ?_
  · intro id case opened
    rw [surveyed.profiles]
    cases before : s.reviewCase id with
    | some old =>
      have kept := surveyed.old id old before
      obtain rfl := Option.some.inj (kept.symm.trans opened)
      exact synced id _ before
    | none =>
      obtain ⟨mem, profile, score, held, scored, risky, rfl⟩ := surveyed.opened id case opened before
      exact ⟨profile, held, honest id mem profile score held before scored risky⟩
  · intro id case later before after unapproved approved
    have kept := surveyed.old id case before
    obtain rfl := Option.some.inj (kept.symm.trans after)
    exact absurd approved unapproved

end

end Calls

section Runs

variable {w : World} {tx : Tx} {s : State}

theorem exec_fair (consistent : Consistent w) (honest : Honest w tx) (run : exec tx.host w.state tx.call = .ok s) :
    Fair tx.call w.state s := by
  obtain ⟨host, call⟩ := tx
  obtain ⟨wellFormed, _, synced⟩ := consistent
  cases call with
  | registerSubscription => exact registerSubscription_fair wellFormed synced honest run
  | recordUsagePattern => exact recordUsagePattern_fair wellFormed synced honest run
  | recordChargeback => exact recordChargeback_fair wellFormed synced honest run
  | assessRisk =>
    obtain ⟨_, _, run⟩ := (bind_eq_ok ..).mp run
    cases run
    exact .same wellFormed synced rfl
  | flagSubscription => exact flagSubscription_fair wellFormed synced honest run
  | resolveCase => exact resolveCase_fair wellFormed synced honest run
  | getFraudReport =>
    obtain ⟨⟨s', report⟩, done, run⟩ := (bind_eq_ok ..).mp run
    cases run
    exact getFraudReport_fair wellFormed synced honest done

theorem perform_ok (run : exec tx.host w.state tx.call = .ok s) :
    perform w tx = ⟨s, w.registrations ++ tx.call.registration.toList⟩ := by
  rw [perform, run]

theorem Consistent.perform (consistent : Consistent w) (honest : Honest w tx) : Consistent (perform w tx) := by
  cases run : exec tx.host w.state tx.call with
  | error panic => simpa [Fraud.perform, run] using consistent
  | ok s =>
    have fair := exec_fair consistent honest run
    rw [perform_ok run]
    refine ⟨fair.wellFormed, ?_, fair.synced⟩
    intro id subscriber mem
    rcases List.mem_append.mp mem with old | new
    · obtain ⟨profile, held, owner⟩ := consistent.owned id subscriber old
      obtain ⟨later, found, kept⟩ := fair.kept id profile held
      exact ⟨later, found, kept.subscriber.trans owner⟩
    · exact fair.registered id subscriber (Option.mem_toList.mp new)

theorem Consistent.lawful (consistent : Consistent w) (honest : Honest w tx) : Lawful w tx := by
  have after := consistent.perform honest
  cases run : exec tx.host w.state tx.call with
  | error panic =>
    have same : Fraud.perform w tx = w := by rw [Fraud.perform, run]
    refine ⟨?_, ?_, ?_, after.synced⟩
    · intro id subscriber _ changed
      exact absurd (by rw [same]) changed
    · intro id profile held
      exact ⟨profile, by rw [same, held], le_rfl⟩
    · intro id case later before found unapproved approved
      rw [same, before] at found
      cases found
      exact absurd approved unapproved
  | ok s =>
    have fair := exec_fair consistent honest run
    refine ⟨?_, ?_, ?_, after.synced⟩
    · intro id subscriber mem changed
      obtain ⟨profile, held, rfl⟩ := consistent.owned id subscriber mem
      obtain ⟨later, found, kept⟩ := fair.kept id profile held
      rw [perform_ok run, held, found] at changed
      exact kept.signed fun same => changed (congrArg some same)
    · intro id profile held
      obtain ⟨later, found, kept⟩ := fair.kept id profile held
      exact ⟨later, by rw [perform_ok run]; exact found, kept.chargebacks⟩
    · intro id case later before found
      rw [perform_ok run] at found
      exact fair.reviewed id case later before found

theorem consistent_of_honest {txs : List Tx} (honest : Throughout perform .deployed Honest txs) :
    Consistent (txs.foldl perform .deployed) :=
  honest.keeps Consistent consistent_deployed fun _ _ consistent honest => consistent.perform honest

/-- In a run of honest calls every call keeps the laws, and the flags of the profiles follow the cases at the end. -/
theorem unlaundered (txs : List Tx) (honest : Throughout perform .deployed Honest txs) :
    Throughout perform .deployed Lawful txs ∧ Synced (txs.foldl perform .deployed).state := by
  refine ⟨fun earlier tx later split => ?_, (consistent_of_honest honest).synced⟩
  exact (consistent_of_honest (honest.before split)).lawful (honest earlier tx later split)

end Runs

def hostAt (timestamp : Nat) (signer : Address) : Host := ⟨timestamp, (· = signer)⟩

def reviewedRun : List Tx :=
  [⟨hostAt 100 ⟨1⟩, .registerSubscription ⟨1⟩ ⟨2⟩ 7 100⟩, ⟨hostAt 100 ⟨1⟩, .recordChargeback ⟨1⟩ 7⟩,
    ⟨hostAt 100 ⟨3⟩, .flagSubscription 7⟩, ⟨hostAt 200 ⟨9⟩, .resolveCase ⟨9⟩ 7 true⟩]

theorem unlaundered_reviewedRun : Throughout perform .deployed Lawful reviewedRun ∧
    Synced (reviewedRun.foldl perform .deployed).state := by
  apply unlaundered
  refine .cons ?_ (.cons ?_ (.cons ?_ (.cons ?_ .nil)))
  · intro _ profile stored
    cases stored
  · intro _ profile stored
    cases stored
    exact .inl rfl
  · intro profile score stored scored
    cases stored
    cases scored
    exact ⟨rfl, fun case opened => nomatch opened⟩
  · intro _ profile case stored opened
    cases stored
    cases opened
    exact ⟨rfl, fun _ unapproved => absurd rfl unapproved⟩

def launderedRun : List Tx :=
  [⟨hostAt 100 ⟨1⟩, .registerSubscription ⟨1⟩ ⟨2⟩ 7 100⟩, ⟨hostAt 100 ⟨1⟩, .recordChargeback ⟨1⟩ 7⟩,
    ⟨hostAt 100 ⟨1⟩, .recordChargeback ⟨1⟩ 7⟩, ⟨hostAt 100 ⟨1⟩, .recordChargeback ⟨1⟩ 7⟩,
    ⟨hostAt 100 ⟨1⟩, .recordUsagePattern ⟨1⟩ 7 1 3⟩, ⟨hostAt 100 ⟨3⟩, .flagSubscription 7⟩]

theorem laundered : ¬ Throughout perform .deployed Lawful
    (launderedRun ++ [⟨hostAt 200 ⟨1⟩, .resolveCase ⟨1⟩ 7 true⟩]) := by
  intro lawful
  obtain ⟨reviewer, signed, other⟩ := lawful.last.reviewed 7 _ _ rfl rfl (by decide +kernel) (by decide +kernel)
  cases signed
  exact other (by decide +kernel)

end SubTrackr.Fraud
