import SubTrackr.Dunning.Escalation

namespace SubTrackr.Dunning

open List Lib

section Steps

variable {service service' start : DunningService} {id : String} {entry first : DunningEntry}
  {stages : List DunningStageConfig} {orderly : Orderly stages} {known : ℕ} {call : Call}

structure Aside (service service' : DunningService) (id : String) : Prop where
  found : service'.entries.find id = service.entries.find id
  configurations : service'.configurations = service.configurations
  retrySchedules : service'.retrySchedules = service.retrySchedules
  policies : service'.progressiveEngine.policies = service.progressiveEngine.policies
  events : ∃ others, service'.progressiveEngine.events = service.progressiveEngine.events ++ others ∧
    ∀ e ∈ others, e.subscriptionId ≠ id
  soFar : service'.progressiveEngine.escalationsSoFar id = service.progressiveEngine.escalationsSoFar id

theorem Aside.refl (service : DunningService) (id : String) : Aside service service id :=
  ⟨rfl, rfl, rfl, rfl, ⟨[], (append_nil _).symm, by simp⟩, rfl⟩

theorem Updated.aside {other other' : DunningEntry} (updated : Updated service service' other other')
    (books : service'.escalationBooks = service.escalationBooks) (apart : other.subscriptionId ≠ id) : Aside service service' id := by
  constructor
  · rw [updated.entries, set_find, updated.subscriptionId, if_neg apart.symm]
  · exact updated.configurations
  · exact updated.retrySchedules
  · exact updated.policies
  · exact ⟨[], (congrArg Prod.fst books).trans (append_nil _).symm, by simp⟩
  · unfold ProgressiveDunningEngine.escalationsSoFar
    rw [show service'.progressiveEngine.escalationCounts = _ from congrArg Prod.snd books]
    rfl

theorem Escalated.aside {other other' : DunningEntry} {event : EscalationEvent}
    (escalated : Escalated service service' other other' event) (apart : other.subscriptionId ≠ id) :
    Aside service service' id := by
  constructor
  · rw [escalated.updated.entries, set_find, escalated.updated.subscriptionId, if_neg apart.symm]
  · exact escalated.updated.configurations
  · exact escalated.updated.retrySchedules
  · exact escalated.updated.policies
  · refine ⟨[event], escalated.events, ?_⟩
    intro e mem
    rw [mem_singleton.mp mem, escalated.own]
    exact apart
  · unfold ProgressiveDunningEngine.escalationsSoFar
    rw [escalated.counts, put_of_ne _ _ apart.symm]

theorem recovered_aside {drawn : Drawn} {subject : String} (apart : subject ≠ id) :
    Aside service (service.recordSuccessfulCharge subject drawn).1 id := by
  unfold DunningService.recordSuccessfulCharge
  cases found : service.entries.find subject with
  | none => exact Aside.refl service id
  | some other =>
    have key := service.entries.keyed subject other found
    constructor
    · exact remove_of_ne _ apart.symm
    · rfl
    · rfl
    · rfl
    · exact ⟨[], (append_nil _).symm, by simp⟩
    · unfold ProgressiveDunningEngine.escalationsSoFar
      show (remove service.progressiveEngine.escalationCounts other.subscriptionId id).getD 0 = _
      rw [key, remove_of_ne _ apart.symm]

theorem recordFailedCharge_idle {failureType : FailureType} {drawn : Drawn} {subject : String}
    (idle : (service.entries.find subject).filter (fun e => !e.isPaused) = none) :
    (service.recordFailedCharge subject failureType drawn).1 = service := by
  unfold DunningService.recordFailedCharge
  rw [idle]

theorem perform_absent (absent : service.entries.find call.subject = none) : call.perform service = service := by
  cases call with
  | recordFailedCharge subject failureType drawn =>
    apply recordFailedCharge_idle
    rw [show service.entries.find subject = none from absent]
    rfl
  | progressiveEscalate subject now drawn =>
    have idle : service.progressiveEscalate subject now drawn = .ok (service, none) := by
      unfold DunningService.progressiveEscalate
      rw [show service.entries.find subject = none from absent]
      rfl
    show (service.progressiveEscalate subject now drawn).toOption.elim service Prod.fst = service
    rw [idle]
    rfl
  | pauseDunning subject drawn =>
    show (service.pauseDunning subject drawn).1 = service
    unfold DunningService.pauseDunning
    rw [show service.entries.find subject = none from absent]
  | resumeDunning subject drawn =>
    show (service.resumeDunning subject drawn).1 = service
    unfold DunningService.resumeDunning
    rw [show service.entries.find subject = none from absent]
  | recordSuccessfulCharge subject drawn =>
    show (service.recordSuccessfulCharge subject drawn).1 = service
    unfold DunningService.recordSuccessfulCharge
    rw [show service.entries.find subject = none from absent]

theorem perform_aside (apart : call.subject ≠ id) : Aside service (call.perform service) id := by
  cases found : service.entries.find call.subject with
  | none =>
    rw [perform_absent found]
    exact Aside.refl service id
  | some other =>
    have key := service.entries.keyed _ other found
    rw [← key] at apart
    cases call with
    | recordFailedCharge subject failureType drawn =>
      cases paused : other.isPaused with
      | true =>
        show Aside service (service.recordFailedCharge subject failureType drawn).1 id
        rw [recordFailedCharge_idle
          (by rw [show service.entries.find subject = some other from found, Option.filter_some, paused]; rfl)]
        exact Aside.refl service id
      | false =>
        obtain ⟨other', updated, books, -, -⟩ := @recordFailedCharge_cases _ _ _ failureType drawn found paused
        exact updated.aside books apart
    | progressiveEscalate subject now drawn =>
      rcases @progressiveEscalate_cases _ _ _ drawn now found with idle | ⟨moved, other', event, done, escalated⟩
      · show Aside service ((service.progressiveEscalate subject now drawn).toOption.elim service Prod.fst) id
        rw [show service.progressiveEscalate subject now drawn = _ from idle]
        exact Aside.refl service id
      · show Aside service ((service.progressiveEscalate subject now drawn).toOption.elim service Prod.fst) id
        rw [show service.progressiveEscalate subject now drawn = _ from done]
        exact escalated.aside apart
    | pauseDunning subject drawn =>
      obtain ⟨other', touched⟩ := @pauseDunning_cases _ _ _ drawn found
      exact touched.updated.aside touched.books apart
    | resumeDunning subject drawn =>
      obtain ⟨other', touched⟩ := @resumeDunning_cases _ _ _ drawn found
      exact touched.updated.aside touched.books apart
    | recordSuccessfulCharge subject drawn => exact recovered_aside (by rw [key] at apart; exact apart)

theorem Tracked.aside (tracked : Tracked stages orderly start first known id service entry) (aside : Aside service service' id) :
    Tracked stages orderly start first known id service' entry := by
  obtain ⟨others, events, apart⟩ := aside.events
  have same : escalations known id service' = escalations known id service := by
    have none_own : others.filter (fun e => e.subscriptionId = id) = [] := by
      apply filter_eq_nil_iff.mpr
      intro e mem
      simpa using apart e mem
    unfold escalations
    rw [events, drop_append_of_le_length tracked.known_le, filter_append, none_own, append_nil]
  constructor
  · exact aside.found.trans tracked.found
  · exact aside.configurations.trans tracked.configurations
  · exact aside.retrySchedules.trans tracked.retrySchedules
  · exact aside.policies.trans tracked.policies
  · exact tracked.plan
  · have more := tracked.known_le
    rw [events, length_append]
    omega
  · have within := tracked.within
    unfold position at within ⊢
    rw [same]
    exact within
  · rw [same, aside.soFar]
    exact tracked.counted
  · rw [same]
    exact tracked.allowed

theorem Touched.position_eq {entry' : DunningEntry} (touched : Touched service service' entry entry') :
    position stages known id service' entry' = position stages known id service entry := by
  rw [@Dunning.position_eq service service' id entry entry' stages known touched.books, touched.stage, touched.attempts,
    touched.total]
  rfl

section

variable (tracked : Tracked stages orderly start first known id service entry)

include tracked

theorem Tracked.touched {entry' : DunningEntry}
    (touched : Touched service service' entry entry') :
    Tracked stages orderly start first known id service' entry' ∧
      stageIndex entry.currentStage ≤ stageIndex entry'.currentStage := by
  constructor
  · apply tracked.changed touched.updated touched.books
    rw [touched.position_eq]
    exact .wait _
  · rw [touched.stage]

theorem Tracked.own
    (mem : stages = (start.strategyFor first).stagesInForce) (own : call.subject = id) (kept : call.recovers id = false) :
    ∃ entry', Tracked stages orderly start first known id (call.perform service) entry' ∧
      stageIndex entry.currentStage ≤ stageIndex entry'.currentStage := by
  have found := tracked.found
  cases call with
  | recordFailedCharge subject failureType drawn =>
    obtain rfl : subject = id := own
    cases paused : entry.isPaused with
    | true =>
      refine ⟨entry, ?_, le_refl _⟩
      show Tracked stages orderly start first known subject (service.recordFailedCharge subject failureType drawn).1 entry
      rw [recordFailedCharge_idle (by rw [found, Option.filter_some, paused]; rfl)]
      exact tracked
    | false =>
      obtain ⟨entry', updated, books, total, failed⟩ := @recordFailedCharge_cases _ _ _ failureType drawn found paused
      rw [strategyFor_eq tracked.configurations tracked.plan, ← mem] at failed
      have move := @failed_moves _ _ _ subject _ _ _ orderly known _ (tracked.schedule failureType) books total failed
      exact ⟨entry', tracked.changed updated books move, move.rank_le⟩
  | progressiveEscalate subject now drawn =>
    obtain rfl : subject = id := own
    show ∃ entry', Tracked stages orderly start first known subject
      ((service.progressiveEscalate subject now drawn).toOption.elim service Prod.fst) entry' ∧ _
    rcases @progressiveEscalate_cases _ _ _ drawn now found with idle | ⟨service', entry', event, done, escalated⟩
    · rw [idle]
      exact ⟨entry, tracked, le_refl _⟩
    · rw [done]
      exact ⟨entry', tracked.escalated escalated, escalated.forward.le⟩
  | pauseDunning subject drawn =>
    obtain rfl : subject = id := own
    obtain ⟨entry', touched⟩ := @pauseDunning_cases _ _ _ drawn found
    exact ⟨entry', tracked.touched touched⟩
  | resumeDunning subject drawn =>
    obtain rfl : subject = id := own
    obtain ⟨entry', touched⟩ := @resumeDunning_cases _ _ _ drawn found
    exact ⟨entry', tracked.touched touched⟩
  | recordSuccessfulCharge subject drawn =>
    unfold Call.recovers at kept
    unfold Call.subject at own
    rw [decide_eq_false_iff_not] at kept
    exact absurd own kept

theorem Tracked.run
    (mem : stages = (start.strategyFor first).stagesInForce) (calls : List Call)
    (kept : ∀ call ∈ calls, call.recovers id = false) :
    ∃ entry', Tracked stages orderly start first known id (run service calls) entry' ∧
      stageIndex entry.currentStage ≤ stageIndex entry'.currentStage := by
  induction calls generalizing service entry with
  | nil => exact ⟨entry, tracked, le_refl _⟩
  | cons call calls ih =>
    have later : ∀ c ∈ calls, c.recovers id = false := fun c member => kept c (mem_cons_of_mem _ member)
    show ∃ entry', Tracked stages orderly start first known id (Dunning.run (call.perform service) calls) entry' ∧ _
    by_cases own : call.subject = id
    · obtain ⟨entry', next, climbed⟩ := tracked.own mem own (kept call mem_cons_self)
      obtain ⟨last, reached, more⟩ := ih next later
      exact ⟨last, reached, climbed.trans more⟩
    · exact ih (tracked.aside (perform_aside own)) later

end

end Steps

section Starts

variable {service : DunningService} {id subscriberId merchantId planId : String} {failureReason : FailureReason}
  {drawn : Drawn}

theorem stagesInForce_head (strategy : RetryStrategy) :
    ∃ s ∈ strategy.stagesInForce, s.stage = (strategy.stages.head?.getD ⟨.retry, 1, 3, "payment_retry"⟩).stage := by
  unfold RetryStrategy.stagesInForce
  cases strategy.stages with
  | nil => exact ⟨⟨.retry, 1, 3, "payment_retry"⟩, by decide, rfl⟩
  | cons first rest => exact ⟨first, mem_cons_self, rfl⟩

theorem startDunning_spec (absent : service.entries.find id = none) :
    let started := service.startDunning id subscriberId merchantId planId failureReason drawn
    started.1.entries.find id = some started.2 ∧ started.1.configurations = service.configurations ∧
      started.2.failedAttempts = 0 ∧ started.2.totalFailedCharges = 0 ∧
      ∃ s ∈ (started.1.strategyFor started.2).stagesInForce, s.stage = started.2.currentStage := by
  unfold DunningService.startDunning
  rw [absent]
  dsimp only
  refine ⟨?_, rfl, rfl, rfl, ?_⟩
  · rw [set_find, if_pos rfl]
  · exact stagesInForce_head (service.getStrategy planId failureReason _)

theorem started_tracked (absent : service.entries.find id = none) :
    let started := service.startDunning id subscriberId merchantId planId failureReason drawn
    ∀ orderly : Orderly (started.1.strategyFor started.2).stagesInForce,
      Tracked (started.1.strategyFor started.2).stagesInForce orderly started.1 started.2
        started.1.progressiveEngine.events.length id started.1 started.2 := by
  intro started orderly
  obtain ⟨found, -, attempts, total, first, listed, stage⟩ := @startDunning_spec service id subscriberId merchantId planId
    failureReason drawn absent
  have fresh : escalations started.1.progressiveEngine.events.length id started.1 = [] := by
    unfold escalations
    rw [drop_length, filter_nil]
  constructor
  · exact found
  · rfl
  · rfl
  · rfl
  · rfl
  · exact le_refl _
  · have within := @Ladder.within_start _ _ _ (ladder _ orderly started.1) first listed
    unfold position
    rw [fresh, attempts, total, ← stage]
    exact within
  · rw [fresh]
    exact Nat.zero_le _
  · rw [fresh]
    exact ProgressiveDunningEngine.allowance_nonneg _ _

structure Standing (started : DunningService × DunningEntry) (id : String) (calls : List Call) (entry : DunningEntry) : Prop where
  found : (run started.1 calls).entries.find id = some entry
  escalated : ((escalations started.1.progressiveEngine.events.length id (run started.1 calls)).length : ℤ) ≤
    started.1.progressiveEngine.allowance started.2.planId
  ends :
    let stages := (started.1.strategyFor started.2).stagesInForce
    let strays := (escalations started.1.progressiveEngine.events.length id (run started.1 calls)).countP fun e =>
      missing stages e.toStage
    (stages.map DunningStageConfig.maxAttempts).sum + started.1.longestRetry * strays ≤ entry.totalFailedCharges →
      entry.currentStage = .cancel

theorem Tracked.standing {started : DunningService × DunningEntry} {calls : List Call} {entry : DunningEntry}
    {orderly : Orderly (started.1.strategyFor started.2).stagesInForce}
    (tracked : Tracked _ orderly started.1 started.2 started.1.progressiveEngine.events.length id
      (Dunning.run started.1 calls) entry) :
    Standing started id calls entry := by
  constructor
  · exact tracked.found
  · exact tracked.allowed
  · intro stages strays spent
    exact tracked.within.ends spent

theorem cancel_of_index {stage : DunningStage} (above : stageIndex .cancel ≤ stageIndex stage) : stage = .cancel := by
  revert above
  cases stage <;> decide

/-- An entry never goes back, is not escalated more often than its plan's policy allows, is cancelled once its failed charges
have used up the attempts of its stages and the retries of the stages off the list, and then stays so. -/
theorem only_escalates (absent : service.entries.find id = none)
    (orderly : Orderly ((service.startDunning id subscriberId merchantId planId failureReason drawn).1.strategyFor
      (service.startDunning id subscriberId merchantId planId failureReason drawn).2).stages)
    (calls more : List Call) (kept : ∀ call ∈ calls ++ more, call.recovers id = false) :
    ∃ entry later,
      Standing (service.startDunning id subscriberId merchantId planId failureReason drawn) id calls entry ∧
      Standing (service.startDunning id subscriberId merchantId planId failureReason drawn) id (calls ++ more) later ∧
      stageIndex entry.currentStage ≤ stageIndex later.currentStage ∧
      (entry.currentStage = .cancel → later.currentStage = .cancel) := by
  have first := @started_tracked service id subscriberId merchantId planId failureReason drawn absent orderly.inForce
  obtain ⟨entry, reached, -⟩ := first.run rfl calls fun call member => kept call (mem_append_left _ member)
  obtain ⟨later, beyond, climbed⟩ := reached.run rfl more fun call member => kept call (mem_append_right _ member)
  rw [run, run, ← foldl_append] at beyond
  refine ⟨entry, later, reached.standing, beyond.standing, climbed, ?_⟩
  intro cancelled
  rw [cancelled] at climbed
  exact cancel_of_index climbed

def twoStages : RetryStrategy := ⟨[⟨.retry, 1, 1, "payment_retry"⟩, ⟨.cancel, 168, 1, "subscription_cancellation"⟩], [.email]⟩

def twoStageService : DunningService where
  entries := ⟨fun _ => none, by simp⟩
  configurations := fun _ => some ⟨"plan", twoStages, fun _ => none, none⟩
  communicationLog := fun _ => none
  templates := []
  retrySchedules := DEFAULT_RETRY_SCHEDULES
  retryHistory := []
  recoveredEntries := []
  progressiveEngine := .new

theorem twoStages_orderly : Orderly twoStages.stages := by
  constructor
  · decide
  · decide

theorem only_escalates_twoStages : ∃ entry later,
      Standing (twoStageService.startDunning "sub" "user" "merchant" "plan" .default ⟨0, 0, "d", "e", "c"⟩) "sub" [] entry ∧
      Standing (twoStageService.startDunning "sub" "user" "merchant" "plan" .default ⟨0, 0, "d", "e", "c"⟩) "sub"
        ([] ++ [.recordFailedCharge "sub" .unknown ⟨1, 0, "d", "e", "c"⟩]) later ∧
      stageIndex entry.currentStage ≤ stageIndex later.currentStage ∧
      (entry.currentStage = .cancel → later.currentStage = .cancel) :=
  @only_escalates twoStageService "sub" "user" "merchant" "plan" .default ⟨0, 0, "d", "e", "c"⟩ rfl twoStages_orderly [] _
    (by decide)

theorem not_ended_by_attempts :
    ¬∀ (service : DunningService) (id subscriberId merchantId planId : String) (failureReason : FailureReason) (drawn : Drawn)
      (calls : List Call), service.entries.find id = none →
      let started := service.startDunning id subscriberId merchantId planId failureReason drawn
      let stages := (started.1.strategyFor started.2).stages
      Orderly stages → (∀ call ∈ calls, call.recovers id = false) →
      ∀ entry ∈ (run started.1 calls).entries.find id,
        (stages.map DunningStageConfig.maxAttempts).sum ≤ entry.totalFailedCharges → entry.currentStage = .cancel := by
  intro claim
  let failure : Call := .recordFailedCharge "sub" .network_error ⟨4 * ONE_HOUR_MS, 0, "d", "e", "c"⟩
  let calls : List Call := [.progressiveEscalate "sub" (3 * ONE_HOUR_MS) ⟨3 * ONE_HOUR_MS, 0, "d", "e", "c"⟩, failure, failure]
  have ended := claim twoStageService "sub" "user" "merchant" "plan" .default ⟨0, 0, "d", "e", "c"⟩ calls rfl twoStages_orderly
    (by decide)
  have reached : ((run (twoStageService.startDunning "sub" "user" "merchant" "plan" .default ⟨0, 0, "d", "e", "c"⟩).1
      calls).entries.find "sub").any (fun e => e.totalFailedCharges = 2 && e.currentStage = .warn) = true := by
    decide +kernel
  obtain ⟨entry, found, stuck⟩ := (Option.any_eq_true _ _).mp reached
  rw [Bool.and_eq_true, decide_eq_true_eq, decide_eq_true_eq] at stuck
  have cancelled := ended entry found (by rw [stuck.1]; decide)
  rw [stuck.2] at cancelled
  cases cancelled

end Starts

end SubTrackr.Dunning
