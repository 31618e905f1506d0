import SubTrackr.Charging.RetryQueue

namespace SubTrackr.Charging

open Option List Lib Soroban

section Rounds

variable {env : SweepEnv} {sweep after : Sweep} {s : State} {id : Nat}

/-- The queue tries an attempt in this state: it can be retried, its time has come and the breaker is not active. -/
def Ready (now : Nat) (attempt : ChargeAttempt) : Prop :=
  ¬ (attempt.status = .retrying ∧ now < attempt.nextRetryAt) ∧ isCircuitBreakerActive now attempt = false ∧
    (attempt.status = .retrying ∨ attempt.status = .failed)

instance (now : Nat) (attempt : ChargeAttempt) : Decidable (Ready now attempt) := inferInstanceAs (Decidable (_ ∧ _))

def transferOf (env : SweepEnv) (s : State) (id : Nat) : Option Transfer :=
  (s.attempt id).bind fun attempt =>
    if Ready env.now attempt then
      (env.subscriptionInfo attempt.subscriptionId).map fun info => ⟨id, info, env.transferOk id⟩
    else none

structure Settled (attempt later : ChargeAttempt) (ok : Bool) : Prop where
  id : later.id = attempt.id
  subscriptionId : later.subscriptionId = attempt.subscriptionId
  amount : later.amount = attempt.amount
  completed : ok = true → later.status = .completed
  counted : ok = false → later.retryCount = attempt.retryCount + 1

def Leaves (transfer : Option Transfer) (before after : Option ChargeAttempt) : Prop :=
  match transfer with
  | some t => ∃ attempt later, before = some attempt ∧ after = some later ∧ Settled attempt later t.ok
  | none => after = before ∨ ∃ attempt, before = some attempt ∧ (attempt.status = .retrying ∨ attempt.status = .failed) ∧
      after = some { attempt with status := .failed, errorMessage := "Subscription not found" }

structure Frame (s t : State) : Prop where
  count : t.count = s.count
  retryPolicy : t.retryPolicy = s.retryPolicy
  queue : (getRetryQueue t).Sublist (getRetryQueue s)

theorem Frame.refl (s : State) : Frame s s := ⟨rfl, rfl, List.Sublist.refl _⟩

theorem Frame.trans {s t u : State} (first : Frame s t) (second : Frame t u) : Frame s u :=
  ⟨second.count.trans first.count, second.retryPolicy.trans first.retryPolicy, second.queue.trans first.queue⟩

theorem dequeueRetry_attempt (id : Nat) (s : State) : (dequeueRetry id s).attempt = s.attempt := by
  unfold dequeueRetry
  split <;> rfl

theorem dequeueRetry_frame (id : Nat) (s : State) : Frame s (dequeueRetry id s) := by
  unfold dequeueRetry
  cases held : s.retryQueue with
  | none => exact .refl s
  | some queue =>
    refine ⟨rfl, rfl, ?_⟩
    simp only [getRetryQueue, held, getD_some]
    exact filter_sublist

theorem endGracePeriod_attempt (status : GracePeriodStatus) (subId : Nat) (s : State) :
    (endGracePeriod status subId s).attempt = s.attempt := by
  unfold endGracePeriod
  split
  · split <;> rfl
  · rfl

theorem endGracePeriod_frame (status : GracePeriodStatus) (subId : Nat) (s : State) :
    Frame s (endGracePeriod status subId s) := by
  unfold endGracePeriod
  split
  · split
    · exact .refl s
    · exact ⟨rfl, rfl, List.Sublist.refl _⟩
  · exact .refl s

theorem putAttempt_frame (s : State) (attempt : ChargeAttempt) : Frame s (putAttempt s attempt) :=
  ⟨rfl, rfl, List.Sublist.refl _⟩

variable {attempt : ChargeAttempt}

theorem markFailed_ok {now : Nat} {later : ChargeAttempt} {errorMessage : String} {config : RetryConfig}
    {t : State} {rescheduled : Bool} (run : markFailed now attempt errorMessage config s = .ok (t, later, rescheduled)) :
    t = putAttempt s later ∧ later.id = attempt.id ∧ later.subscriptionId = attempt.subscriptionId ∧
      later.amount = attempt.amount ∧ later.retryCount = attempt.retryCount + 1 := by
  unfold markFailed at run
  simp only [bind_eq_ok, u32_eq_ok] at run
  obtain ⟨_, ⟨_, rfl⟩, run⟩ := run
  split at run
  · cases run
    exact ⟨rfl, rfl, rfl, rfl, rfl⟩
  · simp only [bind_eq_ok, u64_eq_ok] at run
    obtain ⟨_, _, run⟩ := run
    cases run
    exact ⟨rfl, rfl, rfl, rfl, rfl⟩

theorem applyCircuitBreaker_ok {now : Nat} {later : ChargeAttempt} {config : RetryConfig} {t : State}
    (run : applyCircuitBreaker now attempt config s = .ok (t, later)) :
    (t = s ∧ later = attempt ∨ t = putAttempt s later) ∧ later.id = attempt.id ∧
      later.subscriptionId = attempt.subscriptionId ∧ later.amount = attempt.amount ∧
        later.retryCount = attempt.retryCount := by
  unfold applyCircuitBreaker at run
  split at run
  · cases run
    exact ⟨.inl ⟨rfl, rfl⟩, rfl, rfl, rfl, rfl⟩
  · simp only [bind_eq_ok] at run
    obtain ⟨_, _, run⟩ := run
    cases run
    exact ⟨.inr rfl, rfl, rfl, rfl, rfl⟩

theorem settle_ok (named : attempt.id = id)
    (held : sweep.state.attempt id = some attempt) (done : settle env id attempt sweep = .ok after) :
    after.transfers = sweep.transfers ∧ Frame sweep.state after.state ∧
      (∀ j, j ≠ id → after.state.attempt j = sweep.state.attempt j) ∧
        ∃ later, after.state.attempt id = some later ∧ Settled attempt later (env.transferOk id) := by
  subst named
  unfold settle at done
  cases ok : env.transferOk attempt.id with
  | true =>
    simp only [ok, if_true] at done
    cases done
    refine ⟨rfl, ?_, fun j other => ?_, ?_⟩
    · exact ((putAttempt_frame _ _).trans (endGracePeriod_frame ..)).trans (dequeueRetry_frame _ _)
    · rw [dequeueRetry_attempt, recoverGracePeriod, endGracePeriod_attempt]
      exact put_of_ne _ _ other
    · rw [dequeueRetry_attempt, recoverGracePeriod, endGracePeriod_attempt]
      exact ⟨_, put_self .., rfl, rfl, rfl, fun _ => rfl, nofun⟩
  | false =>
    simp only [ok, Bool.false_eq_true, if_false] at done
    obtain ⟨⟨t, failed, rescheduled⟩, marks, done⟩ := (bind_eq_ok ..).mp done
    obtain ⟨rfl, same_id, same_sub, same_amount, counted⟩ := markFailed_ok marks
    cases rescheduled with
    | true =>
      simp only [if_true] at done
      obtain ⟨⟨u, later⟩, breaks, done⟩ := (bind_eq_ok ..).mp done
      cases done
      obtain ⟨writes, later_id, later_sub, later_amount, later_count⟩ := applyCircuitBreaker_ok breaks
      have settled : Settled attempt later false :=
        ⟨later_id.trans same_id, later_sub.trans same_sub, later_amount.trans same_amount, nofun,
          fun _ => later_count.trans counted⟩
      have written : u.attempt = put sweep.state.attempt attempt.id later := by
        obtain ⟨rfl, rfl⟩ | rfl := writes
        · simp only [putAttempt, same_id]
        · simp only [putAttempt, same_id, later_id, put_put]
      have framed : Frame sweep.state u := by
        obtain ⟨rfl, _⟩ | rfl := writes
        · exact putAttempt_frame _ _
        · exact (putAttempt_frame _ _).trans (putAttempt_frame _ _)
      refine ⟨rfl, framed, fun j other => ?_, later, ?_, settled⟩
      · rw [written, put_of_ne _ _ other]
      · rw [written, put_self]
    | false =>
      simp only [Bool.false_eq_true, if_false] at done
      cases done
      have settled : Settled attempt failed false := ⟨same_id, same_sub, same_amount, nofun, fun _ => counted⟩
      refine ⟨rfl, ?_, fun j other => ?_, failed, ?_, settled⟩
      · exact ((putAttempt_frame _ _).trans (endGracePeriod_frame ..)).trans (dequeueRetry_frame _ _)
      · rw [dequeueRetry_attempt, expireGracePeriod, endGracePeriod_attempt, putAttempt, same_id]
        exact put_of_ne _ _ other
      · rw [dequeueRetry_attempt, expireGracePeriod, endGracePeriod_attempt, putAttempt, same_id]
        exact put_self ..

theorem round_ok (named : ∀ id attempt, sweep.state.attempt id = some attempt → attempt.id = id)
    (done : sweep.round env id = .ok after) :
    after.transfers = sweep.transfers ++ (transferOf env sweep.state id).toList ∧ Frame sweep.state after.state ∧
      (∀ j, j ≠ id → after.state.attempt j = sweep.state.attempt j) ∧
        Leaves (transferOf env sweep.state id) (sweep.state.attempt id) (after.state.attempt id) := by
  unfold Sweep.round at done
  unfold transferOf
  cases held : sweep.state.attempt id with
  | none =>
    simp only [held] at done
    cases done
    refine ⟨by simp, dequeueRetry_frame _ _, fun j _ => ?_, .inl ?_⟩
    · rw [dequeueRetry_attempt]
    · rw [dequeueRetry_attempt, held]
  | some attempt =>
    have own := named id attempt held
    simp only [held] at done
    split at done
    · rename_i early
      have unready : ¬ Ready env.now attempt := fun ready => ready.1 early
      cases done
      simp only [bind_some, unready, if_false, toList_none, append_nil]
      exact ⟨trivial, .refl _, fun _ _ => trivial, .inl held⟩
    · rename_i due
      split at done
      · rename_i active
        have unready : ¬ Ready env.now attempt := fun ready => by simp [ready.2.1] at active
        cases done
        simp only [bind_some, unready, if_false, toList_none, append_nil]
        exact ⟨trivial, .refl _, fun _ _ => trivial, .inl held⟩
      · rename_i closed
        split at done
        · rename_i other
          have unready : ¬ Ready env.now attempt := fun ready => other ready.2.2
          cases done
          simp only [bind_some, unready, if_false, toList_none, append_nil]
          refine ⟨trivial, dequeueRetry_frame _ _, fun j _ => by rw [dequeueRetry_attempt], .inl ?_⟩
          rw [dequeueRetry_attempt, held]
        · rename_i retryable
          have status := not_not.mp retryable
          have ready : Ready env.now attempt := ⟨due, by simpa using closed, status⟩
          simp only [bind_some, ready, if_true]
          cases known : env.subscriptionInfo attempt.subscriptionId with
          | none =>
            simp only [known] at done
            cases done
            simp only [map_none, toList_none, append_nil]
            refine ⟨trivial, (putAttempt_frame _ _).trans (dequeueRetry_frame _ _), fun j other => ?_,
              .inr ⟨attempt, rfl, status, ?_⟩⟩
            · rw [dequeueRetry_attempt, putAttempt, own]
              exact put_of_ne _ _ other
            · rw [dequeueRetry_attempt, putAttempt, own]
              exact put_self ..
          | some info =>
            simp only [known] at done
            have written (tried : ChargeAttempt) (same : tried.id = id) :
                (putAttempt sweep.state tried).attempt id = some tried := by simp only [putAttempt, same, put_self]
            have tried : ({ attempt with status := .attempting, attemptedAt := env.now, errorMessage := "" } : ChargeAttempt).id = id :=
              own
            obtain ⟨same, framed, others, later, found, settled⟩ := settle_ok tried (written _ tried) done
            refine ⟨same, (putAttempt_frame _ _).trans framed, fun j other => ?_, attempt, later, rfl, found, ?_⟩
            · rw [others j other]
              simp only [putAttempt, own]
              exact put_of_ne _ _ other
            · exact ⟨settled.id, settled.subscriptionId, settled.amount, settled.completed, settled.counted⟩

theorem transferOf_congr {t : State} (same : t.attempt id = s.attempt id) : transferOf env t id = transferOf env s id := by
  simp only [transferOf, same]

theorem transferOf_eq_some {t : Transfer} : transferOf env s id = some t ↔ ∃ attempt info, s.attempt id = some attempt ∧
    Ready env.now attempt ∧ env.subscriptionInfo attempt.subscriptionId = some info ∧ t = ⟨id, info, env.transferOk id⟩ := by
  unfold transferOf
  cases s.attempt id with
  | none => simp
  | some attempt =>
    by_cases ready : Ready env.now attempt
    · simp [ready, eq_comm]
    · simp [ready]

theorem transferOf_chargeId {t : Transfer} (tried : transferOf env s id = some t) : t.chargeId = id := by
  obtain ⟨_, _, _, _, _, rfl⟩ := transferOf_eq_some.mp tried
  rfl

theorem mem_transfers {ids : List Nat} {t : Transfer} :
    t ∈ ids.filterMap (transferOf env s) ↔ t.chargeId ∈ ids ∧ transferOf env s t.chargeId = some t := by
  rw [mem_filterMap]
  constructor
  · rintro ⟨j, mem, tried⟩
    rw [transferOf_chargeId tried]
    exact ⟨mem, tried⟩
  · rintro ⟨mem, tried⟩
    exact ⟨_, mem, tried⟩

theorem transfers_sublist (ids : List Nat) : ((ids.filterMap (transferOf env s)).map (·.chargeId)).Sublist ids := by
  induction ids with
  | nil => exact .slnil
  | cons j ids ih =>
    cases tried : transferOf env s j with
    | none =>
      rw [filterMap_cons_none tried]
      exact ih.cons _
    | some t =>
      rw [filterMap_cons_some tried, map_cons, transferOf_chargeId tried]
      exact ih.cons_cons _

structure Swept (env : SweepEnv) (s : State) (done : List Nat) (sweep : Sweep) : Prop where
  transfers : sweep.transfers = done.filterMap (transferOf env s)
  frame : Frame s sweep.state
  untouched (id : Nat) : id ∉ done → sweep.state.attempt id = s.attempt id
  touched (id : Nat) : id ∈ done → Leaves (transferOf env s id) (s.attempt id) (sweep.state.attempt id)

theorem leaves_same {transfer : Option Transfer} {old new : Option ChargeAttempt} (leaves : Leaves transfer old new) (found : new = some attempt) :
    ∃ before, old = some before ∧ before.id = attempt.id ∧ before.amount = attempt.amount := by
  subst found
  cases transfer with
  | some t =>
    obtain ⟨before, later, known, same, settled⟩ := leaves
    cases same
    exact ⟨before, known, settled.id.symm, settled.amount.symm⟩
  | none =>
    obtain same | ⟨before, known, _, same⟩ := leaves
    · exact ⟨attempt, same.symm, rfl, rfl⟩
    · cases same
      exact ⟨before, known, rfl, rfl⟩

theorem Swept.named {done : List Nat} (swept : Swept env s done sweep)
    (named : ∀ id attempt, s.attempt id = some attempt → attempt.id = id) (id : Nat) (attempt : ChargeAttempt)
    (held : sweep.state.attempt id = some attempt) : attempt.id = id := by
  by_cases mem : id ∈ done
  · obtain ⟨before, known, same, _⟩ := leaves_same (swept.touched id mem) held
    rw [← same]
    exact named id before known
  · rw [swept.untouched id mem] at held
    exact named id attempt held

theorem swept_of_rounds {done rest : List Nat} (swept : Swept env s done sweep) (nodup : (done ++ rest).Nodup)
    (named : ∀ id attempt, s.attempt id = some attempt → attempt.id = id)
    (rounds : rest.foldlM (Sweep.round env) sweep = .ok after) : Swept env s (done ++ rest) after := by
  induction rest generalizing done sweep with
  | nil =>
    cases rounds
    rw [append_nil]
    exact swept
  | cons id rest ih =>
    rw [foldlM_cons, bind_eq_ok] at rounds
    obtain ⟨middle, first, rounds⟩ := rounds
    rw [← singleton_append, ← append_assoc] at nodup ⊢
    have fresh : id ∉ done := fun mem => (nodup_append.mp (nodup_append.mp nodup).1).2.2 id mem id (by simp) rfl
    obtain ⟨transfers, frame, others, leaves⟩ := round_ok (swept.named named) first
    rw [transferOf_congr (swept.untouched id fresh)] at transfers leaves
    rw [swept.untouched id fresh] at leaves
    refine ih ⟨?_, swept.frame.trans frame, fun j absent => ?_, fun j mem => ?_⟩ nodup rounds
    · rw [transfers, swept.transfers, filterMap_append]
      cases made : transferOf env s id <;> simp [made]
    · rw [mem_append, not_or] at absent
      rw [others j (by simpa using absent.2), swept.untouched j absent.1]
    · by_cases here : j = id
      · exact here ▸ leaves
      · rw [others j here]
        exact swept.touched j (by simpa [here] using mem)

theorem swept_of_process (nodup : (getRetryQueue s).Nodup)
    (named : ∀ id attempt, s.attempt id = some attempt → attempt.id = id) (done : processRetryQueue env s = .ok sweep) :
    Swept env s ((getRetryQueue s).take maxRetryBatchSize) sweep := by
  have start : Swept env s [] ⟨s, [], 0⟩ :=
    ⟨rfl, .refl s, fun _ _ => rfl, fun _ mem => absurd mem not_mem_nil⟩
  exact swept_of_rounds start (nodup.sublist (take_sublist _ _)) named done

theorem Swept.cases {ids : List Nat} (swept : Swept env s ids sweep) (id : Nat) :
    (∃ t ∈ sweep.transfers, t.chargeId = id ∧ ∃ attempt later, s.attempt id = some attempt ∧ Ready env.now attempt ∧
      sweep.state.attempt id = some later ∧ Settled attempt later t.ok) ∨
    (∀ t ∈ sweep.transfers, t.chargeId ≠ id) ∧ Leaves none (s.attempt id) (sweep.state.attempt id) := by
  rw [swept.transfers]
  by_cases mem : id ∈ ids
  · have leaves := swept.touched id mem
    cases tried : transferOf env s id with
    | some t =>
      rw [tried] at leaves
      have same := transferOf_chargeId tried
      obtain ⟨attempt, later, known, found, settled⟩ := leaves
      obtain ⟨_, _, known', ready, _⟩ := transferOf_eq_some.mp tried
      cases known.symm.trans known'
      exact .inl ⟨t, mem_transfers.mpr (same ▸ ⟨mem, tried⟩), same, attempt, later, known, ready, found, settled⟩
    | none =>
      rw [tried] at leaves
      refine .inr ⟨fun t made same => ?_, leaves⟩
      have := (mem_transfers.mp made).2
      rw [same, tried] at this
      cases this
  · refine .inr ⟨fun t made same => mem (same ▸ (mem_transfers.mp made).1), .inl (swept.untouched id mem)⟩

theorem tries_le_one {ids : List Nat} (nodup : ids.Nodup) (id : Nat) :
    (ids.filterMap (transferOf env s)).countP (·.chargeId = id) ≤ 1 := by
  have sub : ((ids.filterMap (transferOf env s)).map (·.chargeId)).Sublist ids := transfers_sublist ids
  have once := nodup_iff_count_le_one.mp (nodup.sublist sub) id
  rw [List.count, countP_map] at once
  exact once

end Rounds

section Histories

/-- The module with what its calls have done: the transfers, the amount of each attempt at its start, and which attempts
    were completed or aborted. -/
structure World where
  state : State
  transfers : List Transfer
  recorded : List (Nat × Int)
  (completed aborted : List Nat)

def World.deployed : World := ⟨.empty, [], [], [], []⟩

def startedBy (w : World) : Call → List (Nat × Int)
  | .startCharge _ amount => [(w.state.count.getD 0 + 1, amount)]
  | _ => []

def completedBy (transfers : List Transfer) : Call → List Nat
  | .markCompleted _ attempt => [attempt.id]
  | _ => (transfers.filter (·.ok)).map (·.chargeId)

def abortedBy : Call → List Nat
  | .abortCharge attempt => [attempt.id]
  | _ => []

def perform (w : World) (call : Call) : World :=
  match exec w.state call with
  | .ok (s, transfers) =>
    { state := s
      transfers := w.transfers ++ transfers
      recorded := w.recorded ++ startedBy w call
      completed := w.completed ++ completedBy transfers call
      aborted := w.aborted ++ abortedBy call }
  | .error _ => w

def triesOf (w : World) (id : Nat) : Nat := w.transfers.countP (·.chargeId = id)

def successesOf (w : World) (id : Nat) : Nat := w.transfers.countP fun t => t.chargeId = id ∧ t.ok = true

def ReadyEntry (env : SweepEnv) (s : State) (id : Nat) : Prop :=
  ∃ attempt, s.attempt id = some attempt ∧ Ready env.now attempt

structure Lawful (w : World) (call : Call) (transfers : List Transfer) : Prop where
  pending (t : Transfer) : t ∈ transfers → t.chargeId ∉ w.completed ∧ t.chargeId ∉ w.aborted
  amount (t : Transfer) : t ∈ transfers → (t.chargeId, t.info.amount) ∈ w.recorded
  budget (t : Transfer) : t ∈ transfers → ∃ attempt, w.state.attempt t.chargeId = some attempt ∧
    triesOf w t.chargeId + 1 ≤ (getRetryPolicy w.state attempt.subscriptionId).maxRetries
  distinct : (transfers.map (·.chargeId)).Nodup
  fair (env : SweepEnv) : call = .processRetryQueue env →
    (∀ id ∈ getRetryQueue w.state, ReadyEntry env w.state id → ∃ t ∈ transfers, t.chargeId = id) ∨
      transfers.length = maxRetryBatchSize

def PaidOnce (w : World) : Prop := ∀ id, successesOf w id ≤ 1

def LawfulCall (w : World) (call : Call) : Prop := ∀ s transfers, exec w.state call = .ok (s, transfers) → Lawful w call transfers

def UpToDate (s : State) (attempt : ChargeAttempt) : Prop :=
  ∃ stored, s.attempt attempt.id = some stored ∧ attempt.subscriptionId = stored.subscriptionId ∧
    attempt.amount = stored.amount ∧ stored.retryCount ≤ attempt.retryCount

def Reaches (env : SweepEnv) (s : State) : Prop :=
  (∀ id ∈ getRetryQueue s, ReadyEntry env s id →
    id ∈ (getRetryQueue s).take maxRetryBatchSize ∧ (transferOf env s id).isSome = true) ∨
  ((getRetryQueue s).take maxRetryBatchSize).length = maxRetryBatchSize ∧
    ∀ id ∈ (getRetryQueue s).take maxRetryBatchSize, (transferOf env s id).isSome = true

def Careful (w : World) : Call → Prop
  | .setRetryPolicy _ _ => True
  | .startCharge _ _ => True
  | .enqueueRetry chargeId => chargeId ∉ w.aborted
  | .processRetryQueue env => Reaches env w.state ∧
      ∀ id ∈ (getRetryQueue w.state).take maxRetryBatchSize, ∀ attempt info, w.state.attempt id = some attempt →
        Ready env.now attempt → env.subscriptionInfo attempt.subscriptionId = some info →
          info.amount = attempt.amount ∧
            attempt.retryCount < (getRetryPolicy w.state attempt.subscriptionId).maxRetries
  | .retryCharge _ _ _ => True
  | .markFailed _ attempt _ _ => UpToDate w.state attempt ∧ attempt.id ∉ w.completed
  | .applyCircuitBreaker _ attempt _ => UpToDate w.state attempt ∧ attempt.id ∉ w.completed
  | .markCompleted _ attempt => UpToDate w.state attempt
  | .abortCharge attempt =>
    UpToDate w.state attempt ∧ attempt.id ∉ w.completed ∧ attempt.id ∉ getRetryQueue w.state

structure Safe (w : World) : Prop where
  named (id : Nat) (attempt : ChargeAttempt) : w.state.attempt id = some attempt →
    attempt.id = id ∧ id ≤ w.state.count.getD 0 ∧ (id, attempt.amount) ∈ w.recorded
  distinct : (getRetryQueue w.state).Nodup
  tried (t : Transfer) : t ∈ w.transfers → ∃ attempt, w.state.attempt t.chargeId = some attempt
  completed (id : Nat) : id ∈ w.completed → ∃ attempt, w.state.attempt id = some attempt ∧ attempt.status = .completed
  aborted (id : Nat) : id ∈ w.aborted → id ∉ getRetryQueue w.state
  counted (id : Nat) (attempt : ChargeAttempt) : w.state.attempt id = some attempt → id ∉ w.completed →
    triesOf w id ≤ attempt.retryCount
  paid (id : Nat) : successesOf w id ≤ 1 ∧ (id ∉ w.completed → successesOf w id = 0)

section Kept

variable {w : World} {call : Call}

theorem perform_ok {s : State} {transfers : List Transfer} (run : exec w.state call = .ok (s, transfers)) :
    perform w call = ⟨s, w.transfers ++ transfers, w.recorded ++ startedBy w call,
      w.completed ++ completedBy transfers call, w.aborted ++ abortedBy call⟩ := by
  simp only [perform, run]

theorem perform_quiet {s : State} (run : exec w.state call = .ok (s, [])) (starts : startedBy w call = [])
    (completes : completedBy [] call = []) (aborts : abortedBy call = []) : perform w call = { w with state := s } := by
  rw [perform_ok run, starts, completes, aborts]
  simp only [append_nil]

theorem perform_error {p : Panic} (run : exec w.state call = .error p) : perform w call = w := by
  simp only [perform, run]

variable {later : ChargeAttempt}

theorem Safe.store (safe : Safe w) {held : ChargeAttempt} {done : List Nat}
    (found : w.state.attempt later.id = some held) (amount : later.amount = held.amount)
    (mem : ∀ id ∈ done, id = later.id) (ends : later.id ∈ w.completed ++ done → later.status = .completed)
    (counts : later.id ∉ w.completed ++ done → held.retryCount ≤ later.retryCount) :
    Safe { w with state := putAttempt w.state later, completed := w.completed ++ done } where
  named id attempt known := by
    simp only [putAttempt, put_apply] at known
    split at known
    · rename_i here
      cases known
      rw [here, amount]
      exact ⟨rfl, (safe.named _ _ found).2⟩
    · exact safe.named id attempt known
  distinct := safe.distinct
  tried t made := by
    obtain ⟨attempt, known⟩ := safe.tried t made
    simp only [putAttempt, put_apply]
    split
    · exact ⟨_, rfl⟩
    · exact ⟨attempt, known⟩
  completed id ended := by
    simp only [putAttempt, put_apply]
    split
    · rename_i here
      exact ⟨later, rfl, ends (here ▸ ended)⟩
    · rename_i other
      exact safe.completed id ((mem_append.mp ended).resolve_right fun new => other (mem id new))
  aborted := safe.aborted
  counted id attempt known unpaid := by
    simp only [putAttempt, put_apply] at known
    split at known
    · rename_i here
      subst here
      cases known
      have before := safe.counted _ _ found fun ended => unpaid (mem_append_left _ ended)
      exact before.trans (counts unpaid)
    · exact safe.counted id attempt known fun ended => unpaid (mem_append_left _ ended)
  paid id := ⟨(safe.paid id).1, fun unpaid => (safe.paid id).2 fun ended => unpaid (mem_append_left _ ended)⟩

theorem Safe.update (safe : Safe w) {held : ChargeAttempt} (found : w.state.attempt later.id = some held)
    (amount : later.amount = held.amount) (ends : later.id ∉ w.completed)
    (counts : held.retryCount ≤ later.retryCount) : Safe { w with state := putAttempt w.state later } := by
  have done : Safe { w with state := putAttempt w.state later, completed := w.completed ++ [] } :=
    safe.store found amount nofun (fun ended => absurd ended (by simpa using ends)) fun _ => counts
  rw [append_nil] at done
  exact done

variable {attempt : ChargeAttempt}

theorem Safe.start (safe : Safe w) {subId : Nat} {amount : Int} {s : State}
    (run : startCharge subId amount w.state = .ok (s, attempt)) :
    Safe { w with state := s, recorded := w.recorded ++ [(w.state.count.getD 0 + 1, amount)] } := by
  unfold startCharge at run
  obtain ⟨id, fits, run⟩ := (bind_eq_ok ..).mp run
  obtain ⟨_, rfl⟩ := (u64_eq_ok _ _).mp fits
  cases run
  have fresh (id : Nat) (attempt : ChargeAttempt) (known : w.state.attempt id = some attempt) :
      id ≠ w.state.count.getD 0 + 1 := by
    have := (safe.named id attempt known).2.1
    omega
  have kept (id : Nat) (known : ∃ attempt, w.state.attempt id = some attempt) :
      id ≠ w.state.count.getD 0 + 1 := fresh id _ known.choose_spec
  refine ⟨fun id attempt known => ?_, safe.distinct, fun t made => ?_, fun id ended => ?_, safe.aborted,
    fun id attempt known unpaid => ?_, safe.paid⟩
  · simp only [putAttempt, put_apply] at known
    split at known
    · rename_i here
      cases known
      exact ⟨here.symm, here.le, by simp [here]⟩
    · obtain ⟨same, below, mem⟩ := safe.named id attempt known
      exact ⟨same, below.trans (Nat.le_succ _), mem_append_left _ mem⟩
  · obtain ⟨attempt, known⟩ := safe.tried t made
    exact ⟨attempt, by simpa only [putAttempt, put_of_ne _ _ (fresh _ _ known)] using known⟩
  · obtain ⟨attempt, known, status⟩ := safe.completed id ended
    exact ⟨attempt, by simpa only [putAttempt, put_of_ne _ _ (fresh _ _ known)] using known, status⟩
  · simp only [putAttempt, put_apply] at known
    split at known
    · rename_i here
      cases known
      have none : triesOf w id = 0 := by
        refine countP_eq_zero.mpr fun t made => ?_
        have old := kept _ (safe.tried t made)
        simpa [here] using old
      exact none.le
    · exact safe.counted id attempt known unpaid

theorem Safe.enqueue (safe : Safe w) {id : Nat} (careful : id ∉ w.aborted) :
    Safe { w with state := enqueueRetry id w.state } := by
  unfold enqueueRetry
  split
  · exact safe
  · rename_i absent
    refine ⟨safe.named, ?_, safe.tried, safe.completed, fun j gone => ?_, safe.counted, safe.paid⟩
    · simp only [getRetryQueue, getD_some]
      exact nodup_append.mpr ⟨safe.distinct, nodup_singleton _, fun a mem b new => by
        rintro rfl
        exact absent (mem_singleton.mp new ▸ mem)⟩
    · simp only [getRetryQueue, getD_some, mem_append, mem_singleton, not_or]
      exact ⟨safe.aborted j gone, fun same => careful (same ▸ gone)⟩

theorem Safe.sweep (safe : Safe w) {env : SweepEnv} {sweep : Sweep} (run : processRetryQueue env w.state = .ok sweep) :
    Safe { w with
      state := sweep.state
      transfers := w.transfers ++ sweep.transfers
      completed := w.completed ++ (sweep.transfers.filter (·.ok)).map (·.chargeId) } := by
  have own (id : Nat) (attempt : ChargeAttempt) (known : w.state.attempt id = some attempt) : attempt.id = id :=
    (safe.named id attempt known).1
  have swept := swept_of_process safe.distinct own run
  have once (id : Nat) : sweep.transfers.countP (·.chargeId = id) ≤ 1 := by
    rw [swept.transfers]
    exact tries_le_one (safe.distinct.sublist (take_sublist _ _)) id
  have ready_open (id : Nat) (attempt : ChargeAttempt) (known : w.state.attempt id = some attempt)
      (ready : Ready env.now attempt) : id ∉ w.completed := by
    intro ended
    obtain ⟨_, same, status⟩ := safe.completed id ended
    cases known.symm.trans same
    simpa [status] using ready.2.2
  have fewer (id : Nat) : sweep.transfers.countP (fun t => t.chargeId = id ∧ t.ok = true) ≤
      sweep.transfers.countP (·.chargeId = id) :=
    countP_mono_left fun t _ paid => by simp_all
  have untried (id : Nat) (none : ∀ t ∈ sweep.transfers, t.chargeId ≠ id) :
      sweep.transfers.countP (·.chargeId = id) = 0 :=
    countP_eq_zero.mpr fun t made => by simpa using none t made
  refine ⟨fun id attempt known => ?_, safe.distinct.sublist swept.frame.queue, fun t made => ?_, fun id ended => ?_,
    fun id gone mem => safe.aborted id gone (swept.frame.queue.subset mem), fun id attempt known unpaid => ?_,
    fun id => ?_⟩
  · obtain ⟨before, known', same, amount⟩ : ∃ before, w.state.attempt id = some before ∧ before.id = attempt.id ∧
        before.amount = attempt.amount := by
      obtain ⟨_, _, _, before, later, known', _, found, settled⟩ | ⟨_, leaves⟩ := swept.cases id
      · cases known.symm.trans found
        exact ⟨before, known', settled.id.symm, settled.amount.symm⟩
      · exact leaves_same leaves known
    rw [← same, ← amount, swept.frame.count]
    exact safe.named id before known'
  · have old : ∃ attempt, w.state.attempt t.chargeId = some attempt := by
      obtain before | new := mem_append.mp made
      · exact safe.tried t before
      · rw [swept.transfers] at new
        obtain ⟨attempt, _, known, _⟩ := transferOf_eq_some.mp (mem_transfers.mp new).2
        exact ⟨attempt, known⟩
    obtain ⟨attempt, known⟩ := old
    obtain ⟨_, _, _, _, later, _, _, found, _⟩ | ⟨_, same | ⟨_, _, _, same⟩⟩ := swept.cases t.chargeId
    · exact ⟨later, found⟩
    · exact ⟨attempt, same.trans known⟩
    · exact ⟨_, same⟩
  · obtain old | new := mem_append.mp ended
    · obtain ⟨attempt, known, status⟩ := safe.completed id old
      obtain ⟨_, _, _, before, _, known', ready, _⟩ | ⟨_, same | ⟨before, known', retryable, _⟩⟩ := swept.cases id
      · exact absurd old (ready_open id before known' ready)
      · exact ⟨attempt, same.trans known, status⟩
      · cases known.symm.trans known'
        simp [status] at retryable
    · obtain ⟨t, made, rfl⟩ := mem_map.mp new
      obtain ⟨mem, ok⟩ := mem_filter.mp made
      rw [swept.transfers] at mem
      obtain ⟨inside, tried⟩ := mem_transfers.mp mem
      have leaves := swept.touched _ inside
      rw [tried] at leaves
      obtain ⟨_, later, _, found, settled⟩ := leaves
      exact ⟨later, found, settled.completed ok⟩
  · rw [mem_append, not_or] at unpaid
    rw [triesOf, countP_append, ← triesOf]
    obtain ⟨t, made, same, before, later, known', _, found, settled⟩ | ⟨none, leaves⟩ := swept.cases id
    · cases known.symm.trans found
      have failed : t.ok = false := by
        rw [Bool.eq_false_iff]
        exact fun ok => unpaid.2 (mem_map.mpr ⟨t, mem_filter.mpr ⟨made, ok⟩, same⟩)
      have earlier := safe.counted id before known' unpaid.1
      have now := once id
      have counted := settled.counted failed
      omega
    · rw [untried id none, Nat.add_zero]
      obtain same | ⟨before, known', _, same⟩ := leaves
      · exact safe.counted id attempt (same.symm.trans known) unpaid.1
      · cases same.symm.trans known
        exact safe.counted id before known' unpaid.1
  · rw [successesOf, countP_append, ← successesOf, mem_append, not_or]
    have earlier := safe.paid id
    have now := once id
    have paid := fewer id
    constructor
    · obtain ⟨t, made, same, before, _, known', ready, _⟩ | ⟨none, _⟩ := swept.cases id
      · have before := earlier.2 (ready_open id before known' ready)
        omega
      · have := untried id none
        omega
    · intro unpaid
      have none : sweep.transfers.countP (fun t => t.chargeId = id ∧ t.ok = true) = 0 := by
        refine countP_eq_zero.mpr fun t made both => ?_
        obtain ⟨same, ok⟩ := of_decide_eq_true both
        exact unpaid.2 (mem_map.mpr ⟨t, mem_filter.mpr ⟨made, ok⟩, same⟩)
      have before := earlier.2 unpaid.1
      omega

theorem UpToDate.known {s : State} (latest : UpToDate s attempt) :
    ∃ held, s.attempt attempt.id = some held ∧ attempt.amount = held.amount ∧
      held.retryCount ≤ attempt.retryCount := by
  obtain ⟨held, found, _, amount, counts⟩ := latest
  exact ⟨held, found, amount, counts⟩

section

variable (safe : Safe w)

include safe

section

variable (latest : UpToDate w.state attempt) (unpaid : attempt.id ∉ w.completed)

include latest unpaid

theorem Safe.markFailed {now : Nat} {errorMessage : String}
    {config : RetryConfig} {s : State} {rescheduled : Bool}
    (run : Charging.markFailed now attempt errorMessage config w.state = .ok (s, later, rescheduled)) :
    Safe { w with state := s } := by
  obtain ⟨held, found, amount, counts⟩ := latest.known
  obtain ⟨rfl, same, _, same_amount, counted⟩ := markFailed_ok run
  rw [← same] at found unpaid
  exact safe.update found (same_amount.trans amount) unpaid (by omega)

theorem Safe.applyCircuitBreaker {now : Nat} {config : RetryConfig}
    {s : State}
    (run : Charging.applyCircuitBreaker now attempt config w.state = .ok (s, later)) : Safe { w with state := s } := by
  obtain ⟨held, found, amount, counts⟩ := latest.known
  obtain ⟨⟨rfl, _⟩ | rfl, same, _, same_amount, counted⟩ := applyCircuitBreaker_ok run
  · exact safe
  · rw [← same] at found unpaid
    exact safe.update found (same_amount.trans amount) unpaid (by omega)

end

theorem Safe.retryCharge (now chargeId : Nat) (config : RetryConfig) :
    Safe { w with state := (Charging.retryCharge now chargeId config w.state).1 } := by
  unfold Charging.retryCharge
  split
  · exact safe
  · rename_i attempt held
    have own := (safe.named chargeId attempt held).1
    split
    · exact safe
    · rename_i retryable
      have unpaid : attempt.id ∉ w.completed := by
        rw [own]
        intro ended
        obtain ⟨_, same, status⟩ := safe.completed chargeId ended
        cases held.symm.trans same
        simp [status] at retryable
      rw [← own] at held
      split
      · exact safe
      · split
        · exact safe.update held rfl unpaid le_rfl
        · exact safe.update held rfl unpaid le_rfl

theorem Safe.markCompleted (now : Nat) (latest : UpToDate w.state attempt) : Safe { w with
      state := (Charging.markCompleted now attempt w.state).1
      completed := w.completed ++ [attempt.id] } := by
  obtain ⟨held, found, amount, _⟩ := latest.known
  exact safe.store found amount (fun _ => mem_singleton.mp) (fun _ => rfl) (fun absent => absurd (by simp) absent)

theorem Safe.abortCharge (latest : UpToDate w.state attempt)
    (unpaid : attempt.id ∉ w.completed) (absent : attempt.id ∉ getRetryQueue w.state) :
    Safe { w with state := (Charging.abortCharge attempt w.state).1, aborted := w.aborted ++ [attempt.id] } := by
  obtain ⟨held, found, amount, counts⟩ := latest.known
  have updated : Safe { w with state := (Charging.abortCharge attempt w.state).1 } :=
    safe.update found amount unpaid counts
  refine { updated with aborted := fun id gone => ?_ }
  obtain old | new := mem_append.mp gone
  · exact updated.aborted id old
  · rw [mem_singleton.mp new]
    exact absent

theorem Safe.perform (careful : Careful w call) : Safe (Charging.perform w call) := by
  cases run : exec w.state call with
  | error p =>
    rw [perform_error run]
    exact safe
  | ok out =>
    obtain ⟨s, transfers⟩ := out
    cases call with
    | setRetryPolicy subId config =>
      cases run
      rw [perform_quiet rfl rfl rfl rfl]
      exact ⟨safe.named, safe.distinct, safe.tried, safe.completed, safe.aborted, safe.counted, safe.paid⟩
    | startCharge subId amount =>
      obtain ⟨⟨t, attempt⟩, starts, done⟩ := (bind_eq_ok ..).mp run
      cases done
      rw [perform_ok run]
      simpa only [completedBy, abortedBy, startedBy, filter_nil, map_nil, append_nil] using safe.start starts
    | enqueueRetry chargeId =>
      cases run
      rw [perform_quiet rfl rfl rfl rfl]
      exact safe.enqueue careful
    | processRetryQueue env =>
      obtain ⟨sweep, sweeps, done⟩ := (bind_eq_ok ..).mp run
      cases done
      rw [perform_ok run]
      simpa only [completedBy, abortedBy, startedBy, append_nil] using safe.sweep sweeps
    | retryCharge now chargeId config =>
      cases run
      rw [perform_quiet rfl rfl rfl rfl]
      exact safe.retryCharge now chargeId config
    | markFailed now attempt errorMessage config =>
      obtain ⟨⟨t, later, rescheduled⟩, marks, done⟩ := (bind_eq_ok ..).mp run
      cases done
      rw [perform_quiet run rfl rfl rfl]
      exact safe.markFailed careful.1 careful.2 marks
    | applyCircuitBreaker now attempt config =>
      obtain ⟨⟨t, later⟩, breaks, done⟩ := (bind_eq_ok ..).mp run
      cases done
      rw [perform_quiet run rfl rfl rfl]
      exact safe.applyCircuitBreaker careful.1 careful.2 breaks
    | markCompleted now attempt =>
      cases run
      rw [perform_ok rfl]
      simpa only [completedBy, abortedBy, startedBy, append_nil] using safe.markCompleted now careful
    | abortCharge attempt =>
      cases run
      rw [perform_ok rfl]
      simpa only [completedBy, abortedBy, startedBy, filter_nil, map_nil, append_nil] using
        safe.abortCharge careful.1 careful.2.1 careful.2.2

end

theorem exec_transfers {s t : State} {transfers : List Transfer} (run : exec s call = .ok (t, transfers)) :
    (transfers = [] ∧ ∀ env, call ≠ .processRetryQueue env) ∨ ∃ env, call = .processRetryQueue env := by
  cases call with
  | processRetryQueue env => exact .inr ⟨env, rfl⟩
  | startCharge | markFailed | applyCircuitBreaker =>
    obtain ⟨_, _, done⟩ := (bind_eq_ok ..).mp run
    cases done
    exact .inl ⟨rfl, nofun⟩
  | setRetryPolicy | enqueueRetry | retryCharge | markCompleted | abortCharge =>
    cases run
    exact .inl ⟨rfl, nofun⟩

theorem Safe.lawful (safe : Safe w) (careful : Careful w call) : LawfulCall w call := by
  intro s transfers run
  obtain ⟨rfl, other⟩ | ⟨env, rfl⟩ := exec_transfers run
  · exact ⟨nofun, nofun, nofun, nodup_nil, fun env same => absurd same (other env)⟩
  · obtain ⟨sweep, sweeps, done⟩ := (bind_eq_ok ..).mp run
    cases done
    have swept := swept_of_process safe.distinct (fun id attempt known => (safe.named id attempt known).1) sweeps
    have found (t : Transfer) (made : t ∈ sweep.transfers) :
        t.chargeId ∈ (getRetryQueue w.state).take maxRetryBatchSize ∧ ∃ attempt, w.state.attempt t.chargeId = some attempt ∧
          Ready env.now attempt ∧ env.subscriptionInfo attempt.subscriptionId = some t.info := by
      rw [swept.transfers] at made
      obtain ⟨mem, tried⟩ := mem_transfers.mp made
      obtain ⟨attempt, info, known, ready, given, same⟩ := transferOf_eq_some.mp tried
      exact ⟨mem, attempt, known, ready, given.trans (congrArg (fun t => some t.info) same).symm⟩
    have unpaid (t : Transfer) (made : t ∈ sweep.transfers) : t.chargeId ∉ w.completed := by
      obtain ⟨_, attempt, known, ready, _⟩ := found t made
      intro ended
      obtain ⟨_, same, status⟩ := safe.completed _ ended
      cases known.symm.trans same
      simpa [status] using ready.2.2
    refine ⟨fun t made => ⟨unpaid t made, fun gone => ?_⟩, fun t made => ?_, fun t made => ?_, ?_, fun env' same => ?_⟩
    · exact safe.aborted _ gone (mem_of_mem_take (found t made).1)
    · obtain ⟨mem, attempt, known, ready, given⟩ := found t made
      rw [(careful.2 _ mem attempt t.info known ready given).1]
      exact (safe.named _ attempt known).2.2
    · obtain ⟨mem, attempt, known, ready, given⟩ := found t made
      have budget := (careful.2 _ mem attempt t.info known ready given).2
      have counted := safe.counted _ attempt known (unpaid t made)
      exact ⟨attempt, known, by omega⟩
    · rw [swept.transfers]
      exact (safe.distinct.sublist (take_sublist _ _)).sublist (transfers_sublist _)
    · cases same
      rw [swept.transfers]
      obtain reaches | ⟨full, all⟩ := careful.1
      · refine .inl fun id queued ready => ?_
        obtain ⟨mem, tried⟩ := reaches id queued ready
        obtain ⟨t, tried⟩ := isSome_iff_exists.mp tried
        have same := transferOf_chargeId tried
        exact ⟨t, mem_transfers.mpr (same ▸ ⟨mem, tried⟩), same⟩
      · exact .inr ((filterMap_length_eq_length.mpr all).trans full)

end Kept

theorem safe_deployed : Safe .deployed where
  named _ _ stored := nomatch stored
  distinct := nodup_nil
  tried _ listed := absurd listed not_mem_nil
  completed _ listed := absurd listed not_mem_nil
  aborted _ listed := absurd listed not_mem_nil
  counted _ _ stored := nomatch stored
  paid _ := ⟨Nat.zero_le _, fun _ => rfl⟩

/-- The recorded amounts, budgets and turns of the transfers are kept in a run of careful calls, and nothing is paid twice. -/
theorem charged_safely (calls : List Call) (careful : Throughout perform .deployed Careful calls) :
    Throughout perform .deployed LawfulCall calls ∧ PaidOnce (calls.foldl perform .deployed) := by
  have safe {earlier : List Call} (met : Throughout perform .deployed Careful earlier) :
      Safe (earlier.foldl perform .deployed) :=
    met.keeps Safe safe_deployed fun _ _ safe careful => safe.perform careful
  constructor
  · intro earlier call later split
    exact (safe (careful.before split)).lawful (careful earlier call later split)
  · intro id
    exact ((safe careful).paid id).1

end Histories

def exampleConfig : RetryConfig := ⟨3, 60, 3600, 2, 5, 86400⟩

def exampleInfo : SubscriptionInfo := ⟨⟨1⟩, ⟨2⟩, ⟨3⟩, 500⟩

def exampleEnv (now : Nat) (amount : Int) (ok : Bool) : SweepEnv where
  now
  subscriptionInfo := fun _ => some { exampleInfo with amount }
  transferOk := fun _ => ok
  config := exampleConfig

def exampleAttempt : ChargeAttempt := ⟨1, 7, .pending, 500, 0, 0, "", 0, 3, 0, 0⟩

def exampleCalls : List Call :=
  [.startCharge 7 500, .markFailed 1000 exampleAttempt "declined" exampleConfig, .enqueueRetry 1,
    .processRetryQueue (exampleEnv 5000 500 false), .processRetryQueue (exampleEnv 10000 500 true)]

theorem careful_single {w : World} {env : SweepEnv} {id : Nat} {attempt : ChargeAttempt} {info : SubscriptionInfo}
    (queue : getRetryQueue w.state = [id]) (held : w.state.attempt id = some attempt) (ready : Ready env.now attempt)
    (given : env.subscriptionInfo attempt.subscriptionId = some info) (amount : info.amount = attempt.amount)
    (budget : attempt.retryCount < (getRetryPolicy w.state attempt.subscriptionId).maxRetries) :
    Careful w (.processRetryQueue env) := by
  have single (j : Nat) (mem : j ∈ (getRetryQueue w.state).take maxRetryBatchSize) : j = id := by
    rw [queue] at mem
    exact mem_singleton.mp mem
  refine ⟨.inl fun j queued _ => ?_, fun j mem a i known _ told => ?_⟩
  · rw [queue] at queued ⊢
    rw [mem_singleton.mp queued]
    exact ⟨mem_singleton_self id, by simp [transferOf_eq_some.mpr ⟨attempt, info, held, ready, given, rfl⟩]⟩
  · cases single j mem
    cases held.symm.trans known
    cases given.symm.trans told
    exact ⟨amount, budget⟩

theorem charged_safely_exampleCalls : Throughout perform .deployed LawfulCall exampleCalls ∧
    PaidOnce (exampleCalls.foldl perform .deployed) := by
  refine charged_safely exampleCalls (.cons trivial (.cons ⟨⟨exampleAttempt, by decide +kernel, rfl, rfl, le_rfl⟩, nofun⟩
    (.cons nofun (.cons ?_ (.cons ?_ .nil)))))
  · exact careful_single rfl rfl (by decide +kernel) rfl rfl (by decide +kernel)
  · exact careful_single rfl rfl (by decide +kernel) rfl rfl (by decide +kernel)

def retryingAttempt : ChargeAttempt :=
  { exampleAttempt with status := .retrying, errorMessage := "declined", retryCount := 1, nextRetryAt := 1126 }

def abortedCalls : List Call :=
  [.startCharge 7 500, .markFailed 1000 exampleAttempt "declined" exampleConfig, .enqueueRetry 1,
    .abortCharge retryingAttempt]

theorem charged_after_abort :
    ¬ Throughout perform .deployed LawfulCall (abortedCalls ++ [.processRetryQueue (exampleEnv 5000 500 true)]) := by
  intro lawful
  have tried : (exec (abortedCalls.foldl perform .deployed).state (.processRetryQueue (exampleEnv 5000 500 true))).map (·.2) =
      .ok [⟨1, exampleInfo, true⟩] := by decide +kernel
  cases run : exec (abortedCalls.foldl perform .deployed).state (.processRetryQueue (exampleEnv 5000 500 true)) with
  | error p =>
    rw [run] at tried
    cases tried
  | ok out =>
    rw [run] at tried
    have made := Except.ok.inj tried
    have pending := (lawful.last out.1 out.2 run).pending ⟨1, exampleInfo, true⟩ (by simp [made])
    exact pending.2 (by decide +kernel)

end SubTrackr.Charging
