import SubTrackr.Fallback.FallbackChainService
import SubTrackr.Lib.Runs

namespace SubTrackr.Fallback

open List Lib Execution

def Succeeded (s : State) (i : ℕ) : Prop := ∃ call, s.calls[i]? = some call ∧ call.succeeded = true

structure CapturedOnce (s : State) : Prop where
  once : ∀ i j, Succeeded s i → Succeeded s j → i = j
  reported : ∀ result, s.phase = .finished result → result.success = false → ∀ i, ¬ Succeeded s i

def IsFinished (s : State) : Prop := ∃ result, s.phase = .finished result

def awaits (s : State) (call : ℕ) : Bool :=
  match s.phase with
  | .racing race => race.call = call
  | _ => false

def OnTime (s : State) (action : Env × Event) : Prop :=
  match action.2 with
  | .settle call settled => settled.success = true → awaits s call = true
  | _ => True

variable {x : Execution} {s t : State} {env : Env} {action : Env × Event} {i call : ℕ} {gateway : GatewayName}
  {settled : Settled}

theorem awaits_eq_true : awaits s call = true ↔ ∃ race, s.phase = .racing race ∧ race.call = call := by
  unfold awaits
  cases s.phase <;> simp

section Succeeded

theorem succeeded_congr (same : t.calls = s.calls) : Succeeded t i ↔ Succeeded s i := by
  unfold Succeeded
  rw [same]

theorem succeeded_append (more : t.calls = s.calls ++ [⟨gateway, none⟩]) : Succeeded t i ↔ Succeeded s i := by
  unfold Succeeded
  rw [more]
  by_cases early : i < s.calls.length
  · rw [getElem?_append_left early]
  · rw [getElem?_append_right (not_lt.mp early), getElem?_eq_none (not_lt.mp early), getElem?_singleton]
    constructor
    · rintro ⟨found, here, succeeded⟩
      split at here
      · cases here
        cases succeeded
      · cases here
    · rintro ⟨found, here, -⟩
      cases here

theorem settle_calls (s : State) (call : ℕ) (gateway : GatewayName) (settled : Settled) :
    (settle s call gateway settled).calls = s.calls.set call ⟨gateway, some settled⟩ := by
  unfold settle
  split
  · split <;> rfl
  · rfl

theorem settle_phase (s : State) (call : ℕ) (gateway : GatewayName) (settled : Settled) :
    (∃ race, s.phase = .racing race ∧ race.call = call ∧ (settle s call gateway settled).phase = .raced race settled) ∨
      (∀ race, s.phase = .racing race → race.call ≠ call) ∧ (settle s call gateway settled).phase = s.phase := by
  cases phase : s.phase with
  | racing race =>
    by_cases here : race.call = call
    · exact .inl ⟨race, rfl, here, by simp only [settle, phase, here, if_true]⟩
    · right
      refine ⟨?_, by simp only [settle, phase, here, if_false]⟩
      rintro race' same
      cases same
      exact here
  | called | raced | delaying | finished =>
    right
    refine ⟨?_, by simp only [settle, phase]⟩
    rintro race ⟨⟩

theorem not_succeeded_of_pending (pending : s.calls[call]? = some ⟨gateway, none⟩) : ¬ Succeeded s call := by
  rintro ⟨found, here, succeeded⟩
  rw [pending] at here
  cases here
  cases succeeded

theorem succeeded_settle (pending : s.calls[call]? = some ⟨gateway, none⟩) :
    Succeeded (settle s call gateway settled) i ↔ i = call ∧ settled.success = true ∨ i ≠ call ∧ Succeeded s i := by
  unfold Succeeded
  rw [settle_calls]
  by_cases here : i = call
  · subst here
    obtain ⟨inside, -⟩ := List.getElem?_eq_some_iff.mp pending
    simp [List.getElem?_set_self inside, ExecutorCall.succeeded]
  · simp [here, List.getElem?_set_ne (Ne.symm here)]

end Succeeded

section Steps

inductive MovesOn (s t : State) : Prop where
  | races (race : Race) (gateway : GatewayName) (phase : t.phase = .racing race) (fresh : race.call = s.calls.length)
      (calls : t.calls = s.calls ++ [⟨gateway, none⟩])
  | delays (entry : FallbackChainEntry) (retry : ℕ) (rest : List FallbackChainEntry)
      (phase : t.phase = .delaying entry retry rest) (calls : t.calls = s.calls)
  | fails (result : FallbackResult) (phase : t.phase = .finished result) (failed : result.success = false)
      (calls : t.calls = s.calls)

theorem movesOn_startCall (env : Env) (s : State) (entry : FallbackChainEntry) (retry : ℕ) (rest : List FallbackChainEntry) :
    MovesOn s (startCall env s entry retry rest) := .races _ entry.gateway rfl rfl rfl

theorem movesOn_nextEntry (x : Execution) (env : Env) (s : State) (entries : List FallbackChainEntry) :
    MovesOn s (x.nextEntry env s entries) := by
  induction entries with
  | nil => exact .fails _ rfl rfl rfl
  | cons entry rest ih =>
    unfold nextEntry
    split
    · exact movesOn_startCall env s entry 0 rest
    · exact ih

theorem movesOn_nextRetry (x : Execution) (env : Env) (s : State) (entry : FallbackChainEntry) (retry : ℕ)
    (rest : List FallbackChainEntry) : MovesOn s (x.nextRetry env s entry retry rest) := by
  unfold nextRetry
  split
  · exact movesOn_startCall env s entry retry rest
  · exact movesOn_nextEntry x env s rest

theorem movesOn_afterFailure (x : Execution) (env : Env) (s : State) (race : Race) : MovesOn s (x.afterFailure env s race) := by
  unfold afterFailure
  split
  · exact .delays race.entry race.retry race.rest rfl rfl
  · exact movesOn_nextRetry x env s race.entry _ race.rest

theorem MovesOn.of_calls {before : State} (moves : MovesOn s t) (same : s.calls = before.calls) : MovesOn before t := by
  cases moves with
  | races race gateway phase fresh calls => exact .races race gateway phase (same ▸ fresh) (same ▸ calls)
  | delays entry retry rest phase calls => exact .delays entry retry rest phase (calls.trans same)
  | fails result phase failed calls => exact .fails result phase failed (calls.trans same)

theorem movesOn_resume {race : Race} {outcome : Settled} (lost : outcome.success = false) :
    MovesOn s (x.resume env s race outcome) := by
  unfold resume
  cases outcome with
  | resolved success error =>
    obtain rfl : success = false := lost
    exact (movesOn_afterFailure x env _ race).of_calls rfl
  | threw message => exact (movesOn_afterFailure x env _ race).of_calls rfl

theorem resume_of_success {race : Race} {outcome : Settled} (won : outcome.success = true) :
    ∃ result, (x.resume env s race outcome).phase = .finished result ∧ result.success = true ∧
      (x.resume env s race outcome).calls = s.calls := by
  unfold resume
  cases outcome with
  | resolved success error =>
    obtain rfl : success = true := won
    refine ⟨_, rfl, rfl, ?_⟩
    simp only [if_true]
    split <;> rfl
  | threw message => cases won

inductive Steps (s : State) (event : Event) (t : State) : Prop where
  | settles (call : ℕ) (gateway : GatewayName) (settled : Settled) (is : event = .settle call settled)
      (pending : s.calls[call]? = some ⟨gateway, none⟩) (result : t = settle s call gateway settled)
  | timesOut (race : Race) (is : event = .timer) (phase : s.phase = .racing race)
      (after : t.phase = .raced race (timedOut race.entry)) (calls : t.calls = s.calls)
  | wins (race : Race) (outcome : Settled) (is : event = .resume) (phase : s.phase = .raced race outcome)
      (won : outcome.success = true) (result : FallbackResult) (after : t.phase = .finished result)
      (success : result.success = true) (calls : t.calls = s.calls)
  | loses (race : Race) (outcome : Settled) (is : event = .resume) (phase : s.phase = .raced race outcome)
      (lost : outcome.success = false) (moves : MovesOn s t)
  | waits (entry : FallbackChainEntry) (retry : ℕ) (rest : List FallbackChainEntry) (is : event = .delayOver)
      (phase : s.phase = .delaying entry retry rest) (moves : MovesOn s t)

theorem step_cases (stepped : x.step s action = some t) : Steps s action.2 t := by
  unfold step at stepped
  split at stepped
  · rename_i call settled event
    split at stepped
    · rename_i gateway pending
      exact .settles call gateway settled event pending (Option.some.inj stepped).symm
    · cases stepped
  · rename_i race event phase
    cases stepped
    exact .timesOut race event phase rfl rfl
  · rename_i race outcome event phase
    cases stepped
    cases won : outcome.success with
    | true =>
      obtain ⟨result, after, success, calls⟩ := resume_of_success won
      exact .wins race outcome event phase won result after success calls
    | false => exact .loses race outcome event phase won (movesOn_resume won)
  · rename_i entry retry rest event phase
    cases stepped
    exact .waits entry retry rest event phase (movesOn_nextRetry x _ s entry _ rest)
  · cases stepped

end Steps

def Tidy (s : State) : Prop :=
  match s.phase with
  | .raced race outcome => ∀ i, Succeeded s i ↔ outcome.success = true ∧ i = race.call
  | .finished result => if result.success then ∃ j, ∀ i, Succeeded s i ↔ i = j else ∀ i, ¬ Succeeded s i
  | _ => ∀ i, ¬ Succeeded s i

def Late (s : State) (i : ℕ) : Prop :=
  Succeeded s i ∧
    match s.phase with
    | .racing race => race.call ≠ i
    | .raced race outcome => outcome.success = true → race.call ≠ i ∧ Succeeded s race.call
    | .finished result => result.success = true → ∃ j, j ≠ i ∧ Succeeded s j
    | _ => True

theorem Tidy.capturedOnce (tidy : Tidy s) : CapturedOnce s := by
  unfold Tidy at tidy
  constructor
  · intro i j first second
    split at tidy
    · rw [((tidy i).mp first).2, ((tidy j).mp second).2]
    · split at tidy
      · obtain ⟨winner, only⟩ := tidy
        rw [(only i).mp first, (only j).mp second]
      · exact absurd first (tidy i)
    · exact absurd first (tidy i)
  · intro result phase failed i succeeded
    rw [phase] at tidy
    simp only [failed, Bool.false_eq_true, if_false] at tidy
    exact tidy i succeeded

theorem Late.charged_again (late : Late s i) (past : IsFinished s) : ¬ CapturedOnce s := by
  intro captured
  obtain ⟨result, phase⟩ := past
  obtain ⟨succeeded, other⟩ := late
  rw [phase] at other
  cases reported : result.success with
  | false => exact captured.reported result phase reported i succeeded
  | true =>
    obtain ⟨j, apart, succeeded'⟩ := other reported
    exact apart (captured.once j i succeeded' succeeded)

theorem MovesOn.tidy (moves : MovesOn s t) (silent : ∀ i, ¬ Succeeded s i) : Tidy t := by
  unfold Tidy
  cases moves with
  | races race gateway phase fresh calls =>
    rw [phase]
    exact fun i succeeded => silent i ((succeeded_append calls).mp succeeded)
  | delays entry retry rest phase calls =>
    rw [phase]
    exact fun i succeeded => silent i ((succeeded_congr calls).mp succeeded)
  | fails result phase failed calls =>
    rw [phase]
    simp only [failed, Bool.false_eq_true, if_false]
    exact fun i succeeded => silent i ((succeeded_congr calls).mp succeeded)

theorem MovesOn.late (moves : MovesOn s t) (succeeded : Succeeded s i) : Late t i := by
  unfold Late
  cases moves with
  | races race gateway phase fresh calls =>
    rw [phase]
    refine ⟨(succeeded_append calls).mpr succeeded, ?_⟩
    obtain ⟨call, here, -⟩ := succeeded
    obtain ⟨inside, -⟩ := List.getElem?_eq_some_iff.mp here
    dsimp only
    omega
  | delays entry retry rest phase calls =>
    rw [phase]
    exact ⟨(succeeded_congr calls).mpr succeeded, trivial⟩
  | fails result phase failed calls =>
    rw [phase]
    exact ⟨(succeeded_congr calls).mpr succeeded, fun won => by simp [failed] at won⟩

theorem Tidy.congr (tidy : Tidy s) (phase : t.phase = s.phase) (same : ∀ i, Succeeded t i ↔ Succeeded s i) : Tidy t := by
  unfold Tidy at *
  simpa only [phase, same] using tidy

theorem Tidy.settle_of_failure (tidy : Tidy s) (pending : s.calls[call]? = some ⟨gateway, none⟩)
    (failed : settled.success = false) : Tidy (settle s call gateway settled) := by
  have same (i : ℕ) : Succeeded (settle s call gateway settled) i ↔ Succeeded s i := by
    rw [succeeded_settle pending, failed]
    constructor
    · rintro (⟨-, ended⟩ | ⟨-, succeeded⟩)
      · cases ended
      · exact succeeded
    · intro succeeded
      exact .inr ⟨fun here => not_succeeded_of_pending pending (here ▸ succeeded), succeeded⟩
  rcases settle_phase s call gateway settled with ⟨race, phase, -, after⟩ | ⟨-, after⟩
  · rw [Tidy, phase] at tidy
    rw [Tidy, after]
    intro i
    have silent := tidy i
    simp [same, silent, failed]
  · exact tidy.congr after same

theorem Tidy.settle_of_success {race : Race} (tidy : Tidy s) (phase : s.phase = .racing race)
    (pending : s.calls[race.call]? = some ⟨gateway, none⟩) (success : settled.success = true) :
    Tidy (settle s race.call gateway settled) := by
  have after : (settle s race.call gateway settled).phase = .raced race settled := by
    simp only [settle, phase, if_true]
  rw [Tidy, phase] at tidy
  rw [Tidy, after]
  intro i
  have silent := tidy i
  rw [succeeded_settle pending, success]
  tauto

theorem Tidy.step (tidy : Tidy s) (onTime : OnTime s action) (stepped : x.step s action = some t) : Tidy t := by
  cases step_cases stepped with
  | settles call gateway settled is pending result =>
    subst result
    rw [OnTime, is] at onTime
    cases success : settled.success with
    | true =>
      obtain ⟨race, phase, rfl⟩ := awaits_eq_true.mp (onTime success)
      exact tidy.settle_of_success phase pending success
    | false => exact tidy.settle_of_failure pending success
  | timesOut race is phase after calls =>
    rw [Tidy, phase] at tidy
    rw [Tidy, after]
    intro i
    rw [succeeded_congr calls]
    have silent := tidy i
    simp [silent, timedOut, Settled.success]
  | wins race outcome is phase won result after success calls =>
    rw [Tidy, phase] at tidy
    rw [Tidy, after]
    dsimp only
    rw [if_pos success]
    refine ⟨race.call, fun i => ?_⟩
    rw [succeeded_congr calls, tidy i]
    exact and_iff_right won
  | loses race outcome is phase lost moves =>
    rw [Tidy, phase] at tidy
    apply moves.tidy
    intro i succeeded
    have won := ((tidy i).mp succeeded).1
    rw [lost] at won
    cases won
  | waits entry retry rest is phase moves =>
    rw [Tidy, phase] at tidy
    exact moves.tidy tidy

theorem Late.step (late : Late s i) (stepped : x.step s action = some t) : Late t i := by
  obtain ⟨succeeded, other⟩ := late
  cases step_cases stepped with
  | settles call gateway settled is pending result =>
    subst result
    have apart : i ≠ call := fun here => not_succeeded_of_pending pending (here ▸ succeeded)
    have kept (j : ℕ) (before : Succeeded s j) : Succeeded (settle s call gateway settled) j := by
      rw [succeeded_settle pending]
      exact .inr ⟨fun here => not_succeeded_of_pending pending (here ▸ before), before⟩
    refine ⟨kept i succeeded, ?_⟩
    rcases settle_phase s call gateway settled with ⟨race, phase, here, after⟩ | ⟨-, after⟩
    · rw [after]
      intro won
      refine ⟨here ▸ apart.symm, ?_⟩
      rw [succeeded_settle pending]
      exact .inl ⟨here, won⟩
    · rw [after]
      split at other
      · exact other
      · intro won
        exact (other won).imp_right (kept _)
      · intro won
        obtain ⟨j, apart, before⟩ := other won
        exact ⟨j, apart, kept j before⟩
      · exact trivial
  | timesOut race is phase after calls =>
    rw [Late, after]
    exact ⟨(succeeded_congr calls).mpr succeeded, fun won => by cases won⟩
  | wins race outcome is phase won result after success calls =>
    rw [phase] at other
    obtain ⟨apart, winner⟩ := other won
    rw [Late, after]
    exact ⟨(succeeded_congr calls).mpr succeeded, fun _ => ⟨race.call, apart, (succeeded_congr calls).mpr winner⟩⟩
  | loses race outcome is phase lost moves => exact moves.late succeeded
  | waits entry retry rest is phase moves => exact moves.late succeeded

theorem Tidy.late (tidy : Tidy s) (careless : ¬ OnTime s action) (stepped : x.step s action = some t) : ∃ i, Late t i := by
  cases step_cases stepped with
  | settles call gateway settled is pending result =>
    subst result
    rw [OnTime, is] at careless
    rw [Classical.not_imp, awaits_eq_true] at careless
    obtain ⟨success, past⟩ := careless
    have unsettled := not_succeeded_of_pending pending
    have kept (j : ℕ) (before : Succeeded s j) : j ≠ call ∧ Succeeded (settle s call gateway settled) j := by
      have apart : j ≠ call := fun here => unsettled (here ▸ before)
      exact ⟨apart, (succeeded_settle pending).mpr (.inr ⟨apart, before⟩)⟩
    have after : (settle s call gateway settled).phase = s.phase := by
      rcases settle_phase s call gateway settled with ⟨race, phase, here, -⟩ | ⟨-, after⟩
      · exact absurd ⟨race, phase, here⟩ past
      · exact after
    refine ⟨call, (succeeded_settle pending).mpr (.inl ⟨rfl, success⟩), ?_⟩
    rw [after]
    unfold Tidy at tidy
    split
    · rename_i race phase
      exact fun here => past ⟨race, phase, here⟩
    · rename_i race outcome phase
      rw [phase] at tidy
      intro won
      exact kept race.call ((tidy race.call).mpr ⟨won, rfl⟩)
    · rename_i result phase
      rw [phase] at tidy
      intro won
      dsimp only at tidy
      rw [if_pos won] at tidy
      obtain ⟨winner, only⟩ := tidy
      exact ⟨winner, kept winner ((only winner).mpr rfl)⟩
    · exact trivial
  | timesOut race is | wins race outcome is | loses race outcome is | waits entry retry rest is =>
    rw [OnTime, is] at careless
    exact absurd trivial careless

theorem tidy_start (x : Execution) (env : Env) : Tidy (x.start env) := by
  apply (movesOn_nextEntry x env _ _).tidy
  rintro i ⟨call, here, -⟩
  cases here

theorem tidy_or_late (run : Runs x.step anyAction (x.start env) s) :
    Runs x.step OnTime (x.start env) s ∧ Tidy s ∨ ∃ i, Late s i := by
  induction run with
  | refl => exact .inl ⟨.refl _, tidy_start x env⟩
  | @tail before after _ last ih =>
    obtain ⟨action, -, stepped⟩ := last
    rcases ih with ⟨run, tidy⟩ | ⟨i, late⟩
    · by_cases onTime : OnTime before action
      · exact .inl ⟨run.next action onTime stepped, tidy.step onTime stepped⟩
      · exact .inr (tidy.late onTime stepped)
    · exact .inr ⟨i, late.step stepped⟩

/-- The payment is captured once at most in every state of a run that is on time, and in the end of no other run. -/
theorem capturedOnce_of_onTime (x : Execution) (env : Env) : (∀ s, Runs x.step OnTime (x.start env) s → CapturedOnce s) ∧
      ∀ s, Runs x.step anyAction (x.start env) s → IsFinished s →
        (CapturedOnce s ↔ Runs x.step OnTime (x.start env) s) := by
  have safe (s : State) (run : Runs x.step OnTime (x.start env) s) : CapturedOnce s := by
    have tidy := run.keeps Tidy (tidy_start x env) fun s t action tidy onTime stepped => tidy.step onTime stepped
    exact tidy.capturedOnce
  refine ⟨safe, fun s run past => ⟨fun captured => ?_, safe s⟩⟩
  rcases tidy_or_late run with ⟨onTime, -⟩ | ⟨i, late⟩
  · exact onTime
  · exact absurd captured (late.charged_again past)

def exampleEntry (gateway : GatewayName) (priority : ℚ) : FallbackChainEntry := ⟨gateway, priority, true, 5000⟩

def exampleExecution : Execution :=
  executeWithFallback
    [⟨"chain_1", "merchant_1", [exampleEntry .stripe 0, exampleEntry .circle 1], 0, true⟩]
    "merchant_1" ⟨10, "USD", "customer_1", "pm_1"⟩ 0

def exampleEnv : Env := ⟨0, "", fun _ => true⟩

instance (s : State) (action : Env × Event) : Decidable (OnTime s action) := by
  unfold OnTime
  split <;> infer_instance

def succeeds (s : State) : List Bool := s.calls.map ExecutorCall.succeeded

theorem capturedOnce_example : ∃ s, succeeds s = [false, true] ∧ CapturedOnce s := by
  have reached : ∃ s, Runs exampleExecution.step OnTime (exampleExecution.start exampleEnv) s ∧
      succeeds s = [false, true] :=
    Runs.exists_of_foldlM
      [(exampleEnv, .settle 0 (.resolved false none)), (exampleEnv, .resume), (exampleEnv, .settle 1 (.resolved true none)),
        (exampleEnv, .resume)] (by decide +kernel)
  obtain ⟨s, run, succeeded⟩ := reached
  exact ⟨s, succeeded, (capturedOnce_of_onTime exampleExecution exampleEnv).1 s run⟩

theorem not_capturedOnce : ¬ ∀ (chains : List FallbackChain) (merchantId : String) (request : PaymentRequest) (now : ℤ)
    (env : Env) (s : State),
    Runs (executeWithFallback chains merchantId request now).step anyAction
      ((executeWithFallback chains merchantId request now).start env) s → CapturedOnce s := by
  intro all
  have reached : ∃ s, Runs exampleExecution.step anyAction (exampleExecution.start exampleEnv) s ∧
      succeeds s = [true, true] :=
    Runs.exists_of_foldlM
      [(exampleEnv, .timer), (exampleEnv, .resume), (exampleEnv, .settle 1 (.resolved true none)), (exampleEnv, .resume),
        (exampleEnv, .settle 0 (.resolved true none))] (by decide +kernel)
  obtain ⟨s, run, succeeded⟩ := reached
  have captured := all _ _ _ _ exampleEnv s run
  have each (i : ℕ) (first : (succeeds s)[i]? = some true) : Succeeded s i := by
    unfold succeeds at first
    rw [getElem?_map] at first
    exact Option.map_eq_some_iff.mp first
  have same := captured.once 0 1 (each 0 (by rw [succeeded]; rfl)) (each 1 (by rw [succeeded]; rfl))
  cases same

end SubTrackr.Fallback
