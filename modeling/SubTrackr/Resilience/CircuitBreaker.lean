import Mathlib.Data.Int.Notation
import SubTrackr.Lib.Runs

namespace SubTrackr.Resilience

inductive CircuitState
  | closed
  | opened
  | halfOpen
  deriving DecidableEq

structure CircuitBreakerOptions where
  (failureThreshold recoveryTimeoutMs successThreshold : Option ℤ)
  name : Option String

structure CircuitOpenError where
  name : String
  openUntil : Option ℤ

structure CircuitBreaker where
  state : CircuitState
  (consecutiveFailures consecutiveSuccesses : ℕ)
  openUntil : Option ℤ
  (failureThreshold recoveryTimeoutMs successThreshold : ℤ)
  name : String

namespace CircuitBreaker

def new (options : CircuitBreakerOptions) : CircuitBreaker where
  state := .closed
  consecutiveFailures := 0
  consecutiveSuccesses := 0
  openUntil := none
  failureThreshold := options.failureThreshold.getD 5
  recoveryTimeoutMs := options.recoveryTimeoutMs.getD 30000
  successThreshold := options.successThreshold.getD 2
  name := options.name.getD "default"

variable (b : CircuitBreaker)

def transitionTo (newState : CircuitState) (now : ℤ) : CircuitBreaker :=
  match newState with
  | .opened =>
    { b with
      state := .opened
      openUntil := some (now + b.recoveryTimeoutMs)
      consecutiveFailures := 0 }
  | .halfOpen =>
    { b with
      state := .halfOpen
      consecutiveSuccesses := 0
      openUntil := none }
  | .closed =>
    { b with
      state := .closed
      consecutiveFailures := 0
      consecutiveSuccesses := 0
      openUntil := none }

def checkState (now : ℤ) : CircuitBreaker :=
  if b.state = .opened ∧ b.openUntil.any (· ≤ now) then b.transitionTo .halfOpen now else b

def execute (now : ℤ) : Except CircuitOpenError CircuitBreaker :=
  let b := b.checkState now
  if b.state = .opened then .error ⟨b.name, b.openUntil⟩ else .ok b

def recordSuccess (now : ℤ) : CircuitBreaker :=
  let b := { b with consecutiveFailures := 0 }
  if b.state = .halfOpen then
    let b := { b with consecutiveSuccesses := b.consecutiveSuccesses + 1 }
    if b.successThreshold ≤ b.consecutiveSuccesses then b.transitionTo .closed now else b
  else b

def recordFailure (now : ℤ) : CircuitBreaker :=
  let b := { b with consecutiveSuccesses := 0 }
  if b.state = .halfOpen then b.transitionTo .opened now
  else
    let b := { b with consecutiveFailures := b.consecutiveFailures + 1 }
    if b.state = .closed ∧ b.failureThreshold ≤ b.consecutiveFailures then b.transitionTo .opened now else b

def reset (now : ℤ) : CircuitBreaker := b.transitionTo .closed now

end CircuitBreaker

/-- What was seen of the breaker: that an action completed in a state of the breaker, and in which half-open period it was
    started if in one, or that the breaker was reset. -/
inductive Entry
  | completed (state : CircuitState) (succeeded : Bool) (startedIn : Option ℕ)
  | reset

/-- The breaker with the actions that run (for each the half-open period it was started in, if in one), the number of
    half-open periods so far, and what was seen, the latest first. -/
structure Traffic where
  breaker : CircuitBreaker
  calls : List (Option ℕ)
  period : ℕ
  log : List Entry

inductive Action
  | execute (now : ℤ)
  | complete (call : ℕ) (succeeded : Bool) (now : ℤ)
  | reset (now : ℤ)

namespace Traffic

def new (options : CircuitBreakerOptions) : Traffic := ⟨.new options, [], 0, []⟩

variable (s : Traffic)

def start (breaker : CircuitBreaker) : Traffic :=
  let period := if s.breaker.state = .opened then s.period + 1 else s.period
  { s with breaker, period, calls := s.calls ++ [if breaker.state = .halfOpen then some period else none] }

def complete (call : ℕ) (succeeded : Bool) (startedIn : Option ℕ) (now : ℤ) : Traffic :=
  { s with
    breaker := if succeeded then s.breaker.recordSuccess now else s.breaker.recordFailure now
    calls := s.calls.eraseIdx call
    log := .completed s.breaker.state succeeded startedIn :: s.log }

def step : Action → Option Traffic
  | .execute now =>
    match s.breaker.execute now with
    | .error _ => some s
    | .ok breaker => some (s.start breaker)
  | .complete call succeeded now => s.calls[call]?.map fun startedIn => s.complete call succeeded startedIn now
  | .reset now => some { s with breaker := s.breaker.reset now, log := .reset :: s.log }

end Traffic

end SubTrackr.Resilience

namespace SubTrackr.Resilience

open Option List Lib

def Entry.failedClosed : Entry → Bool
  | .completed .closed false _ => true
  | _ => false

def Entry.probe (period : ℕ) : Entry → Bool
  | .completed .halfOpen true (some startedIn) => startedIn = period
  | _ => false

def Entry.startedIn : Entry → Option ℕ
  | .completed _ _ startedIn => startedIn
  | .reset => none

namespace CircuitBreaker

variable {b : CircuitBreaker} {now : ℤ}

def settings (b : CircuitBreaker) : ℤ × ℤ × ℤ × String := (b.failureThreshold, b.recoveryTimeoutMs, b.successThreshold, b.name)

@[simp] theorem transitionTo_state (b : CircuitBreaker) (newState : CircuitState) (now : ℤ) :
    (b.transitionTo newState now).state = newState := by cases newState <;> rfl

@[simp] theorem transitionTo_settings (b : CircuitBreaker) (newState : CircuitState) (now : ℤ) :
    (b.transitionTo newState now).settings = b.settings := by cases newState <;> rfl

theorem execute_cases (b : CircuitBreaker) (now : ℤ) : (b.state = .opened ∧ ∃ error, b.execute now = .error error) ∨
    (b.state = .opened ∧ (∃ time ∈ b.openUntil, time ≤ now) ∧ b.execute now = .ok (b.transitionTo .halfOpen now)) ∨
    (b.state ≠ .opened ∧ b.execute now = .ok b) := by
  unfold execute checkState
  by_cases opened : b.state = .opened
  · cases time : b.openUntil.any (· ≤ now) with
    | false =>
      left
      simp [opened]
    | true =>
      right
      left
      obtain ⟨time, set, come⟩ := (any_eq_true _ _).mp time
      exact ⟨opened, ⟨time, set, of_decide_eq_true come⟩, by simp [opened]⟩
  · right
    right
    exact ⟨opened, by simp [opened]⟩

theorem recordSuccess_cases (b : CircuitBreaker) (now : ℤ) :
    (b.state ≠ .halfOpen ∧ b.recordSuccess now = { b with consecutiveFailures := 0 }) ∨
    (b.state = .halfOpen ∧ b.successThreshold ≤ (b.consecutiveSuccesses + 1 : ℕ) ∧
      b.recordSuccess now = b.transitionTo .closed now) ∨
    (b.state = .halfOpen ∧ b.recordSuccess now =
      { b with consecutiveFailures := 0, consecutiveSuccesses := b.consecutiveSuccesses + 1 }) := by
  unfold recordSuccess
  by_cases half : b.state = .halfOpen
  · by_cases enough : b.successThreshold ≤ (b.consecutiveSuccesses + 1 : ℕ)
    · exact .inr (.inl ⟨half, enough, by simp only [half, if_true, if_pos enough]; rfl⟩)
    · exact .inr (.inr ⟨half, by simp only [half, if_true, if_neg enough]⟩)
  · exact .inl ⟨half, if_neg half⟩

theorem recordFailure_cases (b : CircuitBreaker) (now : ℤ) :
    ((b.state = .halfOpen ∨ b.state = .closed ∧ b.failureThreshold ≤ (b.consecutiveFailures + 1 : ℕ)) ∧
      (b.recordFailure now).state = .opened ∧ (b.recordFailure now).settings = b.settings) ∨
    (b.state ≠ .halfOpen ∧ ¬(b.state = .closed ∧ b.failureThreshold ≤ (b.consecutiveFailures + 1 : ℕ)) ∧
      b.recordFailure now =
        { b with consecutiveSuccesses := 0, consecutiveFailures := b.consecutiveFailures + 1 }) := by
  unfold recordFailure
  by_cases half : b.state = .halfOpen
  · left
    rw [if_pos half]
    exact ⟨.inl half, rfl, rfl⟩
  · by_cases trips : b.state = .closed ∧ b.failureThreshold ≤ (b.consecutiveFailures + 1 : ℕ)
    · left
      rw [if_neg half]
      dsimp only
      rw [if_pos trips]
      exact ⟨.inr trips, rfl, rfl⟩
    · right
      rw [if_neg half]
      dsimp only
      rw [if_neg trips]
      exact ⟨half, trips, rfl⟩

end CircuitBreaker

namespace Traffic

variable {s s' : Traffic}

def failuresInARow (s : Traffic) : ℕ := (s.log.takeWhile Entry.failedClosed).length

def probesInARow (s : Traffic) : ℕ := (s.log.takeWhile (Entry.probe s.period)).length

def fresh (s : Traffic) : Action → Bool
  | .complete call true _ => s.breaker.state ≠ .halfOpen || s.calls[call]? = some (some s.period)
  | _ => true

structure Counted (s : Traffic) : Prop where
  failures : s.breaker.state = .closed → s.breaker.consecutiveFailures = s.failuresInARow
  probes : s.breaker.state = .halfOpen → s.breaker.consecutiveSuccesses = s.probesInARow
  calls (startedIn : Option ℕ) : startedIn ∈ s.calls → ∀ period ∈ startedIn, period ≤ s.period
  logged (entry : Entry) : entry ∈ s.log → ∀ period ∈ entry.startedIn, period ≤ s.period

theorem new_counted (opts : CircuitBreakerOptions) : (new opts).Counted := ⟨fun _ => rfl, nofun, nofun, nofun⟩

theorem Counted.no_probe (counted : s.Counted) : s.log.takeWhile (Entry.probe (s.period + 1)) = [] := by
  cases seen : s.log with
  | nil => rfl
  | cons entry rest =>
    have past := counted.logged entry (by rw [seen]; exact mem_cons_self)
    have other : entry.probe (s.period + 1) = false := by
      unfold Entry.probe
      split
      · have earlier := past _ rfl
        exact decide_eq_false (by omega)
      · rfl
    rw [takeWhile_cons, other]
    rfl

theorem execute_steps {now : ℤ} (stepped : s.step (.execute now) = some s') : s' = s ∨
    (s.breaker.state = .opened ∧ (∃ time ∈ s.breaker.openUntil, time ≤ now) ∧
      s' = s.start (s.breaker.transitionTo .halfOpen now)) ∨
    (s.breaker.state ≠ .opened ∧ s' = s.start s.breaker) := by
  rcases s.breaker.execute_cases now with ⟨-, error, thrown⟩ | ⟨opened, come, called⟩ | ⟨closed, called⟩
  · simp only [step, thrown, Option.some.injEq] at stepped
    exact .inl stepped.symm
  · simp only [step, called, Option.some.injEq] at stepped
    exact .inr (.inl ⟨opened, come, stepped.symm⟩)
  · simp only [step, called, Option.some.injEq] at stepped
    exact .inr (.inr ⟨closed, stepped.symm⟩)

theorem start_calls (counted : s.Counted) {breaker : CircuitBreaker} (startedIn : Option ℕ)
    (mem : startedIn ∈ (s.start breaker).calls) : ∀ period ∈ startedIn, period ≤ (s.start breaker).period := by
  have later : s.period ≤ (s.start breaker).period := by
    unfold start
    dsimp only
    split <;> omega
  intro period known
  rcases mem_append.mp mem with running | started
  · exact Nat.le_trans (counted.calls startedIn running period known) later
  · rw [mem_singleton.mp started] at known
    split at known
    · cases known
      exact Nat.le_refl _
    · cases known

theorem execute_counted (counted : s.Counted) {now : ℤ} (stepped : s.step (.execute now) = some s') : s'.Counted := by
  rcases execute_steps stepped with rfl | ⟨opened, -, rfl⟩ | ⟨closed, rfl⟩
  · exact counted
  · have period : (s.start (s.breaker.transitionTo .halfOpen now)).period = s.period + 1 := if_pos opened
    refine ⟨nofun, fun _ => ?_, start_calls counted, fun entry mem earlier known => ?_⟩
    · rw [probesInARow, period]
      change 0 = (s.log.takeWhile _).length
      rw [counted.no_probe]
      rfl
    · rw [period]
      exact Nat.le_succ_of_le (counted.logged entry mem earlier known)
  · have period : (s.start s.breaker).period = s.period := if_neg closed
    refine ⟨counted.failures, fun half => ?_, start_calls counted, fun entry mem earlier known => ?_⟩
    · rw [probesInARow, period]
      exact counted.probes half
    · rw [period]
      exact counted.logged entry mem earlier known

theorem complete_log (counted : s.Counted) {call : ℕ} {succeeded : Bool} {startedIn : Option ℕ} {now : ℤ}
    (found : s.calls[call]? = some startedIn) (entry : Entry)
    (mem : entry ∈ (s.complete call succeeded startedIn now).log) : ∀ period ∈ entry.startedIn, period ≤ s.period := by
  rcases mem_cons.mp mem with rfl | old
  · exact counted.calls startedIn (mem_of_getElem? found)
  · exact counted.logged entry old

theorem success_failures (s : Traffic) (call : ℕ) (startedIn : Option ℕ) (now : ℤ) :
    (s.complete call true startedIn now).failuresInARow = 0 := by
  have ends : (Entry.completed s.breaker.state true startedIn).failedClosed = false := by
    cases s.breaker.state <;> rfl
  change (List.takeWhile _ (_ :: s.log)).length = 0
  rw [takeWhile_cons, ends]
  rfl

theorem failure_failures (closed : s.breaker.state = .closed) (call : ℕ) (startedIn : Option ℕ) (now : ℤ) :
    (s.complete call false startedIn now).failuresInARow = s.failuresInARow + 1 := by
  change (List.takeWhile _ (_ :: s.log)).length = _
  rw [closed]
  rfl

theorem success_probes (half : s.breaker.state = .halfOpen) (call : ℕ) (now : ℤ) :
    (s.complete call true (some s.period) now).probesInARow = s.probesInARow + 1 := by
  have counts : (Entry.completed .halfOpen true (some s.period)).probe s.period = true := decide_eq_true rfl
  change (List.takeWhile (Entry.probe s.period) (.completed s.breaker.state true (some s.period) :: s.log)).length = _
  rw [half, takeWhile_cons, counts]
  rfl

theorem complete_counted (counted : s.Counted) {call : ℕ} {succeeded : Bool} {startedIn : Option ℕ} {now : ℤ}
    (found : s.calls[call]? = some startedIn) (fresh : s.fresh (.complete call succeeded now) = true) :
    (s.complete call succeeded startedIn now).Counted := by
  have calls (other : Option ℕ) (mem : other ∈ (s.complete call succeeded startedIn now).calls) :
      ∀ period ∈ other, period ≤ s.period := counted.calls other (mem_of_mem_eraseIdx mem)
  refine ⟨fun closed => ?_, fun half => ?_, calls, complete_log counted found⟩
  · cases succeeded with
    | true =>
      rw [success_failures]
      change (s.breaker.recordSuccess now).consecutiveFailures = 0
      rcases s.breaker.recordSuccess_cases now with ⟨-, same⟩ | ⟨-, -, same⟩ | ⟨-, same⟩ <;>
        simp [same, CircuitBreaker.transitionTo]
    | false =>
      change (s.breaker.recordFailure now).state = .closed at closed
      change (s.breaker.recordFailure now).consecutiveFailures = _
      rcases s.breaker.recordFailure_cases now with ⟨-, opened, -⟩ | ⟨-, -, same⟩
      · rw [opened] at closed
        cases closed
      · rw [same] at closed ⊢
        rw [failure_failures closed, ← counted.failures closed]
  · cases succeeded with
    | true =>
      change (s.breaker.recordSuccess now).state = .halfOpen at half
      change (s.breaker.recordSuccess now).consecutiveSuccesses = _
      rcases s.breaker.recordSuccess_cases now with ⟨other, same⟩ | ⟨-, -, same⟩ | ⟨probing, same⟩
      · rw [same] at half
        exact absurd half other
      · rw [same] at half
        cases half
      · have known : startedIn = some s.period := by
          rw [Traffic.fresh, found] at fresh
          simpa [probing] using fresh
        rw [same, known, success_probes probing, ← counted.probes probing]
    | false =>
      change (s.breaker.recordFailure now).state = .halfOpen at half
      rcases s.breaker.recordFailure_cases now with ⟨-, opened, -⟩ | ⟨other, -, same⟩
      · rw [opened] at half
        cases half
      · rw [same] at half
        exact absurd half other

theorem step_counted {action : Action} (counted : s.Counted) (fresh : s.fresh action = true)
    (stepped : s.step action = some s') : s'.Counted := by
  cases action with
  | execute now => exact execute_counted counted stepped
  | complete call succeeded now =>
    obtain ⟨startedIn, found, rfl⟩ := map_eq_some_iff.mp stepped
    exact complete_counted counted found fresh
  | reset now =>
    cases stepped
    refine ⟨fun _ => rfl, nofun, counted.calls, fun entry mem => ?_⟩
    rcases mem_cons.mp mem with rfl | old
    · exact nofun
    · exact counted.logged entry old

theorem step_starts {action : Action} (stepped : s.step action = some s') (more : s.calls.length < s'.calls.length) :
    ∃ now, action = .execute now ∧ (s.breaker.state = .opened → ∃ time ∈ s.breaker.openUntil, time ≤ now) := by
  cases action with
  | execute now =>
    refine ⟨now, rfl, fun opened => ?_⟩
    rcases execute_steps stepped with rfl | ⟨-, come, -⟩ | ⟨closed, -⟩
    · exact absurd more (Nat.lt_irrefl _)
    · exact come
    · exact absurd opened closed
  | reset now =>
    cases stepped
    exact absurd more (Nat.lt_irrefl _)
  | complete call succeeded now =>
    obtain ⟨startedIn, found, rfl⟩ := map_eq_some_iff.mp stepped
    exact absurd more (Nat.not_lt.mpr (length_eraseIdx_le _ _))

theorem step_opens_iff {action : Action} (counted : s.Counted) (stepped : s.step action = some s') :
    (s.breaker.state ≠ .opened ∧ s'.breaker.state = .opened) ↔
      ∃ call now, action = .complete call false now ∧ (s.breaker.state = .halfOpen ∨
        s.breaker.state = .closed ∧ s.breaker.failureThreshold ≤ s'.failuresInARow) := by
  cases action with
  | execute now =>
    refine iff_of_false ?_ (fun ⟨_, _, other, _⟩ => nomatch other)
    rintro ⟨before, after⟩
    rcases execute_steps stepped with rfl | ⟨-, -, rfl⟩ | ⟨-, rfl⟩
    · exact before after
    · cases after
    · exact before after
  | reset now =>
    cases stepped
    exact iff_of_false (fun ⟨_, other⟩ => nomatch other) fun ⟨_, _, other, _⟩ => nomatch other
  | complete call succeeded now =>
    obtain ⟨startedIn, found, rfl⟩ := map_eq_some_iff.mp stepped
    cases succeeded with
    | true =>
      refine iff_of_false ?_ (fun ⟨_, _, other, _⟩ => nomatch other)
      rintro ⟨before, after⟩
      change (s.breaker.recordSuccess now).state = .opened at after
      rcases s.breaker.recordSuccess_cases now with ⟨-, same⟩ | ⟨-, -, same⟩ | ⟨-, same⟩ <;> rw [same] at after
      · exact before after
      · cases after
      · exact before after
    | false =>
      have count (closed : s.breaker.state = .closed) : (s.complete call false startedIn now).failuresInARow =
          s.breaker.consecutiveFailures + 1 := by rw [failure_failures closed, counted.failures closed]
      change _ ∧ (s.breaker.recordFailure now).state = .opened ↔ _
      rcases s.breaker.recordFailure_cases now with ⟨trips, opened, -⟩ | ⟨other, stays, same⟩
      · refine iff_of_true ⟨?_, opened⟩ ⟨call, now, rfl, trips.imp_right fun ⟨closed, enough⟩ => ⟨closed, ?_⟩⟩
        · rcases trips with half | ⟨closed, -⟩
          · rw [half]
            nofun
          · rw [closed]
            nofun
        · rw [count closed]
          exact enough
      · refine iff_of_false ?_ ?_
        · rw [same]
          exact fun ⟨before, after⟩ => before after
        · rintro ⟨_, _, -, half | ⟨closed, enough⟩⟩
          · exact other half
          · rw [count closed] at enough
            exact stays ⟨closed, enough⟩

theorem step_closes {action : Action} (counted : s.Counted) (fresh : s.fresh action = true)
    (stepped : s.step action = some s') (before : s.breaker.state ≠ .closed) (after : s'.breaker.state = .closed) :
    (∃ now, action = .reset now) ∨ s.breaker.successThreshold ≤ s'.probesInARow := by
  cases action with
  | execute now =>
    rcases execute_steps stepped with rfl | ⟨-, -, rfl⟩ | ⟨-, rfl⟩
    · exact absurd after before
    · cases after
    · exact absurd after before
  | reset now => exact .inl ⟨now, rfl⟩
  | complete call succeeded now =>
    right
    obtain ⟨startedIn, found, rfl⟩ := map_eq_some_iff.mp stepped
    cases succeeded with
    | true =>
      change (s.breaker.recordSuccess now).state = .closed at after
      rcases s.breaker.recordSuccess_cases now with ⟨-, same⟩ | ⟨probing, enough, -⟩ | ⟨-, same⟩
      · rw [same] at after
        exact absurd after before
      · have known : startedIn = some s.period := by
          rw [Traffic.fresh, found] at fresh
          simpa [probing] using fresh
        rw [known, success_probes probing, ← counted.probes probing]
        exact enough
      · rw [same] at after
        exact absurd after before
    | false =>
      change (s.breaker.recordFailure now).state = .closed at after
      rcases s.breaker.recordFailure_cases now with ⟨-, opened, -⟩ | ⟨-, -, same⟩
      · rw [opened] at after
        cases after
      · rw [same] at after
        exact absurd after before

theorem step_settings {action : Action} (stepped : s.step action = some s') : s'.breaker.settings = s.breaker.settings := by
  cases action with
  | execute now =>
    rcases execute_steps stepped with rfl | ⟨-, -, rfl⟩ | ⟨-, rfl⟩
    · rfl
    · exact s.breaker.transitionTo_settings .halfOpen now
    · rfl
  | reset now =>
    cases stepped
    exact s.breaker.transitionTo_settings .closed now
  | complete call succeeded now =>
    obtain ⟨startedIn, found, rfl⟩ := map_eq_some_iff.mp stepped
    cases succeeded with
    | true =>
      change (s.breaker.recordSuccess now).settings = _
      rcases s.breaker.recordSuccess_cases now with ⟨-, same⟩ | ⟨-, -, same⟩ | ⟨-, same⟩
      all_goals
        rw [same]
        rfl
    | false =>
      change (s.breaker.recordFailure now).settings = _
      rcases s.breaker.recordFailure_cases now with ⟨-, -, same⟩ | ⟨-, -, same⟩
      · exact same
      · rw [same]
        rfl

end Traffic

open Traffic

/-- In a run in which no success while half-open is of an action that was started before, no step starts an action while
    the breaker is open and its time has not come; a step opens it exactly where a completion fails while half-open or as
    the last of enough in a row while closed; and it closes only after enough probes in a row (or by `reset`). -/
theorem breaker_sound {options : CircuitBreakerOptions} {s s' : Traffic} {action : Action}
    (run : Runs Traffic.step (fun s action => s.fresh action = true) (new options) s) (fresh : s.fresh action = true)
    (stepped : s.step action = some s') :
    (s.calls.length < s'.calls.length → ∃ now, action = .execute now ∧
      (s.breaker.state = .opened → ∃ time ∈ s.breaker.openUntil, time ≤ now)) ∧
    ((s.breaker.state ≠ .opened ∧ s'.breaker.state = .opened) ↔
      ∃ call now, action = .complete call false now ∧ (s.breaker.state = .halfOpen ∨
        s.breaker.state = .closed ∧ options.failureThreshold.getD 5 ≤ s'.failuresInARow)) ∧
    (s.breaker.state ≠ .closed → s'.breaker.state = .closed →
      (∃ now, action = .reset now) ∨ options.successThreshold.getD 2 ≤ s'.probesInARow) := by
  have counted : s.Counted :=
    run.keeps Counted (new_counted options) fun _ _ _ counted fresh stepped => step_counted counted fresh stepped
  have settings : s.breaker.settings = (CircuitBreaker.new options).settings :=
    run.keeps (·.breaker.settings = (CircuitBreaker.new options).settings) rfl fun _ _ _ same _ stepped =>
      (step_settings stepped).trans same
  have failureThreshold : s.breaker.failureThreshold = options.failureThreshold.getD 5 := congrArg (·.1) settings
  have successThreshold : s.breaker.successThreshold = options.successThreshold.getD 2 := congrArg (·.2.2.1) settings
  rw [← failureThreshold, ← successThreshold]
  exact ⟨step_starts stepped, step_opens_iff counted stepped, step_closes counted fresh stepped⟩

section Sample

def touchy : Traffic := new ⟨some 1, some 100, some 1, none⟩

theorem breaker_sound_closed : ∃ s : Traffic, s.breaker.state = .closed ∧ 1 ≤ s.probesInARow := by
  obtain ⟨s, run, half, fresh, closes⟩ : ∃ s, Runs step (fun s action => s.fresh action = true) touchy s ∧
      s.breaker.state = .halfOpen ∧ s.fresh (.complete 0 true 106) = true ∧
      (s.step (.complete 0 true 106)).any (fun s' => s'.breaker.state = .closed) = true :=
    Runs.exists_of_foldlM [.execute 0, .complete 0 false 5, .execute 105] (by decide +kernel)
  obtain ⟨s', stepped, closed⟩ := (any_eq_true _ _).mp closes
  refine ⟨s', of_decide_eq_true closed, ?_⟩
  rcases (breaker_sound run fresh stepped).2.2 (by rw [half]; nofun) (of_decide_eq_true closed) with ⟨_, other⟩ | enough
  · cases other
  · exact Int.ofNat_le.mp enough

/-- Of two actions that run at the same time the first fails, and the second succeeds after a third was started at the
    time of the recovery attempt: the breaker closes without a success of the third. -/
theorem not_breaker_sound : ∃ s s', Runs step anyAction touchy s ∧ s.step (.complete 0 true 106) = some s' ∧
    s.breaker.state = .halfOpen ∧ s'.breaker.state = .closed ∧ s'.breaker.successThreshold = 1 ∧ s'.probesInARow = 0 := by
  obtain ⟨s, run, half, closes⟩ : ∃ s, Runs step anyAction touchy s ∧ s.breaker.state = .halfOpen ∧
      (s.step (.complete 0 true 106)).any (fun s' => s'.breaker.state = .closed ∧ s'.breaker.successThreshold = 1 ∧
        s'.probesInARow = 0) = true :=
    Runs.exists_of_foldlM [.execute 0, .execute 0, .complete 0 false 5, .execute 105] (by decide +kernel)
  obtain ⟨s', stepped, closed⟩ := (any_eq_true _ _).mp closes
  exact ⟨s, s', run, stepped, half, of_decide_eq_true closed⟩

end Sample

end SubTrackr.Resilience
