import SubTrackr.Proxy.EntryPoints

namespace SubTrackr.Proxy

open Lib Soroban

def Call.Schedules (x : Address) : Call → Prop
  | .scheduleUpgrade y _ => y = x
  | .authorizeUpgrade _ y => y = x
  | _ => False

def Call.Fills : Call → Prop
  | .scheduleUpgrade .. => True
  | .authorizeUpgrade .. => True
  | .rollback => True
  | _ => False

def Call.Clears : Call → Prop
  | .cancelScheduledUpgrade => True
  | .upgradeTo _ => True
  | _ => False

def Call.Settles (call : Call) : Prop := call.Fills ∨ call.Clears

def recorded (p : Instance) (event : UpgradeEvent) : Instance :=
  { p with
    proxyUpgradeHistoryEntry := put p.proxyUpgradeHistoryEntry (historyCount p) event
    proxyUpgradeHistoryCount := some (historyCount p + 1) }

def slotEvent (p : Instance) (action : UpgradeAction) (current : Address) (slot : ScheduledUpgrade)
    (executedAt : Nat) : UpgradeEvent where
  action
  oldImplementation := current
  newImplementation := slot.implementation
  versionBefore := version p
  versionAfter := version p
  scheduledFor := slot.executeAfter
  executedAt

def upgraded (stack : Instance) (newImplementation : Address) (versionAfter : Nat) : Instance :=
  { stack with
    proxyImplementation := some newImplementation
    proxyVersion := if version stack < versionAfter then some versionAfter else stack.proxyVersion
    proxyScheduledUpgrade := none }

inductive Effect (env : Env) (p : Instance) : Call → Instance → Prop where
  | keep {call} (other : ¬ call.Settles) : Effect env p call p
  | schedule {call current} {slot : ScheduledUpgrade} (path : call.Schedules slot.implementation)
      (idle : scheduledUpgrade env p = none) (inForce : p.proxyImplementation = some current)
      (changes : slot.implementation ≠ current) (delayed : env.timestamp + upgradeDelaySecs p ≤ slot.executeAfter) :
      Effect env p call
        (recorded (setScheduledUpgrade env p slot) (slotEvent p .scheduled current slot 0))
  | rollback {current} {slot : ScheduledUpgrade} (idle : scheduledUpgrade env p = none)
      (inForce : p.proxyImplementation = some current) (top : previousTop p = some slot.implementation)
      (delayed : slot.executeAfter = env.timestamp + rollbackDelaySecs p) :
      Effect env p .rollback
        (recorded (setScheduledUpgrade env p slot) (slotEvent p .scheduled current slot 0))
  | cancel {current slot} (pending : scheduledUpgrade env p = some slot)
      (inForce : p.proxyImplementation = some current) :
      Effect env p .cancelScheduledUpgrade
        (recorded (clearScheduledUpgrade p) (slotEvent p .cancelled current slot env.timestamp))
  | upgrade {current slot stack versionAfter} (pending : scheduledUpgrade env p = some slot)
      (expired : slot.executeAfter ≤ env.timestamp) (inForce : p.proxyImplementation = some current)
      (stacked : restack p current slot.implementation = .ok stack) (noLower : version p ≤ versionAfter)
      (unmigrated : previousTop p = some slot.implementation → versionAfter = version p) :
      Effect env p (.upgradeTo slot.implementation)
        (recorded (upgraded stack slot.implementation versionAfter)
          { action := if previousTop p = some slot.implementation then .rolledBack else .executed
            oldImplementation := current
            newImplementation := slot.implementation
            versionBefore := version p
            versionAfter
            scheduledFor := slot.executeAfter
            executedAt := env.timestamp })

theorem appendHistory_ok {s s' : State} {event : UpgradeEvent} (run : appendHistory s event = .ok s') :
    s'.toInstance = recorded s.toInstance event := by
  simp only [appendHistory, historyAppend, bind_eq_ok, pure_eq_ok, u32_eq_ok] at run
  rcases run with ⟨_, ⟨_, ⟨_, rfl⟩, rfl⟩, rfl⟩
  rfl

theorem invoke_ok {env : Env} {s s' : State} {contract : Address} {function : String} {args : List Val} {answer : Val}
    (run : invoke env s contract function args = .ok (answer, s')) : s'.toInstance = s.toInstance := by
  simp only [invoke, bind_eq_ok, pure_eq_ok] at run
  rcases run with ⟨_, _, same⟩
  cases same
  rfl

theorem targetVersion_ok {env : Env} {s s' : State} {contract storage : Address} {answer : Nat}
    (run : targetVersion env s contract storage = .ok (answer, s')) : s'.toInstance = s.toInstance := by
  simp only [targetVersion, bind_eq_ok] at run
  rcases run with ⟨⟨answered, s₁⟩, invoked, run⟩
  cases answered with
  | u32 =>
    cases run
    exact invoke_ok invoked
  | _ => cases run

theorem invokeUnit_ok {env : Env} {s s' : State} {contract : Address} {function : String} {args : List Val}
    (run : invokeUnit env s contract function args = .ok s') : s'.toInstance = s.toInstance := by
  simp only [invokeUnit, bind_eq_ok] at run
  rcases run with ⟨⟨answered, s₁⟩, invoked, run⟩
  cases answered with
  | void =>
    cases run
    exact invoke_ok invoked
  | _ => cases run

theorem delegated_ok {env : Env} {s s' : State} {function : String} {args : List Val} {answer : Val}
    (run : delegated env s function args = .ok (answer, s')) : s'.toInstance = s.toInstance := by
  simp only [delegated, invokeImpl, bind_eq_ok] at run
  rcases run with ⟨_, _, _, _, invoked⟩
  exact invoke_ok invoked

theorem restack_ok {p p' : Instance} {old new : Address} (run : restack p old new = .ok p') :
    previousTop p' = some old ∧ p' = { p with
      proxyPreviousImplementation := p'.proxyPreviousImplementation
      proxyPrevImplCount := p'.proxyPrevImplCount } := by
  unfold restack at run
  by_cases isTop : previousTop p = some new
  · rw [if_pos isTop] at run
    rcases swapPreviousTop_ok run with ⟨top, same⟩
    refine ⟨top, ?_⟩
    rw [same]
  · rw [if_neg isTop] at run
    exact pushPrevious_ok run

theorem migrateStorage_ok {env : Env} {s s' : State} {contract storage : Address} {current versionAfter : Nat}
    (run : migrateStorage env s contract storage current = .ok (versionAfter, s')) :
    current ≤ versionAfter ∧ s'.toInstance = { s.toInstance with
      proxyVersion := if current < versionAfter then some versionAfter else s.proxyVersion } := by
  simp only [migrateStorage, bind_eq_ok, ensure_eq_ok] at run
  rcases run with ⟨⟨target, s₁⟩, answered, _, noLower, s₂, validated, run⟩
  have same₁ := targetVersion_ok answered
  have same₂ := invokeUnit_ok validated
  by_cases migrates : current < target
  · simp only [if_pos migrates, bind_eq_ok, pure_eq_ok] at run
    rcases run with ⟨s₃, migrated, same⟩
    cases same
    refine ⟨noLower, ?_⟩
    rw [if_pos migrates]
    simp only [invokeUnit_ok migrated, same₂, same₁]
  · rw [if_neg migrates] at run
    cases run
    refine ⟨le_rfl, ?_⟩
    rw [if_neg (Nat.lt_irrefl _)]
    simp only [same₂, same₁]

section Calls

variable {env : Env} {s s' : State}

theorem scheduleUpgrade_effect {call : Call} {newImplementation : Address} {executeAfter : Nat}
    (path : call.Schedules newImplementation) (run : scheduleUpgrade env s newImplementation executeAfter = .ok s') :
    Effect env s.toInstance call s'.toInstance := by
  simp only [scheduleUpgrade, implementation, bind_eq_ok, ensure_eq_ok, expect_eq_ok, u64_eq_ok] at run
  rcases run with ⟨_, _, _, _, _, idle, least, ⟨_, same⟩, _, delayed, current, inForce, _, changes, _, _,
    ⟨_, s₁⟩, answered, appended⟩
  subst same
  rw [appendHistory_ok appended, targetVersion_ok answered]
  exact .schedule path idle inForce changes delayed

theorem authorizeUpgrade_effect {caller newImplementation : Address}
    (run : authorizeUpgrade env s caller newImplementation = .ok s') :
    Effect env s.toInstance (.authorizeUpgrade caller newImplementation) s'.toInstance := by
  simp only [authorizeUpgrade, bind_eq_ok] at run
  rcases run with ⟨_, _, _, _, _, _, executeAfter, _, scheduled⟩
  exact scheduleUpgrade_effect rfl scheduled

theorem cancelScheduledUpgrade_effect (run : cancelScheduledUpgrade env s = .ok s') :
    Effect env s.toInstance .cancelScheduledUpgrade s'.toInstance := by
  simp only [cancelScheduledUpgrade, implementation, bind_eq_ok, expect_eq_ok] at run
  rcases run with ⟨_, _, _, _, slot, pending, current, inForce, appended⟩
  rw [appendHistory_ok appended]
  exact .cancel pending inForce

theorem rollback_effect {executeAfter : Nat} (run : rollback env s = .ok (executeAfter, s')) :
    Effect env s.toInstance .rollback s'.toInstance := by
  simp only [rollback, implementation, bind_eq_ok, pure_eq_ok, ensure_eq_ok, expect_eq_ok, u64_eq_ok] at run
  rcases run with ⟨_, _, _, _, _, idle, prev, top, due, ⟨_, delayed⟩, current, inForce, s₁, appended, same⟩
  cases same
  rw [appendHistory_ok appended]
  exact .rollback idle inForce top delayed.symm

theorem upgradeTo_effect {newImplementation : Address} (run : upgradeTo env s newImplementation = .ok s') :
    Effect env s.toInstance (.upgradeTo newImplementation) s'.toInstance := by
  simp only [upgradeTo, implementation, bind_eq_ok, ensure_eq_ok, expect_eq_ok] at run
  rcases run with ⟨_, _, _, _, slot, pending, _, same, _, expired, _, _, current, inForce, _, _, stack, stacked,
    ⟨versionAfter, s₁⟩, migrated, appended⟩
  subst same
  have frame := (restack_ok stacked).2
  have versionKept : version stack = version s.toInstance := by rw [frame]; rfl
  have written : version s.toInstance ≤ versionAfter ∧
      (previousTop s.toInstance = some slot.implementation → versionAfter = version s.toInstance) ∧
      s₁.toInstance = { stack with
        proxyImplementation := some slot.implementation
        proxyVersion := if version stack < versionAfter then some versionAfter else stack.proxyVersion } := by
    by_cases isTop : previousTop s.toInstance = some slot.implementation
    · rw [if_pos isTop] at migrated
      cases migrated
      refine ⟨le_rfl, fun _ => rfl, ?_⟩
      rw [versionKept, if_neg (Nat.lt_irrefl _)]
    · rw [if_neg isTop] at migrated
      rcases migrateStorage_ok migrated with ⟨noLower, same⟩
      rw [versionKept]
      exact ⟨noLower, fun top => absurd top isTop, same⟩
  rcases written with ⟨noLower, unmigrated, same⟩
  rw [appendHistory_ok appended, same]
  exact .upgrade pending expired inForce stacked noLower unmigrated

end Calls

theorem exec_effect {env : Env} {call : Call} {s s' : State} (deployed : s.proxyStorage ≠ none)
    (run : exec ⟨env, call⟩ s = .ok s') : Effect env s.toInstance call s'.toInstance := by
  cases call with
  | initializeProxy admin storage implementation upgradeDelaySecs rollbackDelaySecs =>
    simp only [exec, initializeProxy, bind_eq_ok, ensure_eq_ok] at run
    rcases run with ⟨_, empty, _⟩
    exact absurd empty deployed
  | authorizeUpgrade admin newImplementation => exact authorizeUpgrade_effect run
  | scheduleUpgrade implementation executeAfter => exact scheduleUpgrade_effect rfl run
  | cancelScheduledUpgrade => exact cancelScheduledUpgrade_effect run
  | upgradeTo implementation => exact upgradeTo_effect run
  | rollback =>
    simp only [exec, bind_eq_ok, pure_eq_ok] at run
    rcases run with ⟨⟨executeAfter, s₁⟩, scheduled, same⟩
    subst same
    exact rollback_effect scheduled
  | delegated function args =>
    simp only [exec, bind_eq_ok, pure_eq_ok] at run
    rcases run with ⟨⟨answer, s₁⟩, invoked, same⟩
    subst same
    rw [delegated_ok invoked]
    exact .keep (by simp [Call.Settles, Call.Fills, Call.Clears])
  | storage call =>
    simp only [exec, bind_eq_ok, pure_eq_ok] at run
    rcases run with ⟨_, _, same⟩
    subst same
    exact .keep (by simp [Call.Settles, Call.Fills, Call.Clears])

end SubTrackr.Proxy
