import SubTrackr.Proxy.Timelock

namespace SubTrackr.Proxy

open Option Lib Soroban

def replayEvent (current : Address × Nat) (event : UpgradeEvent) : Option (Address × Nat) :=
  if (event.oldImplementation, event.versionBefore) = current then
    match event.action with
    | .scheduled => some current
    | .cancelled => some current
    | .executed => some (event.newImplementation, event.versionAfter)
    | .rolledBack => some (event.newImplementation, event.versionAfter)
  else none

def replayTo (entries : Store Nat UpgradeEvent) (start : Address × Nat) : Nat → Option (Address × Nat)
  | 0 => some start
  | n + 1 => (replayTo entries start n).bind fun current => (entries n).bind (replayEvent current)

def replay (p : Instance) (start : Address × Nat) : Option (Address × Nat) :=
  replayTo p.proxyUpgradeHistoryEntry start (historyCount p)

theorem replayTo_put (entries : Store Nat UpgradeEvent) (start : Address × Nat) (event : UpgradeEvent) {n i : Nat}
    (below : n ≤ i) : replayTo (put entries i event) start n = replayTo entries start n := by
  induction n with
  | zero => rfl
  | succ n ih =>
    simp only [replayTo]
    rw [ih (by omega), put_of_ne _ _ (by omega)]

theorem replay_recorded (p : Instance) (event : UpgradeEvent) (start : Address × Nat) :
    replay (recorded p event) start = (replay p start).bind fun current => replayEvent current event := by
  have counted : historyCount (recorded p event) = historyCount p + 1 := rfl
  have entry : (recorded p event).proxyUpgradeHistoryEntry (historyCount p) = some event := put_self ..
  simp only [replay, counted, replayTo, entry, bind_some]
  simp only [recorded, replayTo_put _ _ _ le_rfl]

section Guard

variable (V : Address → Nat)

/-- Whatever an outside contract answers to `get_version` is its own constant version. -/
def Env.Declares (env : Env) : Prop :=
  ∀ storage contract args answer storage', env.invokeContract storage contract "get_version" args = .ok (answer, storage') →
    answer = .u32 (V contract)

def Env.Spares (env : Env) : Prop :=
  ∀ storage contract function args answer storage',
    env.invokeContract storage contract function args = .ok (answer, storage') →
    storage' .proxyImplementation = storage .proxyImplementation ∧ (storage .admin ≠ none → storage' .admin ≠ none)

def BridgeSpares : Storage.Call → Prop
  | .instanceSet key _ => key ≠ .proxyImplementation
  | .instanceRemove key => key ≠ .proxyImplementation ∧ key ≠ .admin
  | _ => True

def ProxySets : Storage.Call → Prop
  | .setImplementation .. => False
  | _ => True

def ByProxy (_ : World) (tx : Tx) : Prop :=
  tx.env.Declares V ∧ tx.env.Spares ∧ ∀ call, tx.call = .storage call → ProxySets call

def Governed (w : World) (tx : Tx) : Prop :=
  ByProxy V w tx ∧ ∀ call, tx.call = .storage call → BridgeSpares call

def DeployedWith (first : Address) (s : State) : Prop :=
  ∃ (env : Env) (admin storage : Address) (upgradeDelaySecs rollbackDelaySecs : Nat), env.Declares V ∧ env.Spares ∧
    initializeProxy env .empty admin storage first upgradeDelaySecs rollbackDelaySecs = .ok s

end Guard

/-- The implementation in force is `x` in the proxy's storage, in its history and in the storage contract, and no
    implementation that it may go back to declares a version above the recorded one. -/
structure Recorded (V : Address → Nat) (first : Address) (s : State) (x : Address) : Prop where
  inForce : s.proxyImplementation = some x
  replays : replay s.toInstance (first, V first) = some (x, version s.toInstance)
  authorised : s.storage .proxyImplementation = some x
  declared : V x ≤ version s.toInstance
  stacked : ∀ i < previousCount s.toInstance, ∃ y, s.proxyPreviousImplementation i = some y ∧
    V y ≤ version s.toInstance

theorem restack_stacked {p p' : Instance} {old new : Address} {P : Address → Prop}
    (run : restack p old new = .ok p') (holds : P old)
    (stacked : ∀ i < previousCount p, ∃ y, p.proxyPreviousImplementation i = some y ∧ P y) :
    ∀ i < previousCount p', ∃ y, p'.proxyPreviousImplementation i = some y ∧ P y := by
  unfold restack at run
  split at run
  · simp only [swapPreviousTop, bind_eq_ok, pure_eq_ok, ensure_eq_ok] at run
    rcases run with ⟨_, _, _, _, rfl⟩
    intro i below
    by_cases top : i = previousCount p - 1
    · subst top
      exact ⟨old, put_self .., holds⟩
    · rcases stacked i below with ⟨y, found, fits⟩
      exact ⟨y, (put_of_ne _ _ top).trans found, fits⟩
  · simp only [pushPrevious, bind_eq_ok, pure_eq_ok, u32_eq_ok] at run
    rcases run with ⟨next, ⟨_, rfl⟩, rfl⟩
    intro i below
    by_cases top : i = previousCount p
    · subst top
      exact ⟨old, put_self .., holds⟩
    · have old : i < previousCount p := by
        have bound : i < previousCount p + 1 := below
        omega
      rcases stacked i old with ⟨y, found, fits⟩
      exact ⟨y, (put_of_ne _ _ top).trans found, fits⟩

theorem previousTop_eq_some {p : Instance} {x : Address} (top : previousTop p = some x) :
    ∃ i < previousCount p, p.proxyPreviousImplementation i = some x := by
  unfold previousTop at top
  split at top
  · cases top
  · exact ⟨previousCount p - 1, by omega, top⟩

section Outside

variable {V : Address → Nat} {env : Env} {s s' : State} {contract storage : Address} {function : String}
  {args : List Val} {answer : Val}

def SameOwner (s s' : Storage.State) : Prop :=
  s' .proxyImplementation = s .proxyImplementation ∧ (s .admin ≠ none → s' .admin ≠ none)

theorem SameOwner.trans {s s' s'' : Storage.State} (first : SameOwner s s') (second : SameOwner s' s'') : SameOwner s s'' :=
  ⟨second.1.trans first.1, fun set => second.2 (first.2 set)⟩

theorem invoke_sameOwner (spares : env.Spares) (run : invoke env s contract function args = .ok (answer, s')) :
    SameOwner s.storage s'.storage := by
  simp only [invoke, bind_eq_ok, pure_eq_ok] at run
  rcases run with ⟨⟨_, held⟩, answered, same⟩
  cases same
  exact spares _ _ _ _ _ _ answered

theorem targetVersion_declared (declares : env.Declares V) (spares : env.Spares) {target : Nat}
    (run : targetVersion env s contract storage = .ok (target, s')) :
    target = V contract ∧ SameOwner s.storage s'.storage := by
  simp only [targetVersion, bind_eq_ok] at run
  rcases run with ⟨⟨answered, s₁⟩, invoked, run⟩
  have owner := invoke_sameOwner spares invoked
  simp only [invoke, bind_eq_ok, pure_eq_ok] at invoked
  rcases invoked with ⟨⟨answer, held⟩, told, same⟩
  cases same
  cases declares _ _ _ _ _ told
  cases run
  exact ⟨rfl, owner⟩

theorem invokeUnit_sameOwner (spares : env.Spares) (run : invokeUnit env s contract function args = .ok s') :
    SameOwner s.storage s'.storage := by
  simp only [invokeUnit, bind_eq_ok] at run
  rcases run with ⟨⟨answered, s₁⟩, invoked, run⟩
  cases answered with
  | void =>
    cases run
    exact invoke_sameOwner spares invoked
  | _ => cases run

theorem migrateStorage_declared (declares : env.Declares V) (spares : env.Spares) {current versionAfter : Nat}
    (run : migrateStorage env s contract storage current = .ok (versionAfter, s')) :
    versionAfter = V contract ∧ SameOwner s.storage s'.storage := by
  simp only [migrateStorage, bind_eq_ok, ensure_eq_ok] at run
  rcases run with ⟨⟨target, s₁⟩, answered, _, noLower, s₂, validated, run⟩
  rcases targetVersion_declared declares spares answered with ⟨same, first⟩
  have second := first.trans (invokeUnit_sameOwner spares validated)
  by_cases migrates : current < target
  · simp only [if_pos migrates, bind_eq_ok, pure_eq_ok] at run
    rcases run with ⟨s₃, migrated, result⟩
    cases result
    have third := invokeUnit_sameOwner spares migrated
    exact ⟨same, second.trans third⟩
  · rw [if_neg migrates] at run
    cases run
    exact ⟨by omega, second⟩

theorem appendHistory_storage {event : UpgradeEvent} (run : appendHistory s event = .ok s') :
    s'.storage = s.storage := by
  simp only [appendHistory, bind_eq_ok, pure_eq_ok] at run
  rcases run with ⟨own, _, same⟩
  subst same
  rfl

theorem scheduleUpgrade_sameOwner (spares : env.Spares) {x : Address} {executeAfter : Nat}
    (run : scheduleUpgrade env s x executeAfter = .ok s') : SameOwner s.storage s'.storage := by
  simp only [scheduleUpgrade, targetVersion, bind_eq_ok] at run
  rcases run with ⟨_, _, _, _, _, _, _, _, _, _, _, _, _, _, _, _, ⟨_, s₁⟩, ⟨⟨answered, s₂⟩, invoked, told⟩, appended⟩
  have first := invoke_sameOwner spares invoked
  cases answered with
  | u32 =>
    cases told
    rw [appendHistory_storage appended]
    exact first
  | _ => cases told

theorem upgradeTo_declared (declares : env.Declares V) (spares : env.Spares) {x : Address}
    (run : upgradeTo env s x = .ok s') :
    s'.storage .proxyImplementation = some x ∧ s'.storage .admin ≠ none ∧
      (previousTop s.toInstance ≠ some x → version s'.toInstance = V x) := by
  simp only [upgradeTo, Storage.setImplementation, Storage.storedAdmin, bind_eq_ok, pure_eq_ok, expect_eq_ok] at run
  rcases run with ⟨_, _, _, _, _, _, _, _, _, _, _, _, _, _, _, ⟨_, owned, _, _, _, _, rfl⟩, stack, stacked,
    ⟨versionAfter, s₁⟩, migrated, appended⟩
  have written : put s.storage .proxyImplementation x .proxyImplementation = some x := put_self ..
  have administered : put s.storage .proxyImplementation x .admin ≠ none := by
    rw [put_of_ne _ _ (by decide), owned]
    exact some_ne_none _
  rw [appendHistory_storage appended]
  by_cases isTop : previousTop s.toInstance = some x
  · rw [if_pos isTop] at migrated
    cases migrated
    exact ⟨written, administered, fun other => absurd isTop other⟩
  · rw [if_neg isTop] at migrated
    rcases migrateStorage_declared declares spares migrated with ⟨told, implementationKept, adminKept⟩
    refine ⟨implementationKept.trans written, adminKept administered, fun _ => ?_⟩
    rcases migrateStorage_ok migrated with ⟨noLower, same⟩
    have frame := (restack_ok stacked).2
    have versionKept : version stack = version s.toInstance := by rw [frame]; rfl
    rw [appendHistory_ok appended, ← told]
    change version s₁.toInstance = versionAfter
    rw [same]
    by_cases raises : version s.toInstance < versionAfter
    · simp only [if_pos raises]
      rfl
    · simp only [if_neg raises]
      change version stack = versionAfter
      omega

theorem storageExec_sameOwner {host : Host} {s s' : Storage.State} {call : Storage.Call} (proxySets : ProxySets call)
    (spares : BridgeSpares call) (owned : s .admin ≠ none) (run : Storage.exec host s call = .ok s') :
    SameOwner s s' := by
  cases call with
  | initializeStorage admin implementation =>
    simp only [Storage.exec, Storage.initializeStorage, bind_eq_ok, ensure_eq_ok] at run
    rcases run with ⟨_, empty, _⟩
    exact absurd empty owned
  | setImplementation => exact proxySets.elim
  | instanceSet key value =>
    simp only [Storage.exec, Storage.instanceSet, bind_eq_ok, pure_eq_ok] at run
    rcases run with ⟨_, _, rfl⟩
    refine ⟨put_of_ne _ _ spares.symm, fun _ => ?_⟩
    rw [put_apply]
    split
    · exact some_ne_none _
    · exact owned
  | instanceRemove key =>
    simp only [Storage.exec, Storage.instanceRemove, bind_eq_ok, pure_eq_ok] at run
    rcases run with ⟨_, _, rfl⟩
    refine ⟨remove_of_ne _ spares.1.symm, fun _ => ?_⟩
    rw [remove_of_ne _ spares.2.symm]
    exact owned

theorem exec_sameOwner {w : World} {tx : Tx} (governed : Governed V w tx) (deployed : s.proxyStorage ≠ none)
    (owned : s.storage .admin ≠ none) (other : ∀ x, tx.call ≠ .upgradeTo x) (run : exec tx s = .ok s') :
    SameOwner s.storage s'.storage := by
  rcases tx with ⟨env, call⟩
  rcases governed with ⟨⟨_, spares, proxySets⟩, bridge⟩
  cases call with
  | initializeProxy admin storage implementation upgradeDelaySecs rollbackDelaySecs =>
    simp only [exec, initializeProxy, bind_eq_ok, ensure_eq_ok] at run
    rcases run with ⟨_, empty, _⟩
    exact absurd empty deployed
  | authorizeUpgrade admin newImplementation =>
    simp only [exec, authorizeUpgrade, bind_eq_ok] at run
    rcases run with ⟨_, _, _, _, _, _, _, _, scheduled⟩
    exact scheduleUpgrade_sameOwner spares scheduled
  | scheduleUpgrade implementation executeAfter => exact scheduleUpgrade_sameOwner spares run
  | cancelScheduledUpgrade =>
    simp only [exec, cancelScheduledUpgrade, bind_eq_ok] at run
    rcases run with ⟨_, _, _, _, _, _, _, _, appended⟩
    rw [appendHistory_storage appended]
    exact ⟨rfl, id⟩
  | upgradeTo x => exact absurd rfl (other x)
  | rollback =>
    simp only [exec, rollback, bind_eq_ok, pure_eq_ok] at run
    rcases run with ⟨_, ⟨_, _, _, _, _, _, _, _, _, _, _, _, _, appended, same⟩, rfl⟩
    cases same
    rw [appendHistory_storage appended]
    exact ⟨rfl, id⟩
  | delegated function args =>
    simp only [exec, delegated, invokeImpl, bind_eq_ok, pure_eq_ok] at run
    rcases run with ⟨_, ⟨_, _, _, _, invoked⟩, rfl⟩
    exact invoke_sameOwner spares invoked
  | storage call =>
    simp only [exec, bind_eq_ok, pure_eq_ok] at run
    rcases run with ⟨_, ran, rfl⟩
    exact storageExec_sameOwner (proxySets call rfl) (bridge call rfl) owned ran

end Outside

section Step

variable {V : Address → Nat} {first x : Address} {w : World} {tx : Tx} {s s' : State}

section

variable (holds : Recorded V first s x)

include holds

theorem Recorded.event {p : Instance} {event : UpgradeEvent}
    (slot : Option (Temporary ScheduledUpgrade)) (same : p = { s.toInstance with proxyScheduledUpgrade := slot })
    (fromHere : event.oldImplementation = x ∧ event.versionBefore = version s.toInstance)
    (stays : event.action = .scheduled ∨ event.action = .cancelled) :
    replay (recorded p event) (first, V first) = some (x, version s.toInstance) := by
  rw [replay_recorded, same]
  have before : replay { s.toInstance with proxyScheduledUpgrade := slot } (first, V first) =
      some (x, version s.toInstance) := holds.replays
  rw [before, bind_some, replayEvent, fromHere.1, fromHere.2, if_pos rfl]
  rcases stays with action | action <;> rw [action]

theorem Recorded.stay {s' : State} {event : UpgradeEvent}
    {slot : Option (Temporary ScheduledUpgrade)}
    (same : s'.toInstance = recorded { s.toInstance with proxyScheduledUpgrade := slot } event)
    (fromHere : event.oldImplementation = x ∧ event.versionBefore = version s.toInstance)
    (stays : event.action = .scheduled ∨ event.action = .cancelled)
    (authorised : s'.storage .proxyImplementation = s.storage .proxyImplementation) :
    version s'.toInstance = version s.toInstance ∧ Recorded V first s' x := by
  have versionKept : version s'.toInstance = version s.toInstance := by rw [same]; rfl
  refine ⟨versionKept, ?_, ?_, authorised.trans holds.authorised, ?_, ?_⟩
  · rw [same]
    exact holds.inForce
  · rw [versionKept, same]
    exact holds.event slot rfl fromHere stays
  · rw [versionKept]
    exact holds.declared
  · rw [versionKept, same]
    exact holds.stacked

theorem Recorded.upgrade {env : Env} {y : Address} (declares : env.Declares V)
    (spares : env.Spares) (run : upgradeTo env s y = .ok s') :
    version s.toInstance ≤ version s'.toInstance ∧ Recorded V first s' y := by
  rcases upgradeTo_declared declares spares run with ⟨authorised, _, migrated⟩
  have effect := upgradeTo_effect run
  generalize after : s'.toInstance = p' at effect
  cases effect with
  | keep other => exact absurd (.inr trivial) other
  | schedule path => exact path.elim
  | @upgrade current slot stack versionAfter _ _ inForce stacked noLower _ =>
    cases Option.some.inj (inForce.symm.trans holds.inForce)
    have frame := (restack_ok stacked).2
    have versionKept : version stack = version s.toInstance := by rw [frame]; rfl
    have versionSet : version s'.toInstance = versionAfter := by
      rw [after]
      change version (upgraded stack slot.implementation versionAfter) = versionAfter
      by_cases raises : version stack < versionAfter
      · simp only [upgraded, if_pos raises]
        rfl
      · simp only [upgraded, if_neg raises]
        change version stack = versionAfter
        omega
    have older : ∀ z, V z ≤ version s.toInstance → V z ≤ version s'.toInstance := fun z fits => by omega
    rw [← after]
    refine ⟨by omega, ?_, ?_, authorised, ?_, ?_⟩
    · rw [after]
      rfl
    · have before : replay (upgraded stack slot.implementation versionAfter) (first, V first) =
          some (x, version s.toInstance) := by
        rw [← holds.replays, frame]
        rfl
      rw [versionSet, after, replay_recorded, before, bind_some, replayEvent, if_pos rfl]
      by_cases isTop : previousTop s.toInstance = some slot.implementation
      · simp only [if_pos isTop]
      · simp only [if_neg isTop]
    · by_cases isTop : previousTop s.toInstance = some slot.implementation
      · rcases previousTop_eq_some isTop with ⟨i, below, found⟩
        rcases holds.stacked i below with ⟨z, found', fits⟩
        cases Option.some.inj (found.symm.trans found')
        exact older _ fits
      · exact (migrated isTop).ge
    · have all := restack_stacked stacked (older x holds.declared) fun i below => by
        rcases holds.stacked i below with ⟨z, found, fits⟩
        exact ⟨z, found, older z fits⟩
      rw [after] at all ⊢
      exact all

/-- What every call keeps once the proxy is deployed: the owner's entry of the storage contract is set, and the three
    records of the implementation agree. -/
theorem Recorded.step (governed : Governed V w tx) (deployed : s.proxyStorage ≠ none)
    (owned : s.storage .admin ≠ none) (run : exec tx s = .ok s') :
    s'.storage .admin ≠ none ∧ version s.toInstance ≤ version s'.toInstance ∧ ∃ y, Recorded V first s' y := by
  rcases tx with ⟨env, call⟩
  by_cases upgrades : ∃ y, call = .upgradeTo y
  · rcases upgrades with ⟨y, rfl⟩
    rcases governed with ⟨⟨declares, spares, _⟩, _⟩
    rcases holds.upgrade declares spares run with ⟨noLower, after⟩
    exact ⟨(upgradeTo_declared declares spares run).2.1, noLower, y, after⟩
  · have other (y : Address) : call ≠ .upgradeTo y := fun same => upgrades ⟨y, same⟩
    rcases exec_sameOwner governed deployed owned other run with ⟨authorised, adminKept⟩
    have effect := exec_effect deployed run
    refine ⟨adminKept owned, ?_⟩
    generalize after : s'.toInstance = p' at effect
    have stay {slot : Option (Temporary ScheduledUpgrade)} {event : UpgradeEvent}
        (same : s'.toInstance = recorded { s.toInstance with proxyScheduledUpgrade := slot } event)
        (fromHere : event.oldImplementation = x ∧ event.versionBefore = version s.toInstance)
        (stays : event.action = .scheduled ∨ event.action = .cancelled) :
        version s.toInstance ≤ version p' ∧ ∃ y, Recorded V first s' y := by
      rcases holds.stay same fromHere stays authorised with ⟨versionKept, recorded⟩
      rw [← after]
      exact ⟨versionKept.ge, x, recorded⟩
    cases effect with
    | keep =>
      refine ⟨le_rfl, x, ?_, ?_, authorised.trans holds.authorised, ?_, ?_⟩
      all_goals rw [after]
      · exact holds.inForce
      · exact holds.replays
      · exact holds.declared
      · exact holds.stacked
    | schedule _ _ inForce =>
      cases Option.some.inj (inForce.symm.trans holds.inForce)
      exact stay after ⟨rfl, rfl⟩ (.inl rfl)
    | rollback _ inForce =>
      cases Option.some.inj (inForce.symm.trans holds.inForce)
      exact stay after ⟨rfl, rfl⟩ (.inl rfl)
    | cancel _ inForce =>
      cases Option.some.inj (inForce.symm.trans holds.inForce)
      exact stay after ⟨rfl, rfl⟩ (.inr rfl)
    | upgrade => exact absurd rfl (other _)

end

end Step

theorem deployedWith_recorded {V : Address → Nat} {first : Address} {s : State} (initial : DeployedWith V first s) :
    s.proxyStorage ≠ none ∧ s.storage .admin ≠ none ∧ Recorded V first s first := by
  rcases initial with ⟨env, admin, storage, upgradeDelaySecs, rollbackDelaySecs, declares, spares, run⟩
  simp only [initializeProxy, Storage.initializeStorage, bind_eq_ok, pure_eq_ok] at run
  rcases run with ⟨_, _, _, _, _, ⟨_, _, _, _, rfl⟩, ⟨version, s₁⟩, answered, same⟩
  have own := targetVersion_ok answered
  rcases targetVersion_declared declares spares answered with ⟨told, implementationKept, adminKept⟩
  subst same told
  have owner : put (put Storage.State.empty .admin admin) .proxyImplementation first .admin = some admin := rfl
  have authorised : put (put Storage.State.empty .admin admin) .proxyImplementation first .proxyImplementation =
    some first := put_self ..
  refine ⟨?_, adminKept ?_, ?_, ?_, implementationKept.trans authorised, le_rfl, ?_⟩
  · simp only [own]
    exact some_ne_none _
  · exact fun unset => some_ne_none _ (owner.symm.trans unset)
  · simp only [own]
  · simp only [own]
    rfl
  · simp only [own]
    exact fun i below => absurd below (Nat.not_lt_zero i)

section Runs

variable {V : Address → Nat} {first : Address} {w : World}

theorem recorded_reachable (reached : Ledger.Reachable contract (DeployedWith V first) (Governed V) w) :
    w.state.proxyStorage ≠ none ∧ w.state.storage .admin ≠ none ∧ ∃ x, Recorded V first w.state x := by
  refine reached.state_invariant
    (I := fun s => s.proxyStorage ≠ none ∧ s.storage .admin ≠ none ∧ ∃ x, Recorded V first s x) ?_ ?_
  · intro s initial
    rcases deployedWith_recorded initial with ⟨deployed, owned, recorded⟩
    exact ⟨deployed, owned, first, recorded⟩
  · intro w tx s _ governed run holds
    rcases holds with ⟨deployed, owned, x, recorded⟩
    rcases recorded.step governed deployed owned run with ⟨adminKept, _, after⟩
    refine ⟨?_, adminKept, after⟩
    rw [(exec_effect deployed run).fixed.1]
    exact deployed

/-- The history replayed from the first implementation, the proxy's storage and the storage contract agree on the
    implementation in force, and the version never falls and is at least what that implementation and all on the stack
    declare. -/
theorem historyAgrees (reached : Ledger.Reachable contract (DeployedWith V first) (Governed V) w) :
    (∃ x, Recorded V first w.state x) ∧
      ∀ v, Ledger.Steps contract (Governed V) w v → version w.state.toInstance ≤ version v.state.toInstance := by
  refine ⟨(recorded_reachable reached).2.2, fun v steps => ?_⟩
  refine steps.relates (R := fun s s' : State => version s.toInstance ≤ version s'.toInstance)
    (fun _ => le_rfl) (fun _ _ _ => le_trans) reached ?_
  intro w tx s here governed run
  rcases recorded_reachable here with ⟨deployed, owned, x, recorded⟩
  exact (recorded.step governed deployed owned run).2.1

end Runs

theorem willing_declares (now : Nat) : (Env.willing now).Declares fun _ => 1 := by
  intro storage contract args answer storage' answered
  cases answered
  rfl

theorem willing_spares (now : Nat) : (Env.willing now).Spares := by
  intro storage contract function args answer storage' answered
  cases answered
  exact ⟨rfl, id⟩

theorem launched_deployedWith : DeployedWith (fun _ => 1) ⟨10⟩ .launched :=
  ⟨.willing 0, ⟨9⟩, ⟨1⟩, 100, 50, willing_declares 0, willing_spares 0, rfl⟩

theorem trial_steps {guard : World → Tx → Prop} {calls : List (Nat × Call)}
    (met : ∀ now call, (now, call) ∈ calls → ∀ w, guard w ⟨.willing now, call⟩) :
    Ledger.Steps contract guard (Ledger.genesis .launched) (trial calls) := by
  refine Ledger.Steps.run (fun tx mem w => ?_) _
  rcases List.mem_map.mp mem with ⟨⟨now, call⟩, member, rfl⟩
  exact met now call member w

theorem historyAgrees_rolledForward : (∃ x, Recorded (fun _ => 1) ⟨10⟩ rolledForward.state x) ∧
    ∀ v, Ledger.Steps contract (Governed fun _ => 1) rolledForward v →
      version rolledForward.state.toInstance ≤ version v.state.toInstance := by
  refine historyAgrees ⟨.launched, launched_deployedWith, trial_steps ?_⟩
  intro now call listed w
  have throughProxy : ∀ outside, call ≠ .storage outside := by
    intro outside same
    subst same
    simp at listed
  exact ⟨⟨willing_declares now, willing_spares now, fun outside same => absurd same (throughProxy outside)⟩,
    fun outside same => absurd same (throughProxy outside)⟩

theorem bridge_overwrites : ¬ ∀ (V : Address → Nat) (first : Address) (w : World),
    Ledger.Reachable contract (DeployedWith V first) (ByProxy V) w → ∃ x, Recorded V first w.state x := by
  intro holds
  have steps : Ledger.Steps contract (ByProxy fun _ => 1) (Ledger.genesis .launched)
      (trial [(0, .storage (.instanceSet .proxyImplementation ⟨77⟩))]) := by
    refine trial_steps fun now call listed w => ?_
    rw [List.mem_singleton] at listed
    cases listed
    refine ⟨willing_declares 0, willing_spares 0, fun call same => ?_⟩
    cases same
    trivial
  rcases holds _ _ _ ⟨.launched, launched_deployedWith, steps⟩ with ⟨x, recorded⟩
  have agree := recorded.inForce.trans recorded.authorised.symm
  exact absurd agree (by decide)

end SubTrackr.Proxy
