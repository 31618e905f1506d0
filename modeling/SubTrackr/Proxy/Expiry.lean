import SubTrackr.Proxy.Timelock

namespace SubTrackr.Proxy

open List Lib Soroban

/-- The history entry at `i` schedules an upgrade, and none after it executes, cancels or rolls one back. -/
structure Unsettled (p : Instance) (i : Nat) (event : UpgradeEvent) : Prop where
  listed : i < historyCount p
  found : p.proxyUpgradeHistoryEntry i = some event
  scheduled : event.action = .scheduled
  since : ∀ k later, i < k → k < historyCount p → p.proxyUpgradeHistoryEntry k = some later →
    later.action = .scheduled

structure Scheduled (r : Receipt Tx State) (i : Nat) (event : UpgradeEvent) : Prop where
  fills : r.tx.call.Fills
  index : historyCount r.before.toInstance = i
  recorded : r.after.proxyUpgradeHistoryEntry i = some event
  stored : r.after.proxyScheduledUpgrade =
    some ⟨⟨event.newImplementation, event.scheduledFor⟩, r.tx.env.ledgerSequence + upgradeTtlLedgers⟩

theorem Call.Schedules.fills {call : Call} {x : Address} (path : call.Schedules x) : call.Fills := by
  cases call with
  | authorizeUpgrade => trivial
  | scheduleUpgrade => trivial
  | _ => exact path.elim

section Entries

variable {p : Instance} {i : Nat} {event last : UpgradeEvent}

theorem Unsettled.newest (unsettled : Unsettled (recorded p last) (historyCount p) event) : last = event := by
  have entry : (recorded p last).proxyUpgradeHistoryEntry (historyCount p) = some last := put_self ..
  exact Option.some.inj (entry.symm.trans unsettled.found)

theorem Unsettled.before (unsettled : Unsettled (recorded p last) i event) (earlier : i ≠ historyCount p) :
    Unsettled p i event ∧ last.action = .scheduled := by
  have grown : historyCount (recorded p last) = historyCount p + 1 := rfl
  have kept (k : Nat) (other : k ≠ historyCount p) :
      (recorded p last).proxyUpgradeHistoryEntry k = p.proxyUpgradeHistoryEntry k := put_of_ne _ _ other
  have newest : (recorded p last).proxyUpgradeHistoryEntry (historyCount p) = some last := put_self ..
  have mem := unsettled.listed
  have bound : i < historyCount p := by omega
  have found := unsettled.found
  rw [kept i earlier] at found
  refine ⟨⟨bound, found, unsettled.scheduled, ?_⟩, unsettled.since _ _ bound (by omega) newest⟩
  intro k later after below read
  rw [← kept k (by omega)] at read
  exact unsettled.since k later after (by omega) read

theorem Unsettled.scheduled_last (unsettled : Unsettled (recorded p last) i event) : last.action = .scheduled := by
  by_cases new : i = historyCount p
  · subst new
    rw [unsettled.newest]
    exact unsettled.scheduled
  · exact (unsettled.before new).2

end Entries

/-- The upgrade that `r` scheduled is in temporary storage still, or enough ledgers had closed for it to be dropped. -/
def Traced (w : World) (i : Nat) (event : UpgradeEvent) : Prop :=
  ∃ r ∈ w.history, Scheduled r i event ∧
    (w.state.proxyScheduledUpgrade = r.after.proxyScheduledUpgrade ∨
      ∃ later ∈ w.history, r.tx.env.ledgerSequence + upgradeTtlLedgers < later.tx.env.ledgerSequence)

section Runs

variable {w : World} {i : Nat} {event : UpgradeEvent}

theorem initialised_unrecorded {s : State} (initial : Initialised s) : historyCount s.toInstance = 0 := by
  rcases initial with ⟨env, admin, storage, implementation, upgradeDelaySecs, rollbackDelaySecs, run⟩
  simp only [initializeProxy, bind_eq_ok, pure_eq_ok] at run
  rcases run with ⟨_, _, _, _, _, _, ⟨version, s₁⟩, answered, same⟩
  subst same
  simp only [targetVersion_ok answered]
  rfl

theorem Traced.refill {tx : Tx} {s : State} {slot : ScheduledUpgrade} {last : UpgradeEvent}
    (holds : ∀ i event, Unsettled w.state.toInstance i event → Traced w i event) (fills : tx.call.Fills)
    (idle : scheduledUpgrade tx.env w.state.toInstance = none)
    (described : last.newImplementation = slot.implementation ∧ last.scheduledFor = slot.executeAfter)
    (same : s.toInstance = recorded (setScheduledUpgrade tx.env w.state.toInstance slot) last)
    (unsettled : Unsettled s.toInstance i event) :
    Traced ⟨tx.env.timestamp, s, w.history ++ [⟨tx, w.state, s⟩]⟩ i event := by
  rw [same] at unsettled
  have held : s.proxyScheduledUpgrade = some ⟨slot, tx.env.ledgerSequence + upgradeTtlLedgers⟩ := by rw [same]; rfl
  by_cases new : i = historyCount w.state.toInstance
  · subst new
    cases unsettled.newest
    refine ⟨⟨tx, w.state, s⟩, mem_append_right _ (.head _), ⟨fills, rfl, ?_, ?_⟩, .inl rfl⟩
    · simp only [same]
      exact unsettled.found
    · rw [described.1, described.2]
      exact held
  · have before := (unsettled.before new).1
    rcases holds i event ⟨before.listed, before.found, before.scheduled, before.since⟩ with
      ⟨r, mem, scheduled, kept | ⟨later, member, past⟩⟩
    · refine ⟨r, mem_append_left _ mem, scheduled, .inr ⟨⟨tx, w.state, s⟩, mem_append_right _ (.head _), ?_⟩⟩
      by_contra lapsed
      have live : tx.env.ledgerSequence ≤ r.tx.env.ledgerSequence + upgradeTtlLedgers := Nat.le_of_not_lt lapsed
      have full := kept.trans scheduled.stored
      cases idle.symm.trans ((Temporary.get_eq_some ..).mpr ⟨_, full, live, rfl⟩)
    · exact ⟨r, mem_append_left _ mem, scheduled, .inr ⟨later, mem_append_left _ member, past⟩⟩

theorem traced {guard : World → Tx → Prop} (reached : Reachable guard w) :
    ∀ i event, Unsettled w.state.toInstance i event → Traced w i event := by
  refine reached.invariant (I := fun w => ∀ i event, Unsettled w.state.toInstance i event → Traced w i event)
    ?_ ?_ ?_
  · intro s initial i event unsettled
    have mem : i < historyCount s.toInstance := unsettled.listed
    rw [initialised_unrecorded initial] at mem
    exact absurd mem (Nat.not_lt_zero i)
  · intro w tx _ _ holds i event unsettled
    exact holds i event unsettled
  · intro w tx s here _ run holds i event unsettled
    rcases tx with ⟨env, call⟩
    have effect := exec_effect (deployed here) run
    change Unsettled s.toInstance i event at unsettled
    generalize after : s.toInstance = p' at effect
    cases effect with
    | keep =>
      rw [after] at unsettled
      rcases holds i event unsettled with ⟨r, mem, scheduled, kept | ⟨later, member, past⟩⟩
      · have same : s.proxyScheduledUpgrade = w.state.proxyScheduledUpgrade :=
          congrArg Instance.proxyScheduledUpgrade after
        exact ⟨r, mem_append_left _ mem, scheduled, .inl (same.trans kept)⟩
      · exact ⟨r, mem_append_left _ mem, scheduled, .inr ⟨later, mem_append_left _ member, past⟩⟩
    | schedule path idle => exact Traced.refill holds path.fills idle ⟨rfl, rfl⟩ after unsettled
    | rollback idle => exact Traced.refill holds trivial idle ⟨rfl, rfl⟩ after unsettled
    | cancel =>
      rw [after] at unsettled
      cases unsettled.scheduled_last
    | upgrade =>
      rw [after] at unsettled
      have action := unsettled.scheduled_last
      split at action <;> cases action

end Runs

section Found

variable {env : Env} {s : State}

def unscheduled : Panic := .message "No upgrade scheduled"

def Env.Tells (env : Env) : Prop :=
  ∀ storage contract function args, env.invokeContract storage contract function args ≠ .error unscheduled

theorem invoke_finds (tells : env.Tells) (contract : Address) (function : String) (args : List Val) :
    invoke env s contract function args ≠ .error unscheduled := by
  apply bind_ne_error (tells _ _ _ _)
  intro answered _ same
  cases same

theorem targetVersion_finds (tells : env.Tells) (contract storage : Address) :
    targetVersion env s contract storage ≠ .error unscheduled := by
  apply bind_ne_error (invoke_finds tells _ _ _)
  intro answered _
  rcases answered with ⟨answer, s₁⟩
  cases answer <;> exact fun same => by cases same

theorem invokeUnit_finds (tells : env.Tells) (contract : Address) (function : String) (args : List Val) :
    invokeUnit env s contract function args ≠ .error unscheduled := by
  apply bind_ne_error (invoke_finds tells _ _ _)
  intro answered _
  rcases answered with ⟨answer, s₁⟩
  cases answer <;> exact fun same => by cases same

theorem migrateStorage_finds (tells : env.Tells) (contract storage : Address) (current : Nat) :
    migrateStorage env s contract storage current ≠ .error unscheduled := by
  apply bind_ne_error (targetVersion_finds tells _ _)
  intro answered _
  apply bind_ne_error (require_ne_error _ (by decide))
  intro _ _
  apply bind_ne_error (invokeUnit_finds tells _ _ _)
  intro s₁ _
  split
  · apply bind_ne_error (invokeUnit_finds tells _ _ _)
    intro s₂ _ same
    cases same
  · intro same
    cases same

theorem setImplementation_finds (host : Host) (held : Storage.State) (admin x : Address) :
    Storage.setImplementation host held admin x ≠ .error unscheduled := by
  apply bind_ne_error (present_ne_error _ (by decide))
  intro owner _
  apply bind_ne_error (require_ne_error _ (by decide))
  intro _ _
  apply bind_ne_error (require_ne_error _ Panic.noConfusion)
  intro _ _ same
  cases same

theorem restack_finds (p : Instance) (old new : Address) : restack p old new ≠ .error unscheduled := by
  unfold restack
  split
  · apply bind_ne_error (require_ne_error _ (by decide))
    intro _ _
    apply bind_ne_error (present_ne_error _ (by decide))
    intro _ _ same
    cases same
  · apply bind_ne_error (below_ne_error _ _ (by decide))
    intro _ _ same
    cases same

theorem appendHistory_finds (event : UpgradeEvent) : appendHistory s event ≠ .error unscheduled := by
  apply bind_ne_error
  · apply bind_ne_error (below_ne_error _ _ (by decide))
    intro _ _ same
    cases same
  · intro _ _ same
    cases same

theorem upgradeTo_finds (tells : env.Tells) {slot : ScheduledUpgrade}
    (pending : scheduledUpgrade env s.toInstance = some slot) (x : Address) :
    upgradeTo env s x ≠ .error unscheduled := by
  apply bind_ne_error
  · apply bind_ne_error (present_ne_error _ (by decide))
    intro _ _
    exact present_ne_error _ (by decide)
  intro administrator _
  apply bind_ne_error (require_ne_error _ Panic.noConfusion)
  intro _ _
  apply bind_ne_error
  · rw [pending]
    exact fun same => by cases same
  intro scheduled _
  apply bind_ne_error (require_ne_error _ (by decide))
  intro _ _
  apply bind_ne_error (require_ne_error _ (by decide))
  intro _ _
  apply bind_ne_error (present_ne_error _ (by decide))
  intro storage _
  apply bind_ne_error (present_ne_error _ (by decide))
  intro oldImpl _
  apply bind_ne_error (setImplementation_finds _ _ _ _)
  intro contract _
  apply bind_ne_error (restack_finds _ _ _)
  intro own _
  apply bind_ne_error
  · split
    · exact fun same => by cases same
    · exact migrateStorage_finds tells _ _ _
  intro migrated _
  exact appendHistory_finds _

end Found

structure StillPending (w : World) (env : Env) (r : Receipt Tx State) (event : UpgradeEvent) : Prop where
  pending : scheduledUpgrade env w.state.toInstance = some ⟨event.newImplementation, event.scheduledFor⟩
  same : w.state.proxyScheduledUpgrade = r.after.proxyScheduledUpgrade
  found : env.Tells → upgradeTo env w.state event.newImplementation ≠ .error unscheduled

/-- A scheduled upgrade that nothing has settled is pending exactly until `upgradeTtlLedgers` ledgers have closed since
    the call that scheduled it, whatever the delay is. -/
theorem scheduledUpgrade_survives {guard : World → Tx → Prop} {w : World} (reached : Reachable guard w) {i : Nat}
    {event : UpgradeEvent} (unsettled : Unsettled w.state.toInstance i event) :
    ∃ r ∈ w.history, Scheduled r i event ∧ ∀ env : Env,
      (∀ past ∈ w.history, past.tx.env.ledgerSequence ≤ env.ledgerSequence) →
      (StillPending w env r event ↔ env.ledgerSequence ≤ r.tx.env.ledgerSequence + upgradeTtlLedgers) := by
  rcases traced reached i event unsettled with ⟨r, listed, scheduled, kept⟩
  refine ⟨r, listed, scheduled, fun env past => ?_⟩
  constructor
  · intro pending
    rcases (Temporary.get_eq_some ..).mp pending.pending with ⟨entry, full, live, _⟩
    have stored := pending.same.trans scheduled.stored
    cases Option.some.inj (full.symm.trans stored)
    exact live
  · intro live
    have same : w.state.proxyScheduledUpgrade = r.after.proxyScheduledUpgrade := by
      rcases kept with same | ⟨later, member, lapsed⟩
      · exact same
      · have reachedBy := past later member
        omega
    have pending : scheduledUpgrade env w.state.toInstance = some ⟨event.newImplementation, event.scheduledFor⟩ :=
      (Temporary.get_eq_some ..).mpr ⟨_, same.trans scheduled.stored, live, rfl⟩
    exact ⟨pending, same, fun tells => upgradeTo_finds tells pending _⟩

def scheduledOnce : World := trial [(0, .scheduleUpgrade ⟨11⟩ 100)]

theorem scheduledUpgrade_survives_once : ∃ event, Unsettled scheduledOnce.state.toInstance 0 event ∧
    ∃ r ∈ scheduledOnce.history, Scheduled r 0 event ∧ ∀ env : Env,
      (∀ past ∈ scheduledOnce.history, past.tx.env.ledgerSequence ≤ env.ledgerSequence) →
      (StillPending scheduledOnce env r event ↔
        env.ledgerSequence ≤ r.tx.env.ledgerSequence + upgradeTtlLedgers) := by
  have unsettled : Unsettled scheduledOnce.state.toInstance 0 ⟨.scheduled, ⟨10⟩, ⟨11⟩, 1, 1, 100, 0⟩ := by
    refine ⟨by decide, rfl, rfl, fun k later after below _ => ?_⟩
    have one : k < 1 := below
    omega
  exact ⟨_, unsettled, scheduledUpgrade_survives (trial_inSequence (by decide)) unsettled⟩

/-- An upgrade that its history entry leaves pending is in temporary storage, and the administrator's `upgrade_to`
    finds it once it is due. -/
def NeverLost (w : World) : Prop :=
  ∀ i event env administrator, Unsettled w.state.toInstance i event →
    inSequence w ⟨env, .upgradeTo event.newImplementation⟩ → admin w.state = .ok administrator →
    env.authorized administrator = true → event.scheduledFor ≤ env.timestamp →
    scheduledUpgrade env w.state.toInstance = some ⟨event.newImplementation, event.scheduledFor⟩ ∧
      (env.Tells → upgradeTo env w.state event.newImplementation ≠ .error unscheduled)

def delayedWeek : World :=
  attempt (Ledger.genesis { State.launched with proxyUpgradeDelaySecs := some 691200 })
    [(0, .authorizeUpgrade ⟨9⟩ ⟨11⟩)]

theorem scheduledUpgrade_lost : ¬ ∀ w, Reachable inSequence w → NeverLost w := by
  intro holds
  have initial : Initialised { State.launched with proxyUpgradeDelaySecs := some 691200 } :=
    ⟨.willing 0, ⟨9⟩, ⟨1⟩, ⟨10⟩, 691200, 50, rfl⟩
  have reached : Reachable inSequence delayedWeek :=
    attempt_inSequence ⟨_, initial, .refl⟩ (fun _ listed => absurd listed not_mem_nil) (by decide)
  have unsettled : Unsettled delayedWeek.state.toInstance 0 ⟨.scheduled, ⟨10⟩, ⟨11⟩, 1, 1, 691200, 0⟩ := by
    refine ⟨by decide, rfl, rfl, fun k later after below _ => ?_⟩
    have one : k < 1 := below
    omega
  have later : inSequence delayedWeek ⟨.willing 691200, .upgradeTo ⟨11⟩⟩ := by
    have clock : delayedWeek.clock ≤ 691200 := by decide
    refine ⟨clock, fun r listed => ?_⟩
    cases listed with
    | head => decide
    | tail _ rest => cases rest
  have tells : (Env.willing 691200).Tells := by
    intro storage contract function args same
    cases same
  have found := (holds _ reached 0 _ _ ⟨9⟩ unsettled later rfl rfl (by decide)).2 tells
  exact found rfl

end SubTrackr.Proxy
