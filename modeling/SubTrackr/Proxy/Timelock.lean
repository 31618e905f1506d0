import SubTrackr.Proxy.Effects

namespace SubTrackr.Proxy

open List Lib Soroban

section Effects

variable {env : Env} {p p' : Instance} {call : Call}

theorem Effect.fixed (effect : Effect env p call p') :
    p'.proxyStorage = p.proxyStorage ∧ upgradeDelaySecs p' = upgradeDelaySecs p ∧
      rollbackDelaySecs p' = rollbackDelaySecs p := by
  cases effect with
  | upgrade _ _ _ stacked =>
    have frame := (restack_ok stacked).2
    rw [frame]
    exact ⟨rfl, rfl, rfl⟩
  | _ => exact ⟨rfl, rfl, rfl⟩

theorem Effect.unsettled (effect : Effect env p call p') (other : ¬ call.Settles) : p' = p := by
  cases effect with
  | keep => rfl
  | @schedule call _ slot path =>
    cases call with
    | scheduleUpgrade => exact absurd (.inl trivial) other
    | authorizeUpgrade => exact absurd (.inl trivial) other
    | _ => exact path.elim
  | rollback => exact absurd (.inl trivial) other
  | cancel => exact absurd (.inr trivial) other
  | upgrade => exact absurd (.inr trivial) other

theorem Effect.cleared (effect : Effect env p call p') (clears : call.Clears) : p'.proxyScheduledUpgrade = none := by
  cases effect with
  | keep other => exact absurd (.inr clears) other
  | @schedule call _ slot path =>
    cases call with
    | scheduleUpgrade => exact clears.elim
    | authorizeUpgrade => exact clears.elim
    | _ => exact path.elim
  | rollback => exact clears.elim
  | cancel => rfl
  | upgrade => rfl

inductive Filled (env : Env) (p : Instance) (call : Call) (slot : ScheduledUpgrade) : Prop where
  | scheduled (path : call.Schedules slot.implementation)
      (delayed : env.timestamp + upgradeDelaySecs p ≤ slot.executeAfter)
  | rollback (path : call = .rollback) (top : previousTop p = some slot.implementation)
      (delayed : slot.executeAfter = env.timestamp + rollbackDelaySecs p)

theorem Effect.filled (effect : Effect env p call p') (fills : call.Fills) :
    scheduledUpgrade env p = none ∧ ∃ slot, Filled env p call slot ∧
      p'.proxyScheduledUpgrade = some ⟨slot, env.ledgerSequence + upgradeTtlLedgers⟩ := by
  cases effect with
  | keep other => exact absurd (.inl fills) other
  | schedule path idle _ _ delayed => exact ⟨idle, _, .scheduled path delayed, rfl⟩
  | rollback idle _ top delayed => exact ⟨idle, _, .rollback rfl top delayed, rfl⟩
  | cancel => exact fills.elim
  | upgrade => exact fills.elim

theorem Effect.executes {x : Address} (effect : Effect env p (.upgradeTo x) p') :
    ∃ slot, scheduledUpgrade env p = some slot ∧ slot.implementation = x ∧ slot.executeAfter ≤ env.timestamp ∧
      p'.proxyImplementation = some x ∧ previousTop p' = p.proxyImplementation ∧ p.proxyImplementation ≠ none := by
  cases effect with
  | keep other => exact absurd (.inr trivial) other
  | schedule path => exact path.elim
  | upgrade pending expired inForce stacked =>
    have top := (restack_ok stacked).1
    rw [inForce]
    exact ⟨_, pending, rfl, expired, rfl, top, nofun⟩

theorem Effect.sameImplementation (effect : Effect env p call p') (other : ∀ x, call ≠ .upgradeTo x) :
    p'.proxyImplementation = p.proxyImplementation ∧ previousTop p' = previousTop p := by
  cases effect with
  | upgrade => exact absurd rfl (other _)
  | _ => exact ⟨rfl, rfl⟩

end Effects

theorem initialised_fresh {s : State} (initial : Initialised s) :
    s.proxyStorage ≠ none ∧ s.proxyScheduledUpgrade = none ∧ previousTop s.toInstance = none := by
  rcases initial with ⟨env, admin, storage, implementation, upgradeDelaySecs, rollbackDelaySecs, run⟩
  simp only [initializeProxy, bind_eq_ok, pure_eq_ok] at run
  rcases run with ⟨_, _, _, _, _, _, ⟨version, s₁⟩, answered, same⟩
  have own := targetVersion_ok answered
  subst same
  simp only [own]
  exact ⟨Option.some_ne_none _, rfl, rfl⟩

section Runs

variable {guard : World → Tx → Prop} {w : World}

section

variable (reached : Reachable guard w)

include reached

theorem deployed : w.state.proxyStorage ≠ none := by
  refine reached.state_invariant (I := fun s => s.proxyStorage ≠ none)
    (fun s initial => (initialised_fresh initial).1) ?_
  intro w tx s _ _ run deployed
  rw [(exec_effect deployed run).fixed.1]
  exact deployed

theorem receipt_effect {i : Nat} {r : Receipt Tx State}
    (found : w.history[i]? = some r) :
    ∃ v, Reachable guard v ∧ guard v r.tx ∧ v.state = r.before ∧ v.history = w.history.take i ∧
      Effect r.tx.env r.before.toInstance r.tx.call r.after.toInstance := by
  rcases reached.receiptAt i r found with ⟨v, here, met, state, history, run⟩
  refine ⟨v, here, met, state, history, exec_effect ?_ run⟩
  rw [← state]
  exact deployed here

theorem slot_lastAt : (w.state.proxyScheduledUpgrade = none ∧ ∀ r ∈ w.history, ¬ r.tx.call.Settles) ∨
      ∃ j r, Ledger.LastAt (fun tx : Tx => tx.call.Settles) w.history j r ∧
        w.state.proxyScheduledUpgrade = r.after.proxyScheduledUpgrade := by
  have rule := Ledger.Reachable.lastAt (fun tx : Tx => tx.call.Settles) (fun s : State => s.proxyScheduledUpgrade)
    reached ?_
  · rcases rule with ⟨s, initial, same, none⟩ | last
    · exact .inl ⟨same.trans (initialised_fresh initial).2.1, none⟩
    · exact .inr last
  · intro w tx s here run other
    exact congrArg Instance.proxyScheduledUpgrade ((exec_effect (deployed here) run).unsettled other)

theorem slot_filled {entry : Temporary ScheduledUpgrade}
    (full : w.state.proxyScheduledUpgrade = some entry) :
    ∃ j r, Ledger.LastAt (fun tx : Tx => tx.call.Settles) w.history j r ∧ r.tx.call.Fills ∧
      Filled r.tx.env r.before.toInstance r.tx.call entry.value ∧
      entry.liveUntil = r.tx.env.ledgerSequence + upgradeTtlLedgers := by
  rcases slot_lastAt reached with ⟨empty, _⟩ | ⟨j, r, last, same⟩
  · cases empty.symm.trans full
  · rcases receipt_effect reached last.found with ⟨_, _, _, _, _, effect⟩
    rw [full] at same
    rcases last.holds with fills | clears
    · rcases effect.filled fills with ⟨_, slot, filled, held⟩
      cases Option.some.inj (same.trans held)
      exact ⟨j, r, last, fills, filled, rfl⟩
    · cases same.trans (effect.cleared clears)

theorem top_replaced {x : Address}
    (top : previousTop w.state.toInstance = some x) :
    ∃ u r, Ledger.LastAt (fun tx : Tx => ∃ y, tx.call = .upgradeTo y) w.history u r ∧
      r.before.proxyImplementation = some x := by
  have rule := Ledger.Reachable.lastAt (fun tx : Tx => ∃ y, tx.call = .upgradeTo y)
    (fun s : State => previousTop s.toInstance) reached ?_
  · rcases rule with ⟨s, initial, same, _⟩ | ⟨u, r, last, same⟩
    · cases (same.trans (initialised_fresh initial).2.2).symm.trans top
    · refine ⟨u, r, last, ?_⟩
      rcases receipt_effect reached last.found with ⟨_, _, _, _, _, effect⟩
      rcases last.holds with ⟨y, upgrades⟩
      rw [upgrades] at effect
      rcases effect.executes with ⟨_, _, _, _, _, replaced, _⟩
      exact replaced.symm.trans (same.symm.trans top)
  · intro w tx s here run other
    exact ((exec_effect (deployed here) run).sameImplementation fun x upgrades => other ⟨x, upgrades⟩).2

theorem fixed_delays : ∀ r ∈ w.history,
    upgradeDelaySecs r.before.toInstance = upgradeDelaySecs w.state.toInstance ∧
      rollbackDelaySecs r.before.toInstance = rollbackDelaySecs w.state.toInstance := by
  refine reached.invariant (I := fun w : World => ∀ r ∈ w.history,
    upgradeDelaySecs r.before.toInstance = upgradeDelaySecs w.state.toInstance ∧
      rollbackDelaySecs r.before.toInstance = rollbackDelaySecs w.state.toInstance)
    (fun _ _ _ mem => absurd mem not_mem_nil) (fun _ _ _ _ holds => holds) ?_
  intro w tx s here _ run holds r mem
  rcases (exec_effect (deployed here) run).fixed with ⟨_, upgradeDelay, rollbackDelay⟩
  rcases mem_append.mp mem with earlier | last
  · rcases holds r earlier with ⟨sameUpgrade, sameRollback⟩
    exact ⟨sameUpgrade.trans upgradeDelay.symm, sameRollback.trans rollbackDelay.symm⟩
  · rw [mem_singleton.mp last]
    exact ⟨upgradeDelay.symm, rollbackDelay.symm⟩

end

end Runs

structure Replaces (history : List (Receipt Tx State)) (j u : Nat) (upgrade : Receipt Tx State) (x : Address) :
    Prop where
  order : u < j
  found : history[u]? = some upgrade
  upgrades : ∃ y, upgrade.tx.call = .upgradeTo y
  replaced : upgrade.before.proxyImplementation = some x
  last : ∀ k r, u < k → k < j → history[k]? = some r → ∀ y, r.tx.call ≠ .upgradeTo y

/-- The receipt at `i` uses what `filler`, at `j`, put into the slot, and nothing has filled or cleared the slot in
    between. -/
structure Uses (history : List (Receipt Tx State)) (i j : Nat) (filler : Receipt Tx State) : Prop where
  order : j < i
  found : history[j]? = some filler
  fills : filler.tx.call.Fills
  untouched : ∀ k r, j < k → k < i → history[k]? = some r → ¬ r.tx.call.Settles

/-- What `filler`, at `j`, put into the slot has neither been cancelled nor executed, and is not expired at
    `ledgerSequence`. -/
structure Pending (w : World) (ledgerSequence j : Nat) (filler : Receipt Tx State) : Prop where
  found : w.history[j]? = some filler
  fills : filler.tx.call.Fills
  kept : ∀ k r, j < k → w.history[k]? = some r → ¬ r.tx.call.Clears
  live : ledgerSequence ≤ filler.tx.env.ledgerSequence + upgradeTtlLedgers

structure Timelocked (w : World) : Prop where
  fixed : ∀ r ∈ w.history, upgradeDelaySecs r.before.toInstance = upgradeDelaySecs w.state.toInstance ∧
    rollbackDelaySecs r.before.toInstance = rollbackDelaySecs w.state.toInstance
  changes : ∀ r ∈ w.history, r.after.proxyImplementation ≠ r.before.proxyImplementation →
    ∃ x, r.tx.call = .upgradeTo x
  upgrades : ∀ i r x, w.history[i]? = some r → r.tx.call = .upgradeTo x →
    r.after.proxyImplementation = some x ∧ ∃ j filler, Uses w.history i j filler ∧
      (filler.tx.call.Schedules x ∧
          filler.tx.env.timestamp + upgradeDelaySecs w.state.toInstance ≤ r.tx.env.timestamp ∨
        filler.tx.call = .rollback ∧
          filler.tx.env.timestamp + rollbackDelaySecs w.state.toInstance ≤ r.tx.env.timestamp ∧
          ∃ u upgrade, Replaces w.history j u upgrade x ∧
            upgrade.tx.env.timestamp + rollbackDelaySecs w.state.toInstance ≤ r.tx.env.timestamp)
  rollbacks : ∀ j r, w.history[j]? = some r → r.tx.call = .rollback →
    ∃ u upgrade x, Replaces w.history j u upgrade x ∧
      r.after.proxyScheduledUpgrade =
        some ⟨⟨x, r.tx.env.timestamp + rollbackDelaySecs w.state.toInstance⟩,
          r.tx.env.ledgerSequence + upgradeTtlLedgers⟩
  one : ∀ ledgerSequence j k first second, (∀ r ∈ w.history, r.tx.env.ledgerSequence ≤ ledgerSequence) →
    Pending w ledgerSequence j first → Pending w ledgerSequence k second → j = k

section Timelock

variable {w : World} {j k : Nat} {r : Receipt Tx State}

theorem mem_take {α : Type} {xs : List α} {x : α} (found : xs[j]? = some x) (order : j < k) : x ∈ xs.take k := by
  apply mem_of_getElem?
  rw [getElem?_take_of_lt order]
  exact found

theorem replaced_before (reached : Reachable inSequence w) (found : w.history[j]? = some r) {x : Address}
    (top : previousTop r.before.toInstance = some x) :
    ∃ u upgrade, Replaces w.history j u upgrade x ∧ upgrade.tx.env.timestamp ≤ r.tx.env.timestamp := by
  rcases receipt_effect reached found with ⟨v, here, met, state, history, _⟩
  rw [← state] at top
  rcases top_replaced here top with ⟨u, upgrade, last, replaced⟩
  have mem := mem_of_getElem? last.found
  have past := (Ledger.Reachable.past here (fun _ _ met => met.1) upgrade mem).trans met.1
  have upgrades := last.holds
  rw [history] at last
  rcases last.of_take with ⟨order, foundUpgrade, since⟩
  refine ⟨u, upgrade, ⟨order, foundUpgrade, upgrades, replaced, ?_⟩, past⟩
  intro k later after before read y upgradesToo
  exact since k later after before read ⟨y, upgradesToo⟩

theorem rollback_schedules (reached : Reachable inSequence w) (found : w.history[j]? = some r)
    (path : r.tx.call = .rollback) : ∃ u upgrade x, Replaces w.history j u upgrade x ∧
      r.after.proxyScheduledUpgrade =
        some ⟨⟨x, r.tx.env.timestamp + rollbackDelaySecs w.state.toInstance⟩,
          r.tx.env.ledgerSequence + upgradeTtlLedgers⟩ := by
  rcases receipt_effect reached found with ⟨_, _, _, _, _, effect⟩
  have fills : r.tx.call.Fills := by rw [path]; trivial
  rcases effect.filled fills with ⟨_, slot, filled, held⟩
  cases filled with
  | scheduled schedules =>
    rw [path] at schedules
    exact schedules.elim
  | rollback _ top delayed =>
    rcases replaced_before reached found top with ⟨u, upgrade, replaces, _⟩
    refine ⟨u, upgrade, slot.implementation, replaces, ?_⟩
    rw [held, ← (fixed_delays reached r (mem_of_getElem? found)).2, ← delayed]

theorem upgrade_waited (reached : Reachable inSequence w) (found : w.history[k]? = some r) {x : Address}
    (path : r.tx.call = .upgradeTo x) :
    r.after.proxyImplementation = some x ∧ ∃ j filler, Uses w.history k j filler ∧
      (filler.tx.call.Schedules x ∧
          filler.tx.env.timestamp + upgradeDelaySecs w.state.toInstance ≤ r.tx.env.timestamp ∨
        filler.tx.call = .rollback ∧
          filler.tx.env.timestamp + rollbackDelaySecs w.state.toInstance ≤ r.tx.env.timestamp ∧
          ∃ u upgrade, Replaces w.history j u upgrade x ∧
            upgrade.tx.env.timestamp + rollbackDelaySecs w.state.toInstance ≤ r.tx.env.timestamp) := by
  rcases receipt_effect reached found with ⟨v, here, _, state, history, effect⟩
  rw [path] at effect
  rcases effect.executes with ⟨slot, pending, same, expired, upgraded, _, _⟩
  rcases (Temporary.get_eq_some ..).mp pending with ⟨entry, full, _, value⟩
  rw [← state] at full
  rcases slot_filled here full with ⟨j, filler, last, fills, filled, _⟩
  rw [history] at last
  rcases last.of_take with ⟨order, foundFiller, since⟩
  rcases fixed_delays reached filler (mem_of_getElem? foundFiller) with ⟨upgradeDelay, rollbackDelay⟩
  refine ⟨upgraded, j, filler, ⟨order, foundFiller, fills, since⟩, ?_⟩
  subst value same
  cases filled with
  | scheduled schedules delayed =>
    rw [upgradeDelay] at delayed
    exact .inl ⟨schedules, delayed.trans expired⟩
  | rollback rollsBack top delayed =>
    rw [delayed, rollbackDelay] at expired
    rcases replaced_before reached foundFiller top with ⟨u, upgrade, replaces, past⟩
    exact .inr ⟨rollsBack, expired, u, upgrade, replaces, by omega⟩

theorem Pending.not_before {ledgerSequence : Nat} {first second : Receipt Tx State}
    (reached : Reachable inSequence w) (past : ∀ r ∈ w.history, r.tx.env.ledgerSequence ≤ ledgerSequence)
    (earlier : Pending w ledgerSequence j first) (later : Pending w ledgerSequence k second) : ¬ j < k := by
  intro order
  rcases receipt_effect reached later.found with ⟨v, here, _, state, history, effect⟩
  have idle := (effect.filled later.fills).1
  rcases slot_lastAt here with ⟨_, none⟩ | ⟨i, last, lastAt, same⟩
  · rw [history] at none
    exact none first (mem_take earlier.found order) (.inl earlier.fills)
  · have settles := lastAt.holds
    rw [history] at lastAt
    rcases lastAt.of_take with ⟨_, found, since⟩
    have notBefore : j ≤ i := by
      by_contra before
      exact since j first (by omega) order earlier.found (.inl earlier.fills)
    rcases receipt_effect reached found with ⟨u, _, met, _, before, filling⟩
    have fillsInOrder : last.tx.call.Fills ∧ first.tx.env.ledgerSequence ≤ last.tx.env.ledgerSequence := by
      rcases Nat.lt_or_eq_of_le notBefore with after | at_once
      · rcases settles with fills | clears
        · refine ⟨fills, met.2 first ?_⟩
          rw [before]
          exact mem_take earlier.found after
        · exact absurd clears (earlier.kept i last after found)
      · subst at_once
        cases Option.some.inj (earlier.found.symm.trans found)
        exact ⟨earlier.fills, le_rfl⟩
    rcases filling.filled fillsInOrder.1 with ⟨_, slot, _, held⟩
    have full : second.before.proxyScheduledUpgrade =
        some ⟨slot, last.tx.env.ledgerSequence + upgradeTtlLedgers⟩ := by rw [← state, same, held]
    have expired : ¬ second.tx.env.ledgerSequence ≤ last.tx.env.ledgerSequence + upgradeTtlLedgers := by
      intro live
      cases idle.symm.trans ((Temporary.get_eq_some ..).mpr ⟨_, full, live, rfl⟩)
    have reachedBy := past second (mem_of_getElem? later.found)
    have live := earlier.live
    omega

/-- The timelock, with the two delays fixed at deployment: the implementation changes in `upgrade_to` alone, which
    waits out the delay of the call that scheduled it; `rollback` schedules what the last upgrade replaced; and no two
    upgrades are pending at once. -/
theorem timelocked (reached : Reachable inSequence w) : Timelocked w where
  fixed := fixed_delays reached
  changes r listed changed := by
    rcases mem_iff_getElem?.mp listed with ⟨i, found⟩
    rcases receipt_effect reached found with ⟨_, _, _, _, _, effect⟩
    by_contra other
    exact changed (effect.sameImplementation fun x upgrades => other ⟨x, upgrades⟩).1
  upgrades _ _ _ found path := upgrade_waited reached found path
  rollbacks _ _ found path := rollback_schedules reached found path
  one _ j k _ _ past first second := by
    have notBefore := first.not_before reached past second
    have notAfter := second.not_before reached past first
    omega

end Timelock

def rolledForward : World :=
  trial [(0, .scheduleUpgrade ⟨11⟩ 100), (100, .upgradeTo ⟨11⟩), (100, .authorizeUpgrade ⟨9⟩ ⟨12⟩),
    (200, .upgradeTo ⟨12⟩), (200, .rollback), (250, .upgradeTo ⟨11⟩), (250, .rollback), (300, .upgradeTo ⟨12⟩)]

theorem rolledForward_reachable : Reachable inSequence rolledForward := trial_inSequence (by decide)

theorem timelocked_rolledForward : rolledForward.history.length = 8 ∧ Timelocked rolledForward :=
  ⟨by decide, timelocked rolledForward_reachable⟩

def ChangesScheduled (w : World) : Prop :=
  ∀ i r x, w.history[i]? = some r → r.tx.call = .upgradeTo x →
    r.after.proxyImplementation ≠ r.before.proxyImplementation →
    ∃ j filler, Uses w.history i j filler ∧ filler.tx.call.Schedules x ∧
      filler.tx.env.timestamp + upgradeDelaySecs w.state.toInstance ≤ r.tx.env.timestamp

def replacedBy (history : List (Receipt Tx State)) : List Address :=
  history.foldl (fun stack r =>
    match r.tx.call, r.before.proxyImplementation with
    | .upgradeTo x, some old => if previousTop r.before.toInstance = some x then stack.tail else old :: stack
    | _, _ => stack) []

/-- Every rollback goes back to what the latest upgrade not yet rolled back replaced. -/
def RollbacksNested (w : World) : Prop :=
  ∀ i r x, w.history[i]? = some r → r.tx.call = .upgradeTo x → previousTop r.before.toInstance = some x →
    (replacedBy (w.history.take i)).head? = some x

/-- An implementation changes by a rollback too, and the second rollback in a row goes forward to `⟨12⟩` again where
    the upgrade to `⟨11⟩`, not yet rolled back, replaced `⟨10⟩`. -/
theorem rollback_goes_forward :
    ¬ (∀ w, Reachable inSequence w → ChangesScheduled w) ∧ ¬ ∀ w, Reachable inSequence w → RollbacksNested w := by
  constructor
  · intro holds
    rcases holds _ rolledForward_reachable 7 _ ⟨12⟩ rfl rfl (by decide) with ⟨j, filler, uses, schedules, _⟩
    have order := uses.order
    have found := uses.found
    have cases : j = 2 ∨ j = 0 ∨ j = 1 ∨ j = 3 ∨ j = 4 ∨ j = 5 ∨ j = 6 := by omega
    rcases cases with rfl | rfl | rfl | rfl | rfl | rfl | rfl
    · exact uses.untouched 3 _ (by omega) (by omega) rfl (.inr trivial)
    all_goals
      cases Option.some.inj found
      exact absurd schedules (by simp [Call.Schedules])
  · intro holds
    have nested := holds _ rolledForward_reachable 7 _ ⟨12⟩ rfl rfl (by decide)
    exact absurd nested (by decide)

end SubTrackr.Proxy
