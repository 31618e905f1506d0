import SubTrackr.AccessControl.Queries

namespace SubTrackr.AccessControl

open List Lib Soroban

/-- `user` has the permission at the time of `host` by a delegation that `delegator` made. -/
def HoldsThrough (host : Host) (s : State) (delegator user : Address) (permission : Permission) : Prop :=
  ∃ d, s.delegation (user, permission) = some d ∧ d.delegator = delegator ∧ grants host s permission d = true

section Slots

variable {host later : Host} {s s' : State} {tx : Tx} {delegator other user delegate : Address}
  {permission : Permission} {d : Delegation}

theorem grants_eq_true : grants host s permission d = true ↔
    host.timestamp ≤ d.expiresAt ∧ Holds s d.delegator permission := by
  unfold grants
  rw [Bool.and_eq_true, decide_eq_true_iff, containsPermission_iff, Holds]

theorem HoldsThrough.sooner (holds : HoldsThrough later s delegator user permission)
    (sooner : host.timestamp ≤ later.timestamp) : HoldsThrough host s delegator user permission := by
  obtain ⟨d, held, by_, gives⟩ := holds
  have ⟨early, own⟩ := grants_eq_true.mp gives
  exact ⟨d, held, by_, grants_eq_true.mpr ⟨sooner.trans early, own⟩⟩

theorem delegatePermission_delegation {durationSecs : Nat}
    (run : delegatePermission host s delegator delegate permission durationSecs = .ok s') :
    Holds s delegator permission ∧ ∃ expiresAt, s'.delegation =
      put s.delegation (delegate, permission) ⟨delegator, permission, delegate, expiresAt⟩ := by
  simp only [delegatePermission, bind_eq_ok, pure_eq_ok] at run
  obtain ⟨_, _, _, _, _, checked, _, _, rfl⟩ := run
  exact ⟨ensure_holds checked, _, rfl⟩

theorem revokeDelegation_delegation (run : revokeDelegation host s delegator delegate permission = .ok s') :
    s'.delegation = dropWhen (fun d => decide (d.delegator = delegator)) s.delegation (delegate, permission) := by
  simp only [revokeDelegation_eq, bind_eq_ok, pure_eq_ok] at run
  obtain ⟨_, _, rfl⟩ := run
  rfl

theorem clearDelegations_stored {m : Store (Address × Permission) Delegation} {key : Address × Permission}
    {perms : List Permission} (held : perms.foldl (clearDelegation user) m key = some d) : m key = some d := by
  induction perms generalizing m with
  | nil => exact held
  | cons perm perms ih =>
    have kept := ih held
    rw [clearDelegation_eq, dropWhen_eq_some] at kept
    exact kept.1

theorem hasPermission_stored {key : Address × Permission}
    (held : (hasPermission host s user permission).2.delegation key = some d) : s.delegation key = some d := by
  cases paused : isPaused s with
  | true => rwa [hasPermission_paused _ _ _ _ paused] at held
  | false =>
    by_cases own : Holds s user permission
    · rwa [hasPermission_own _ _ _ _ paused own] at held
    · rw [hasPermission_delegated _ _ _ _ paused own] at held
      exact ((dropWhen_eq_some ..).mp held).1

structure Origins (call : Call) (s s' : State) : Prop where
  roles : ∀ user, ∀ role ∈ getUserRoles s' user, role ∈ getUserRoles s user ∨ s.emergencyAdmin = none ∨
    ∃ caller, call = .grantRole caller user role
  delegations : ∀ delegate permission d, s'.delegation (delegate, permission) = some d →
    s.delegation (delegate, permission) = some d ∨ Holds s d.delegator permission ∧
      ∃ durationSecs, call = .delegatePermission d.delegator delegate permission durationSecs

theorem Origins.kept {call : Call} (roles : s'.userRoles = s.userRoles) (delegations : s'.delegation = s.delegation) :
    Origins call s s' where
  roles user role listed := by
    rw [getUserRoles, roles] at listed
    exact .inl listed
  delegations delegate permission d stored := .inl (delegations ▸ stored)

theorem exec_origins (run : exec tx s = .ok s') : Origins tx.call s s' := by
  obtain ⟨host, call⟩ := tx
  have run := exec_ran run
  cases call with
  | initializeAccessControl =>
    obtain ⟨fresh, same⟩ := initializeAccessControl_ok run
    refine ⟨fun _ _ _ => .inr (.inl fresh), fun _ _ _ held => ?_⟩
    rw [same] at held
    exact .inl held
  | grantRole caller other new =>
    obtain ⟨_, _, ⟨_, same⟩ | ⟨_, same⟩⟩ := grantRole_ok run
    · rw [same]
      exact .kept rfl rfl
    · rw [same]
      refine ⟨fun user role mem => ?_, fun _ _ _ => .inl⟩
      obtain old | ⟨rfl, rfl⟩ := (mem_entries_append s.userRoles other user new role).mp mem
      · exact .inl old
      · exact .inr (.inr ⟨caller, rfl⟩)
  | revokeRole _ other old =>
    rw [(revokeRole_ok run).2.2.2]
    refine ⟨fun user role mem => ?_, fun _ _ _ held => .inl (clearDelegations_stored held)⟩
    exact .inl ((mem_entries_filter s.userRoles other user old role).mp mem).1
  | hasPermission =>
    rw [run, hasPermission_state]
    exact ⟨fun _ _ => .inl, fun _ _ _ held => .inl (hasPermission_stored held)⟩
  | delegatePermission delegator user p durationSecs =>
    obtain ⟨holds, expiresAt, same⟩ := delegatePermission_delegation run
    rw [delegatePermission_ok run, same]
    refine ⟨fun _ _ => .inl, fun delegate permission d held => ?_⟩
    obtain ⟨here, rfl⟩ | ⟨_, held⟩ := (put_eq_some ..).mp held
    · cases here
      exact .inr ⟨holds, durationSecs, rfl⟩
    · exact .inl held
  | revokeDelegation =>
    rw [revokeDelegation_ok run, revokeDelegation_delegation run]
    exact ⟨fun _ _ => .inl, fun _ _ _ held => .inl ((dropWhen_eq_some ..).mp held).1⟩
  | setEmergencyAdmin =>
    rw [(setEmergencyAdmin_ok run).2]
    exact .kept rfl rfl
  | pauseEmergency =>
    rw [pauseEmergency_ok run]
    exact .kept rfl rfl
  | unpauseEmergency =>
    rw [unpauseEmergency_ok run]
    exact .kept rfl rfl
  | proposeMultisigAction =>
    obtain ⟨_, run⟩ := run
    rw [(proposeMultisigAction_ok run).2.2.2]
    exact .kept rfl rfl
  | approveMultisigAction =>
    obtain ⟨_, _, _, _, _, _, same⟩ := approveMultisigAction_ok run
    rw [same]
    exact .kept rfl rfl
  | executeMultisigAction =>
    obtain ⟨_, _, _, _, _, same⟩ := executeMultisigAction_ok run
    rw [same]
    exact .kept rfl rfl

theorem Holds.gained {call : Call} (holds : Holds s' user permission) (lacked : ¬ Holds s user permission)
    (origins : Origins call s s') : s.emergencyAdmin = none ∨
      ∃ caller role, call = .grantRole caller user role ∧ permission ∈ rolePermissions role := by
  obtain ⟨role, mem, gives⟩ := mem_getUserPermissions.mp holds
  obtain old | fresh | ⟨caller, granted⟩ := origins.roles user role mem
  · exact absurd (mem_getUserPermissions.mpr ⟨role, old, gives⟩) lacked
  · exact .inl fresh
  · exact .inr ⟨caller, role, granted, gives⟩

theorem grantRole_gives {caller : Address} {role : Role} (consistent : Consistent s)
    (run : grantRole host s caller user role = .ok s') (gives : permission ∈ rolePermissions role)
    (lacked : ¬ Holds s user permission) : Holds s' user permission ∧ s'.delegation = s.delegation := by
  obtain ⟨_, _, ⟨known, _⟩ | ⟨_, same⟩⟩ := grantRole_ok run
  · have mem := (consistent.tables.mem_iff role user).mp known
    exact absurd (mem_getUserPermissions.mpr ⟨role, mem, gives⟩) lacked
  · rw [same]
    refine ⟨mem_getUserPermissions.mpr ⟨role, ?_, gives⟩, rfl⟩
    exact (mem_entries_append s.userRoles user user role role).mpr (.inr ⟨rfl, rfl⟩)

end Slots

def Call.delegator : Call → Option Address
  | .delegatePermission delegator .. | .revokeDelegation delegator .. => some delegator
  | _ => none

def Apart (r : Receipt Tx State) : Prop :=
  ∀ delegator, r.tx.call.delegator = some delegator → ∀ other ≠ delegator, ∀ user permission later,
    r.tx.host.timestamp ≤ later.timestamp → HoldsThrough later r.before other user permission →
      HoldsThrough later r.after other user permission

def Takes (r : Receipt Tx State) (user : Address) (permission : Permission) : Prop :=
  (∃ caller role, r.tx.call = .revokeRole caller user role) ∧ Holds r.before user permission ∧
    ¬ Holds r.after user permission

def Delegates (call : Call) (delegator delegate : Address) (permission : Permission) : Prop :=
  ∃ durationSecs, call = .delegatePermission delegator delegate permission durationSecs

def DelegatedSince (history : List (Receipt Tx State)) (i : Nat) (delegator delegate : Address)
    (permission : Permission) : Prop :=
  ∃ k r, i < k ∧ history[k]? = some r ∧ Delegates r.tx.call delegator delegate permission

/-- From the call that takes a permission from a user on, only what the user delegates afresh gives it to others. -/
def Followed (history : List (Receipt Tx State)) : Prop :=
  ∀ i j (revoked later : Receipt Tx State), i ≤ j → history[i]? = some revoked → history[j]? = some later →
    ∀ user permission, Takes revoked user permission → ∀ delegate host, later.tx.host.timestamp ≤ host.timestamp →
      HoldsThrough host later.after user delegate permission →
        DelegatedSince (history.take (j + 1)) i user delegate permission

/-- A delegation takes the place of none that another's delegator still gives, and a role is granted to no user whose
    unexpired delegations would count again. -/
def Orderly (tx : Tx) (s : State) : Prop :=
  (∀ delegator delegate permission durationSecs,
    tx.call = .delegatePermission delegator delegate permission durationSecs →
      ∀ other, HoldsThrough tx.host s other delegate permission → other = delegator) ∧
  ∀ caller user role, tx.call = .grantRole caller user role → ∀ permission ∈ rolePermissions role,
    ¬ Holds s user permission → ∀ delegate d, s.delegation (delegate, permission) = some d → d.delegator = user →
      d.expiresAt < tx.host.timestamp

section Steps

variable {history : List (Receipt Tx State)} {i : Nat} {delegator delegate : Address} {permission : Permission}
  {r : Receipt Tx State}

theorem DelegatedSince.concat (since : DelegatedSince history i delegator delegate permission)
    (r : Receipt Tx State) : DelegatedSince (history ++ [r]) i delegator delegate permission := by
  obtain ⟨k, r, after, mem, delegates⟩ := since
  have bound := (List.getElem?_eq_some_iff.mp mem).1
  exact ⟨k, r, after, by rwa [List.getElem?_append_left bound], delegates⟩

theorem DelegatedSince.of_concat (since : DelegatedSince (history ++ [r]) i delegator delegate permission) :
    DelegatedSince history i delegator delegate permission ∨ Delegates r.tx.call delegator delegate permission := by
  obtain ⟨k, r, after, mem, delegates⟩ := since
  obtain ⟨_, mem⟩ | ⟨_, same⟩ := Ledger.getElem?_concat_eq_some mem
  · exact .inl ⟨k, r, after, mem, delegates⟩
  · exact .inr (same ▸ delegates)

theorem Delegates.holds {tx : Tx} {s s' : State} (delegates : Delegates tx.call delegator delegate permission)
    (run : exec tx s = .ok s') : Holds s delegator permission := by
  obtain ⟨host, call⟩ := tx
  obtain ⟨durationSecs, rfl⟩ := delegates
  exact (delegatePermission_delegation (exec_ran run)).1

theorem HoldsThrough.of_stored {host : Host} {s s' : State} {delegator user : Address} {permission : Permission}
    {d : Delegation} (roles : s'.userRoles = s.userRoles) (held : s'.delegation (user, permission) = some d)
    (made : d.delegator = delegator) (gives : grants host s permission d = true) :
    HoldsThrough host s' delegator user permission := by
  refine ⟨d, held, made, ?_⟩
  obtain ⟨early, own⟩ := grants_eq_true.mp gives
  rw [Holds, ← getUserPermissions_same roles] at own
  exact grants_eq_true.mpr ⟨early, own⟩

theorem apart_of_orderly (run : exec r.tx r.before = .ok r.after) (orderly : Orderly r.tx r.before) : Apart r := by
  obtain ⟨⟨host, call⟩, s, s'⟩ := r
  intro delegator made other nodup user permission later after holds
  have ran := exec_ran run
  cases call with
  | delegatePermission D delegate p durationSecs =>
    obtain rfl := Option.some.inj made
    obtain ⟨_, expiresAt, same⟩ := delegatePermission_delegation ran
    have free := orderly.1 D delegate p durationSecs rfl other
    obtain ⟨d, held, by_, gives⟩ := holds
    have elsewhere : (user, permission) ≠ (delegate, p) := by
      intro here
      cases here
      have inForce : HoldsThrough later s other user permission := ⟨d, held, by_, gives⟩
      exact nodup (free (inForce.sooner after))
    refine .of_stored (by rw [delegatePermission_ok ran]) ?_ by_ gives
    show s'.delegation (user, permission) = some d
    rwa [same, put_of_ne _ _ elsewhere]
  | revokeDelegation D delegate p =>
    obtain rfl := Option.some.inj made
    obtain ⟨d, held, by_, gives⟩ := holds
    refine .of_stored (by rw [revokeDelegation_ok ran]) ?_ by_ gives
    show s'.delegation (user, permission) = some d
    rw [revokeDelegation_delegation ran, dropWhen_eq_some]
    refine ⟨held, fun _ => ?_⟩
    rw [by_]
    exact decide_eq_false nodup
  | _ => cases made

theorem free_of_apart (run : exec r.tx r.before = .ok r.after) (apart : Apart r) {other : Address}
    {durationSecs : Nat} (call : r.tx.call = .delegatePermission delegator delegate permission durationSecs)
    (holds : HoldsThrough r.tx.host r.before other delegate permission) : other = delegator := by
  obtain ⟨⟨host, _⟩, s, s'⟩ := r
  cases call
  by_contra nodup
  obtain ⟨d, held, by_, _⟩ := apart delegator rfl other nodup delegate permission host le_rfl holds
  obtain ⟨_, expiresAt, same⟩ := delegatePermission_delegation (exec_ran run)
  change s'.delegation (delegate, permission) = some d at held
  rw [same, put_self] at held
  cases held
  exact nodup by_.symm

end Steps

section Runs

variable {guard : World → Tx → Prop} {w : World}

theorem delegated_initialised (reached : Reachable guard w) {key : Address × Permission} {d : Delegation}
    (held : w.state.delegation key = some d) : w.state.emergencyAdmin ≠ none := by
  refine reached.state_invariant (I := fun s => ∀ key d, s.delegation key = some d → s.emergencyAdmin ≠ none) ?_ ?_
    key d held
  · intro s deployed key d held
    rw [deployed] at held
    cases held
  · intro w tx s here _ run holds key d held
    obtain old | ⟨own, _⟩ := (exec_origins run).delegations key.1 key.2 d held
    · exact initialised_step run (holds key d old)
    · exact initialised_step run (own.initialised (consistent_reachable here))

/-- While every call is orderly, a delegation by a user who lost the permission has expired once the user has it
    again. -/
theorem lapsed_reachable (reached : Reachable (Ledger.inOrder contract) w)
    (orderly : ∀ r ∈ w.history, Orderly r.tx r.before) {i : Nat} {revoked : Receipt Tx State}
    (found : w.history[i]? = some revoked) {user delegate : Address} {permission : Permission}
    (takes : Takes revoked user permission) {d : Delegation}
    (stored : w.state.delegation (delegate, permission) = some d) (made : d.delegator = user)
    (holds : Holds w.state user permission) :
    d.expiresAt < w.clock ∨ DelegatedSince w.history i user delegate permission := by
  refine reached.invariant (I := fun w => (∀ r ∈ w.history, Orderly r.tx r.before) → ∀ i revoked,
    w.history[i]? = some revoked → ∀ user delegate permission, Takes revoked user permission →
    ∀ d, w.state.delegation (delegate, permission) = some d → d.delegator = user → Holds w.state user permission →
      d.expiresAt < w.clock ∨ DelegatedSince w.history i user delegate permission) ?_ ?_ ?_ orderly i revoked found
    user delegate permission takes d stored made holds
  · intro s _ _ i revoked found
    cases found
  · intro w tx _ later ih orderly i revoked found user delegate permission takes d stored made holds
    obtain expired | since := ih orderly i revoked found user delegate permission takes d stored made holds
    · exact .inl (expired.trans_le later)
    · exact .inr since
  · intro w tx s here later run ih orderly i revoked found user delegate permission takes d stored made holds
    have before : ∀ r ∈ w.history, Orderly r.tx r.before :=
      fun r mem => orderly r (mem_append_left _ mem)
    have now : Orderly tx w.state := orderly ⟨tx, w.state, s⟩ (mem_append_right _ (.head _))
    obtain ⟨earlier, found⟩ | ⟨_, same⟩ := Ledger.getElem?_concat_eq_some found
    · obtain old | ⟨_, durationSecs, call⟩ := (exec_origins run).delegations delegate permission d stored
      · by_cases held : Holds w.state user permission
        · obtain expired | since := ih before i revoked found user delegate permission takes d old made held
          · exact .inl (expired.trans_le later)
          · exact .inr (since.concat _)
        · obtain fresh | ⟨caller, role, granted, gives⟩ := holds.gained held (exec_origins run)
          · exact absurd fresh (delegated_initialised here old)
          · exact .inl (now.2 caller user role granted permission gives held delegate d old made)
      · exact .inr ⟨w.history.length, _, earlier, List.getElem?_concat_length, durationSecs, made ▸ call⟩
    · cases same
      exact absurd holds takes.2.2

theorem taken_reachable (reached : Reachable guard w) {delegate : Address} {permission : Permission} {d : Delegation}
    (stored : w.state.delegation (delegate, permission) = some d) (lacked : ¬ Holds w.state d.delegator permission) :
    ∃ i revoked, w.history[i]? = some revoked ∧ Takes revoked d.delegator permission ∧
      ¬ DelegatedSince w.history i d.delegator delegate permission := by
  refine reached.invariant (I := fun w => ∀ delegate permission d, w.state.delegation (delegate, permission) = some d →
    ¬ Holds w.state d.delegator permission → ∃ i revoked, w.history[i]? = some revoked ∧
      Takes revoked d.delegator permission ∧ ¬ DelegatedSince w.history i d.delegator delegate permission) ?_ ?_ ?_
    delegate permission d stored lacked
  · intro s deployed delegate permission d stored
    rw [deployed] at stored
    cases stored
  · exact fun _ _ _ _ ih => ih
  · intro w tx s here _ run ih delegate permission d stored lacked
    by_cases held : Holds w.state d.delegator permission
    · obtain ⟨caller, role, call, _⟩ | kept := held.kept (consistent_reachable here) (exec_roles run).1
      · have takes : Takes ⟨tx, w.state, s⟩ d.delegator permission := ⟨⟨caller, role, call⟩, held, lacked⟩
        refine ⟨w.history.length, _, List.getElem?_concat_length, takes, fun since => ?_⟩
        obtain ⟨k, r, after, mem, _⟩ := since
        have bound := (List.getElem?_eq_some_iff.mp mem).1
        rw [List.length_append, List.length_singleton] at bound
        omega
      · exact absurd kept lacked
    · obtain old | ⟨own, _⟩ := (exec_origins run).delegations delegate permission d stored
      · obtain ⟨i, revoked, found, takes, none⟩ := ih delegate permission d old held
        have bound := (List.getElem?_eq_some_iff.mp found).1
        refine ⟨i, revoked, by rwa [List.getElem?_append_left bound], takes, ?_⟩
        intro since
        obtain since | delegates := since.of_concat
        · exact none since
        · exact held (delegates.holds run)
      · exact absurd own held

theorem followed_of_orderly (reached : Reachable (Ledger.inOrder contract) w)
    (orderly : ∀ r ∈ w.history, Orderly r.tx r.before) : Followed w.history := by
  intro i j revoked later order found at_ user permission takes delegate host after holds
  obtain ⟨v, here, clock, state, history⟩ := reached.afterAt at_
  change v.clock = later.tx.host.timestamp at clock
  have before : ∀ r ∈ v.history, Orderly r.tx r.before := by
    rw [history]
    exact fun r mem => orderly r (mem_of_mem_take mem)
  have kept : v.history[i]? = some revoked := by
    rw [history, getElem?_take_of_lt (by omega)]
    exact found
  obtain ⟨d, held, made, gives⟩ := holds
  obtain ⟨early, own⟩ := grants_eq_true.mp gives
  rw [← state] at held own
  obtain expired | since := lapsed_reachable here before kept takes held made (made ▸ own)
  · omega
  · rwa [history] at since

theorem lapsed_of_followed (reached : Reachable guard w) (followed : Followed w.history) {r : Receipt Tx State}
    (mem : r ∈ w.history) {caller user : Address} {role : Role} (call : r.tx.call = .grantRole caller user role)
    {permission : Permission} (gives : permission ∈ rolePermissions role) (lacked : ¬ Holds r.before user permission)
    {delegate : Address} {d : Delegation} (held : r.before.delegation (delegate, permission) = some d)
    (made : d.delegator = user) : d.expiresAt < r.tx.host.timestamp := by
  obtain ⟨j, at_⟩ := mem_iff_getElem?.mp mem
  obtain ⟨v, here, _, state, history, run⟩ := reached.receiptAt j r at_
  rw [← state] at held lacked run
  obtain ⟨i, revoked, found, takes, none⟩ := taken_reachable here held (made ▸ lacked)
  rw [history] at found none
  have order : i < j := by
    have bound := (List.getElem?_eq_some_iff.mp found).1
    rw [length_take] at bound
    omega
  rw [getElem?_take_of_lt order] at found
  by_contra unexpired
  have granted : HoldsThrough r.tx.host r.after user delegate permission := by
    have ran : Ran r.tx.host v.state r.after r.tx.call := exec_ran run
    rw [call] at ran
    obtain ⟨own, same⟩ := grantRole_gives (consistent_reachable here) ran gives lacked
    exact ⟨d, same ▸ held, made, grants_eq_true.mpr ⟨Nat.not_lt.mp unexpired, made ▸ own⟩⟩
  have since := followed i j revoked r order.le found at_ user permission (made ▸ takes) delegate r.tx.host le_rfl
    granted
  rw [Ledger.take_concat at_] at since
  obtain since | ⟨_, delegates⟩ := since.of_concat
  · exact none (made ▸ since)
  · rw [call] at delegates
    cases delegates

/-- Delegations are independent, and follow their delegator, in the runs whose calls are orderly and in no others. -/
theorem delegations_follow (reached : Reachable (Ledger.inOrder contract) w) :
    (∀ r ∈ w.history, Apart r) ∧ Followed w.history ↔ ∀ r ∈ w.history, Orderly r.tx r.before := by
  constructor
  · rintro ⟨apart, followed⟩ r listed
    obtain ⟨_, _, _, _, run⟩ := reached.receipt r listed
    constructor
    · intro delegator delegate permission durationSecs call other holds
      exact free_of_apart run (apart r listed) call holds
    · intro caller user role call permission gives lacked delegate d stored made
      exact lapsed_of_followed reached followed listed call gives lacked stored made
  · intro orderly
    refine ⟨fun r listed => ?_, followed_of_orderly reached orderly⟩
    obtain ⟨_, _, _, _, run⟩ := reached.receipt r listed
    exact apart_of_orderly run (orderly r listed)

end Runs

theorem delegations_follow_lapsed : (∀ r ∈ lapsedRun.history, Apart r) ∧ Followed lapsedRun.history ↔
    ∀ r ∈ lapsedRun.history, Orderly r.tx r.before :=
  delegations_follow (trial_inOrder (by decide))

def overwrittenRun : World := trial
  [(0, [⟨1⟩], .initializeAccessControl ⟨1⟩ ⟨3⟩), (1, [⟨1⟩], .grantRole ⟨1⟩ ⟨2⟩ .merchant),
    (2, [⟨1⟩], .grantRole ⟨1⟩ ⟨5⟩ .merchant), (3, [⟨2⟩], .delegatePermission ⟨2⟩ ⟨4⟩ .createPlan 1000),
    (4, [⟨5⟩], .delegatePermission ⟨5⟩ ⟨4⟩ .createPlan 1)]

def regrantedRun : World := trial
  [(0, [⟨1⟩], .initializeAccessControl ⟨1⟩ ⟨3⟩), (1, [⟨1⟩], .grantRole ⟨1⟩ ⟨2⟩ .merchant),
    (2, [⟨2⟩], .delegatePermission ⟨2⟩ ⟨4⟩ .createPlan 1000), (3, [⟨1⟩], .revokeRole ⟨1⟩ ⟨2⟩ .merchant),
    (4, [⟨1⟩], .grantRole ⟨1⟩ ⟨2⟩ .merchant)]

def roleLost : Receipt Tx State := regrantedRun.history.get ⟨3, by decide +kernel⟩

def roleBack : Receipt Tx State := regrantedRun.history.get ⟨4, by decide +kernel⟩

theorem delegations_entangled :
    (Reachable (Ledger.inOrder contract) overwrittenRun ∧ ¬ ∀ r ∈ overwrittenRun.history, Apart r) ∧
      Reachable (Ledger.inOrder contract) regrantedRun ∧ ¬ Followed regrantedRun.history := by
  refine ⟨⟨trial_inOrder (by decide), fun apart => ?_⟩, trial_inOrder (by decide), fun followed => ?_⟩
  · have first : HoldsThrough (signedBy 4 []) (overwrittenRun.history.get ⟨4, by decide +kernel⟩).before ⟨2⟩ ⟨4⟩
        .createPlan := ⟨⟨⟨2⟩, .createPlan, ⟨4⟩, 1003⟩, by decide +kernel, rfl, by decide +kernel⟩
    obtain ⟨d, stored, made, _⟩ := apart _ (get_mem ..) ⟨5⟩ (by decide +kernel) ⟨2⟩ (by decide) _ _ (signedBy 4 [])
      (by decide +kernel) first
    have second : (overwrittenRun.history.get ⟨4, by decide +kernel⟩).after.delegation (⟨4⟩, .createPlan) =
        some ⟨⟨5⟩, .createPlan, ⟨4⟩, 5⟩ := by decide +kernel
    rw [second] at stored
    cases stored
    exact absurd made (by decide)
  · have at3 : regrantedRun.history[3]? = some roleLost := getElem?_eq_getElem _
    have at4 : regrantedRun.history[4]? = some roleBack := getElem?_eq_getElem _
    have takes : Takes roleLost ⟨2⟩ .createPlan :=
      ⟨⟨⟨1⟩, .merchant, by decide +kernel⟩, by unfold Holds; decide +kernel, by unfold Holds; decide +kernel⟩
    have again : HoldsThrough (signedBy 4 []) roleBack.after ⟨2⟩ ⟨4⟩ .createPlan :=
      ⟨⟨⟨2⟩, .createPlan, ⟨4⟩, 1002⟩, by decide +kernel, rfl, by decide +kernel⟩
    obtain ⟨k, r, after, found, delegates⟩ :=
      followed 3 4 _ _ (by decide) at3 at4 ⟨2⟩ .createPlan takes ⟨4⟩ (signedBy 4 []) (by decide +kernel) again
    have bound := (List.getElem?_eq_some_iff.mp found).1
    rw [length_take] at bound
    obtain rfl : k = 4 := by omega
    rw [getElem?_take_of_lt (by decide), at4] at found
    obtain ⟨durationSecs, call⟩ := delegates
    rw [← Option.some.inj found] at call
    have granted : roleBack.tx.call = .grantRole ⟨1⟩ ⟨2⟩ .merchant := by decide +kernel
    rw [granted] at call
    cases call

end SubTrackr.AccessControl
