import SubTrackr.AccessControl.Membership
import SubTrackr.Lib.Agree

namespace SubTrackr.AccessControl

open Lib Soroban

def grants (host : Host) (s : State) (permission : Permission) (delegation : Delegation) : Bool :=
  decide (host.timestamp ≤ delegation.expiresAt) &&
    containsPermission (getUserPermissions s delegation.delegator) permission

section Query

variable (host : Host) (s : State) (user : Address) (permission : Permission)

theorem hasPermission_paused (paused : isPaused s = true) : hasPermission host s user permission = (false, s) := by
  simp only [hasPermission, paused, if_true]

theorem hasPermission_own (running : isPaused s = false) (own : Holds s user permission) :
    hasPermission host s user permission = (true, s) := by
  have mem := (containsPermission_iff ..).mpr own
  simp [hasPermission, running, mem]

theorem hasPermission_delegated (running : isPaused s = false) (other : ¬ Holds s user permission) :
    hasPermission host s user permission = ((s.delegation (user, permission)).any (grants host s permission),
      { s with delegation := dropWhen (fun d => !grants host s permission d) s.delegation (user, permission) }) := by
  have unlisted : containsPermission (getUserPermissions s user) permission = false := by
    rw [Bool.eq_false_iff]
    exact fun mem => other ((containsPermission_iff ..).mp mem)
  unfold hasPermission dropWhen
  rw [running, unlisted]
  cases held : s.delegation (user, permission) with
  | none => rfl
  | some d =>
    by_cases early : host.timestamp ≤ d.expiresAt
    · cases gives : containsPermission (getUserPermissions s d.delegator) permission <;> simp [grants, early, gives]
    · simp [grants, early]

end Query

structure Thinner (lost : Delegation → Prop) (s v : State) : Prop where
  rest : v = { s with delegation := v.delegation }
  delegations : Thinned lost s.delegation v.delegation

section Calls

variable {lost : Delegation → Prop} {host : Host} {s v : State}

theorem Thinner.eq (thinner : Thinner lost s v) :
    ∃ delegation, Thinned lost s.delegation delegation ∧ v = { s with delegation } :=
  ⟨_, thinner.delegations, thinner.rest⟩

theorem Thinner.permissions (thinner : Thinner lost s v) (user : Address) :
    getUserPermissions v user = getUserPermissions s user := by
  rw [thinner.rest]
  rfl

theorem Thinner.holds (thinner : Thinner lost s v) (user : Address) (permission : Permission) :
    Holds v user permission ↔ Holds s user permission := by
  rw [Holds, Holds, thinner.permissions]

theorem Thinner.paused (thinner : Thinner lost s v) : isPaused v = isPaused s := by
  rw [thinner.rest]
  rfl

theorem Thinner.grants (thinner : Thinner lost s v) (host : Host) (permission : Permission) :
    grants host v permission = grants host s permission := by
  funext d
  unfold AccessControl.grants
  rw [thinner.permissions]

theorem hasPermission_related (thinner : Thinner lost s v) (host : Host) (user : Address) (permission : Permission) :
    Thinner lost (hasPermission host s user permission).2 (hasPermission host v user permission).2 ∧
      ((hasPermission host v user permission).1 = (hasPermission host s user permission).1 ∨
        (hasPermission host v user permission).1 = false ∧ ∃ d, lost d ∧
          (hasPermission host s user permission).1 = grants host s permission d) := by
  cases paused : isPaused s with
  | true =>
    rw [hasPermission_paused _ _ _ _ paused, hasPermission_paused _ _ _ _ (thinner.paused.trans paused)]
    exact ⟨thinner, .inl rfl⟩
  | false =>
    have running := thinner.paused.trans paused
    by_cases own : Holds s user permission
    · rw [hasPermission_own _ _ _ _ paused own, hasPermission_own _ _ _ _ running ((thinner.holds ..).mpr own)]
      exact ⟨thinner, .inl rfl⟩
    · have other : ¬ Holds v user permission := fun holds => own ((thinner.holds ..).mp holds)
      rw [hasPermission_delegated _ _ _ _ paused own, hasPermission_delegated _ _ _ _ running other, thinner.grants]
      refine ⟨⟨by rw [thinner.rest], thinner.delegations.dropWhen _ _⟩, ?_⟩
      obtain same | ⟨gone, d, stored, lapsed⟩ := thinner.delegations (user, permission)
      · exact .inl (by rw [same])
      · exact .inr ⟨by rw [gone]; rfl, d, lapsed, by rw [stored]; rfl⟩

end Calls

section Agreement

variable {lost : Delegation → Prop} {host : Host} {s v : State}

theorem saveRoleChange_agree (thinner : Thinner lost s v) (user : Address) (role : Role) (action : RoleChangeAction)
    (changedBy : Address) : Agree (Thinner lost) (saveRoleChange host s user role action changedBy)
      (saveRoleChange host v user role action changedBy) := by
  obtain ⟨delegation, thinned, rfl⟩ := thinner.eq
  apply Agree.bind_same
  intro count _
  exact .ok ⟨rfl, thinned⟩

theorem Thinner.publish (thinner : Thinner lost s v) (event : Event) :
    Thinner lost (s.publish event) (v.publish event) := by
  refine ⟨?_, thinner.delegations⟩
  rw [thinner.rest]
  rfl

theorem clearDelegation_eq (user : Address) (delegations : Store (Address × Permission) Delegation)
    (perm : Permission) : clearDelegation user delegations perm =
      dropWhen (fun d => decide (d.delegate = user ∨ d.delegator = user)) delegations (user, perm) := by
  unfold clearDelegation dropWhen
  cases delegations (user, perm) with
  | none => rfl
  | some d => simp

theorem revokeDelegation_eq (host : Host) (s : State) (delegator delegate : Address) (permission : Permission) :
    revokeDelegation host s delegator delegate permission = (do
      host.requireAuth delegator
      let kept := dropWhen (fun d => decide (d.delegator = delegator)) s.delegation (delegate, permission)
      return { s with delegation := kept }.publish (.delegationRevoked delegator delegate permission)) := by
  unfold revokeDelegation dropWhen
  cases s.delegation (delegate, permission) with
  | none => rfl
  | some d => simp

theorem clearDelegations_thinned {m m' : Store (Address × Permission) Delegation} (thinned : Thinned lost m m')
    (user : Address) (perms : List Permission) :
    Thinned lost (perms.foldl (clearDelegation user) m) (perms.foldl (clearDelegation user) m') := by
  induction perms generalizing m m' with
  | nil => exact thinned
  | cons perm perms ih =>
    apply ih
    rw [clearDelegation_eq, clearDelegation_eq]
    exact thinned.dropWhen _ _

section

variable (thinner : Thinner lost s v)

include thinner

theorem initializeAccessControl_agree (admin emergencyAdmin : Address) :
    Agree (Thinner lost) (initializeAccessControl host s admin emergencyAdmin)
      (initializeAccessControl host v admin emergencyAdmin) := by
  obtain ⟨delegation, thinned, rfl⟩ := thinner.eq
  apply Agree.bind_same
  intro _ _
  apply Agree.bind_same
  intro _ _
  apply (saveRoleChange_agree ⟨rfl, thinned⟩ admin .admin .granted admin).bind
  intro a b saved
  exact .ok (saved.publish _)

theorem grantRole_agree (caller user : Address) (role : Role) :
    Agree (Thinner lost) (grantRole host s caller user role) (grantRole host v caller user role) := by
  obtain ⟨delegation, thinned, rfl⟩ := thinner.eq
  apply Agree.bind_same
  intro _ _
  apply Agree.bind_same
  intro _ _
  apply Agree.bind_same
  intro _ _
  show Agree _ (if _ then _ else _) (if _ then _ else _)
  split
  · exact .ok ⟨rfl, thinned⟩
  · apply (saveRoleChange_agree ⟨rfl, thinned⟩ user role .granted caller).bind
    intro a b saved
    exact .ok (saved.publish _)

theorem revokeRole_agree (caller user : Address) (role : Role) :
    Agree (Thinner lost) (revokeRole host s caller user role) (revokeRole host v caller user role) := by
  obtain ⟨delegation, thinned, rfl⟩ := thinner.eq
  apply Agree.bind_same
  intro _ _
  apply Agree.bind_same
  intro _ _
  apply Agree.bind_same
  intro _ _
  apply Agree.bind_same
  intro _ _
  have cleared := clearDelegations_thinned thinned user delegationPerms
  apply (saveRoleChange_agree ⟨rfl, cleared⟩ user role .revoked caller).bind
  intro a b saved
  exact .ok (saved.publish _)

theorem delegatePermission_agree (delegator delegate : Address) (permission : Permission)
    (durationSecs : Nat) : Agree (Thinner lost) (delegatePermission host s delegator delegate permission durationSecs)
      (delegatePermission host v delegator delegate permission durationSecs) := by
  obtain ⟨delegation, thinned, rfl⟩ := thinner.eq
  apply Agree.bind_same
  intro _ _
  apply Agree.bind_same
  intro _ _
  apply Agree.bind_same
  intro _ _
  apply Agree.bind_same
  intro _ _
  exact .ok ⟨rfl, thinned.put _ _⟩

theorem revokeDelegation_agree (delegator delegate : Address) (permission : Permission) :
    Agree (Thinner lost) (revokeDelegation host s delegator delegate permission)
      (revokeDelegation host v delegator delegate permission) := by
  obtain ⟨delegation, thinned, rfl⟩ := thinner.eq
  rw [revokeDelegation_eq, revokeDelegation_eq]
  apply Agree.bind_same
  intro _ _
  exact .ok ⟨rfl, thinned.dropWhen _ _⟩

theorem setEmergencyAdmin_agree (caller newEmergencyAdmin : Address) :
    Agree (Thinner lost) (setEmergencyAdmin host s caller newEmergencyAdmin)
      (setEmergencyAdmin host v caller newEmergencyAdmin) := by
  obtain ⟨delegation, thinned, rfl⟩ := thinner.eq
  apply Agree.bind_same
  intro _ _
  apply Agree.bind_same
  intro _ _
  exact .ok ⟨rfl, thinned⟩

theorem pauseEmergency_agree (caller : Address) :
    Agree (Thinner lost) (pauseEmergency host s caller) (pauseEmergency host v caller) := by
  obtain ⟨delegation, thinned, rfl⟩ := thinner.eq
  apply Agree.bind_same
  intro _ _
  apply Agree.bind_same
  intro _ _
  apply Agree.bind_same
  intro _ _
  exact .ok ⟨rfl, thinned⟩

theorem unpauseEmergency_agree (caller : Address) :
    Agree (Thinner lost) (unpauseEmergency host s caller) (unpauseEmergency host v caller) := by
  obtain ⟨delegation, thinned, rfl⟩ := thinner.eq
  apply Agree.bind_same
  intro _ _
  apply Agree.bind_same
  intro _ _
  exact .ok ⟨rfl, thinned⟩

theorem proposeMultisigAction_agree (proposer : Address) (action : MultisigAction) :
    Agree (fun x y => x.1 = y.1 ∧ Thinner lost x.2 y.2) (proposeMultisigAction host s proposer action)
      (proposeMultisigAction host v proposer action) := by
  obtain ⟨delegation, thinned, rfl⟩ := thinner.eq
  apply Agree.bind_same
  intro _ _
  apply Agree.bind_same
  intro _ _
  apply Agree.bind_same
  intro _ _
  apply Agree.bind_same
  intro _ _
  exact .ok ⟨rfl, rfl, thinned⟩

theorem approveMultisigAction_agree (approver : Address) (proposalId : Nat) :
    Agree (Thinner lost) (approveMultisigAction host s approver proposalId)
      (approveMultisigAction host v approver proposalId) := by
  obtain ⟨delegation, thinned, rfl⟩ := thinner.eq
  apply Agree.bind_same
  intro _ _
  apply Agree.bind_same
  intro _ _
  apply Agree.bind_same
  intro _ _
  apply Agree.bind_same
  intro _ _
  apply Agree.bind_same
  intro _ _
  exact .ok ⟨rfl, thinned⟩

theorem executeMultisigAction_agree (proposalId : Nat) :
    Agree (Thinner lost) (executeMultisigAction host s proposalId) (executeMultisigAction host v proposalId) := by
  obtain ⟨delegation, thinned, rfl⟩ := thinner.eq
  apply Agree.bind_same
  intro proposal _
  apply Agree.bind_same
  intro _ _
  apply Agree.bind_same
  intro _ _
  apply Agree.bind_same
  intro _ _
  refine .ok ⟨?_, ?_⟩
  · cases proposal.action <;> rfl
  · cases proposal.action <;> exact thinned

end

end Agreement

def Call.queries : Call → Bool
  | .hasPermission .. => true
  | _ => false

def answer (tx : Tx) (s : State) : Result Answer := (respond tx s).map (·.1)

def Deletes (tx : Tx) (s : State) (d : Delegation) : Prop :=
  ∃ user permission, tx.call = .hasPermission user permission ∧ isPaused s = false ∧ ¬ Holds s user permission ∧
    s.delegation (user, permission) = some d ∧ grants tx.host s permission d = false

section Answers

variable {lost : Delegation → Prop} {host : Host} {call : Call} {s v : State}

theorem respond_agree (thinner : Thinner lost s v) (other : call.queries = false) :
    Agree (fun x y => x.1 = y.1 ∧ Thinner lost x.2 y.2) (respond ⟨host, call⟩ s) (respond ⟨host, call⟩ v) := by
  have done {x y : Result State} (agree : Agree (Thinner lost) x y) :
      Agree (fun x y => x.1 = y.1 ∧ Thinner lost x.2 y.2)
        (do let s ← x; return (Answer.done, s)) (do let s ← y; return (Answer.done, s)) :=
    agree.bind fun _ _ thinner => .ok ⟨rfl, thinner⟩
  cases call with
  | initializeAccessControl admin emergencyAdmin =>
    exact done (initializeAccessControl_agree thinner admin emergencyAdmin)
  | grantRole caller user role => exact done (grantRole_agree thinner caller user role)
  | revokeRole caller user role => exact done (revokeRole_agree thinner caller user role)
  | hasPermission => cases other
  | delegatePermission delegator delegate permission durationSecs =>
    exact done (delegatePermission_agree thinner delegator delegate permission durationSecs)
  | revokeDelegation delegator delegate permission =>
    exact done (revokeDelegation_agree thinner delegator delegate permission)
  | setEmergencyAdmin caller newEmergencyAdmin => exact done (setEmergencyAdmin_agree thinner caller newEmergencyAdmin)
  | pauseEmergency caller => exact done (pauseEmergency_agree thinner caller)
  | unpauseEmergency caller => exact done (unpauseEmergency_agree thinner caller)
  | proposeMultisigAction proposer action =>
    apply (proposeMultisigAction_agree thinner proposer action).bind
    intro x y agreed
    exact .ok ⟨congrArg Answer.proposed agreed.1, agreed.2⟩
  | approveMultisigAction approver proposalId => exact done (approveMultisigAction_agree thinner approver proposalId)
  | executeMultisigAction proposalId => exact done (executeMultisigAction_agree thinner proposalId)

theorem exec_agree (thinner : Thinner lost s v) : Agree (Thinner lost) (exec ⟨host, call⟩ s) (exec ⟨host, call⟩ v) := by
  cases queries : call.queries with
  | true =>
    cases call with
    | hasPermission user permission => exact .ok (hasPermission_related thinner host user permission).1
    | _ => cases queries
  | false => exact (respond_agree thinner queries).bind fun _ _ agreed => .ok agreed.2

theorem settle_thinner (thinner : Thinner lost s v) (tx : Tx) :
    Thinner lost (Ledger.settle contract tx s) (Ledger.settle contract tx v) := by
  obtain after | ⟨one, two⟩ := Ledger.settle_agree (c := contract) (t := tx) (exec_agree thinner)
  · exact after
  · rw [one, two]
    exact thinner

theorem query_thinner (thinner : Thinner lost s v) (tx : Tx) (queries : tx.call.queries = true)
    (allowed : ∀ d, Deletes tx v d → lost d) : Thinner lost s (Ledger.settle contract tx v) := by
  obtain ⟨host, call⟩ := tx
  cases call with
  | hasPermission user permission =>
    change Thinner lost s (hasPermission host v user permission).2
    cases paused : isPaused v with
    | true => rwa [hasPermission_paused _ _ _ _ paused]
    | false =>
      by_cases own : Holds v user permission
      · rwa [hasPermission_own _ _ _ _ paused own]
      · rw [hasPermission_delegated _ _ _ _ paused own]
        refine ⟨by rw [thinner.rest], thinner.delegations.dropWhen_right ?_⟩
        intro d stored refused
        exact allowed d ⟨user, permission, rfl, paused, own, stored, by simpa using refused⟩
  | _ => cases queries

end Answers

section Runs

variable {extra : World → Tx → Prop} {w v : World}

theorem thinner_padded (lost : Nat → Delegation → Prop)
    (padded : Ledger.Padded contract Deployed (Ledger.inOrder contract) extra w v)
    (queries : ∀ v tx, extra v tx → tx.call.queries = true)
    (allowed : ∀ v tx d now, extra v tx → Deletes tx v.state d → tx.host.timestamp ≤ now → lost now d) :
    ∀ now, w.clock ≤ now → v.clock ≤ now → Thinner (lost now) w.state v.state := by
  refine padded.related (R := fun now => Thinner (lost now)) (fun _ _ met => met) ?_ ?_ ?_
  · intro s now _
    exact ⟨rfl, .refl _ _⟩
  · intro w v tx _ _ _ thinner now later
    exact settle_thinner (thinner now later) tx
  · intro w v tx _ inserted _ thinner now earlier later
    exact query_thinner (thinner now earlier later) tx (queries v tx inserted)
      fun d deletes => allowed v tx d now inserted deletes later

/-- Queries put into a run change no answer but that of later queries, which they can only turn to `false`, and change
    none when they delete expired delegations only. -/
theorem queries_unseen (padded : Ledger.Padded contract Deployed (Ledger.inOrder contract) extra w v)
    (queries : ∀ v tx, extra v tx → tx.call.queries = true) (tx : Tx) (left : w.clock ≤ tx.host.timestamp)
    (right : v.clock ≤ tx.host.timestamp) :
    (tx.call.queries = false → answer tx v.state = answer tx w.state) ∧
      (answer tx v.state = .ok (.permitted true) → answer tx w.state = .ok (.permitted true)) ∧
      ((∀ v tx d, extra v tx → Deletes tx v.state d → d.expiresAt < tx.host.timestamp) →
        answer tx v.state = answer tx w.state) := by
  have thinner := thinner_padded (fun _ _ => True) padded queries (fun _ _ _ _ _ _ _ => trivial) _ left right
  obtain ⟨host, call⟩ := tx
  have silent (other : call.queries = false) : answer ⟨host, call⟩ v.state = answer ⟨host, call⟩ w.state :=
    ((respond_agree thinner other).map_eq fun _ _ agreed => agreed.1).symm
  refine ⟨silent, fun permitted => ?_, fun expired => ?_⟩
  · cases queries : call.queries with
    | false => exact silent queries ▸ permitted
    | true =>
      cases call with
      | hasPermission user permission =>
        have granted : (hasPermission host v.state user permission).1 = true := by
          simpa [answer, respond, Except.map] using permitted
        obtain same | ⟨refused, _⟩ := (hasPermission_related thinner host user permission).2
        · exact congrArg (fun b => Except.ok (Answer.permitted b)) (same.symm.trans granted)
        · exact absurd (refused.symm.trans granted) Bool.false_ne_true
      | _ => cases queries
  · have thinner := thinner_padded (fun now d => d.expiresAt < now) padded queries
      (fun v tx d now inserted deletes later => (expired v tx d inserted deletes).trans_le later) _ left right
    cases queries : call.queries with
    | false => exact silent queries
    | true =>
      cases call with
      | hasPermission user permission =>
        refine congrArg (fun b => Except.ok (Answer.permitted b)) ?_
        obtain same | ⟨refused, d, lapsed, same⟩ := (hasPermission_related thinner host user permission).2
        · exact same
        · have late : ¬ host.timestamp ≤ d.expiresAt := Nat.not_le.mpr lapsed
          rw [refused, same]
          simp [grants, late]
      | _ => cases queries

end Runs

def lapsedRun : World := trial
  [(0, [⟨1⟩], .initializeAccessControl ⟨1⟩ ⟨3⟩), (1, [⟨1⟩], .grantRole ⟨1⟩ ⟨2⟩ .merchant),
    (2, [⟨2⟩], .delegatePermission ⟨2⟩ ⟨4⟩ .createPlan 1000), (3, [⟨1⟩], .revokeRole ⟨1⟩ ⟨2⟩ .merchant)]

def queryAt (now : Nat) : Tx := ⟨signedBy now [], .hasPermission ⟨4⟩ .createPlan⟩

def regrantAt (now : Nat) : Tx := ⟨signedBy now [⟨1⟩], .grantRole ⟨1⟩ ⟨2⟩ .merchant⟩

def LateQuery (v : World) (tx : Tx) : Prop :=
  tx.call.queries = true ∧ ∀ d, Deletes tx v.state d → d.expiresAt < tx.host.timestamp

theorem queries_unseen_late : answer (queryAt 2002) (submit (submit lapsedRun (queryAt 2000)) (regrantAt 2001)).state =
      answer (queryAt 2002) (submit lapsedRun (regrantAt 2001)).state := by
  have reached : Reachable (Ledger.inOrder contract) lapsedRun := trial_inOrder (by decide)
  have stored : lapsedRun.state.delegation (⟨4⟩, .createPlan) = some ⟨⟨2⟩, .createPlan, ⟨4⟩, 1002⟩ := by decide +kernel
  have late : LateQuery lapsedRun (queryAt 2000) := by
    refine ⟨rfl, fun d deletes => ?_⟩
    obtain ⟨user, permission, made, _, _, found, _⟩ := deletes
    cases made
    obtain rfl := Option.some.inj (stored.symm.trans found)
    decide
  have start : Ledger.Padded contract Deployed (Ledger.inOrder contract) LateQuery lapsedRun lapsedRun :=
    .of_reachable reached
  have queried := start.inserted (queryAt 2000) late (by decide +kernel)
  have granted := queried.both (regrantAt 2001) (by decide +kernel) (by decide +kernel)
  exact (queries_unseen granted (fun _ _ late => late.1) (queryAt 2002) (by decide +kernel) (by decide +kernel)).2.2
    fun v tx d late => late.2 d

theorem query_seen : Ledger.Padded contract Deployed (Ledger.inOrder contract) (fun _ tx => tx.call.queries = true)
    (submit lapsedRun (regrantAt 5)) (submit (submit lapsedRun (queryAt 4)) (regrantAt 5)) ∧
    answer (queryAt 6) (submit lapsedRun (regrantAt 5)).state = .ok (.permitted true) ∧
    answer (queryAt 6) (submit (submit lapsedRun (queryAt 4)) (regrantAt 5)).state = .ok (.permitted false) := by
  have reached : Reachable (Ledger.inOrder contract) lapsedRun := trial_inOrder (by decide)
  have start : Ledger.Padded contract Deployed (Ledger.inOrder contract) (fun _ tx => tx.call.queries = true) lapsedRun
      lapsedRun := .of_reachable reached
  have queried := start.inserted (queryAt 4) rfl (by decide +kernel)
  have granted := queried.both (regrantAt 5) (by decide +kernel) (by decide +kernel)
  exact ⟨granted, by decide +kernel, by decide +kernel⟩

end SubTrackr.AccessControl
