import SubTrackr.AccessControl.EntryPoints
import SubTrackr.Lib.Inverse

namespace SubTrackr.AccessControl

open Option List Lib Soroban

def Holds (s : State) (user : Address) (permission : Permission) : Prop := permission ∈ getUserPermissions s user

section Checks

variable {s : State} {user : Address} {permission : Permission} {text : String} {u : Unit}

theorem containsPermission_iff (perms : List Permission) (target : Permission) :
    containsPermission perms target = true ↔ target ∈ perms := by
  simp [containsPermission]

theorem vecContainsAddress_iff (vec : List Address) (address : Address) :
    vecContainsAddress vec address = true ↔ address ∈ vec := by
  simp [vecContainsAddress]

theorem vecContainsAddress_eq_false (vec : List Address) (address : Address) :
    vecContainsAddress vec address = false ↔ address ∉ vec := by
  simp [vecContainsAddress]

theorem ensure_holds (run : ensure (containsPermission (getUserPermissions s user) permission = true) text = .ok u) :
    Holds s user permission :=
  (containsPermission_iff ..).mp ((ensure_eq_ok ..).mp run)

end Checks

section Calls

variable {host : Host} {s s' : State} {caller user : Address} {role : Role}

theorem saveRoleChange_ok {action : RoleChangeAction} {changedBy : Address}
    (run : saveRoleChange host s user role action changedBy = .ok s') :
    s' = { s with roleChangeCount := s'.roleChangeCount, roleChangeEntry := s'.roleChangeEntry } := by
  simp only [saveRoleChange, bind_eq_ok, pure_eq_ok] at run
  obtain ⟨count, _, rfl⟩ := run
  rfl

theorem initializeAccessControl_ok {admin emergencyAdmin : Address}
    (run : initializeAccessControl host s admin emergencyAdmin = .ok s') : s.emergencyAdmin = none ∧ s' = { s with
      roleMembers := put s.roleMembers .admin [admin]
      userRoles := put s.userRoles admin [.admin]
      emergencyAdmin := some emergencyAdmin
      emergencyPaused := some false
      multisigThreshold := some defaultMultisigThreshold
      multisigTimelock := some defaultMultisigTimelock
      multisigProposalCount := some 0
      roleChangeCount := s'.roleChangeCount
      roleChangeEntry := s'.roleChangeEntry
      events := s'.events } := by
  simp only [initializeAccessControl, bind_eq_ok, pure_eq_ok, ensure_eq_ok] at run
  obtain ⟨_, fresh, _, _, s₁, saved, rfl⟩ := run
  refine ⟨fresh, ?_⟩
  rw [saveRoleChange_ok saved]
  rfl

theorem grantRole_ok (run : grantRole host s caller user role = .ok s') : host.authorized caller = true ∧
    Holds s caller .grantRole ∧ ((user ∈ getRoleMembers s role ∧ s' = s) ∨ (user ∉ getRoleMembers s role ∧ s' = { s with
      roleMembers := put s.roleMembers role (getRoleMembers s role ++ [user])
      userRoles := put s.userRoles user (getUserRoles s user ++ [role])
      roleChangeCount := s'.roleChangeCount
      roleChangeEntry := s'.roleChangeEntry
      events := s'.events })) := by
  simp only [grantRole, bind_eq_ok, Host.requireAuth_eq_ok] at run
  obtain ⟨_, signed, _, _, _, checked, run⟩ := run
  refine ⟨signed, ensure_holds checked, ?_⟩
  split at run
  · rename_i known
    cases run
    exact .inl ⟨(vecContainsAddress_iff ..).mp known, rfl⟩
  · rename_i new
    simp only [bind_eq_ok, pure_eq_ok] at run
    obtain ⟨s₁, saved, rfl⟩ := run
    refine .inr ⟨fun mem => new ((vecContainsAddress_iff ..).mpr mem), ?_⟩
    rw [saveRoleChange_ok saved]
    rfl

theorem revokeRole_ok (run : revokeRole host s caller user role = .ok s') : host.authorized caller = true ∧
    Holds s caller .revokeRole ∧
    (role = .admin → 1 < (getRoleMembers s .admin).length ∨ user ∉ getRoleMembers s .admin) ∧ s' = { s with
      roleMembers := put s.roleMembers role ((getRoleMembers s role).filter (· ≠ user))
      userRoles := put s.userRoles user ((getUserRoles s user).filter (· ≠ role))
      delegation := delegationPerms.foldl (clearDelegation user) s.delegation
      roleChangeCount := s'.roleChangeCount
      roleChangeEntry := s'.roleChangeEntry
      events := s'.events } := by
  simp only [revokeRole, bind_eq_ok, pure_eq_ok, Host.requireAuth_eq_ok] at run
  obtain ⟨_, signed, _, _, _, checked, _, guarded, s₁, saved, rfl⟩ := run
  refine ⟨signed, ensure_holds checked, ?_, ?_⟩
  · intro admin
    rw [if_pos admin, ensure_eq_ok, vecContainsAddress_eq_false] at guarded
    exact guarded
  · rw [saveRoleChange_ok saved]
    rfl

theorem hasPermission_state (host : Host) (s : State) (user : Address) (permission : Permission) :
    (hasPermission host s user permission).2 =
      { s with delegation := (hasPermission host s user permission).2.delegation } := by
  unfold hasPermission
  repeat' split
  all_goals rfl

theorem delegatePermission_ok {permission : Permission} {durationSecs : Nat}
    (run : delegatePermission host s caller user permission durationSecs = .ok s') :
    s' = { s with delegation := s'.delegation, events := s'.events } := by
  simp only [delegatePermission, bind_eq_ok, pure_eq_ok] at run
  obtain ⟨_, _, _, _, _, _, _, _, rfl⟩ := run
  rfl

theorem revokeDelegation_ok {permission : Permission}
    (run : revokeDelegation host s caller user permission = .ok s') :
    s' = { s with delegation := s'.delegation, events := s'.events } := by
  simp only [revokeDelegation, bind_eq_ok, pure_eq_ok] at run
  obtain ⟨_, _, rfl⟩ := run
  rfl

theorem setEmergencyAdmin_ok {newEmergencyAdmin : Address}
    (run : setEmergencyAdmin host s caller newEmergencyAdmin = .ok s') : Holds s caller .setEmergencyAdmin ∧
    s' = { s with emergencyAdmin := some newEmergencyAdmin, events := s'.events } := by
  simp only [setEmergencyAdmin, bind_eq_ok, pure_eq_ok] at run
  obtain ⟨_, _, _, checked, rfl⟩ := run
  exact ⟨ensure_holds checked, rfl⟩

theorem pauseEmergency_ok (run : pauseEmergency host s caller = .ok s') :
    s' = { s with emergencyPaused := some true, events := s'.events } := by
  simp only [pauseEmergency, bind_eq_ok, pure_eq_ok] at run
  obtain ⟨_, _, _, _, _, _, rfl⟩ := run
  rfl

theorem unpauseEmergency_ok (run : unpauseEmergency host s caller = .ok s') :
    s' = { s with emergencyPaused := some false, events := s'.events } := by
  simp only [unpauseEmergency, bind_eq_ok, pure_eq_ok] at run
  obtain ⟨_, _, _, _, rfl⟩ := run
  rfl

theorem proposeMultisigAction_ok {action : MultisigAction} {id : Nat}
    (run : proposeMultisigAction host s caller action = .ok (id, s')) : host.authorized caller = true ∧
    Holds s caller .grantRole ∧ id = s.multisigProposalCount.getD 0 + 1 ∧ s' = { s with
      multisigProposalCount := some id
      multisigProposal := put s.multisigProposal id
        { id, action, proposer := caller, createdAt := host.timestamp
          executeAfter := min (host.timestamp + s.multisigTimelock.getD defaultMultisigTimelock) u64Max
          approvals := [caller], executed := false }
      events := s'.events } := by
  simp only [proposeMultisigAction, bind_eq_ok, pure_eq_ok, Host.requireAuth_eq_ok, u64_eq_ok] at run
  obtain ⟨_, signed, _, _, _, checked, seq, ⟨_, rfl⟩, same⟩ := run
  cases same
  exact ⟨signed, ensure_holds checked, rfl, rfl⟩

theorem approveMultisigAction_ok {id : Nat} (run : approveMultisigAction host s caller id = .ok s') :
    ∃ proposal, host.authorized caller = true ∧ Holds s caller .grantRole ∧ s.multisigProposal id = some proposal ∧
      proposal.executed = false ∧ caller ∉ proposal.approvals ∧ s' = { s with
        multisigProposal := put s.multisigProposal id { proposal with approvals := proposal.approvals ++ [caller] }
        events := s'.events } := by
  simp only [approveMultisigAction, bind_eq_ok, pure_eq_ok, Host.requireAuth_eq_ok, expect_eq_ok] at run
  obtain ⟨_, signed, proposal, held, _, pending, _, new, _, checked, rfl⟩ := run
  refine ⟨proposal, signed, ensure_holds checked, held, (ensure_eq_ok ..).mp pending, ?_, rfl⟩
  exact (vecContainsAddress_eq_false ..).mp ((ensure_eq_ok ..).mp new)

theorem executeMultisigAction_ok {id : Nat} (run : executeMultisigAction host s id = .ok s') :
    ∃ proposal, s.multisigProposal id = some proposal ∧ proposal.executed = false ∧
      s.multisigThreshold.getD defaultMultisigThreshold ≤ proposal.approvals.length ∧
      proposal.executeAfter ≤ host.timestamp ∧ s' = { s with
        emergencyAdmin := (perform s proposal.action).emergencyAdmin
        multisigThreshold := (perform s proposal.action).multisigThreshold
        emergencyPaused := (perform s proposal.action).emergencyPaused
        multisigProposal := put s.multisigProposal id { proposal with executed := true }
        events := s'.events } := by
  simp only [executeMultisigAction, bind_eq_ok, pure_eq_ok, expect_eq_ok, ensure_eq_ok] at run
  obtain ⟨proposal, held, _, pending, _, enough, _, elapsed, rfl⟩ := run
  refine ⟨proposal, held, pending, enough, elapsed, ?_⟩
  cases proposal.action <;> rfl

def Ran (host : Host) (s s' : State) : Call → Prop
  | .initializeAccessControl admin emergencyAdmin => initializeAccessControl host s admin emergencyAdmin = .ok s'
  | .grantRole caller user role => grantRole host s caller user role = .ok s'
  | .revokeRole caller user role => revokeRole host s caller user role = .ok s'
  | .hasPermission user permission => s' = (hasPermission host s user permission).2
  | .delegatePermission delegator delegate permission durationSecs =>
    delegatePermission host s delegator delegate permission durationSecs = .ok s'
  | .revokeDelegation delegator delegate permission => revokeDelegation host s delegator delegate permission = .ok s'
  | .setEmergencyAdmin caller newEmergencyAdmin => setEmergencyAdmin host s caller newEmergencyAdmin = .ok s'
  | .pauseEmergency caller => pauseEmergency host s caller = .ok s'
  | .unpauseEmergency caller => unpauseEmergency host s caller = .ok s'
  | .proposeMultisigAction proposer action => ∃ id, proposeMultisigAction host s proposer action = .ok (id, s')
  | .approveMultisigAction approver proposalId => approveMultisigAction host s approver proposalId = .ok s'
  | .executeMultisigAction proposalId => executeMultisigAction host s proposalId = .ok s'

theorem exec_ran {call : Call} (run : exec ⟨host, call⟩ s = .ok s') : Ran host s s' call := by
  simp only [exec, bind_eq_ok, pure_eq_ok] at run
  obtain ⟨⟨answer, _⟩, run, rfl⟩ := run
  cases call with
  | hasPermission user permission =>
    simp only [respond, ok_eq_ok, Prod.mk.injEq] at run
    exact run.2.symm
  | proposeMultisigAction proposer action =>
    simp only [respond, bind_eq_ok, pure_eq_ok, Prod.mk.injEq] at run
    obtain ⟨⟨id, _⟩, run, _, rfl⟩ := run
    exact ⟨id, run⟩
  | _ =>
    simp only [respond, bind_eq_ok, pure_eq_ok, Prod.mk.injEq] at run
    obtain ⟨_, run, _, rfl⟩ := run
    exact run

end Calls

inductive RoleEffect (call : Call) (s s' : State) : Prop where
  | kept (members : s'.roleMembers = s.roleMembers) (roles : s'.userRoles = s.userRoles)
  | started (admin : Address) (fresh : s.emergencyAdmin = none)
      (members : s'.roleMembers = put s.roleMembers .admin [admin])
      (roles : s'.userRoles = put s.userRoles admin [.admin])
  | granted (user : Address) (role : Role) (new : user ∉ getRoleMembers s role)
      (members : s'.roleMembers = put s.roleMembers role (getRoleMembers s role ++ [user]))
      (roles : s'.userRoles = put s.userRoles user (getUserRoles s user ++ [role]))
  | revoked (caller user : Address) (role : Role) (made : call = .revokeRole caller user role)
      (guarded : role = .admin → 1 < (getRoleMembers s .admin).length ∨ user ∉ getRoleMembers s .admin)
      (members : s'.roleMembers = put s.roleMembers role ((getRoleMembers s role).filter (· ≠ user)))
      (roles : s'.userRoles = put s.userRoles user ((getUserRoles s user).filter (· ≠ role)))

/-- How a call can set the emergency admin, the roles or the proposals: `initialize` does, and else it takes a user
    with a permission or a stored proposal. -/
inductive StartEffect (s s' : State) : Prop where
  | kept (admin : s'.emergencyAdmin = s.emergencyAdmin) (roles : s'.userRoles = s.userRoles)
      (proposals : s'.multisigProposal = s.multisigProposal)
  | initialised (admin : s'.emergencyAdmin ≠ none) (members : getRoleMembers s' .admin ≠ [])
  | permitted (admin : s.emergencyAdmin ≠ none → s'.emergencyAdmin ≠ none)
      (someone : (∃ user permission, Holds s user permission) ∨ ∃ id, s.multisigProposal id ≠ none)

theorem exec_roles {host : Host} {call : Call} {s s' : State} (run : exec ⟨host, call⟩ s = .ok s') :
    RoleEffect call s s' ∧ StartEffect s s' := by
  have run := exec_ran run
  cases call with
  | initializeAccessControl admin emergencyAdmin =>
    obtain ⟨fresh, same⟩ := initializeAccessControl_ok run
    rw [same]
    refine ⟨.started admin fresh rfl rfl, .initialised (some_ne_none _) ?_⟩
    simp [getRoleMembers]
  | grantRole caller user role =>
    obtain ⟨_, holds, ⟨_, same⟩ | ⟨new, same⟩⟩ := grantRole_ok run
    · rw [same]
      exact ⟨.kept rfl rfl, .kept rfl rfl rfl⟩
    · rw [same]
      exact ⟨.granted user role new rfl rfl, .permitted id (.inl ⟨caller, _, holds⟩)⟩
  | revokeRole caller user role =>
    obtain ⟨_, holds, guarded, same⟩ := revokeRole_ok run
    rw [same]
    exact ⟨.revoked caller user role rfl guarded rfl rfl, .permitted id (.inl ⟨caller, _, holds⟩)⟩
  | hasPermission user permission =>
    rw [run, hasPermission_state]
    exact ⟨.kept rfl rfl, .kept rfl rfl rfl⟩
  | delegatePermission =>
    rw [delegatePermission_ok run]
    exact ⟨.kept rfl rfl, .kept rfl rfl rfl⟩
  | revokeDelegation =>
    rw [revokeDelegation_ok run]
    exact ⟨.kept rfl rfl, .kept rfl rfl rfl⟩
  | setEmergencyAdmin caller =>
    obtain ⟨holds, same⟩ := setEmergencyAdmin_ok run
    rw [same]
    exact ⟨.kept rfl rfl, .permitted (fun _ => some_ne_none _) (.inl ⟨caller, _, holds⟩)⟩
  | pauseEmergency =>
    rw [pauseEmergency_ok run]
    exact ⟨.kept rfl rfl, .kept rfl rfl rfl⟩
  | unpauseEmergency =>
    rw [unpauseEmergency_ok run]
    exact ⟨.kept rfl rfl, .kept rfl rfl rfl⟩
  | proposeMultisigAction proposer action =>
    obtain ⟨_, run⟩ := run
    obtain ⟨_, holds, _, same⟩ := proposeMultisigAction_ok run
    rw [same]
    exact ⟨.kept rfl rfl, .permitted id (.inl ⟨proposer, _, holds⟩)⟩
  | approveMultisigAction approver =>
    obtain ⟨_, _, holds, _, _, _, same⟩ := approveMultisigAction_ok run
    rw [same]
    exact ⟨.kept rfl rfl, .permitted id (.inl ⟨approver, _, holds⟩)⟩
  | executeMultisigAction id =>
    obtain ⟨proposal, held, _, _, _, same⟩ := executeMultisigAction_ok run
    have exists_ : s.multisigProposal id ≠ none := held ▸ some_ne_none _
    rw [same]
    refine ⟨.kept rfl rfl, .permitted ?_ (.inr ⟨id, exists_⟩)⟩
    intro set
    cases proposal.action with
    | setEmergencyAdmin => exact some_ne_none _
    | _ => exact set

structure Consistent (s : State) : Prop where
  tables : Inverse s.roleMembers s.userRoles
  dormant : s.emergencyAdmin = none → (∀ user, getUserRoles s user = []) ∧ ∀ id, s.multisigProposal id = none
  admins : s.emergencyAdmin ≠ none → getRoleMembers s .admin ≠ []

section Step

variable {s s' : State} {call : Call} {user : Address} {role : Role}

theorem Holds.initialised {permission : Permission} (holds : Holds s user permission) (consistent : Consistent s) :
    s.emergencyAdmin ≠ none := by
  intro unset
  obtain ⟨role, mem, _⟩ := mem_getUserPermissions.mp holds
  rw [(consistent.dormant unset).1 user] at mem
  exact not_mem_nil mem

theorem Holds.kept {permission : Permission} (holds : Holds s user permission) (consistent : Consistent s)
    (effect : RoleEffect call s s') :
    (∃ caller role, call = .revokeRole caller user role ∧ permission ∈ rolePermissions role) ∨
      Holds s' user permission := by
  obtain ⟨role, listed, gives⟩ := mem_getUserPermissions.mp holds
  cases effect with
  | kept _ roles =>
    right
    rw [Holds, getUserPermissions_same roles]
    exact holds
  | started _ fresh => exact absurd fresh (holds.initialised consistent)
  | granted other new _ _ roles =>
    right
    refine mem_getUserPermissions.mpr ⟨role, ?_, gives⟩
    rw [getUserRoles, roles]
    exact (mem_entries_append s.userRoles other user new role).mpr (.inl listed)
  | revoked caller other old made _ _ roles =>
    by_cases hit : user = other ∧ role = old
    · obtain ⟨rfl, rfl⟩ := hit
      exact .inl ⟨caller, role, made, gives⟩
    · right
      refine mem_getUserPermissions.mpr ⟨role, ?_, gives⟩
      rw [getUserRoles, roles]
      exact (mem_entries_filter s.userRoles other user old role).mpr ⟨listed, hit⟩

theorem Consistent.started (consistent : Consistent s)
    (someone : (∃ user permission, Holds s user permission) ∨ ∃ id, s.multisigProposal id ≠ none) :
    s.emergencyAdmin ≠ none := by
  rcases someone with ⟨user, permission, holds⟩ | ⟨id, held⟩
  · exact holds.initialised consistent
  · exact fun unset => held ((consistent.dormant unset).2 id)

theorem Consistent.inverse (consistent : Consistent s) (effect : RoleEffect call s s') :
    Inverse s'.roleMembers s'.userRoles := by
  cases effect with
  | kept members roles =>
    rw [members, roles]
    exact consistent.tables
  | started admin fresh members roles =>
    have roleless (user : Address) : entries s.userRoles user = [] := (consistent.dormant fresh).1 user
    have memberless (role : Role) : entries s.roleMembers role = [] := by
      apply eq_nil_iff_forall_not_mem.mpr
      intro user mem
      rw [consistent.tables.mem_iff, roleless] at mem
      exact not_mem_nil mem
    have linked := consistent.tables.link (k := .admin) (a := admin) (by rw [memberless]; exact not_mem_nil)
    rw [memberless, roleless] at linked
    rw [members, roles]
    exact linked
  | granted user role new members roles =>
    rw [members, roles]
    exact consistent.tables.link new
  | revoked _ user role _ _ members roles =>
    rw [members, roles]
    exact consistent.tables.unlink role user

theorem filter_ne_nil {members : List Address} (nodup : members.Nodup) (two : 1 < members.length) (user : Address) :
    members.filter (· ≠ user) ≠ [] := by
  intro none
  have only : members ⊆ [user] := by
    intro member mem
    have all : ∀ member ∈ members, member = user := by simpa using none
    exact mem_singleton.mpr (all member mem)
  have one : members.length ≤ 1 := (subperm_of_subset nodup only).length_le
  omega

theorem Consistent.members (consistent : Consistent s) (effect : RoleEffect call s s') (set : s.emergencyAdmin ≠ none) :
    getRoleMembers s' .admin ≠ [] := by
  have admins := consistent.admins set
  unfold getRoleMembers at *
  cases effect with
  | kept members => rwa [members]
  | started _ fresh => exact absurd fresh set
  | granted user role _ members =>
    rw [members, put_apply]
    split <;> simp_all
  | revoked _ user role _ guarded members =>
    rw [members, put_apply]
    split
    · rename_i here
      subst here
      rcases guarded rfl with two | other
      · exact filter_ne_nil (consistent.tables.left .admin) two user
      · have all : (getRoleMembers s .admin).filter (· ≠ user) = getRoleMembers s .admin :=
          filter_eq_self.mpr fun member mem => by
            simp only [ne_eq, decide_not, Bool.not_eq_true', decide_eq_false_iff_not]
            intro same
            exact other (same ▸ mem)
        rw [getD_some, all]
        exact admins
    · exact admins

theorem consistent_step {tx : Tx} (consistent : Consistent s) (run : exec tx s = .ok s') : Consistent s' := by
  obtain ⟨effect, start⟩ := exec_roles run
  refine ⟨consistent.inverse effect, ?_, ?_⟩
  · intro unset
    cases start with
    | kept admin roles proposals =>
      have dormant := consistent.dormant (admin ▸ unset)
      unfold getUserRoles at *
      rw [roles, proposals]
      exact dormant
    | initialised admin => exact absurd unset admin
    | permitted admin someone => exact absurd unset (admin (consistent.started someone))
  · intro set
    cases start with
    | kept admin => exact consistent.members effect (admin ▸ set)
    | initialised _ members => exact members
    | permitted _ someone => exact consistent.members effect (consistent.started someone)

theorem initialised_step {tx : Tx} (run : exec tx s = .ok s') (set : s.emergencyAdmin ≠ none) :
    s'.emergencyAdmin ≠ none := by
  cases (exec_roles run).2 with
  | kept admin => exact admin ▸ set
  | initialised admin => exact admin
  | permitted admin => exact admin set

end Step

section Runs

variable {guard : World → Tx → Prop} {w : World}

theorem consistent_reachable (reached : Reachable guard w) : Consistent w.state := by
  refine reached.state_invariant ?_ ?_
  · intro s deployed
    rw [deployed]
    exact ⟨Inverse.empty, fun _ => ⟨fun _ => rfl, fun _ => rfl⟩, fun set => absurd rfl set⟩
  · intro w tx s _ _ run consistent
    exact consistent_step consistent run

theorem initialised_reachable (reached : Reachable guard w) (r : Receipt Tx State) (mem : r ∈ w.history)
    (admin emergencyAdmin : Address) (call : r.tx.call = .initializeAccessControl admin emergencyAdmin) :
    w.state.emergencyAdmin ≠ none := by
  refine reached.invariant (I := fun w => ∀ r ∈ w.history, ∀ admin emergencyAdmin,
    r.tx.call = .initializeAccessControl admin emergencyAdmin → w.state.emergencyAdmin ≠ none) ?_ ?_ ?_ r mem admin
    emergencyAdmin call
  · exact fun _ _ _ mem => absurd mem not_mem_nil
  · exact fun _ _ _ _ holds => holds
  · intro w tx s here _ run holds r mem admin emergencyAdmin call
    rcases mem_append.mp mem with earlier | last
    · exact initialised_step run (holds r earlier admin emergencyAdmin call)
    · rw [mem_singleton.mp last] at call
      obtain ⟨host, _⟩ := tx
      cases call
      rw [(initializeAccessControl_ok (exec_ran run)).2]
      exact some_ne_none _

/-- The members of the roles and the roles of the users agree, without duplicates, and once the contract is
    initialised it has an admin. -/
theorem roles_consistent (reached : Reachable guard w) :
    (∀ role user, user ∈ getRoleMembers w.state role ↔ role ∈ getUserRoles w.state user) ∧
      (∀ role, (getRoleMembers w.state role).Nodup) ∧ (∀ user, (getUserRoles w.state user).Nodup) ∧
      ((∃ r ∈ w.history, ∃ admin emergencyAdmin, r.tx.call = .initializeAccessControl admin emergencyAdmin) →
        getRoleMembers w.state .admin ≠ []) := by
  have consistent := consistent_reachable reached
  refine ⟨consistent.tables.mem_iff, consistent.tables.left, consistent.tables.right, ?_⟩
  intro initialised
  obtain ⟨r, listed, admin, emergencyAdmin, call⟩ := initialised
  exact consistent.admins (initialised_reachable reached r listed admin emergencyAdmin call)

end Runs

def handover : World := trial
  [(0, [⟨1⟩], .initializeAccessControl ⟨1⟩ ⟨3⟩), (1, [⟨1⟩], .grantRole ⟨1⟩ ⟨2⟩ .admin),
    (2, [⟨1⟩], .grantRole ⟨1⟩ ⟨4⟩ .merchant), (3, [⟨2⟩], .revokeRole ⟨2⟩ ⟨1⟩ .admin)]

theorem roles_consistent_handover : getRoleMembers handover.state .admin = [⟨2⟩] ∧
    ∀ role user, user ∈ getRoleMembers handover.state role ↔ role ∈ getUserRoles handover.state user := by
  have reached : Reachable (Ledger.inOrder contract) handover := trial_inOrder (by decide)
  exact ⟨by decide +kernel, (roles_consistent reached).1⟩

end SubTrackr.AccessControl
