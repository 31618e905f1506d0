import SubTrackr.Types
import SubTrackr.Lib.Store
import SubTrackr.Lib.Ledger

namespace SubTrackr.AccessControl

open Lib Soroban

def defaultMultisigThreshold : Nat := 2
def defaultMultisigTimelock : Nat := 86400

structure Delegation where
  delegator : Address
  permission : Permission
  delegate : Address
  expiresAt : Nat
  deriving DecidableEq

inductive MultisigAction where
  | upgradeContract | migrateContract | emergencyUnpause
  | setEmergencyAdmin (newAdmin : Address)
  | setMultisigThreshold (newThreshold : Nat)
  deriving DecidableEq

structure MultisigProposal where
  id : Nat
  action : MultisigAction
  proposer : Address
  (createdAt executeAfter : Nat)
  approvals : List Address
  executed : Bool

inductive Event where
  | accessControlInitialized (admin emergencyAdmin : Address)
  | roleGranted (caller user : Address) (role : Role)
  | roleRevoked (caller user : Address) (role : Role)
  | permissionDelegated (delegator delegate : Address) (permission : Permission) (expiresAt : Nat)
  | delegationRevoked (delegator delegate : Address) (permission : Permission)
  | emergencyAdminSet (caller newEmergencyAdmin : Address)
  | emergencyPaused (caller : Address)
  | emergencyUnpaused (caller : Address)
  | multisigProposalCreated (id : Nat) (proposer : Address)
  | multisigProposalApproved (id approvals : Nat)
  | multisigActionExecuted (id : Nat)

structure State where
  roleMembers : Store Role (List Address)
  userRoles : Store Address (List Role)
  delegation : Store (Address × Permission) Delegation
  emergencyAdmin : Option Address
  emergencyPaused : Option Bool
  roleChangeCount : Option Nat
  roleChangeEntry : Store Nat RoleChangeEntry
  multisigProposal : Store Nat MultisigProposal
  (multisigProposalCount multisigThreshold multisigTimelock : Option Nat)
  events : List Event

def State.empty : State where
  roleMembers := fun _ => none
  userRoles := fun _ => none
  delegation := fun _ => none
  emergencyAdmin := none
  emergencyPaused := none
  roleChangeCount := none
  roleChangeEntry := fun _ => none
  multisigProposal := fun _ => none
  multisigProposalCount := none
  multisigThreshold := none
  multisigTimelock := none
  events := []

def State.publish (s : State) (event : Event) : State := { s with events := s.events ++ [event] }

def rolePermissions : Role → List Permission
  | .admin =>
    [.grantRole, .revokeRole, .delegatePermission, .createPlan, .deactivatePlan, .setPlanQuotas, .setRevenueRule,
      .subscribe, .cancelSubscription, .pauseSubscription, .resumeSubscription, .chargeSubscription, .requestRefund,
      .approveRefund, .rejectRefund, .requestTransfer, .acceptTransfer, .setRateLimit, .removeRateLimit,
      .setInvoiceContract, .clearInvoiceContract, .upgradeContract, .migrateContract, .viewAnalytics, .viewAuditLog,
      .viewPlans, .viewSubscriptions, .setEmergencyAdmin, .pauseEmergency, .setAccessControl]
  | .merchant =>
    [.createPlan, .deactivatePlan, .setPlanQuotas, .setRevenueRule, .delegatePermission, .viewPlans,
      .viewSubscriptions]
  | .subscriber =>
    [.subscribe, .cancelSubscription, .pauseSubscription, .resumeSubscription, .chargeSubscription, .requestRefund,
      .requestTransfer, .acceptTransfer]
  | .auditor => [.viewAnalytics, .viewAuditLog, .viewPlans, .viewSubscriptions]

def containsPermission (perms : List Permission) (target : Permission) : Bool := perms.contains target

def vecContainsAddress (vec : List Address) (address : Address) : Bool := vec.contains address

def pushPermission (perms : List Permission) (p : Permission) : List Permission :=
  if containsPermission perms p then perms else perms ++ [p]

def getUserPermissions (s : State) (user : Address) : List Permission :=
  ((s.userRoles user).getD []).foldl (fun perms role => (rolePermissions role).foldl pushPermission perms) []

def saveRoleChange (host : Host) (s : State) (user : Address) (role : Role) (action : RoleChangeAction)
    (changedBy : Address) : Result State := do
  let count ← u64 (s.roleChangeCount.getD 0 + 1)
  let entry : RoleChangeEntry := { id := count, user, role, action, changedBy, timestamp := host.timestamp }
  return { s with roleChangeEntry := put s.roleChangeEntry count entry, roleChangeCount := some count }

def isPaused (s : State) : Bool := s.emergencyPaused.getD false

def getUserRoles (s : State) (user : Address) : List Role := (s.userRoles user).getD []

def getRoleMembers (s : State) (role : Role) : List Address := (s.roleMembers role).getD []

def hasRole (s : State) (user : Address) (role : Role) : Bool := vecContainsAddress (getRoleMembers s role) user

def getRoleChangeHistory (s : State) (limit : Nat) : List RoleChangeEntry :=
  let count := s.roleChangeCount.getD 0
  let start := if limit ≤ count then count - limit + 1 else 1
  (List.range' start (count + 1 - start)).filterMap s.roleChangeEntry

def getMultisigProposal (s : State) (proposalId : Nat) : Result MultisigProposal :=
  expect (s.multisigProposal proposalId) "Proposal not found"

section Permissions

variable {s s' : State} {user : Address} {p : Permission}

theorem mem_pushPermission (perms : List Permission) (q : Permission) :
    p ∈ pushPermission perms q ↔ p ∈ perms ∨ p = q := by
  unfold pushPermission containsPermission
  split
  · rename_i known
    have mem : q ∈ perms := by simpa using known
    constructor
    · exact .inl
    · intro either
      rcases either with old | new
      · exact old
      · exact new ▸ mem
  · simp

theorem mem_pushPermissions (perms new : List Permission) :
    p ∈ new.foldl pushPermission perms ↔ p ∈ perms ∨ p ∈ new := by
  induction new generalizing perms with
  | nil => simp
  | cons q new ih => rw [List.foldl_cons, ih, mem_pushPermission, List.mem_cons, or_assoc]

theorem mem_getUserPermissions :
    p ∈ getUserPermissions s user ↔ ∃ role ∈ getUserRoles s user, p ∈ rolePermissions role := by
  have general (roles : List Role) (perms : List Permission) :
      p ∈ roles.foldl (fun perms role => (rolePermissions role).foldl pushPermission perms) perms ↔
        p ∈ perms ∨ ∃ role ∈ roles, p ∈ rolePermissions role := by
    induction roles generalizing perms with
    | nil => simp
    | cons role roles ih =>
      rw [List.foldl_cons, ih, mem_pushPermissions]
      simp [or_assoc]
  unfold getUserPermissions getUserRoles
  rw [general]
  simp

theorem getUserPermissions_same (same : s'.userRoles = s.userRoles) (user : Address) :
    getUserPermissions s' user = getUserPermissions s user := by
  unfold getUserPermissions
  rw [same]

end Permissions

def initializeAccessControl (host : Host) (s : State) (admin emergencyAdmin : Address) : Result State := do
  ensure (s.emergencyAdmin = none) "Already initialized"
  host.requireAuth admin
  let s := { s with
    roleMembers := put s.roleMembers .admin [admin]
    userRoles := put s.userRoles admin [.admin]
    emergencyAdmin := some emergencyAdmin
    emergencyPaused := some false
    multisigThreshold := some defaultMultisigThreshold
    multisigTimelock := some defaultMultisigTimelock
    multisigProposalCount := some 0 }
  let s ← saveRoleChange host s admin .admin .granted admin
  return s.publish (.accessControlInitialized admin emergencyAdmin)

def grantRole (host : Host) (s : State) (caller user : Address) (role : Role) : Result State := do
  host.requireAuth caller
  ensure (isPaused s = false) "System is paused"
  ensure (containsPermission (getUserPermissions s caller) .grantRole = true)
    "Unauthorized: missing GrantRole permission"
  let members := (s.roleMembers role).getD []
  if vecContainsAddress members user then return s
  else (do
    let s := { s with roleMembers := put s.roleMembers role (members ++ [user]) }
    let userRoles := (s.userRoles user).getD []
    let s := { s with userRoles := put s.userRoles user (userRoles ++ [role]) }
    let s ← saveRoleChange host s user role .granted caller
    return s.publish (.roleGranted caller user role))

def delegationPerms : List Permission :=
  [.approveRefund, .rejectRefund, .setRateLimit, .removeRateLimit, .setInvoiceContract, .clearInvoiceContract,
    .setPlanQuotas, .setRevenueRule, .createPlan, .deactivatePlan, .subscribe, .cancelSubscription,
    .pauseSubscription, .resumeSubscription, .chargeSubscription, .requestRefund, .requestTransfer, .acceptTransfer,
    .viewAnalytics, .viewAuditLog, .viewPlans, .viewSubscriptions, .grantRole, .revokeRole, .delegatePermission,
    .setEmergencyAdmin, .pauseEmergency, .upgradeContract, .migrateContract, .setAccessControl]

def clearDelegation (user : Address) (delegations : Store (Address × Permission) Delegation) (perm : Permission) :
    Store (Address × Permission) Delegation :=
  match delegations (user, perm) with
  | some delegation =>
    if delegation.delegate = user ∨ delegation.delegator = user then remove delegations (user, perm) else delegations
  | none => delegations

def revokeRole (host : Host) (s : State) (caller user : Address) (role : Role) : Result State := do
  host.requireAuth caller
  ensure (isPaused s = false) "System is paused"
  ensure (containsPermission (getUserPermissions s caller) .revokeRole = true)
    "Unauthorized: missing RevokeRole permission"
  let adminMembers := (s.roleMembers .admin).getD []
  let _ ← (if role = .admin then
      ensure (1 < adminMembers.length ∨ vecContainsAddress adminMembers user = false) "Cannot revoke last admin"
    else .ok ())
  let members := (s.roleMembers role).getD []
  let s := { s with roleMembers := put s.roleMembers role (members.filter (· ≠ user)) }
  let userRoles := (s.userRoles user).getD []
  let s := { s with userRoles := put s.userRoles user (userRoles.filter (· ≠ role)) }
  let s := { s with delegation := delegationPerms.foldl (clearDelegation user) s.delegation }
  let s ← saveRoleChange host s user role .revoked caller
  return s.publish (.roleRevoked caller user role)

/-- A query that also deletes the delegation it finds when that gives nothing. -/
def hasPermission (host : Host) (s : State) (user : Address) (permission : Permission) : Bool × State :=
  if isPaused s then (false, s)
  else if containsPermission (getUserPermissions s user) permission then (true, s)
  else match s.delegation (user, permission) with
    | some delegation =>
      if host.timestamp ≤ delegation.expiresAt then
        if containsPermission (getUserPermissions s delegation.delegator) permission then (true, s)
        else (false, { s with delegation := remove s.delegation (user, permission) })
      else (false, { s with delegation := remove s.delegation (user, permission) })
    | none => (false, s)

def delegatePermission (host : Host) (s : State) (delegator delegate : Address) (permission : Permission)
    (durationSecs : Nat) : Result State := do
  host.requireAuth delegator
  ensure (isPaused s = false) "System is paused"
  let delegatorPerms := getUserPermissions s delegator
  ensure (containsPermission delegatorPerms permission = true) "Delegator does not have this permission"
  ensure (containsPermission delegatorPerms .delegatePermission = true) "Unauthorized: missing DelegatePermission"
  let expiresAt := min (host.timestamp + durationSecs) u64Max
  let delegation : Delegation := { delegator, permission, delegate, expiresAt }
  let s := { s with delegation := put s.delegation (delegate, permission) delegation }
  return s.publish (.permissionDelegated delegator delegate permission expiresAt)

def revokeDelegation (host : Host) (s : State) (delegator delegate : Address) (permission : Permission) :
    Result State := do
  host.requireAuth delegator
  let delegations := match s.delegation (delegate, permission) with
    | some delegation =>
      if delegation.delegator = delegator then remove s.delegation (delegate, permission) else s.delegation
    | none => s.delegation
  return { s with delegation := delegations }.publish (.delegationRevoked delegator delegate permission)

def setEmergencyAdmin (host : Host) (s : State) (caller newEmergencyAdmin : Address) : Result State := do
  host.requireAuth caller
  ensure (containsPermission (getUserPermissions s caller) .setEmergencyAdmin = true)
    "Unauthorized: missing SetEmergencyAdmin permission"
  return { s with emergencyAdmin := some newEmergencyAdmin }.publish (.emergencyAdminSet caller newEmergencyAdmin)

def pauseEmergency (host : Host) (s : State) (caller : Address) : Result State := do
  host.requireAuth caller
  let emergencyAdmin ← expect s.emergencyAdmin "EmergencyAdmin not set"
  ensure (caller = emergencyAdmin) "Only emergency admin can pause"
  return { s with emergencyPaused := some true }.publish (.emergencyPaused caller)

def unpauseEmergency (host : Host) (s : State) (caller : Address) : Result State := do
  host.requireAuth caller
  ensure (containsPermission (getUserPermissions s caller) .pauseEmergency = true)
    "Unauthorized: missing PauseEmergency permission"
  return { s with emergencyPaused := some false }.publish (.emergencyUnpaused caller)

def proposeMultisigAction (host : Host) (s : State) (proposer : Address) (action : MultisigAction) :
    Result (Nat × State) := do
  host.requireAuth proposer
  ensure (isPaused s = false) "System is paused"
  ensure (containsPermission (getUserPermissions s proposer) .grantRole = true)
    "Unauthorized: only admins can propose"
  let seq ← u64 (s.multisigProposalCount.getD 0 + 1)
  let now := host.timestamp
  let timelock := s.multisigTimelock.getD defaultMultisigTimelock
  let proposal : MultisigProposal :=
    { id := seq, action, proposer, createdAt := now, executeAfter := min (now + timelock) u64Max
      approvals := [proposer], executed := false }
  let s := { s with
    multisigProposalCount := some seq
    multisigProposal := put s.multisigProposal seq proposal }
  return (seq, s.publish (.multisigProposalCreated seq proposer))

def approveMultisigAction (host : Host) (s : State) (approver : Address) (proposalId : Nat) : Result State := do
  host.requireAuth approver
  let proposal ← expect (s.multisigProposal proposalId) "Proposal not found"
  ensure (proposal.executed = false) "Proposal already executed"
  ensure (vecContainsAddress proposal.approvals approver = false) "Already approved"
  ensure (containsPermission (getUserPermissions s approver) .grantRole = true)
    "Unauthorized: only admins can approve"
  let proposal := { proposal with approvals := proposal.approvals ++ [approver] }
  let s := { s with multisigProposal := put s.multisigProposal proposalId proposal }
  return s.publish (.multisigProposalApproved proposalId proposal.approvals.length)

def perform (s : State) : MultisigAction → State
  | .setEmergencyAdmin newAdmin => { s with emergencyAdmin := some newAdmin }
  | .setMultisigThreshold newThreshold => { s with multisigThreshold := some newThreshold }
  | .upgradeContract => s
  | .migrateContract => s
  | .emergencyUnpause => { s with emergencyPaused := some false }

def executeMultisigAction (host : Host) (s : State) (proposalId : Nat) : Result State := do
  let proposal ← expect (s.multisigProposal proposalId) "Proposal not found"
  ensure (proposal.executed = false) "Proposal already executed"
  let threshold := s.multisigThreshold.getD defaultMultisigThreshold
  ensure (threshold ≤ proposal.approvals.length) "Insufficient approvals"
  ensure (proposal.executeAfter ≤ host.timestamp) "Timelock not yet elapsed"
  let s := perform s proposal.action
  let s := { s with multisigProposal := put s.multisigProposal proposalId { proposal with executed := true } }
  return s.publish (.multisigActionExecuted proposalId)

inductive Call where
  | initializeAccessControl (admin emergencyAdmin : Address)
  | grantRole (caller user : Address) (role : Role)
  | revokeRole (caller user : Address) (role : Role)
  | hasPermission (user : Address) (permission : Permission)
  | delegatePermission (delegator delegate : Address) (permission : Permission) (durationSecs : Nat)
  | revokeDelegation (delegator delegate : Address) (permission : Permission)
  | setEmergencyAdmin (caller newEmergencyAdmin : Address)
  | pauseEmergency (caller : Address)
  | unpauseEmergency (caller : Address)
  | proposeMultisigAction (proposer : Address) (action : MultisigAction)
  | approveMultisigAction (approver : Address) (proposalId : Nat)
  | executeMultisigAction (proposalId : Nat)
  deriving DecidableEq

structure Tx where
  host : Host
  call : Call

inductive Answer where
  | done
  | permitted (answer : Bool)
  | proposed (id : Nat)
  deriving DecidableEq

def respond (tx : Tx) (s : State) : Result (Answer × State) :=
  match tx.call with
  | .initializeAccessControl admin emergencyAdmin => do
    let s ← initializeAccessControl tx.host s admin emergencyAdmin
    return (.done, s)
  | .grantRole caller user role => do
    let s ← grantRole tx.host s caller user role
    return (.done, s)
  | .revokeRole caller user role => do
    let s ← revokeRole tx.host s caller user role
    return (.done, s)
  | .hasPermission user permission =>
    let result := hasPermission tx.host s user permission
    .ok (.permitted result.1, result.2)
  | .delegatePermission delegator delegate permission durationSecs => do
    let s ← delegatePermission tx.host s delegator delegate permission durationSecs
    return (.done, s)
  | .revokeDelegation delegator delegate permission => do
    let s ← revokeDelegation tx.host s delegator delegate permission
    return (.done, s)
  | .setEmergencyAdmin caller newEmergencyAdmin => do
    let s ← setEmergencyAdmin tx.host s caller newEmergencyAdmin
    return (.done, s)
  | .pauseEmergency caller => do
    let s ← pauseEmergency tx.host s caller
    return (.done, s)
  | .unpauseEmergency caller => do
    let s ← unpauseEmergency tx.host s caller
    return (.done, s)
  | .proposeMultisigAction proposer action => do
    let (id, s) ← proposeMultisigAction tx.host s proposer action
    return (.proposed id, s)
  | .approveMultisigAction approver proposalId => do
    let s ← approveMultisigAction tx.host s approver proposalId
    return (.done, s)
  | .executeMultisigAction proposalId => do
    let s ← executeMultisigAction tx.host s proposalId
    return (.done, s)

def exec (tx : Tx) (s : State) : Result State := do
  let (_, s) ← respond tx s
  return s

def contract : Contract Tx State Panic where
  time tx := tx.host.timestamp
  exec := exec

abbrev World := Ledger Tx State

def Deployed (s : State) : Prop := s = .empty

abbrev Reachable (guard : World → Tx → Prop) (w : World) : Prop :=
  Ledger.Reachable contract Deployed guard w

abbrev submit (w : World) (tx : Tx) : World := Ledger.submit contract w tx

def signedBy (now : Nat) (signers : List Address) : Host where
  timestamp := now
  authorized := fun address => signers.contains address

def trial (calls : List (Nat × List Address × Call)) : World :=
  Ledger.run contract (Ledger.genesis .empty) (calls.map fun (now, signers, call) => ⟨signedBy now signers, call⟩)

theorem trial_inOrder {calls : List (Nat × List Address × Call)}
    (sorted : (0 :: calls.map (·.1)).IsChain (· ≤ ·)) : Reachable (Ledger.inOrder contract) (trial calls) := by
  refine ⟨.empty, rfl, Ledger.Steps.run_inOrder ?_⟩
  rwa [List.map_map]

end SubTrackr.AccessControl
