import SubTrackr.Lib.Histories
import SubTrackr.Soroban

namespace SubTrackr.AdminMultisig

open Lib Soroban

inductive AdminAction where
  | addOwner (owner : Address)
  | removeOwner (owner : Address)
  | setThreshold (threshold : Nat)
  | setTimelockDelaySeconds (delay : Nat)

structure AdminProposal where
  id : Nat
  action : AdminAction
  (createdAt executeAfter : Nat)
  approvals : List Address

inductive Event where
  | adminInitialized (admin : Address)
  | multisigInitialized (threshold timelockDelaySeconds : Nat)
  | contractUpgradeRequested (newWasmHash : BytesN 32)
  | contractUpgraded (signers : Nat)
  | contractMigrated (newVersion : Nat)
  | adminProposalCreated (id : Nat)
  | adminProposalApproved (id approvals : Nat)
  | adminProposalExecuted (id : Nat)

structure State where
  adminOwners : Option (List Address)
  (adminThreshold adminTimelockDelaySeconds adminProposalSeq : Option Nat)
  adminProposal : Option AdminProposal
  contractVersion : Option Nat
  /-- The hash given to the last upgrade; the storage stays as it is. -/
  wasm : Option (BytesN 32)
  events : List Event

def State.empty : State where
  adminOwners := none
  adminThreshold := none
  adminTimelockDelaySeconds := none
  adminProposalSeq := none
  adminProposal := none
  contractVersion := none
  wasm := none
  events := []

def publish (s : State) (event : Event) : State := { s with events := s.events ++ [event] }

def init (host : Host) (admin : Address) (s : State) : Result State := do
  ensure (s.adminOwners = none) "already initialized"
  host.requireAuth admin
  return publish { s with
    adminOwners := some [admin]
    adminThreshold := some 1
    adminTimelockDelaySeconds := some 0
    adminProposalSeq := some 0
    contractVersion := some 1 } (.adminInitialized admin)

def initMultisig (host : Host) (initializer : Address) (owners : List Address) (threshold timelockDelaySeconds : Nat)
    (s : State) : Result State := do
  ensure (s.adminOwners = none) "already initialized"
  host.requireAuth initializer
  ensure (owners.length ≠ 0) "owners cannot be empty"
  ensure (¬ (threshold = 0 ∨ owners.length < threshold)) "invalid threshold"
  return publish { s with
    adminOwners := some owners
    adminThreshold := some threshold
    adminTimelockDelaySeconds := some timelockDelaySeconds
    adminProposalSeq := some 0
    contractVersion := some 1 } (.multisigInitialized threshold timelockDelaySeconds)

def loadOwners (s : State) : Result (List Address) := expect s.adminOwners "contract not initialized"

def loadThreshold (s : State) : Result Nat := expect s.adminThreshold "contract not initialized"

def assertIsOwner (s : State) (address : Address) : Result Unit := do
  let owners ← loadOwners s
  ensure (address ∈ owners) "not an owner"

def uniqueSigners (host : Host) (owners signers : List Address) : Result (List Address) :=
  signers.foldlM (fun unique signer => do
    ensure (signer ∈ owners) "signer not owner"
    let unique := if signer ∈ unique then unique else unique ++ [signer]
    host.requireAuth signer
    return unique) []

def requireThresholdSigners (host : Host) (signers : List Address) (s : State) : Result Unit := do
  let owners ← loadOwners s
  let threshold ← loadThreshold s
  ensure (¬ signers.length < threshold) "insufficient signers"
  let unique ← uniqueSigners host owners signers
  ensure (¬ unique.length < threshold) "duplicate signers"

def upgrade (host : Host) (signers : List Address) (newWasmHash : BytesN 32) (s : State) : Result State := do
  requireThresholdSigners host signers s
  let s := publish s (.contractUpgradeRequested newWasmHash)
  return publish { s with wasm := some newWasmHash } (.contractUpgraded signers.length)

def migrate (host : Host) (signers : List Address) (newVersion : Nat) (s : State) : Result State := do
  requireThresholdSigners host signers s
  return publish { s with contractVersion := some newVersion } (.contractMigrated newVersion)

def proposeAdminAction (host : Host) (proposer : Address) (action : AdminAction) (s : State) : Result (State × Nat) := do
  host.requireAuth proposer
  assertIsOwner s proposer
  ensure (s.adminProposal = none) "proposal already active"
  let seq ← u64 (s.adminProposalSeq.getD 0 + 1)
  let delay := s.adminTimelockDelaySeconds.getD 0
  let proposal : AdminProposal := {
    id := seq
    action
    createdAt := host.timestamp
    executeAfter := min (host.timestamp + delay) u64Max
    approvals := [proposer] }
  let s := { s with adminProposalSeq := some seq, adminProposal := some proposal }
  return (publish s (.adminProposalCreated seq), seq)

def approveAdminProposal (host : Host) (approver : Address) (proposalId : Nat) (s : State) : Result State := do
  host.requireAuth approver
  assertIsOwner s approver
  let proposal ← expect s.adminProposal "no active proposal"
  ensure (proposal.id = proposalId) "proposal id mismatch"
  if approver ∈ proposal.approvals then return s
  let proposal := { proposal with approvals := proposal.approvals ++ [approver] }
  return publish { s with adminProposal := some proposal } (.adminProposalApproved proposalId proposal.approvals.length)

def performAction (action : AdminAction) (s : State) : Result State := do
  match action with
  | .addOwner newOwner =>
    let owners ← loadOwners s
    return if newOwner ∈ owners then s else { s with adminOwners := some (owners ++ [newOwner]) }
  | .removeOwner owner =>
    let owners ← loadOwners s
    let next := owners.filter (· ≠ owner)
    ensure (next.length ≠ 0) "cannot remove last owner"
    let currentThreshold ← loadThreshold s
    let s := if next.length < currentThreshold then { s with adminThreshold := some next.length } else s
    return { s with adminOwners := some next }
  | .setThreshold newThreshold =>
    let owners ← loadOwners s
    ensure (¬ (newThreshold = 0 ∨ owners.length < newThreshold)) "invalid threshold"
    return { s with adminThreshold := some newThreshold }
  | .setTimelockDelaySeconds delay => return { s with adminTimelockDelaySeconds := some delay }

def executeAdminProposal (host : Host) (proposalId : Nat) (s : State) : Result State := do
  let proposal ← expect s.adminProposal "no active proposal"
  ensure (proposal.id = proposalId) "proposal id mismatch"
  let threshold ← loadThreshold s
  ensure (¬ proposal.approvals.length < threshold) "insufficient approvals"
  ensure (¬ host.timestamp < proposal.executeAfter) "timelock not elapsed"
  let s ← performAction proposal.action s
  return publish { s with adminProposal := none } (.adminProposalExecuted proposalId)

inductive Call where
  | init (admin : Address)
  | initMultisig (initializer : Address) (owners : List Address) (threshold timelockDelaySeconds : Nat)
  | upgrade (signers : List Address) (newWasmHash : BytesN 32)
  | migrate (signers : List Address) (newVersion : Nat)
  | proposeAdminAction (proposer : Address) (action : AdminAction)
  | approveAdminProposal (approver : Address) (proposalId : Nat)
  | executeAdminProposal (proposalId : Nat)

def exec (host : Host) (s : State) : Call → Result State
  | .init admin => init host admin s
  | .initMultisig initializer owners threshold timelockDelaySeconds =>
    initMultisig host initializer owners threshold timelockDelaySeconds s
  | .upgrade signers newWasmHash => upgrade host signers newWasmHash s
  | .migrate signers newVersion => migrate host signers newVersion s
  | .proposeAdminAction proposer action => do
    let (s, _) ← proposeAdminAction host proposer action s
    return s
  | .approveAdminProposal approver proposalId => approveAdminProposal host approver proposalId s
  | .executeAdminProposal proposalId => executeAdminProposal host proposalId s

end SubTrackr.AdminMultisig
