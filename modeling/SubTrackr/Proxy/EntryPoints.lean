import SubTrackr.Types
import SubTrackr.Lib.Store
import SubTrackr.Lib.Ledger

namespace SubTrackr.Storage

open Lib Soroban

/-- The instance keys of the storage contract that its guards and the proxy read. -/
inductive Key where
  | admin | proxyImplementation
  deriving DecidableEq

abbrev State := Store Key Address

def State.empty : State := fun _ => none

def storedAdmin (s : State) : Result Address := expect (s .admin) "Admin not set"

def authorizedImplementation (s : State) : Result Address :=
  expect (s .proxyImplementation) "Implementation not set"

def requireImplementationAuth (host : Host) (s : State) : Result Unit := do
  let implementation ← authorizedImplementation s
  host.requireAuth implementation

def initializeStorage (host : Host) (s : State) (admin implementation : Address) : Result State := do
  ensure (s .admin = none) "Already initialized"
  host.requireAuth admin
  return put (put s .admin admin) .proxyImplementation implementation

def setImplementation (host : Host) (s : State) (admin newImplementation : Address) : Result State := do
  let stored ← storedAdmin s
  ensure (admin = stored) "Admin mismatch"
  host.requireAuth stored
  return put s .proxyImplementation newImplementation

def getAdmin (s : State) : Result Address := storedAdmin s

def instanceSet (host : Host) (s : State) (key : Key) (value : Address) : Result State := do
  requireImplementationAuth host s
  return put s key value

def instanceRemove (host : Host) (s : State) (key : Key) : Result State := do
  requireImplementationAuth host s
  return remove s key

inductive Call where
  | initializeStorage (admin implementation : Address)
  | setImplementation (admin newImplementation : Address)
  | instanceSet (key : Key) (value : Address)
  | instanceRemove (key : Key)

def exec (host : Host) (s : State) : Call → Result State
  | .initializeStorage admin implementation => initializeStorage host s admin implementation
  | .setImplementation admin newImplementation => setImplementation host s admin newImplementation
  | .instanceSet key value => instanceSet host s key value
  | .instanceRemove key => instanceRemove host s key

end SubTrackr.Storage

namespace SubTrackr.Proxy

open Lib Soroban

structure ScheduledUpgrade where
  implementation : Address
  executeAfter : Nat
  deriving DecidableEq

inductive UpgradeAction where
  | scheduled | executed | rolledBack | cancelled
  deriving DecidableEq

structure UpgradeEvent where
  action : UpgradeAction
  (oldImplementation newImplementation : Address)
  (versionBefore versionAfter scheduledFor executedAt : Nat)

/-- The proxy's own storage: one field stands for one `StorageKey` variant. -/
structure Instance where
  (proxyStorage proxyImplementation : Option Address)
  (proxyVersion proxyUpgradeDelaySecs proxyRollbackDelaySecs : Option Nat)
  proxyScheduledUpgrade : Option (Temporary ScheduledUpgrade)
  -- `initialize` writes the first of these two counts, and the stack of previous implementations has the second
  (proxyPreviousImplementationCount proxyPrevImplCount : Option Nat)
  proxyPreviousImplementation : Store Nat Address
  proxyUpgradeHistoryCount : Option Nat
  proxyUpgradeHistoryEntry : Store Nat UpgradeEvent

structure State extends Instance where
  storage : Storage.State

def State.empty : State where
  proxyStorage := none
  proxyImplementation := none
  proxyVersion := none
  proxyUpgradeDelaySecs := none
  proxyRollbackDelaySecs := none
  proxyScheduledUpgrade := none
  proxyPreviousImplementationCount := none
  proxyPrevImplCount := none
  proxyPreviousImplementation := fun _ => none
  proxyUpgradeHistoryCount := none
  proxyUpgradeHistoryEntry := fun _ => none
  storage := .empty

/-- The host of a proxy call. Contracts other than the storage contract, the implementations among them, answer as
    they like and may write to the storage contract; none can call back into the proxy. -/
structure Env extends Host where
  proxy : Address
  ledgerSequence : Nat
  invokeContract : Storage.State → Address → String → List Val → Result (Val × Storage.State)

def implementation (p : Instance) : Result Address := expect p.proxyImplementation "Implementation not set"

def storageAddress (p : Instance) : Result Address := expect p.proxyStorage "Storage address not set"

def admin (s : State) : Result Address := do
  let _storage ← storageAddress s.toInstance
  Storage.getAdmin s.storage

def version (p : Instance) : Nat := p.proxyVersion.getD 0

def upgradeDelaySecs (p : Instance) : Nat := p.proxyUpgradeDelaySecs.getD 0

def rollbackDelaySecs (p : Instance) : Nat := p.proxyRollbackDelaySecs.getD 0

def scheduledUpgrade (env : Env) (p : Instance) : Option ScheduledUpgrade :=
  Temporary.get env.ledgerSequence p.proxyScheduledUpgrade

def upgradeTtlLedgers : Nat := 120960

def setScheduledUpgrade (env : Env) (p : Instance) (upgrade : ScheduledUpgrade) : Instance :=
  { p with proxyScheduledUpgrade := some ⟨upgrade, env.ledgerSequence + upgradeTtlLedgers⟩ }

def clearScheduledUpgrade (p : Instance) : Instance := { p with proxyScheduledUpgrade := none }

def previousCount (p : Instance) : Nat := p.proxyPrevImplCount.getD 0

def previousTop (p : Instance) : Option Address :=
  if previousCount p = 0 then none else p.proxyPreviousImplementation (previousCount p - 1)

def pushPrevious (p : Instance) (implementation : Address) : Result Instance := do
  let count := previousCount p
  let next ← u32 (count + 1)
  return { p with
    proxyPreviousImplementation := put p.proxyPreviousImplementation count implementation
    proxyPrevImplCount := some next }

def swapPreviousTop (p : Instance) (newTop : Address) : Result Instance := do
  let count := previousCount p
  ensure (0 < count) "No previous implementation"
  let _oldTop ← expect (p.proxyPreviousImplementation (count - 1)) "Previous implementation missing"
  return { p with proxyPreviousImplementation := put p.proxyPreviousImplementation (count - 1) newTop }

def historyCount (p : Instance) : Nat := p.proxyUpgradeHistoryCount.getD 0

def historyAppend (p : Instance) (event : UpgradeEvent) : Result Instance := do
  let index := historyCount p
  let next ← u32 (index + 1)
  return { p with
    proxyUpgradeHistoryEntry := put p.proxyUpgradeHistoryEntry index event
    proxyUpgradeHistoryCount := some next }

theorem pushPrevious_ok {p p' : Instance} {implementation : Address} (run : pushPrevious p implementation = .ok p') :
    previousTop p' = some implementation ∧ p' = { p with
      proxyPreviousImplementation := p'.proxyPreviousImplementation
      proxyPrevImplCount := p'.proxyPrevImplCount } := by
  simp only [pushPrevious, bind_eq_ok, pure_eq_ok, u32_eq_ok] at run
  rcases run with ⟨next, ⟨_, rfl⟩, rfl⟩
  exact ⟨by simp [previousTop, previousCount], rfl⟩

theorem swapPreviousTop_ok {p p' : Instance} {newTop : Address} (run : swapPreviousTop p newTop = .ok p') :
    previousTop p' = some newTop ∧ p' = { p with
      proxyPreviousImplementation := p'.proxyPreviousImplementation } := by
  simp only [swapPreviousTop, bind_eq_ok, pure_eq_ok, ensure_eq_ok] at run
  rcases run with ⟨_, nonempty, _, _, rfl⟩
  have stacked : ¬ previousCount p = 0 := by omega
  exact ⟨(if_neg stacked).trans (put_self ..), rfl⟩

end SubTrackr.Proxy

namespace SubTrackr.Proxy

open Lib Soroban

def appendHistory (s : State) (event : UpgradeEvent) : Result State := do
  let own ← historyAppend s.toInstance event
  return { s with toInstance := own }

def invoke (env : Env) (s : State) (contract : Address) (function : String) (args : List Val) :
    Result (Val × State) := do
  let (answer, storage) ← env.invokeContract s.storage contract function args
  return (answer, { s with storage })

def targetVersion (env : Env) (s : State) (contract storage : Address) : Result (Nat × State) := do
  let (answer, s) ← invoke env s contract "get_version" [.address env.proxy, .address storage]
  match answer with
  | .u32 version => return (version, s)
  | _ => .error (.host "get_version: the answer is not a u32")

def invokeUnit (env : Env) (s : State) (contract : Address) (function : String) (args : List Val) : Result State := do
  let (answer, s) ← invoke env s contract function args
  match answer with
  | .void => return s
  | _ => .error (.host "the answer is not ()")

def invokeImpl (env : Env) (s : State) (function : String) (args : List Val) : Result (Val × State) := do
  let contract ← implementation s.toInstance
  invoke env s contract function args

def delegated (env : Env) (s : State) (function : String) (args : List Val) : Result (Val × State) := do
  let storage ← storageAddress s.toInstance
  invokeImpl env s function ([.address env.proxy, .address storage] ++ args)

def initializeProxy (env : Env) (s : State) (admin storage implementation : Address)
    (upgradeDelaySecs rollbackDelaySecs : Nat) : Result State := do
  ensure (s.proxyStorage = none) "Already initialized"
  env.requireAuth admin
  let s := { s with
    proxyStorage := some storage
    proxyImplementation := some implementation
    proxyUpgradeDelaySecs := some upgradeDelaySecs
    proxyRollbackDelaySecs := some rollbackDelaySecs
    proxyPreviousImplementationCount := some 0
    proxyUpgradeHistoryCount := some 0 }
  let contract ← Storage.initializeStorage env.toHost s.storage admin implementation
  let (version, s) ← targetVersion env { s with storage := contract } implementation storage
  return { s with proxyVersion := some version }

def scheduleUpgrade (env : Env) (s : State) (newImplementation : Address) (executeAfter : Nat) : Result State := do
  let administrator ← admin s
  env.requireAuth administrator
  ensure (scheduledUpgrade env s.toInstance = none) "Upgrade already scheduled"
  let minExecute ← u64 (env.timestamp + upgradeDelaySecs s.toInstance)
  ensure (minExecute ≤ executeAfter) "Upgrade delay not satisfied"
  let currentImpl ← implementation s.toInstance
  ensure (newImplementation ≠ currentImpl) "Implementation unchanged"
  let storage ← storageAddress s.toInstance
  let (_, s) ← targetVersion env s newImplementation storage
  let own := setScheduledUpgrade env s.toInstance ⟨newImplementation, executeAfter⟩
  appendHistory { s with toInstance := own }
    { action := .scheduled
      oldImplementation := currentImpl
      newImplementation
      versionBefore := version own
      versionAfter := version own
      scheduledFor := executeAfter
      executedAt := 0 }

def authorizeUpgrade (env : Env) (s : State) (caller newImplementation : Address) : Result State := do
  let administrator ← admin s
  ensure (caller = administrator) "Admin mismatch"
  env.requireAuth administrator
  let executeAfter ← u64 (env.timestamp + upgradeDelaySecs s.toInstance)
  scheduleUpgrade env s newImplementation executeAfter

def cancelScheduledUpgrade (env : Env) (s : State) : Result State := do
  let administrator ← admin s
  env.requireAuth administrator
  let scheduled ← expect (scheduledUpgrade env s.toInstance) "No upgrade scheduled"
  let own := clearScheduledUpgrade s.toInstance
  let currentImpl ← implementation own
  appendHistory { s with toInstance := own }
    { action := .cancelled
      oldImplementation := currentImpl
      newImplementation := scheduled.implementation
      versionBefore := version own
      versionAfter := version own
      scheduledFor := scheduled.executeAfter
      executedAt := env.timestamp }

/-- Going back to the top of the stack swaps it with the implementation left; anything else is pushed onto. -/
def restack (p : Instance) (oldImpl newImplementation : Address) : Result Instance :=
  if previousTop p = some newImplementation then swapPreviousTop p oldImpl else pushPrevious p oldImpl

/-- The part of `upgrade_to` that a rollback leaves out, with the version after it. -/
def migrateStorage (env : Env) (s : State) (newImplementation storage : Address) (currentVersion : Nat) :
    Result (Nat × State) := do
  let (target, s) ← targetVersion env s newImplementation storage
  ensure (currentVersion ≤ target) "Target version behind current"
  let args : List Val := [.address env.proxy, .address storage, .u32 currentVersion]
  let s ← invokeUnit env s newImplementation "validate_upgrade" args
  if currentVersion < target then (do
    let s ← invokeUnit env s newImplementation "migrate" args
    return (target, { s with proxyVersion := some target }))
  else return (currentVersion, s)

def upgradeTo (env : Env) (s : State) (newImplementation : Address) : Result State := do
  let administrator ← admin s
  env.requireAuth administrator
  let scheduled ← expect (scheduledUpgrade env s.toInstance) "No upgrade scheduled"
  ensure (scheduled.implementation = newImplementation) "Scheduled implementation mismatch"
  ensure (scheduled.executeAfter ≤ env.timestamp) "Upgrade timelock not expired"
  let storage ← storageAddress s.toInstance
  let oldImpl ← implementation s.toInstance
  let currentVersion := version s.toInstance
  let contract ← Storage.setImplementation env.toHost s.storage administrator newImplementation
  let isRollback := previousTop s.toInstance = some newImplementation
  let own ← restack s.toInstance oldImpl newImplementation
  let s := { s with toInstance := { own with proxyImplementation := some newImplementation }, storage := contract }
  let (versionAfter, s) ← (if isRollback then .ok (currentVersion, s)
    else migrateStorage env s newImplementation storage currentVersion)
  appendHistory { s with toInstance := clearScheduledUpgrade s.toInstance }
    { action := if isRollback then .rolledBack else .executed
      oldImplementation := oldImpl
      newImplementation
      versionBefore := currentVersion
      versionAfter
      scheduledFor := scheduled.executeAfter
      executedAt := env.timestamp }

def rollback (env : Env) (s : State) : Result (Nat × State) := do
  let administrator ← admin s
  env.requireAuth administrator
  ensure (scheduledUpgrade env s.toInstance = none) "Upgrade already scheduled"
  let previous ← expect (previousTop s.toInstance) "No previous implementation"
  let executeAfter ← u64 (env.timestamp + rollbackDelaySecs s.toInstance)
  let own := setScheduledUpgrade env s.toInstance ⟨previous, executeAfter⟩
  let currentImpl ← implementation own
  let s ← appendHistory { s with toInstance := own }
    { action := .scheduled
      oldImplementation := currentImpl
      newImplementation := previous
      versionBefore := version own
      versionAfter := version own
      scheduledFor := executeAfter
      executedAt := 0 }
  return (executeAfter, s)

/-- The entry points of the proxy that write, and calls of the storage contract that do not go through it. -/
inductive Call where
  | initializeProxy (admin storage implementation : Address) (upgradeDelaySecs rollbackDelaySecs : Nat)
  | authorizeUpgrade (admin newImplementation : Address)
  | scheduleUpgrade (implementation : Address) (executeAfter : Nat)
  | cancelScheduledUpgrade
  | upgradeTo (implementation : Address)
  | rollback
  | delegated (function : String) (args : List Val)
  | storage (call : Storage.Call)

structure Tx where
  env : Env
  call : Call

def exec (tx : Tx) (s : State) : Result State :=
  match tx.call with
  | .initializeProxy admin storage implementation upgradeDelaySecs rollbackDelaySecs =>
    initializeProxy tx.env s admin storage implementation upgradeDelaySecs rollbackDelaySecs
  | .authorizeUpgrade admin newImplementation => authorizeUpgrade tx.env s admin newImplementation
  | .scheduleUpgrade implementation executeAfter => scheduleUpgrade tx.env s implementation executeAfter
  | .cancelScheduledUpgrade => cancelScheduledUpgrade tx.env s
  | .upgradeTo implementation => upgradeTo tx.env s implementation
  | .rollback => do
    let (_, s) ← rollback tx.env s
    return s
  | .delegated function args => do
    let (_, s) ← delegated tx.env s function args
    return s
  | .storage call => do
    let contract ← Storage.exec tx.env.toHost s.storage call
    return { s with storage := contract }

def contract : Contract Tx State Panic where
  time tx := tx.env.timestamp
  exec := exec

abbrev World := Ledger Tx State

def Initialised (s : State) : Prop :=
  ∃ (env : Env) (admin storage implementation : Address) (upgradeDelaySecs rollbackDelaySecs : Nat),
    initializeProxy env .empty admin storage implementation upgradeDelaySecs rollbackDelaySecs = .ok s

abbrev Reachable (guard : World → Tx → Prop) (w : World) : Prop :=
  Ledger.Reachable contract Initialised guard w

abbrev submit (w : World) (tx : Tx) : World := Ledger.submit contract w tx

def inSequence (w : World) (tx : Tx) : Prop :=
  Ledger.inOrder contract w tx ∧ ∀ r ∈ w.history, r.tx.env.ledgerSequence ≤ tx.env.ledgerSequence

def Env.willing (now : Nat) : Env where
  timestamp := now
  authorized := fun _ => true
  proxy := ⟨0⟩
  ledgerSequence := now / 5
  invokeContract := fun storage _ function _ => .ok (if function = "get_version" then .u32 1 else .void, storage)

def State.launched : State :=
  { State.empty with
    proxyStorage := some ⟨1⟩
    proxyImplementation := some ⟨10⟩
    proxyVersion := some 1
    proxyUpgradeDelaySecs := some 100
    proxyRollbackDelaySecs := some 50
    proxyPreviousImplementationCount := some 0
    proxyUpgradeHistoryCount := some 0
    storage := put (put Storage.State.empty .admin ⟨9⟩) .proxyImplementation ⟨10⟩ }

theorem launched_initialised : Initialised .launched := ⟨.willing 0, ⟨9⟩, ⟨1⟩, ⟨10⟩, 100, 50, rfl⟩

def attempt (w : World) (calls : List (Nat × Call)) : World :=
  Ledger.run contract w (calls.map fun (now, call) => ⟨.willing now, call⟩)

theorem attempt_inSequence {calls : List (Nat × Call)} {w : World} (reached : Reachable inSequence w)
    (past : ∀ r ∈ w.history, r.tx.env.ledgerSequence ≤ w.clock / 5)
    (sorted : (w.clock :: calls.map (·.1)).IsChain (· ≤ ·)) : Reachable inSequence (attempt w calls) := by
  induction calls generalizing w with
  | nil => exact reached
  | cons first calls ih =>
    rcases first with ⟨now, call⟩
    rcases List.isChain_cons_cons.mp sorted with ⟨later, rest⟩
    have kept (r : Receipt Tx State) (mem : r ∈ w.history) : r.tx.env.ledgerSequence ≤ now / 5 :=
      (past r mem).trans (Nat.div_le_div_right later)
    have met : inSequence w ⟨.willing now, call⟩ := ⟨later, kept⟩
    have clock : (submit w ⟨.willing now, call⟩).clock = now := Ledger.submit_clock ..
    refine ih (reached.submit met) ?_ ?_
    · intro r mem
      rw [clock]
      cases run : contract.exec ⟨.willing now, call⟩ w.state with
      | error e =>
        rw [Ledger.submit_error contract run] at mem
        exact kept r mem
      | ok s =>
        rw [Ledger.submit_ok contract run] at mem
        rcases List.mem_append.mp mem with earlier | last
        · exact kept r earlier
        · rw [List.mem_singleton.mp last]
          exact le_rfl
    · rw [clock]
      exact rest

def trial (calls : List (Nat × Call)) : World := attempt (Ledger.genesis .launched) calls

theorem trial_inSequence {calls : List (Nat × Call)} (sorted : (0 :: calls.map (·.1)).IsChain (· ≤ ·)) :
    Reachable inSequence (trial calls) :=
  attempt_inSequence ⟨.launched, launched_initialised, .refl⟩ (fun _ mem => absurd mem List.not_mem_nil) sorted

end SubTrackr.Proxy
