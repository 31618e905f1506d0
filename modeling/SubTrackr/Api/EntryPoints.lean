import SubTrackr.Soroban
import SubTrackr.Lib.Store
import SubTrackr.Lib.Ledger

namespace SubTrackr.Api

open Lib Soroban

structure RateLimitConfig where
  (requestsPerMinute requestsPerHour requestsPerDay burstLimit : UInt32)
deriving DecidableEq

inductive ApiKeyStatus where
  | active | revoked
  deriving DecidableEq

structure ApiKeyConfig where
  name : String
  rateLimit : RateLimitConfig
  expiresAt : Nat

structure ApiKey where
  id : Nat
  owner : Address
  keyHash : BytesN 32
  name : String
  rateLimit : RateLimitConfig
  status : ApiKeyStatus
  (createdAt expiresAt lastUsedAt revokedAt : Nat)

structure ApiKeyAuditEntry where
  (id keyId : Nat)
  action : String
  changedBy : Address
  timestamp : Nat

structure ApiUsageRecord where
  (windowStart count : Nat)

structure RateLimitStatus where
  isAllowed : Bool
  (remaining resetAt retryAfter : Nat)

inductive Window where
  | minute | hour | day
  deriving DecidableEq

/-- `SECS_PER_MINUTE`, `SECS_PER_HOUR` and `SECS_PER_DAY`. -/
def Window.seconds : Window → Nat
  | .minute => 60
  | .hour => 3600
  | .day => 86400

def RateLimitConfig.limit (config : RateLimitConfig) : Window → Nat
  | .minute => config.requestsPerMinute.toNat
  | .hour => config.requestsPerHour.toNat
  | .day => config.requestsPerDay.toNat

/-- One field stands for one variant of `DataKey`, and `rateLimit` for the three that hold the counters. -/
structure State where
  apiKey : Store Nat ApiKey
  apiKeyCount : Option Nat
  ownerKeys : Store Address (List Nat)
  keysByOwner : Option (List Address)
  apiKeyAuditEntry : Store Nat ApiKeyAuditEntry
  apiKeyAuditCount : Option Nat
  rateLimit : Store (Window × Nat × Nat) ApiUsageRecord

def State.empty : State where
  apiKey := fun _ => none
  apiKeyCount := none
  ownerKeys := fun _ => none
  keysByOwner := none
  apiKeyAuditEntry := fun _ => none
  apiKeyAuditCount := none
  rateLimit := fun _ => none

/-- The host of a call: `drawn` is what its generator draws for a new key, `sha256` its hash. -/
structure Env extends Host where
  drawn : Bytes
  sha256 : Bytes → BytesN 32

def maxKeysPerOwner : Nat := 10

def windowStart (ts period : Nat) : Nat := ts - ts % period

def bumpWindow (s : State) (window : Window) (keyId now : Nat) : Result (Nat × Nat × State) := do
  let ws := windowStart now window.seconds
  let count ← (match s.rateLimit (window, keyId, ws) with
    | some r => if r.windowStart = ws then u32 (r.count + 1) else .ok 1
    | none => .ok 1)
  let reset ← u64 (ws + window.seconds)
  return (count, reset, { s with rateLimit := put s.rateLimit (window, keyId, ws) ⟨ws, count⟩ })

def checkWindows (s : State) (key : ApiKey) (now : Nat) : Result (RateLimitStatus × State) := do
  let cfg := key.rateLimit
  let (minCount, minReset, s) ← bumpWindow s .minute key.id now
  let (hourCount, hourReset, s) ← bumpWindow s .hour key.id now
  let (dayCount, dayReset, s) ← bumpWindow s .day key.id now
  let resetAt := min (min minReset hourReset) dayReset
  if cfg.requestsPerMinute.toNat < minCount ∨ cfg.requestsPerHour.toNat < hourCount ∨
      cfg.requestsPerDay.toNat < dayCount then
    return ({ isAllowed := false, remaining := 0, resetAt, retryAfter := resetAt - now }, s)
  else
    let remMin := cfg.requestsPerMinute.toNat - minCount
    let remHour := cfg.requestsPerHour.toNat - hourCount
    let remDay := cfg.requestsPerDay.toNat - dayCount
    return ({ isAllowed := true, remaining := min (min remMin remHour) remDay, resetAt, retryAfter := 0 }, s)

def generateKeyId (s : State) : Result (Nat × State) := do
  let count ← u64 (s.apiKeyCount.getD 0 + 1)
  return (count, { s with apiKeyCount := some count })

def generateRawKeyBytes (env : Env) : Bytes := [0x73, 0x6b, 0x5f] ++ env.drawn

def createApiKey (env : Env) (s : State) (owner : Address) (config : ApiKeyConfig) : Result (Nat × Bytes × State) := do
  env.requireAuth owner
  let (keyId, s) ← generateKeyId s
  let owners := s.keysByOwner.getD []
  let s := { s with keysByOwner := if owner ∈ owners then s.keysByOwner else some (owners ++ [owner]) }
  let keys := (s.ownerKeys owner).getD []
  ensure (keys.length < maxKeysPerOwner) "Max keys per owner reached"
  let s := { s with ownerKeys := put s.ownerKeys owner (keys ++ [keyId]) }
  let rawKey := generateRawKeyBytes env
  let key : ApiKey :=
    { id := keyId, owner, keyHash := env.sha256 rawKey, name := config.name, rateLimit := config.rateLimit
      status := .active, createdAt := env.timestamp, expiresAt := config.expiresAt, lastUsedAt := 0, revokedAt := 0 }
  return (keyId, rawKey, { s with apiKey := put s.apiKey keyId key })

def logAudit (s : State) (keyId : Nat) (action : String) (changedBy : Address) (now : Nat) : Result State := do
  let count ← u64 (s.apiKeyAuditCount.getD 0 + 1)
  let entry : ApiKeyAuditEntry := { id := count, keyId, action, changedBy, timestamp := now }
  return { s with apiKeyAuditEntry := put s.apiKeyAuditEntry count entry, apiKeyAuditCount := some count }

def revokeApiKey (env : Env) (s : State) (caller : Address) (keyId : Nat) : Result State := do
  env.requireAuth caller
  let key ← expect (s.apiKey keyId) "ApiKey not found"
  ensure (key.owner = caller) "Only owner can revoke"
  ensure (key.status = .active) "Key is not active"
  let key := { key with status := .revoked, revokedAt := env.timestamp }
  logAudit { s with apiKey := put s.apiKey keyId key } keyId "revoked" caller env.timestamp

def rotateApiKey (env : Env) (s : State) (caller : Address) (keyId : Nat) : Result (Bytes × State) := do
  env.requireAuth caller
  let key ← expect (s.apiKey keyId) "ApiKey not found"
  ensure (key.owner = caller) "Only owner can rotate"
  ensure (key.status = .active) "Cannot rotate revoked key"
  let rawKey := generateRawKeyBytes env
  let key := { key with keyHash := env.sha256 rawKey, lastUsedAt := 0 }
  let s ← logAudit { s with apiKey := put s.apiKey keyId key } keyId "rotated" caller env.timestamp
  return (rawKey, s)

def validKey (s : State) (keyId : Nat) (keyHash : BytesN 32) (now : Nat) : Bool :=
  match s.apiKey keyId with
  | none => false
  | some key =>
    if key.keyHash ≠ keyHash then false
    else if key.status = .revoked then false
    else if key.expiresAt ≠ 0 ∧ key.expiresAt < now then false
    else true

def validateApiKey (env : Env) (s : State) (keyId : Nat) (keyHash : BytesN 32) : Bool × State :=
  let valid := validKey s keyId keyHash env.timestamp
  if valid then
    match s.apiKey keyId with
    | some key => (valid, { s with apiKey := put s.apiKey keyId { key with lastUsedAt := env.timestamp } })
    | none => (valid, s)
  else (valid, s)

def checkRateLimit (env : Env) (s : State) (keyId : Nat) (keyHash : BytesN 32) : Result (RateLimitStatus × State) :=
  if validKey s keyId keyHash env.timestamp = false then
    .ok ({ isAllowed := false, remaining := 0, resetAt := 0, retryAfter := 0 }, s)
  else do
    let key ← expect (s.apiKey keyId) "Key exists after validation"
    checkWindows s key env.timestamp

inductive Call where
  | createApiKey (owner : Address) (config : ApiKeyConfig)
  | revokeApiKey (caller : Address) (keyId : Nat)
  | rotateApiKey (caller : Address) (keyId : Nat)
  | validateApiKey (keyId : Nat) (keyHash : BytesN 32)
  | checkRateLimit (keyId : Nat) (keyHash : BytesN 32)

structure Tx where
  env : Env
  call : Call

def exec (tx : Tx) (s : State) : Result State :=
  match tx.call with
  | .createApiKey owner config => do
    let (_, _, s) ← createApiKey tx.env s owner config
    return s
  | .revokeApiKey caller keyId => revokeApiKey tx.env s caller keyId
  | .rotateApiKey caller keyId => do
    let (_, s) ← rotateApiKey tx.env s caller keyId
    return s
  | .validateApiKey keyId keyHash => .ok (validateApiKey tx.env s keyId keyHash).2
  | .checkRateLimit keyId keyHash => do
    let (_, s) ← checkRateLimit tx.env s keyId keyHash
    return s

def contract : Contract Tx State Panic where
  time tx := tx.env.timestamp
  exec := exec

abbrev World := Ledger Tx State

def Deployed (s : State) : Prop := s = .empty

abbrev Reachable (guard : World → Tx → Prop) (w : World) : Prop :=
  Ledger.Reachable contract Deployed guard w

end SubTrackr.Api
