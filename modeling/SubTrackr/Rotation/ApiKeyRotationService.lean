import SubTrackr.Lib.Record
import SubTrackr.Lib.Store
import Mathlib.Algebra.Order.Ring.Int

namespace SubTrackr.Rotation

open Lib

def DEFAULT_GRACE_PERIOD_MS : ℤ := 24 * 60 * 60 * 1000

def DEFAULT_KEY_TTL_MS : ℤ := 365 * 24 * 60 * 60 * 1000

inductive ApiKeyEnvironment where
  | test
  | production
  deriving DecidableEq

inductive ApiKeyStatus where
  | active
  | grace
  | expired
  | revoked
  deriving DecidableEq

structure ManagedApiKey where
  (id key name developerId : String)
  environment : ApiKeyEnvironment
  permissions : List String
  status : ApiKeyStatus
  (createdAt expiresAt : ℤ)
  gracePeriodEndsAt : Option ℤ
  (replacedByKeyId replacesKeyId : Option String)
  (revokedAt lastUsedAt : Option ℤ)
  usageCount : ℕ

structure RotationOptions where
  gracePeriodMs : Option ℤ := none
  newKeyTtlMs : Option ℤ := none
  reason : Option String := none

structure RotationRecord where
  (id developerId oldKeyId newKeyId : String)
  (rotatedAt gracePeriodEndsAt : ℤ)
  reason : Option String

structure RotationResult where
  (newKey oldKey : ManagedApiKey)
  (gracePeriodEndsAt gracePeriodRemainingMs : ℤ)

structure ApiKeyRotated where
  (keyId merchantId : String)
  (rotatedAt expiresAt : ℤ)
  (aggregateId correlationId : String)

structure ApiKeyValidationResult where
  valid : Bool
  key : Option ManagedApiKey
  isGrace : Bool
  graceRemainingMs : ℤ
  reason : Option String

structure Generated where
  (id secret : String)
  rotationId : String

def RotationOptions.gracePeriod (options : RotationOptions) : ℤ := options.gracePeriodMs.getD DEFAULT_GRACE_PERIOD_MS

def RotationOptions.newKeyTtl (options : RotationOptions) : ℤ := options.newKeyTtlMs.getD DEFAULT_KEY_TTL_MS

def ManagedApiKey.replacement (oldKey : ManagedApiKey) (now newKeyTtlMs : ℤ) (generated : Generated) : ManagedApiKey where
  id := generated.id
  key := generated.secret
  name := oldKey.name
  developerId := oldKey.developerId
  environment := oldKey.environment
  permissions := oldKey.permissions
  status := .active
  createdAt := now
  expiresAt := now + newKeyTtlMs
  gracePeriodEndsAt := none
  replacedByKeyId := none
  replacesKeyId := some oldKey.id
  revokedAt := none
  lastUsedAt := none
  usageCount := 0

def ManagedApiKey.enterGrace (oldKey : ManagedApiKey) (gracePeriodEndsAt : ℤ) (newId : String) : ManagedApiKey :=
  { oldKey with status := .grace, gracePeriodEndsAt := some gracePeriodEndsAt, replacedByKeyId := some newId }

def rotationRecord (now : ℤ) (options : RotationOptions) (generated : Generated) (oldKey : ManagedApiKey) : RotationRecord where
  id := generated.rotationId
  developerId := oldKey.developerId
  oldKeyId := oldKey.id
  newKeyId := generated.id
  rotatedAt := now
  gracePeriodEndsAt := now + options.gracePeriod
  reason := options.reason

structure ApiKeyRotationService where
  keys : Record String fun _ => ManagedApiKey
  keyIndex : Store String String
  rotationHistory : List RotationRecord
  (totalValidations gracePeriodHits : ℕ)
  /-- `validateKey` asserts that the index names no key that is missing. -/
  indexed (secret id : String) : keyIndex secret = some id → id ∈ keys.keys

namespace ApiKeyRotationService

variable (s : ApiKeyRotationService)

def new : ApiKeyRotationService where
  keys := ∅
  keyIndex _ := none
  rotationHistory := []
  totalValidations := 0
  gracePeriodHits := 0
  indexed _ _ found := by cases found

def write (id : String) (key : ManagedApiKey) : ApiKeyRotationService where
  keys := s.keys.put id key
  keyIndex := s.keyIndex
  rotationHistory := s.rotationHistory
  totalValidations := s.totalValidations
  gracePeriodHits := s.gracePeriodHits
  indexed secret found := fun h => Finset.mem_insert_of_mem (s.indexed secret found h)

def register (key : ManagedApiKey) : ApiKeyRotationService where
  keys := s.keys.put key.id key
  keyIndex := put s.keyIndex key.key key.id
  rotationHistory := s.rotationHistory
  totalValidations := s.totalValidations
  gracePeriodHits := s.gracePeriodHits
  indexed secret id found := by
    rw [put_eq_some] at found
    rcases found with ⟨-, rfl⟩ | ⟨-, old⟩
    · exact Finset.mem_insert_self ..
    · exact Finset.mem_insert_of_mem (s.indexed secret id old)

def each (f : ManagedApiKey → ManagedApiKey) : ApiKeyRotationService where
  keys := s.keys.map fun _ => f
  keyIndex := s.keyIndex
  rotationHistory := s.rotationHistory
  totalValidations := s.totalValidations
  gracePeriodHits := s.gracePeriodHits
  indexed secret id found := by
    obtain ⟨key, stored⟩ := Record.present (s.indexed secret id found)
    apply Record.mem_keys (v := f key)
    rw [Record.get_map, stored, Option.map_some]

def createKey (now : ℤ) (developerId name : String) (environment : ApiKeyEnvironment) (permissions : List String)
    (ttlMs : Option ℤ) (generated : Generated) : ApiKeyRotationService × ManagedApiKey :=
  let key : ManagedApiKey :=
    { id := generated.id
      key := generated.secret
      name := name
      developerId := developerId
      environment := environment
      permissions := permissions
      status := .active
      createdAt := now
      expiresAt := now + ttlMs.getD DEFAULT_KEY_TTL_MS
      gracePeriodEndsAt := none
      replacedByKeyId := none
      replacesKeyId := none
      revokedAt := none
      lastUsedAt := none
      usageCount := 0 }
  (s.register key, key)

def rotateKey (now : ℤ) (keyId : String) (options : RotationOptions) (generated : Generated) :
    Except String (ApiKeyRotationService × RotationResult × ApiKeyRotated) :=
  match s.keys.get keyId with
  | none => .error s!"API key not found: {keyId}"
  | some oldKey =>
    match oldKey.status with
    | .revoked => .error s!"Cannot rotate a revoked key: {keyId}"
    | .expired => .error s!"Cannot rotate an expired key: {keyId}"
    | _ =>
      let gracePeriodEndsAt := now + options.gracePeriod
      let newKey := oldKey.replacement now options.newKeyTtl generated
      let oldKey := oldKey.enterGrace gracePeriodEndsAt generated.id
      let record := rotationRecord now options generated oldKey
      let rotated := (s.write keyId oldKey).register newKey
      .ok ({ rotated with rotationHistory := s.rotationHistory ++ [record] },
        { newKey := newKey
          oldKey := oldKey
          gracePeriodEndsAt := gracePeriodEndsAt
          gracePeriodRemainingMs := options.gracePeriod },
        { keyId := generated.id
          merchantId := oldKey.developerId
          rotatedAt := now
          expiresAt := gracePeriodEndsAt
          aggregateId := oldKey.developerId
          correlationId := record.id })

end ApiKeyRotationService

namespace ManagedApiKey

variable (key : ManagedApiKey) (now : ℤ)

def windowClosed : Bool := key.gracePeriodEndsAt.any fun ends => ends ≠ 0 ∧ ends < now

def expire : ManagedApiKey := { key with status := .expired }

def revoke : ManagedApiKey := { key with status := .revoked, revokedAt := some now }

def recordUsage : ManagedApiKey := { key with lastUsedAt := some now, usageCount := key.usageCount + 1 }

def refused (reason : String) : ManagedApiKey × ApiKeyValidationResult := (key, ⟨false, some key, false, 0, some reason⟩)

def validate : ManagedApiKey × ApiKeyValidationResult :=
  let key := if key.status = .grace ∧ key.windowClosed now then key.expire else key
  match key.status with
  | .revoked => key.refused "revoked"
  | .expired => key.refused "expired"
  | .active =>
    if now > key.expiresAt then key.expire.refused "expired"
    else
      let key := key.recordUsage now
      (key, ⟨true, some key, false, 0, none⟩)
  | .grace =>
    let key := key.recordUsage now
    (key, ⟨true, some key, true, max 0 (key.gracePeriodEndsAt.getD now - now), none⟩)

def outdated : Bool :=
  key.status = .grace ∧ key.windowClosed now ∨ key.status = .active ∧ now > key.expiresAt

end ManagedApiKey

namespace ApiKeyRotationService

variable (s : ApiKeyRotationService) (now : ℤ)

def validateKey (secret : String) : ApiKeyRotationService × ApiKeyValidationResult :=
  let s := { s with totalValidations := s.totalValidations + 1 }
  match s.keyIndex secret with
  | none => (s, ⟨false, none, false, 0, some "key_not_found"⟩)
  | some id =>
    match s.keys.get id with
    -- excluded by `indexed`
    | none => (s, ⟨false, none, false, 0, none⟩)
    | some key =>
      let (key, result) := key.validate now
      let s := s.write id key
      ({ s with gracePeriodHits := s.gracePeriodHits + if result.isGrace then 1 else 0 }, result)

def revokeKey (keyId : String) : ApiKeyRotationService × Bool :=
  match s.keys.get keyId with
  | none => (s, false)
  | some key => if key.status = .revoked then (s, false) else (s.write keyId (key.revoke now), true)

def revokeAllKeys (developerId : String) : ApiKeyRotationService × ℕ :=
  let covered (key : ManagedApiKey) : Bool := key.developerId = developerId ∧ key.status ≠ .revoked
  (s.each fun key => if covered key then key.revoke now else key, (s.keys.select fun _ => covered).keys.card)

def cleanupExpiredKeys : ApiKeyRotationService × ℕ :=
  (s.each fun key => if key.outdated now then key.expire else key,
    (s.keys.select fun _ key => key.outdated now).keys.card)

end ApiKeyRotationService

end SubTrackr.Rotation
