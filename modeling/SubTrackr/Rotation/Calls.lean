import SubTrackr.Rotation.ApiKeyRotationService
import SubTrackr.Lib.Histories

namespace SubTrackr.Rotation

open List Lib

namespace ManagedApiKey

variable {key key' other : ManagedApiKey} {now later : ℤ}

def statusAt (key : ManagedApiKey) (now : ℤ) : ApiKeyStatus :=
  match key.status with
  | .active => if now > key.expiresAt then .expired else .active
  | .grace => if key.windowClosed now then .expired else .grace
  | .expired => .expired
  | .revoked => .revoked

def issued (key : ManagedApiKey) : ManagedApiKey := { key with status := .active, lastUsedAt := none, usageCount := 0 }

/-- `key'` is `key` after it may have been noticed, at `now`, that it has run out. -/
structure Noticed (now : ℤ) (key key' : ManagedApiKey) : Prop where
  issued : key'.issued = key.issued
  status : key'.status = key.status ∨ key'.status = .expired ∧ key.statusAt now = .expired

/-- Nobody who validates the two keys from `now` on can tell them apart. -/
structure Alike (now : ℤ) (key other : ManagedApiKey) : Prop where
  issued : key.issued = other.issued
  status : key.statusAt now = other.statusAt now

theorem live_or_dead (key : ManagedApiKey) :
    (key.status = .active ∨ key.status = .grace) ∨ key.status = .revoked ∨ key.status = .expired := by
  cases key.status <;> simp

theorem windowClosed_eq_true : key.windowClosed now = true ↔ ∃ ends, key.gracePeriodEndsAt = some ends ∧ ends ≠ 0 ∧ ends < now := by
  unfold windowClosed
  rw [Option.any_eq_true]
  simp

theorem windowClosed_mono (early : now ≤ later) (closed : key.windowClosed now = true) : key.windowClosed later = true := by
  rw [windowClosed_eq_true] at closed ⊢
  obtain ⟨ends, window, real, past⟩ := closed
  exact ⟨ends, window, real, past.trans_le early⟩

section Issued

variable (same : key.issued = other.issued)

include same

theorem id_of_issued : key.id = other.id := by
  have := congrArg ManagedApiKey.id same
  exact this

theorem developerId_of_issued : key.developerId = other.developerId := by
  have := congrArg ManagedApiKey.developerId same
  exact this

theorem expiresAt_of_issued : key.expiresAt = other.expiresAt := by
  have := congrArg ManagedApiKey.expiresAt same
  exact this

theorem gracePeriodEndsAt_of_issued : key.gracePeriodEndsAt = other.gracePeriodEndsAt := by
  have := congrArg ManagedApiKey.gracePeriodEndsAt same
  exact this

theorem replacesKeyId_of_issued : key.replacesKeyId = other.replacesKeyId := by
  have := congrArg ManagedApiKey.replacesKeyId same
  exact this

theorem statusAt_congr (status : key.status = other.status) : key.statusAt now = other.statusAt now := by
  unfold statusAt windowClosed
  rw [status, gracePeriodEndsAt_of_issued same, expiresAt_of_issued same]

end Issued

theorem statusAt_later (early : now ≤ later) :
    key.statusAt later = ({ key with status := key.statusAt now } : ManagedApiKey).statusAt later := by
  unfold statusAt
  cases key.status with
  | active =>
    by_cases past : now > key.expiresAt
    · simp [past, gt_iff_lt.mpr (past.trans_le early)]
    · simp [past]
  | grace =>
    by_cases closed : key.windowClosed now = true
    · simp [closed, windowClosed_mono early closed]
    · simp only [closed, Bool.false_eq_true, if_false]
      rfl
  | expired => rfl
  | revoked => rfl

theorem statusAt_eq_revoked : key.statusAt now = .revoked ↔ key.status = .revoked := by
  unfold statusAt
  cases key.status with
  | active | grace => simp only [reduceCtorEq, iff_false]; split <;> simp
  | expired => rfl
  | revoked => rfl

theorem status_of_statusAt_active (live : key.statusAt now = .active) : key.status = .active := by
  unfold statusAt at live
  split at live
  · assumption
  · split at live <;> cases live
  · cases live
  · cases live

theorem status_of_statusAt_grace (live : key.statusAt now = .grace) : key.status = .grace := by
  unfold statusAt at live
  split at live
  · split at live <;> cases live
  · assumption
  · cases live
  · cases live

namespace Alike

theorem refl (key : ManagedApiKey) : Alike now key key := ⟨rfl, rfl⟩

theorem symm (alike : Alike now key other) : Alike now other key := ⟨alike.issued.symm, alike.status.symm⟩

theorem trans (alike : Alike now key key') (alike' : Alike now key' other) : Alike now key other :=
  ⟨alike.issued.trans alike'.issued, alike.status.trans alike'.status⟩

theorem mono (early : now ≤ later) (alike : Alike now key other) : Alike later key other where
  issued := alike.issued
  status := by
    rw [statusAt_later early, @statusAt_later other _ _ early]
    exact statusAt_congr alike.issued alike.status

end Alike

theorem Alike.revoked_iff (alike : Alike now key other) : key.status = .revoked ↔ other.status = .revoked := by
  rw [← @statusAt_eq_revoked key now, alike.status, statusAt_eq_revoked]

theorem Noticed.refl (key : ManagedApiKey) : Noticed now key key := ⟨rfl, .inl rfl⟩

theorem Noticed.alike (noticed : Noticed now key key') : Alike now key key' where
  issued := noticed.issued.symm
  status := by
    rcases noticed.status with same | ⟨expired, past⟩
    · exact statusAt_congr noticed.issued.symm same.symm
    · rw [past, statusAt, expired]

theorem noticed_expire (past : key.statusAt now = .expired) : Noticed now key key.expire := ⟨rfl, .inr ⟨rfl, past⟩⟩

theorem statusAt_outdated (outdated : key.outdated now = true) : key.statusAt now = .expired := by
  unfold statusAt
  rcases of_decide_eq_true outdated with ⟨status, closed⟩ | ⟨status, past⟩
  · simp [status, closed]
  · simp [status, past]

theorem noticed_validate (key : ManagedApiKey) (now : ℤ) : Noticed now key (key.validate now).1 := by
  unfold validate
  by_cases closing : key.status = .grace ∧ key.windowClosed now
  · have past : key.statusAt now = .expired := by simp [statusAt, closing]
    rw [if_pos closing]
    exact noticed_expire past
  · rw [if_neg closing]
    dsimp only
    cases status : key.status with
    | revoked => exact .refl key
    | expired => exact .refl key
    | active =>
      dsimp only
      split
      · rename_i past
        exact noticed_expire (by simp [statusAt, status, past])
      · exact ⟨rfl, .inl rfl⟩
    | grace => exact ⟨rfl, .inl rfl⟩

theorem validate_valid : (key.validate now).2.valid = true ↔ key.statusAt now = .active ∨ key.statusAt now = .grace := by
  unfold validate statusAt
  cases status : key.status with
  | revoked => simp [status, refused]
  | expired => simp [status, refused]
  | active => by_cases past : now > key.expiresAt <;> simp [status, past, refused]
  | grace => by_cases closed : key.windowClosed now = true <;> simp [status, closed, refused, expire]

theorem validate_key (key : ManagedApiKey) (now : ℤ) : (key.validate now).2.key = some (key.validate now).1 := by
  unfold validate
  dsimp only
  generalize (if key.status = .grace ∧ key.windowClosed now then key.expire else key) = key'
  cases key'.status with
  | revoked => rfl
  | expired => rfl
  | active =>
    dsimp only
    split <;> rfl
  | grace => rfl

end ManagedApiKey

inductive Call where
  | createKey (developerId name : String) (environment : ApiKeyEnvironment) (permissions : List String)
      (ttlMs : Option ℤ) (generated : Generated)
  | rotateKey (keyId : String) (options : RotationOptions) (generated : Generated)
  | validateKey (secret : String)
  | revokeKey (keyId : String)
  | revokeAllKeys (developerId : String)
  | cleanupExpiredKeys

structure TimedCall where
  now : ℤ
  call : Call

def Call.acts : Call → Bool
  | .validateKey _ | .cleanupExpiredKeys => false
  | _ => true

def Call.generatedId : Call → Option String
  | .createKey _ _ _ _ _ generated | .rotateKey _ _ generated => some generated.id
  | _ => none

def perform (s : ApiKeyRotationService) (c : TimedCall) : ApiKeyRotationService :=
  match c.call with
  | .createKey developerId name environment permissions ttlMs generated =>
    (s.createKey c.now developerId name environment permissions ttlMs generated).1
  | .rotateKey keyId options generated => (s.rotateKey c.now keyId options generated).toOption.elim s Prod.fst
  | .validateKey secret => (s.validateKey c.now secret).1
  | .revokeKey keyId => (s.revokeKey c.now keyId).1
  | .revokeAllKeys developerId => (s.revokeAllKeys c.now developerId).1
  | .cleanupExpiredKeys => (s.cleanupExpiredKeys c.now).1

namespace ApiKeyRotationService

variable {s t : ApiKeyRotationService} {now : ℤ} {id keyId : String} {key other : ManagedApiKey}
  {options : RotationOptions} {generated : Generated}

@[simp] theorem get_write (s : ApiKeyRotationService) (id : String) (key : ManagedApiKey) :
    (s.write id key).keys.get = Function.update s.keys.get id (some key) := rfl

@[simp] theorem get_register (s : ApiKeyRotationService) (key : ManagedApiKey) :
    (s.register key).keys.get = Function.update s.keys.get key.id (some key) := rfl

@[simp] theorem get_each (s : ApiKeyRotationService) (f : ManagedApiKey → ManagedApiKey) (id : String) :
    (s.each f).keys.get id = (s.keys.get id).map f := Record.get_map ..

def rotated (s : ApiKeyRotationService) (now : ℤ) (keyId : String) (options : RotationOptions) (generated : Generated)
    (oldKey : ManagedApiKey) : ApiKeyRotationService :=
  { (s.write keyId (oldKey.enterGrace (now + options.gracePeriod) generated.id)).register
      (oldKey.replacement now options.newKeyTtl generated) with
    rotationHistory := s.rotationHistory ++ [rotationRecord now options generated oldKey] }

theorem perform_rotateKey_absent (absent : s.keys.get keyId = none) :
    perform s ⟨now, .rotateKey keyId options generated⟩ = s := by
  simp only [perform, rotateKey, absent]
  rfl

theorem perform_rotateKey_dead (held : s.keys.get keyId = some key)
    (dead : key.status = .revoked ∨ key.status = .expired) :
    perform s ⟨now, .rotateKey keyId options generated⟩ = s := by
  rcases dead with status | status <;>
  · simp only [perform, rotateKey, held, status]
    rfl

theorem perform_rotateKey_live (held : s.keys.get keyId = some key)
    (live : key.status = .active ∨ key.status = .grace) :
    perform s ⟨now, .rotateKey keyId options generated⟩ = s.rotated now keyId options generated key := by
  rcases live with status | status <;>
  · simp only [perform, rotateKey, held, status]
    rfl

/-- The two states differ in what has been noticed by `now` and in how often keys were used. -/
structure Notices (now : ℤ) (s t : ApiKeyRotationService) : Prop where
  keyIndex : t.keyIndex = s.keyIndex
  rotationHistory : t.rotationHistory = s.rotationHistory
  keys : Related (ManagedApiKey.Noticed now) s.keys.get t.keys.get

theorem notices_keys (s : ApiKeyRotationService) (now : ℤ) : Related (ManagedApiKey.Noticed now) s.keys.get s.keys.get :=
  .refl ManagedApiKey.Noticed.refl _

theorem notices_validateKey (s : ApiKeyRotationService) (now : ℤ) (secret : String) :
    Notices now s (s.validateKey now secret).1 := by
  unfold validateKey
  dsimp only
  cases s.keyIndex secret with
  | none => exact ⟨rfl, rfl, notices_keys s now⟩
  | some id =>
    dsimp only
    cases held : s.keys.get id with
    | none => exact ⟨rfl, rfl, notices_keys s now⟩
    | some key =>
      exact ⟨rfl, rfl, .replace ManagedApiKey.Noticed.refl held (key.noticed_validate now)⟩

theorem notices_cleanupExpiredKeys (s : ApiKeyRotationService) (now : ℤ) :
    Notices now s (s.cleanupExpiredKeys now).1 where
  keyIndex := rfl
  rotationHistory := rfl
  keys := by
    have noticed (key : ManagedApiKey) :
        ManagedApiKey.Noticed now key (if key.outdated now then key.expire else key) := by
      split
      · rename_i outdated
        exact ManagedApiKey.noticed_expire (ManagedApiKey.statusAt_outdated outdated)
      · exact .refl key
    have mapped := Related.map noticed s.keys.get
    simp only [← get_each] at mapped
    exact mapped

theorem notices_perform {c : TimedCall} (silent : c.call.acts = false) : Notices c.now s (perform s c) := by
  obtain ⟨now, call⟩ := c
  cases call with
  | validateKey secret => exact notices_validateKey s now secret
  | cleanupExpiredKeys => exact notices_cleanupExpiredKeys s now
  | createKey | rotateKey | revokeKey | revokeAllKeys => cases silent

/-- What `revokeKey` and `revokeAllKeys` do: the keys of `covered` are revoked, unless they are already. -/
structure Revokes (now : ℤ) (covered : String → ManagedApiKey → Prop) (s t : ApiKeyRotationService) : Prop where
  keyIndex : t.keyIndex = s.keyIndex
  rotationHistory : t.rotationHistory = s.rotationHistory
  hit : ∀ id key, s.keys.get id = some key → covered id key → key.status ≠ .revoked →
    t.keys.get id = some (key.revoke now)
  missed : ∀ id, (∀ key, s.keys.get id = some key → covered id key → key.status = .revoked) →
    t.keys.get id = s.keys.get id

theorem revokes_revokeKey (s : ApiKeyRotationService) (now : ℤ) (keyId : String) :
    Revokes now (fun id _ => id = keyId) s (s.revokeKey now keyId).1 := by
  unfold revokeKey
  cases held : s.keys.get keyId with
  | none =>
    refine ⟨rfl, rfl, ?_, fun id _ => rfl⟩
    rintro id key found rfl -
    simp [held] at found
  | some key =>
    dsimp only
    split
    · rename_i revoked
      refine ⟨rfl, rfl, ?_, fun id _ => rfl⟩
      rintro id key' found rfl other
      rw [held, Option.some.injEq] at found
      exact absurd (found ▸ revoked) other
    · rename_i other
      refine ⟨rfl, rfl, ?_, ?_⟩
      · rintro id key' found rfl -
        rw [held, Option.some.injEq] at found
        rw [get_write, Function.update_self, found]
      · intro id missed
        apply Function.update_of_ne
        rintro rfl
        exact other (missed key held rfl)

theorem revokes_revokeAllKeys (s : ApiKeyRotationService) (now : ℤ) (developerId : String) :
    Revokes now (fun _ key => key.developerId = developerId) s (s.revokeAllKeys now developerId).1 where
  keyIndex := rfl
  rotationHistory := rfl
  hit id key held own other := by
    unfold revokeAllKeys
    rw [get_each, held, Option.map_some]
    simp [own, other]
  missed id missed := by
    unfold revokeAllKeys
    rw [get_each]
    cases held : s.keys.get id with
    | none => rfl
    | some key =>
      have kept : ¬ (key.developerId = developerId ∧ key.status ≠ .revoked) := fun covered =>
        covered.2 (missed key held covered.1)
      rw [Option.map_some]
      simp [kept]

end ApiKeyRotationService

def run (calls : List TimedCall) : ApiKeyRotationService := calls.foldl perform .new

namespace ApiKeyRotationService

variable (s : ApiKeyRotationService) (now : ℤ)

def parentOf (id : String) : Option String := (s.keys.get id).bind (·.replacesKeyId)

def Active (id : String) : Prop := ∃ key, s.keys.get id = some key ∧ key.status = .active

def Revoked (id : String) : Prop := ∃ key, s.keys.get id = some key ∧ key.status = .revoked

def firstRotation (id : String) : Option RotationRecord := s.rotationHistory.find? fun record => record.oldKeyId = id

def Accepts (secret : String) (key : ManagedApiKey) : Prop :=
  (s.validateKey now secret).2.valid = true ∧ (s.validateKey now secret).2.key = some key

/-- A rotation is aimed at a key that has not run out, whether or not that was noticed. The grace period that it sets
    ends by the key's expiry and not at time 0. A key in grace is rotated again only for a grace period that ends no
    later than its first one, and while no key of its family is active. -/
def RotatesInTime : Call → Prop
  | .rotateKey keyId options _ => ∀ key, s.keys.get keyId = some key →
    match key.status with
    | .active => now ≤ key.expiresAt ∧ now + options.gracePeriod ≠ 0 ∧ now + options.gracePeriod ≤ key.expiresAt
    | .grace => key.windowClosed now = false ∧ now + options.gracePeriod ≠ 0 ∧
      (∀ record, s.firstRotation keyId = some record → now + options.gracePeriod ≤ record.gracePeriodEndsAt) ∧
      ∀ id, Kin s.parentOf keyId id → ¬ s.Active id
    | .expired => False
    | .revoked => True
  | _ => True

def CoveredBy (id : String) : Call → Prop
  | .revokeKey keyId => keyId = id ∧ id ∈ s.keys.keys
  | .revokeAllKeys developerId => ∃ key, s.keys.get id = some key ∧ key.developerId = developerId
  | _ => False

end ApiKeyRotationService

open ApiKeyRotationService

def InOrder (calls : List TimedCall) : Prop := calls.Pairwise fun c later => c.now ≤ later.now

def FreshIds (calls : List TimedCall) : Prop := (calls.filterMap (·.call.generatedId)).Nodup

structure DieInTime (calls : List TimedCall) : Prop where
  unexpired : ∀ now secret key, (∀ c ∈ calls, c.now ≤ now) → (run calls).Accepts now secret key → now ≤ key.expiresAt
  graced : ∀ now secret key, (∀ c ∈ calls, c.now ≤ now) → (run calls).Accepts now secret key →
    ∀ record, (run calls).firstRotation key.id = some record → now ≤ record.gracePeriodEndsAt
  unrevoked : ∀ now secret key, (∀ c ∈ calls, c.now ≤ now) → (run calls).Accepts now secret key →
    ∀ earlier c later, calls = earlier ++ c :: later → ¬ (run earlier).CoveredBy key.id c.call
  oneActive : Lone (run calls).parentOf (run calls).Active
  unnoticed : ∀ others, InOrder others → others.filter (·.call.acts) = calls.filter (·.call.acts) →
    ∀ now secret, (∀ c ∈ calls, c.now ≤ now) → (∀ c ∈ others, c.now ≤ now) →
      ((run calls).validateKey now secret).2.valid = ((run others).validateKey now secret).2.valid

namespace ApiKeyRotationService

variable {s t : ApiKeyRotationService} {now later : ℤ} {secret id keyId : String} {key other : ManagedApiKey}
  {options : RotationOptions} {generated : Generated} {c : TimedCall}

theorem validateKey_of_stored (index : s.keyIndex secret = some id) (held : s.keys.get id = some key) :
    (s.validateKey now secret).2 = (key.validate now).2 := by
  simp only [validateKey, index, held]

theorem stored_of_valid (valid : (s.validateKey now secret).2.valid = true) :
    ∃ id key, s.keyIndex secret = some id ∧ s.keys.get id = some key := by
  unfold validateKey at valid
  dsimp only at valid
  cases index : s.keyIndex secret with
  | none => simp [index] at valid
  | some id =>
    cases held : s.keys.get id with
    | none => simp [index, held] at valid
    | some key => exact ⟨id, key, rfl, held⟩

theorem valid_eq_true : (s.validateKey now secret).2.valid = true ↔
    ∃ id key, s.keyIndex secret = some id ∧ s.keys.get id = some key ∧
      (key.statusAt now = .active ∨ key.statusAt now = .grace) := by
  constructor
  · intro valid
    obtain ⟨id, key, index, held⟩ := stored_of_valid valid
    rw [validateKey_of_stored index held, ManagedApiKey.validate_valid] at valid
    exact ⟨id, key, index, held, valid⟩
  · rintro ⟨id, key, index, held, live⟩
    rw [validateKey_of_stored index held, ManagedApiKey.validate_valid]
    exact live

theorem Accepts.stored (accepted : s.Accepts now secret key) :
    ∃ id held, s.keys.get id = some held ∧ key.issued = held.issued ∧
      (held.statusAt now = .active ∨ held.statusAt now = .grace) := by
  obtain ⟨id, held, index, found, live⟩ := valid_eq_true.mp accepted.1
  have returned := accepted.2
  rw [validateKey_of_stored index found, ManagedApiKey.validate_key, Option.some.injEq] at returned
  exact ⟨id, held, found, returned ▸ (held.noticed_validate now).issued, live⟩

structure Alike (now : ℤ) (s t : ApiKeyRotationService) : Prop where
  keyIndex : s.keyIndex = t.keyIndex
  keys : Related (ManagedApiKey.Alike now) s.keys.get t.keys.get

theorem Alike.symm (alike : Alike now s t) : Alike now t s where
  keyIndex := alike.keyIndex.symm
  keys := alike.keys.flip fun _ _ same => same.symm

theorem Alike.mono (early : now ≤ later) (alike : Alike now s t) : Alike later s t where
  keyIndex := alike.keyIndex
  keys := alike.keys.mono fun _ _ same => same.mono early

theorem Alike.notices (alike : Alike later s t) (early : now ≤ later) {s' : ApiKeyRotationService}
    (noticed : Notices now s s') : Alike later s' t where
  keyIndex := noticed.keyIndex.trans alike.keyIndex
  keys := by
    have back : Related (ManagedApiKey.Alike later) s'.keys.get s.keys.get :=
      noticed.keys.flip fun _ _ changed => (changed.alike.mono early).symm
    exact back.trans alike.keys fun _ _ _ same same' => same.trans same'

section

variable (alike : Alike now s t)

include alike

theorem Alike.valid (secret : String) : (s.validateKey now secret).2.valid = (t.validateKey now secret).2.valid := by
  rw [Bool.eq_iff_iff, valid_eq_true, valid_eq_true]
  have half {s t : ApiKeyRotationService} (alike : Alike now s t) (live : ∃ id key, s.keyIndex secret = some id ∧
      s.keys.get id = some key ∧ (key.statusAt now = .active ∨ key.statusAt now = .grace)) :
      ∃ id key, t.keyIndex secret = some id ∧ t.keys.get id = some key ∧
        (key.statusAt now = .active ∨ key.statusAt now = .grace) := by
    obtain ⟨id, key, index, held, live⟩ := live
    obtain ⟨other, found, same⟩ := alike.keys.of_some held
    exact ⟨id, other, alike.keyIndex ▸ index, found, same.status ▸ live⟩
  exact ⟨half alike, half alike.symm⟩

theorem Alike.register (key : ManagedApiKey) : Alike now (s.register key) (t.register key) where
  keyIndex := congrArg (fun index => put index key.key key.id) alike.keyIndex
  keys := alike.keys.update key.id (.refl key)

theorem Alike.rotated (same : ManagedApiKey.Alike now key other) :
    Alike now (s.rotated now keyId options generated key) (t.rotated now keyId options generated other) := by
  have replacement : key.replacement now options.newKeyTtl generated = other.replacement now options.newKeyTtl generated := by
    have := congrArg (fun k => k.replacement now options.newKeyTtl generated) same.issued
    exact this
  have graced : ManagedApiKey.Alike now (key.enterGrace (now + options.gracePeriod) generated.id)
      (other.enterGrace (now + options.gracePeriod) generated.id) := by
    have issued := congrArg (fun k => (k.enterGrace (now + options.gracePeriod) generated.id).issued) same.issued
    exact ⟨issued, rfl⟩
  refine ⟨?_, ?_⟩
  · exact congrArg (fun index => put index generated.secret generated.id) alike.keyIndex
  · have updated := (alike.keys.update keyId graced).update generated.id
      (.refl (key.replacement now options.newKeyTtl generated))
    nth_rewrite 2 [replacement] at updated
    exact updated

theorem Alike.revokes {covered : String → ManagedApiKey → Prop} {s' t' : ApiKeyRotationService}
    (same : ∀ id key other, key.issued = other.issued → (covered id key ↔ covered id other))
    (revoked : Revokes now covered s s') (revoked' : Revokes now covered t t') : Alike now s' t' where
  keyIndex := by rw [revoked.keyIndex, revoked'.keyIndex, alike.keyIndex]
  keys id := by
    cases held : s.keys.get id with
    | none =>
      have held' := alike.keys.of_none held
      rw [revoked.missed id (by simp [held]), revoked'.missed id (by simp [held']), held, held']
      exact .none
    | some key =>
      obtain ⟨other, held', both⟩ := alike.keys.of_some held
      by_cases hit : covered id key ∧ key.status ≠ .revoked
      · have hit' : covered id other ∧ other.status ≠ .revoked := by
          rw [← same id key other both.issued, ne_eq, ← both.revoked_iff]
          exact hit
        rw [revoked.hit id key held hit.1 hit.2, revoked'.hit id other held' hit'.1 hit'.2]
        have issued := congrArg (fun k => (k.revoke now).issued) both.issued
        exact .some ⟨issued, rfl⟩
      · have miss (key' : ManagedApiKey) (found : s.keys.get id = some key') (cover : covered id key') : key'.status = .revoked := by
          obtain rfl : key = key' := Option.some.inj (held.symm.trans found)
          by_contra other
          exact hit ⟨cover, other⟩
        have miss' (other' : ManagedApiKey) (found : t.keys.get id = some other') (cover : covered id other') :
            other'.status = .revoked := by
          obtain rfl : other = other' := Option.some.inj (held'.symm.trans found)
          rw [← both.revoked_iff]
          exact miss key held ((same id key other both.issued).mpr cover)
        rw [revoked.missed id miss, revoked'.missed id miss', held, held']
        exact .some both

theorem Alike.rotates (timely : s.RotatesInTime now (.rotateKey keyId options generated)) :
    Alike now (perform s ⟨now, .rotateKey keyId options generated⟩) (perform t ⟨now, .rotateKey keyId options generated⟩) := by
  cases held : s.keys.get keyId with
  | none =>
    rw [perform_rotateKey_absent held, perform_rotateKey_absent (alike.keys.of_none held)]
    exact alike
  | some key =>
    obtain ⟨other, held', same⟩ := alike.keys.of_some held
    have fine := timely key held
    cases status : key.status with
    | expired =>
      rw [status] at fine
      exact fine.elim
    | revoked =>
      have status' : other.status = .revoked := same.revoked_iff.mp status
      rw [perform_rotateKey_dead held (.inl status), perform_rotateKey_dead held' (.inl status')]
      exact alike
    | active =>
      rw [status] at fine
      have status' : other.status = .active := by
        apply @ManagedApiKey.status_of_statusAt_active _ now
        rw [← same.status, ManagedApiKey.statusAt, status]
        exact if_neg (not_lt.mpr fine.1)
      rw [perform_rotateKey_live held (.inl status), perform_rotateKey_live held' (.inl status')]
      exact alike.rotated same
    | grace =>
      rw [status] at fine
      have status' : other.status = .grace := by
        apply @ManagedApiKey.status_of_statusAt_grace _ now
        rw [← same.status, ManagedApiKey.statusAt, status]
        exact if_neg (by simp [fine.1])
      rw [perform_rotateKey_live held (.inr status), perform_rotateKey_live held' (.inr status')]
      exact alike.rotated same

end

theorem Alike.perform (alike : Alike c.now s t) (acting : c.call.acts = true) (timely : s.RotatesInTime c.now c.call) :
    Alike c.now (perform s c) (perform t c) := by
  obtain ⟨now, call⟩ := c
  cases call with
  | createKey => exact alike.register _
  | rotateKey keyId options generated => exact alike.rotates timely
  | validateKey => cases acting
  | revokeKey keyId =>
    exact alike.revokes (fun _ _ _ _ => Iff.rfl) (revokes_revokeKey s now keyId) (revokes_revokeKey t now keyId)
  | revokeAllKeys developerId =>
    apply alike.revokes _ (revokes_revokeAllKeys s now developerId) (revokes_revokeAllKeys t now developerId)
    intro _ key other same
    rw [ManagedApiKey.developerId_of_issued same]
  | cleanupExpiredKeys => cases acting

end ApiKeyRotationService

theorem InOrder.init {calls : List TimedCall} {c : TimedCall} (order : InOrder (calls ++ [c])) : InOrder calls :=
  (pairwise_append.mp order).1

theorem InOrder.last {calls : List TimedCall} {c : TimedCall} (order : InOrder (calls ++ [c])) :
    ∀ d ∈ calls, d.now ≤ c.now := fun d mem => (pairwise_append.mp order).2.2 d mem c mem_cons_self

theorem alike_run {calls others : List TimedCall} (same : calls.filter (·.call.acts) = others.filter (·.call.acts)) :
    InOrder calls → InOrder others → Throughout perform .new (fun s c => s.RotatesInTime c.now c.call) calls →
      ∀ now, (∀ c ∈ calls, c.now ≤ now) → (∀ c ∈ others, c.now ≤ now) → Alike now (run calls) (run others) := by
  have run_concat (calls : List TimedCall) (c : TimedCall) : run (calls ++ [c]) = perform (run calls) c := by
    rw [run, foldl_append]
    rfl
  apply filter_induction (fun c : TimedCall => c.call.acts) _ _ _ _ same
  · intro _ _ _ now _ _
    exact ⟨rfl, .refl ManagedApiKey.Alike.refl _⟩
  · intro calls others c silent ih order order' timely now bound bound'
    have early (d : TimedCall) (mem : d ∈ calls) : d.now ≤ now := bound d (mem_append_left _ mem)
    rw [run_concat]
    exact (ih order.init order' timely.init now early bound').notices (bound c (by simp)) (notices_perform silent)
  · intro calls others c silent ih order order' timely now bound bound'
    have early (d : TimedCall) (mem : d ∈ others) : d.now ≤ now := bound' d (mem_append_left _ mem)
    rw [run_concat]
    exact ((ih order order'.init timely now bound early).symm.notices (bound' c (by simp)) (notices_perform silent)).symm
  · intro calls others c acting ih order order' timely now bound _
    have before := ih order.init order'.init timely.init c.now order.last order'.last
    rw [run_concat, run_concat]
    exact (before.perform acting timely.last).mono (bound c (by simp))

end SubTrackr.Rotation
