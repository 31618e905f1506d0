import SubTrackr.Rotation.Calls

namespace SubTrackr.Rotation

open List Lib

namespace ManagedApiKey

structure Fades (key key' : ManagedApiKey) : Prop where
  id : key'.id = key.id
  expiresAt : key'.expiresAt = key.expiresAt
  gracePeriodEndsAt : key'.gracePeriodEndsAt = key.gracePeriodEndsAt
  replacesKeyId : key'.replacesKeyId = key.replacesKeyId
  status : key'.status = key.status ∨ key'.status = .expired ∨ key'.status = .revoked

variable {key key' : ManagedApiKey} {now : ℤ}

theorem Fades.refl (key : ManagedApiKey) : Fades key key := ⟨rfl, rfl, rfl, rfl, .inl rfl⟩

theorem Fades.active (fades : Fades key key') (active : key'.status = .active) : key.status = .active := by
  rcases fades.status with same | expired | revoked
  · exact same.symm.trans active
  · cases active.symm.trans expired
  · cases active.symm.trans revoked

theorem Fades.grace (fades : Fades key key') (grace : key'.status = .grace) : key.status = .grace := by
  rcases fades.status with same | expired | revoked
  · exact same.symm.trans grace
  · cases grace.symm.trans expired
  · cases grace.symm.trans revoked

theorem Noticed.fades (noticed : Noticed now key key') : Fades key key' where
  id := id_of_issued noticed.issued
  expiresAt := expiresAt_of_issued noticed.issued
  gracePeriodEndsAt := gracePeriodEndsAt_of_issued noticed.issued
  replacesKeyId := replacesKeyId_of_issued noticed.issued
  status := by
    rcases noticed.status with same | ⟨expired, -⟩
    · exact .inl same
    · exact .inr (.inl expired)

theorem Noticed.revoked (noticed : Noticed now key key') (revoked : key.status = .revoked) : key'.status = .revoked := by
  rcases noticed.status with same | ⟨-, past⟩
  · exact same.trans revoked
  · rw [statusAt, revoked] at past
    cases past

end ManagedApiKey

namespace ApiKeyRotationService

open ManagedApiKey (Fades)

variable {s t : ApiKeyRotationService} {now : ℤ} {id keyId : String} {key : ManagedApiKey} {options : RotationOptions}
  {generated : Generated} {c : TimedCall}

theorem Revokes.fades {covered : String → ManagedApiKey → Prop} (revokes : Revokes now covered s t) :
    Related Fades s.keys.get t.keys.get := by
  intro id
  cases held : s.keys.get id with
  | none =>
    rw [revokes.missed id (by simp [held]), held]
    exact .none
  | some key =>
    by_cases hit : covered id key ∧ key.status ≠ .revoked
    · rw [revokes.hit id key held hit.1 hit.2]
      exact .some ⟨rfl, rfl, rfl, rfl, .inr (.inr rfl)⟩
    · rw [revokes.missed id ?_, held]
      · exact .some (.refl key)
      · intro key' found cover
        obtain rfl : key = key' := Option.some.inj (held.symm.trans found)
        by_contra other
        exact hit ⟨cover, other⟩

structure Lawful (s : ApiKeyRotationService) : Prop where
  named : ∀ id key, s.keys.get id = some key → key.id = id
  parents : ∀ id parent, s.parentOf id = some parent → parent ∈ s.keys.keys
  history : ∀ record ∈ s.rotationHistory, record.oldKeyId ∈ s.keys.keys
  active : ∀ id key, s.keys.get id = some key → key.status = .active → s.firstRotation id = none
  grace : ∀ id key, s.keys.get id = some key → key.status = .grace → ∃ ends record,
    key.gracePeriodEndsAt = some ends ∧ ends ≠ 0 ∧ s.firstRotation id = some record ∧
      ends ≤ record.gracePeriodEndsAt ∧ record.gracePeriodEndsAt ≤ key.expiresAt
  lone : Lone s.parentOf s.Active

theorem lawful_new : Lawful .new where
  named _ _ found := by cases found
  parents _ _ found := by cases found
  history _ found := by cases found
  active _ _ found := by cases found
  grace _ _ found := by cases found
  lone _ _ alive := by
    obtain ⟨key, found, -⟩ := alive
    cases found

theorem Lawful.fades (lawful : Lawful s) (same : t.rotationHistory = s.rotationHistory)
    (fades : Related Fades s.keys.get t.keys.get) : Lawful t := by
  have known (id : String) : id ∈ t.keys.keys ↔ id ∈ s.keys.keys := by
    rw [s.keys.listed, t.keys.listed, fades.isSome_eq id]
  have parents : t.parentOf = s.parentOf := by
    funext id
    unfold parentOf
    cases held : s.keys.get id with
    | none => rw [fades.of_none held]
    | some key =>
      obtain ⟨key', held', faded⟩ := fades.of_some held
      rw [held', Option.bind_some, Option.bind_some, faded.replacesKeyId]
  have first (id : String) : t.firstRotation id = s.firstRotation id := by rw [firstRotation, same, firstRotation]
  constructor
  · intro id key' held'
    obtain ⟨key, held, faded⟩ := fades.of_some_right held'
    rw [faded.id, lawful.named id key held]
  · intro id parent found
    rw [known]
    exact lawful.parents id parent (parents ▸ found)
  · intro record mem
    rw [known]
    exact lawful.history record (same ▸ mem)
  · intro id key' held' active
    obtain ⟨key, held, faded⟩ := fades.of_some_right held'
    rw [first]
    exact lawful.active id key held (faded.active active)
  · intro id key' held' grace
    obtain ⟨key, held, faded⟩ := fades.of_some_right held'
    rw [first, faded.gracePeriodEndsAt, faded.expiresAt]
    exact lawful.grace id key held (faded.grace grace)
  · rw [parents]
    apply lawful.lone.mono
    intro id alive
    obtain ⟨key', held', active⟩ := alive
    obtain ⟨key, held, faded⟩ := fades.of_some_right held'
    exact ⟨key, held, faded.active active⟩

theorem Lawful.childless (lawful : Lawful s) (fresh : id ∉ s.keys.keys) (child : String) : s.parentOf child ≠ some id :=
  fun found => fresh (lawful.parents child id found)

theorem Lawful.neverRotated (lawful : Lawful s) (fresh : id ∉ s.keys.keys) : s.firstRotation id = none := by
  unfold firstRotation
  rw [find?_eq_none]
  intro record mem same
  exact fresh (of_decide_eq_true same ▸ lawful.history record mem)

theorem parentOf_absent (fresh : id ∉ s.keys.keys) : s.parentOf id = none := by
  unfold parentOf
  rw [Record.absent fresh]
  rfl

theorem Lawful.register (lawful : Lawful s) (fresh : key.id ∉ s.keys.keys) (active : key.status = .active)
    (root : key.replacesKeyId = none) : Lawful (s.register key) := by
  have stored_cases {id : String} {found : ManagedApiKey} (held : (s.register key).keys.get id = some found) :
      id = key.id ∧ found = key ∨ id ≠ key.id ∧ s.keys.get id = some found := by
    rw [get_register] at held
    by_cases here : id = key.id
    · subst here
      rw [Function.update_self, Option.some.injEq] at held
      exact .inl ⟨rfl, held.symm⟩
    · rw [Function.update_of_ne here] at held
      exact .inr ⟨here, held⟩
  have parents : (s.register key).parentOf = s.parentOf := by
    funext id
    by_cases here : id = key.id
    · subst here
      rw [parentOf_absent fresh, parentOf, get_register, Function.update_self]
      exact root
    · unfold parentOf
      rw [get_register, Function.update_of_ne here]
  constructor
  · intro id found held
    rcases stored_cases held with ⟨rfl, rfl⟩ | ⟨-, old⟩
    · rfl
    · exact lawful.named id found old
  · intro id parent found
    exact Finset.mem_insert_of_mem (lawful.parents id parent (parents ▸ found))
  · intro record mem
    exact Finset.mem_insert_of_mem (lawful.history record mem)
  · intro id found held alive
    rcases stored_cases held with ⟨rfl, rfl⟩ | ⟨-, old⟩
    · exact lawful.neverRotated fresh
    · exact lawful.active id found old alive
  · intro id found held grace
    rcases stored_cases held with ⟨rfl, rfl⟩ | ⟨-, old⟩
    · cases active.symm.trans grace
    · exact lawful.grace id found old grace
  · rw [parents]
    apply lawful.lone.root (parentOf_absent fresh) (lawful.childless fresh)
    intro id alive
    obtain ⟨found, held, active⟩ := alive
    rcases stored_cases held with ⟨rfl, -⟩ | ⟨-, old⟩
    · exact .inl rfl
    · exact .inr ⟨found, old, active⟩

theorem stored_rotated {found : ManagedApiKey} {id : String}
    (held : (s.rotated now keyId options generated key).keys.get id = some found) :
    id = generated.id ∧ found = key.replacement now options.newKeyTtl generated ∨
      id ≠ generated.id ∧ (id = keyId ∧ found = key.enterGrace (now + options.gracePeriod) generated.id ∨
        id ≠ keyId ∧ s.keys.get id = some found) := by
  unfold rotated at held
  dsimp only at held
  rw [get_register, get_write, show (key.replacement now options.newKeyTtl generated).id = generated.id from rfl] at held
  by_cases new : id = generated.id
  · subst new
    rw [Function.update_self, Option.some.injEq] at held
    exact .inl ⟨rfl, held.symm⟩
  · rw [Function.update_of_ne new] at held
    by_cases here : id = keyId
    · subst here
      rw [Function.update_self, Option.some.injEq] at held
      exact .inr ⟨new, .inl ⟨rfl, held.symm⟩⟩
    · rw [Function.update_of_ne here] at held
      exact .inr ⟨new, .inr ⟨here, held⟩⟩

theorem parentOf_rotated (held : s.keys.get keyId = some key) (named : key.id = keyId) :
    (s.rotated now keyId options generated key).parentOf = Function.update s.parentOf generated.id (some keyId) := by
  funext id
  unfold parentOf rotated
  dsimp only
  rw [get_register, get_write, show (key.replacement now options.newKeyTtl generated).id = generated.id from rfl]
  by_cases new : id = generated.id
  · subst new
    rw [Function.update_self, Function.update_self, ← named]
    rfl
  · rw [Function.update_of_ne new, Function.update_of_ne new]
    by_cases here : id = keyId
    · subst here
      rw [Function.update_self, held]
      rfl
    · rw [Function.update_of_ne here]

theorem firstRotation_rotated (named : key.id = keyId) (id : String) :
    (s.rotated now keyId options generated key).firstRotation id =
      (s.firstRotation id).or (if keyId = id then some (rotationRecord now options generated key) else none) := by
  unfold firstRotation rotated
  rw [find?_append]
  congr 1
  rw [find?_singleton]
  simp [rotationRecord, named]

theorem mem_keys_rotated (known : id ∈ s.keys.keys) : id ∈ (s.rotated now keyId options generated key).keys.keys :=
  Finset.mem_insert_of_mem (Finset.mem_insert_of_mem known)

section

variable (lawful : Lawful s) (held : s.keys.get keyId = some key) (live : key.status = .active ∨ key.status = .grace)
  (timely : s.RotatesInTime now (.rotateKey keyId options generated))

include lawful held live timely

theorem Lawful.graced : now + options.gracePeriod ≠ 0 ∧ ∃ record,
      (s.firstRotation keyId).or (some (rotationRecord now options generated key)) = some record ∧
        now + options.gracePeriod ≤ record.gracePeriodEndsAt ∧ record.gracePeriodEndsAt ≤ key.expiresAt := by
  have fine := timely key held
  rcases live with status | status
  · rw [status] at fine
    obtain ⟨-, real, bounded⟩ := fine
    rw [lawful.active keyId key held status, Option.none_or]
    exact ⟨real, _, rfl, le_refl _, bounded⟩
  · rw [status] at fine
    obtain ⟨-, real, bounded, -⟩ := fine
    obtain ⟨-, record, -, -, first, -, end_le⟩ := lawful.grace keyId key held status
    rw [first, Option.some_or]
    exact ⟨real, record, rfl, bounded record first, end_le⟩

theorem Lawful.apart (other : id ≠ keyId) (alive : s.Active id) : ¬ Kin s.parentOf keyId id := by
  intro kin
  rcases live with status | status
  · exact other (lawful.lone keyId id ⟨key, held, status⟩ alive kin).symm
  · have fine := timely key held
    rw [status] at fine
    exact fine.2.2.2 id kin alive

theorem Lawful.rotated (fresh : generated.id ∉ s.keys.keys) : Lawful (s.rotated now keyId options generated key) := by
  have named := lawful.named keyId key held
  have known : keyId ∈ s.keys.keys := Record.mem_keys held
  have other : keyId ≠ generated.id := fun same => fresh (same ▸ known)
  constructor
  · intro id found held'
    rcases stored_rotated held' with ⟨rfl, rfl⟩ | ⟨-, ⟨rfl, rfl⟩ | ⟨-, old⟩⟩
    · rfl
    · exact named
    · exact lawful.named id found old
  · intro id parent found
    rw [parentOf_rotated held named] at found
    by_cases new : id = generated.id
    · rw [new, Function.update_self, Option.some.injEq] at found
      exact mem_keys_rotated (found ▸ known)
    · rw [Function.update_of_ne new] at found
      exact mem_keys_rotated (lawful.parents id parent found)
  · intro record mem
    rcases mem_append.mp mem with old | new
    · exact mem_keys_rotated (lawful.history record old)
    · rw [mem_singleton.mp new]
      apply mem_keys_rotated
      rw [rotationRecord, named]
      exact known
  · intro id found held' active
    rw [firstRotation_rotated named]
    rcases stored_rotated held' with ⟨rfl, rfl⟩ | ⟨-, ⟨rfl, rfl⟩ | ⟨apart, old⟩⟩
    · rw [lawful.neverRotated fresh, if_neg other]
      rfl
    · cases active
    · rw [lawful.active id found old active, if_neg (Ne.symm apart)]
      rfl
  · intro id found held' grace
    rw [firstRotation_rotated named]
    rcases stored_rotated held' with ⟨rfl, rfl⟩ | ⟨-, ⟨rfl, rfl⟩ | ⟨apart, old⟩⟩
    · cases grace
    · obtain ⟨real, record, first, within, bounded⟩ := lawful.graced held live timely
      rw [if_pos rfl]
      exact ⟨_, record, rfl, real, first, within, bounded⟩
    · obtain ⟨ends, record, window, real, first, within, bounded⟩ := lawful.grace id found old grace
      rw [first]
      exact ⟨ends, record, window, real, rfl, within, bounded⟩
  · rw [parentOf_rotated held named]
    apply lawful.lone.update (lawful.childless fresh) other
    intro id alive
    obtain ⟨found, held', active⟩ := alive
    rcases stored_rotated held' with ⟨rfl, -⟩ | ⟨new, ⟨rfl, rfl⟩ | ⟨apart, old⟩⟩
    · exact .inl rfl
    · cases active
    · exact .inr ⟨new, ⟨found, old, active⟩, lawful.apart held live timely apart ⟨found, old, active⟩⟩

end

def GeneratesFresh (s : ApiKeyRotationService) (call : Call) : Prop := ∀ id, call.generatedId = some id → id ∉ s.keys.keys

theorem Lawful.perform (lawful : Lawful s) (timely : s.RotatesInTime c.now c.call) (fresh : s.GeneratesFresh c.call) :
    Lawful (perform s c) := by
  obtain ⟨now, call⟩ := c
  cases call with
  | createKey _ _ _ _ _ generated => exact lawful.register (fresh generated.id rfl) rfl rfl
  | rotateKey keyId options generated =>
    cases held : s.keys.get keyId with
    | none =>
      rw [perform_rotateKey_absent held]
      exact lawful
    | some key =>
      rcases key.live_or_dead with live | dead
      · rw [perform_rotateKey_live held live]
        exact lawful.rotated held live timely (fresh generated.id rfl)
      · rw [perform_rotateKey_dead held dead]
        exact lawful
  | validateKey secret =>
    have noticed := notices_validateKey s now secret
    exact lawful.fades noticed.rotationHistory (noticed.keys.mono fun _ _ changed => changed.fades)
  | revokeKey keyId => exact lawful.fades (revokes_revokeKey s now keyId).rotationHistory (revokes_revokeKey s now keyId).fades
  | revokeAllKeys developerId =>
    have revokes := revokes_revokeAllKeys s now developerId
    exact lawful.fades revokes.rotationHistory revokes.fades
  | cleanupExpiredKeys =>
    have noticed := notices_cleanupExpiredKeys s now
    exact lawful.fades noticed.rotationHistory (noticed.keys.mono fun _ _ changed => changed.fades)

theorem Revokes.revoked {covered : String → ManagedApiKey → Prop} (revokes : Revokes now covered s t)
    (revoked : s.Revoked id) : t.Revoked id := by
  obtain ⟨key, held, status⟩ := revoked
  refine ⟨key, ?_, status⟩
  rw [revokes.missed id, held]
  intro key' found _
  rw [← Option.some.inj (held.symm.trans found), status]

theorem Notices.revoked (notices : Notices now s t) (revoked : s.Revoked id) : t.Revoked id := by
  obtain ⟨key, held, status⟩ := revoked
  obtain ⟨key', held', noticed⟩ := notices.keys.of_some held
  exact ⟨key', held', noticed.revoked status⟩

theorem Revoked.perform (revoked : s.Revoked id) (fresh : s.GeneratesFresh c.call) : (perform s c).Revoked id := by
  have known : id ∈ s.keys.keys := by
    obtain ⟨key, held, -⟩ := revoked
    exact Record.mem_keys held
  obtain ⟨now, call⟩ := c
  cases call with
  | createKey _ _ _ _ _ generated =>
    obtain ⟨key, held, status⟩ := revoked
    have other : id ≠ generated.id := fun same => fresh generated.id rfl (same ▸ known)
    exact ⟨key, (Function.update_of_ne other ..).trans held, status⟩
  | rotateKey keyId options generated =>
    obtain ⟨key, held, status⟩ := revoked
    have new : id ≠ generated.id := fun same => fresh generated.id rfl (same ▸ known)
    cases target : s.keys.get keyId with
    | none =>
      rw [perform_rotateKey_absent target]
      exact ⟨key, held, status⟩
    | some old =>
      rcases old.live_or_dead with live | dead
      · have other : id ≠ keyId := by
          rintro rfl
          obtain rfl : key = old := Option.some.inj (held.symm.trans target)
          simp [status] at live
        rw [perform_rotateKey_live target live]
        exact ⟨key, (Function.update_of_ne new ..).trans ((Function.update_of_ne other ..).trans held), status⟩
      · rw [perform_rotateKey_dead target dead]
        exact ⟨key, held, status⟩
  | validateKey secret => exact (notices_validateKey s now secret).revoked revoked
  | revokeKey keyId => exact (revokes_revokeKey s now keyId).revoked revoked
  | revokeAllKeys developerId => exact (revokes_revokeAllKeys s now developerId).revoked revoked
  | cleanupExpiredKeys => exact (notices_cleanupExpiredKeys s now).revoked revoked

theorem revoked_of_covered (covered : s.CoveredBy id c.call) : (perform s c).Revoked id := by
  obtain ⟨now, call⟩ := c
  have revoked {key : ManagedApiKey} {covers : String → ManagedApiKey → Prop} {t : ApiKeyRotationService}
      (revokes : Revokes now covers s t) (held : s.keys.get id = some key) (cover : covers id key) : t.Revoked id := by
    by_cases already : key.status = .revoked
    · exact revokes.revoked ⟨key, held, already⟩
    · exact ⟨key.revoke now, revokes.hit id key held cover already, rfl⟩
  cases call with
  | revokeKey keyId =>
    obtain ⟨key, held⟩ := Record.present covered.2
    exact revoked (revokes_revokeKey s now keyId) held covered.1.symm
  | revokeAllKeys developerId =>
    obtain ⟨key, held, own⟩ := covered
    exact revoked (revokes_revokeAllKeys s now developerId) held own
  | createKey | rotateKey | validateKey | cleanupExpiredKeys => exact covered.elim

theorem mem_keys_perform (known : id ∈ (perform s c).keys.keys) : id ∈ s.keys.keys ∨ c.call.generatedId = some id := by
  have faded {t : ApiKeyRotationService} (fades : Related Fades s.keys.get t.keys.get) (known : id ∈ t.keys.keys) :
      id ∈ s.keys.keys := by
    rw [Record.listed] at known ⊢
    rwa [fades.isSome_eq]
  obtain ⟨now, call⟩ := c
  cases call with
  | createKey _ _ _ _ _ generated =>
    rcases Finset.mem_insert.mp known with new | old
    · exact .inr (congrArg some new.symm)
    · exact .inl old
  | rotateKey keyId options generated =>
    cases held : s.keys.get keyId with
    | none =>
      rw [perform_rotateKey_absent held] at known
      exact .inl known
    | some key =>
      rcases key.live_or_dead with live | dead
      · rw [perform_rotateKey_live held live] at known
        rcases Finset.mem_insert.mp known with new | old
        · exact .inr (congrArg some new.symm)
        · rcases Finset.mem_insert.mp old with same | old
          · exact .inl (same ▸ Record.mem_keys held)
          · exact .inl old
      · rw [perform_rotateKey_dead held dead] at known
        exact .inl known
  | validateKey secret => exact .inl (faded ((notices_validateKey s now secret).keys.mono fun _ _ changed => changed.fades) known)
  | revokeKey keyId => exact .inl (faded (revokes_revokeKey s now keyId).fades known)
  | revokeAllKeys developerId => exact .inl (faded (revokes_revokeAllKeys s now developerId).fades known)
  | cleanupExpiredKeys => exact .inl (faded ((notices_cleanupExpiredKeys s now).keys.mono fun _ _ changed => changed.fades) known)

end ApiKeyRotationService

open ApiKeyRotationService

variable {calls : List TimedCall}

theorem mem_keys_run {id : String} (known : id ∈ (run calls).keys.keys) : id ∈ calls.filterMap (·.call.generatedId) := by
  induction calls using List.reverseRecOn with
  | nil => cases known
  | append_singleton calls c ih =>
    unfold run at known
    rw [foldl_append, foldl_cons, foldl_nil] at known
    rw [filterMap_append, mem_append]
    rcases mem_keys_perform known with old | new
    · exact .inl (ih old)
    · exact .inr (by simp [new])

theorem FreshIds.throughout (fresh : FreshIds calls) :
    Throughout perform .new (fun s c => s.GeneratesFresh c.call) calls := by
  intro earlier c later split id generated known
  have used := mem_keys_run known
  have mem : id ∈ (c :: later).filterMap (·.call.generatedId) := by
    rw [mem_filterMap]
    exact ⟨c, mem_cons_self, generated⟩
  unfold FreshIds at fresh
  rw [split, filterMap_append, nodup_append] at fresh
  exact fresh.2.2 id used id mem rfl

theorem lawful_run (fresh : FreshIds calls)
    (timely : Throughout perform .new (fun s c => s.RotatesInTime c.now c.call) calls) : Lawful (run calls) :=
  (timely.and fresh.throughout).keeps Lawful lawful_new fun _ _ lawful met => lawful.perform met.1 met.2

theorem revoked_run (fresh : FreshIds calls) {earlier later : List TimedCall} {c : TimedCall} {id : String}
    (split : calls = earlier ++ c :: later) (covered : (run earlier).CoveredBy id c.call) : (run calls).Revoked id := by
  have met := fresh.throughout
  rw [split, append_cons] at met
  have revoked : ((earlier ++ [c]).foldl perform .new).Revoked id := by
    rw [foldl_append]
    exact revoked_of_covered covered
  rw [run, split, append_cons, foldl_append]
  exact met.tail.keeps (·.Revoked id) revoked fun _ _ before new => before.perform new

theorem ApiKeyRotationService.Lawful.accepted {s : ApiKeyRotationService} (lawful : s.Lawful) {now : ℤ} {secret : String} {key : ManagedApiKey}
    (accepted : s.Accepts now secret key) :
    now ≤ key.expiresAt ∧ ∀ record, s.firstRotation key.id = some record → now ≤ record.gracePeriodEndsAt := by
  obtain ⟨id, held, found, issued, live⟩ := accepted.stored
  rw [ManagedApiKey.expiresAt_of_issued issued, ManagedApiKey.id_of_issued issued, lawful.named id held found]
  rcases live with active | grace
  · have status := ManagedApiKey.status_of_statusAt_active active
    rw [ManagedApiKey.statusAt, status] at active
    refine ⟨?_, ?_⟩
    · by_contra past
      simp [not_le.mp past] at active
    · intro record first
      rw [lawful.active id held found status] at first
      cases first
  · have status := ManagedApiKey.status_of_statusAt_grace grace
    rw [ManagedApiKey.statusAt, status] at grace
    obtain ⟨ends, record, window, real, first, within, bounded⟩ := lawful.grace id held found status
    have now_le : now ≤ ends := by
      by_contra past
      have closed : held.windowClosed now = true :=
        ManagedApiKey.windowClosed_eq_true.mpr ⟨ends, window, real, not_le.mp past⟩
      simp [closed] at grace
    refine ⟨now_le.trans (within.trans bounded), ?_⟩
    intro record' first'
    obtain rfl : record = record' := Option.some.inj (first.symm.trans first')
    exact now_le.trans within

theorem die_in_time (order : InOrder calls) (fresh : FreshIds calls)
    (timely : Throughout perform .new (fun s c => s.RotatesInTime c.now c.call) calls) : DieInTime calls where
  unexpired _ _ _ _ accepted := ((lawful_run fresh timely).accepted accepted).1
  graced _ _ _ _ accepted := ((lawful_run fresh timely).accepted accepted).2
  unrevoked now secret key _ accepted earlier c later split covered := by
    obtain ⟨id, stored, found, issued, live⟩ := accepted.stored
    obtain ⟨key', found', status⟩ := revoked_run fresh split covered
    rw [ManagedApiKey.id_of_issued issued, (lawful_run fresh timely).named id stored found, found,
      Option.some.injEq] at found'
    have revoked : stored.statusAt now = .revoked := ManagedApiKey.statusAt_eq_revoked.mpr (found' ▸ status)
    simp [revoked] at live
  oneActive := (lawful_run fresh timely).lone
  unnoticed others order' same now secret bound bound' :=
    (alike_run same.symm order order' timely now bound bound').valid secret

def rotatedOnce (gracePeriodMs : ℤ) : List TimedCall :=
  [⟨0, .createKey "dev_1" "K" .test [] (some 1000) ⟨"key_1", "sk_test_1", ""⟩⟩,
    ⟨500, .rotateKey "key_1" ⟨some gracePeriodMs, none, none⟩ ⟨"key_2", "sk_test_2", "rot_1"⟩⟩]

theorem rotatedOnce_inOrder (gracePeriodMs : ℤ) : InOrder (rotatedOnce gracePeriodMs) := by simp [InOrder, rotatedOnce]

theorem rotatedOnce_freshIds (gracePeriodMs : ℤ) : FreshIds (rotatedOnce gracePeriodMs) := by
  simp [FreshIds, rotatedOnce, Call.generatedId]

theorem rotatedOnce_die_in_time : DieInTime (rotatedOnce 300) := by
  apply die_in_time (rotatedOnce_inOrder 300) (rotatedOnce_freshIds 300)
  unfold rotatedOnce
  refine .cons trivial (.cons ?_ .nil)
  intro key found
  cases found
  decide

theorem not_in_time : ¬ ∀ calls, InOrder calls → FreshIds calls → DieInTime calls := by
  intro all
  have inTime := all (rotatedOnce 5000) (rotatedOnce_inOrder 5000) (rotatedOnce_freshIds 5000)
  obtain ⟨key, returned, expiry⟩ : ∃ key, ((run (rotatedOnce 5000)).validateKey 2000 "sk_test_1").2.key = some key ∧
      key.expiresAt = 1000 := Option.map_eq_some_iff.mp (by decide +kernel)
  have accepted : (run (rotatedOnce 5000)).Accepts 2000 "sk_test_1" key := ⟨by decide +kernel, returned⟩
  have late := inTime.unexpired 2000 "sk_test_1" key (by simp [rotatedOnce]) accepted
  rw [expiry] at late
  exact absurd late (by decide)

end SubTrackr.Rotation
