import SubTrackr.Security.EntryPoints
import SubTrackr.Utils.BatchProof

namespace SubTrackr.Security

open List Lib Soroban

section Runs

variable {sha256 : Bytes → BytesN 32} {env : Env} {s s' : State} {w : Session} {data : Bytes} {e : EncryptedData}

structure Sound (sha256 : Bytes → BytesN 32) (w : Session) : Prop where
  fresh : w.state.admin = none → (∀ v, w.state.key v = none) ∧ w.issued = [] ∧ w.hashed = [] ∧ w.holds = []
  current : w.state.admin ≠ none → w.state.currentKeyVersion ≠ none
  active : ∀ c, w.state.currentKeyVersion = some c → ∀ v, (∃ key, w.state.key v = some key ∧ key.active = true) ↔ v = c
  above : ∀ c, w.state.currentKeyVersion = some c → ∀ v, c < v → w.state.key v = none
  opens : ∀ h ∈ w.holds, Opens sha256 w.state h.2 h.1
  issued : ∀ e ∈ w.issued, ∃ data, Opens sha256 w.state e data
  nonces : w.issued.map EncryptedData.nonce = w.hashed.map sha256
  counted : ∀ x ∈ w.hashed, ∃ material counter env, x = nonceInput material counter env ∧
    counter ≤ w.state.nonceCounter.getD 0
  bounded : w.state.nonceCounter.getD 0 < 2 ^ 64
  distinct : w.hashed.Nodup

theorem nonceInput_counter {material material' : BytesN 32} {counter counter' : Nat} {env env' : Env}
    (counter_lt : counter < 2 ^ 64) (counter_lt' : counter' < 2 ^ 64)
    (same : nonceInput material counter env = nonceInput material' counter' env') : counter = counter' := by
  have length (n : Nat) : (beBytes 8 n).length = 8 := length_bigEndian 8 n
  unfold nonceInput at same
  rw [append_assoc, append_assoc, append_assoc, append_assoc] at same
  obtain ⟨-, rest⟩ := append_inj same (by simp)
  obtain ⟨counters, -⟩ := append_inj rest (by rw [length, length])
  exact bigEndian_inj counter_lt counter_lt' counters

theorem deployed_sound (sha256 : Bytes → BytesN 32) : Sound sha256 .deployed := by
  constructor
  · intro _
    exact ⟨fun _ => rfl, rfl, rfl, rfl⟩
  · intro started
    exact absurd rfl started
  · intro c current
    cases current
  · intro c current
    cases current
  · intro h mem
    cases mem
  · intro e mem
    cases mem
  · rfl
  · intro x mem
    cases mem
  · decide
  · exact nodup_nil

theorem Sound.issue {held : List Bytes} (sound : Sound sha256 w) (issues : Issues sha256 env w.state data e s')
    (same : ∀ d ∈ held, d = data) : Sound sha256 (w.issue env held (e, s')) := by
  obtain ⟨rfl, fits, ⟨material, input⟩, nonce, opens⟩ := issues
  have derived := nonce _ input
  have keeps : KeepsKeys w.state { w.state with nonceCounter := some (w.state.nonceCounter.getD 0 + 1) } :=
    fun v key found => ⟨key, found, rfl⟩
  have hashed (next : State) :
      (w.issue env held (e, next)).hashed = nonceInput material (w.state.nonceCounter.getD 0 + 1) env :: w.hashed := by
    show (nextInput env w.state).toList ++ w.hashed = _
    rw [input]
    rfl
  constructor
  · intro absent
    obtain ⟨keys, -⟩ := sound.fresh absent
    obtain ⟨key, found, -⟩ := opens
    have unknown := keys e.keyVersion
    rw [show w.state.key e.keyVersion = some key from found] at unknown
    cases unknown
  · exact sound.current
  · exact sound.active
  · exact sound.above
  · intro h member
    rcases mem_append.mp member with added | old
    · obtain ⟨d, mem, rfl⟩ := mem_map.mp added
      rw [same d mem]
      exact opens
    · exact (sound.opens h old).kept keeps
  · intro e' member
    rcases mem_cons.mp member with rfl | old
    · exact ⟨data, opens⟩
    · obtain ⟨data', known⟩ := sound.issued e' old
      exact ⟨data', known.kept keeps⟩
  · rw [hashed, map_cons, ← sound.nonces, ← derived]
    rfl
  · intro x member
    rw [hashed] at member
    show ∃ material counter env, _ ∧ counter ≤ w.state.nonceCounter.getD 0 + 1
    rcases mem_cons.mp member with rfl | old
    · exact ⟨material, _, env, rfl, le_refl _⟩
    · obtain ⟨material', counter, env', known, le⟩ := sound.counted x old
      exact ⟨material', counter, env', known, Nat.le_succ_of_le le⟩
  · exact fits
  · rw [hashed, nodup_cons]
    constructor
    · intro old
      obtain ⟨material', counter, env', known, le⟩ := sound.counted _ old
      have equal := nonceInput_counter fits (lt_of_le_of_lt le sound.bounded) known
      omega
    · exact sound.distinct

theorem Sound.kept (sound : Sound sha256 w) (admin : s'.admin = w.state.admin)
    (version : s'.currentKeyVersion = w.state.currentKeyVersion) (keys : s'.key = w.state.key)
    (counter : s'.nonceCounter = w.state.nonceCounter) : Sound sha256 { w with state := s' } := by
  have keeps : KeepsKeys w.state s' := by
    intro v key found
    rw [keys]
    exact ⟨key, found, rfl⟩
  constructor
  · intro absent
    obtain ⟨none_stored, others⟩ := sound.fresh (admin.symm.trans absent)
    exact ⟨fun v => (congrFun keys v).trans (none_stored v), others⟩
  · intro started
    dsimp only
    rw [version]
    exact sound.current fun absent => started (admin.trans absent)
  · intro c found
    dsimp only at found ⊢
    rw [keys]
    exact sound.active c (version.symm.trans found)
  · intro c found
    dsimp only at found ⊢
    rw [keys]
    exact sound.above c (version.symm.trans found)
  · intro h mem
    exact (sound.opens h mem).kept keeps
  · intro e mem
    obtain ⟨data, known⟩ := sound.issued e mem
    exact ⟨data, known.kept keeps⟩
  · exact sound.nonces
  · intro x mem
    dsimp only
    rw [counter]
    exact sound.counted x mem
  · dsimp only
    rw [counter]
    exact sound.bounded
  · exact sound.distinct

theorem rotateKey_spec {newKey : BytesN 32} {version : Nat} {event : Event}
    (done : rotateKey env s newKey = .ok (version, s', event)) :
    ∃ current old rotations, s.admin ≠ none ∧ s.currentKeyVersion = some current ∧ s.key current = some old ∧
      s' = { s with
        key := put (put s.key current { old with active := false }) (current + 1) ⟨current + 1, newKey, env.timestamp, true⟩
        currentKeyVersion := some (current + 1)
        rotationCount := some rotations } := by
  unfold rotateKey requireAdmin at done
  simp only [bind_eq_ok] at done
  obtain ⟨-, ⟨administrator, known, -⟩, current, found, old, held, next, counted, rotations, -, rest⟩ := done
  obtain ⟨-, rfl⟩ := (below_eq_ok ..).mp counted
  cases rest
  refine ⟨current, old, rotations, ?_, (present_eq_ok ..).mp found, (present_eq_ok ..).mp held, rfl⟩
  rw [(present_eq_ok ..).mp known]
  exact Option.some_ne_none _

section

variable (sound : Sound sha256 w)

include sound

theorem Sound.rotated {newKey : BytesN 32} {version : Nat} {event : Event}
    (done : rotateKey env w.state newKey = .ok (version, s', event)) : Sound sha256 { w with state := s' } := by
  obtain ⟨current, old, rotations, started, found, held, rfl⟩ := rotateKey_spec done
  have keeps : KeepsKeys w.state { w.state with
      key := put (put w.state.key current { old with active := false }) (current + 1) ⟨current + 1, newKey, env.timestamp, true⟩
      currentKeyVersion := some (current + 1)
      rotationCount := some rotations } := by
    intro v key known
    have below : v ≠ current + 1 := by
      intro above
      rw [sound.above current found v (by omega)] at known
      cases known
    dsimp only
    rw [put_of_ne _ _ below, put_apply]
    split
    · rename_i same
      rw [same, held] at known
      cases known
      exact ⟨_, rfl, rfl⟩
    · exact ⟨key, known, rfl⟩
  constructor
  · intro absent
    exact absurd absent started
  · intro _
    exact Option.some_ne_none _
  · intro c next v
    cases next
    dsimp only
    rw [put_apply, put_apply]
    by_cases new : v = current + 1
    · rw [if_pos new]
      exact ⟨fun _ => new, fun _ => ⟨_, rfl, rfl⟩⟩
    · rw [if_neg new]
      constructor
      · intro ⟨key, known, on⟩
        split at known
        · cases known
          cases on
        · rename_i other
          exact absurd ((sound.active current found v).mp ⟨key, known, on⟩) other
      · intro same
        exact absurd same new
  · intro c next v above
    cases next
    dsimp only
    rw [put_of_ne _ _ (by omega), put_of_ne _ _ (by omega)]
    exact sound.above current found v (by omega)
  · intro h mem
    exact (sound.opens h mem).kept keeps
  · intro e mem
    obtain ⟨data, known⟩ := sound.issued e mem
    exact ⟨data, known.kept keeps⟩
  · exact sound.nonces
  · exact sound.counted
  · exact sound.bounded
  · exact sound.distinct

theorem Sound.initialized {admin : Address} {initialKey : BytesN 32}
    (done : initializeSecurity env w.state admin initialKey = .ok s') : Sound sha256 { w with state := s' } := by
  unfold initializeSecurity at done
  simp only [bind_eq_ok] at done
  obtain ⟨answer, checked, -, -, rest⟩ := done
  cases rest
  obtain ⟨keys, issued, hashed, holds⟩ := sound.fresh ((require_eq_ok ..).mp checked)
  constructor
  · intro absent
    cases absent
  · intro _
    exact Option.some_ne_none _
  · intro c first v
    cases first
    dsimp only
    rw [put_apply]
    by_cases one : v = 1
    · rw [if_pos one]
      exact ⟨fun _ => one, fun _ => ⟨_, rfl, rfl⟩⟩
    · rw [if_neg one, keys]
      constructor
      · rintro ⟨key, known, -⟩
        cases known
      · intro same
        exact absurd same one
  · intro c first v above
    cases first
    dsimp only
    rw [put_of_ne _ _ (by omega)]
    exact keys v
  · intro h mem
    dsimp only at mem
    rw [holds] at mem
    cases mem
  · intro e mem
    dsimp only at mem
    rw [issued] at mem
    cases mem
  · exact sound.nonces
  · intro x mem
    dsimp only at mem
    rw [hashed] at mem
    cases mem
  · exact Nat.two_pow_pos 64
  · exact sound.distinct

theorem Sound.elim {α : Type} {answer : Result α} {f : α → Session}
    (succeeds : ∀ a, answer = .ok a → Sound sha256 (f a)) : Sound sha256 (answer.toOption.elim w f) := by
  cases answer with
  | error _ => exact sound
  | ok a => exact succeeds a rfl

theorem Sound.perform (tx : Tx) : Sound sha256 (w.perform sha256 tx) := by
  unfold Session.perform
  cases tx.call with
  | initializeSecurity admin initialKey =>
    apply sound.elim
    intro s done
    exact sound.initialized done
  | encryptData caller data =>
    apply sound.elim
    intro produced done
    exact sound.issue (encryptData_spec done) fun d mem => mem_singleton.mp mem
  | exportEncrypted caller encrypted =>
    apply sound.elim
    intro produced done
    obtain ⟨plaintext, known, issues⟩ := exportEncrypted_spec done
    apply sound.issue issues
    intro d mem
    obtain ⟨h, chosen, rfl⟩ := mem_map.mp mem
    obtain ⟨held, same⟩ := mem_filter.mp chosen
    have opens := sound.opens h held
    rw [of_decide_eq_true same] at opens
    exact opens.unique known
  | rotateKey newKey =>
    apply sound.elim
    intro r done
    exact sound.rotated done
  | grantAccess | revokeAccess =>
    apply sound.elim
    intro r done
    obtain ⟨-, -, rest⟩ := (bind_eq_ok ..).mp done
    cases rest
    exact sound.kept rfl rfl rfl rfl

end

theorem run_sound (sha256 : Bytes → BytesN 32) (txs : List Tx) : Sound sha256 (Session.run sha256 txs) := by
  have step (w : Session) (sound : Sound sha256 w) : Sound sha256 (txs.foldl (Session.perform sha256) w) := by
    induction txs generalizing w with
    | nil => exact sound
    | cons tx txs ih => exact ih _ (sound.perform tx)
  exact step .deployed (deployed_sound sha256)

theorem holds_perform (w : Session) (tx : Tx) {h : Bytes × EncryptedData} (held : h ∈ w.holds) :
    h ∈ (w.perform sha256 tx).holds := by
  have kept {α : Type} (answer : Result α) (f : α → Session) (each : ∀ a, h ∈ (f a).holds) :
      h ∈ (answer.toOption.elim w f).holds := by
    cases answer with
    | error _ => exact held
    | ok a => exact each a
  unfold Session.perform
  cases tx.call with
  | initializeSecurity | rotateKey | grantAccess | revokeAccess => exact kept _ _ fun _ => held
  | encryptData | exportEncrypted => exact kept _ _ fun _ => mem_append_right _ held

theorem holds_run (before later : List Tx) {h : Bytes × EncryptedData} (held : h ∈ (Session.run sha256 before).holds) :
    h ∈ (Session.run sha256 (before ++ later)).holds := by
  have step (w : Session) (held : h ∈ w.holds) : h ∈ (later.foldl (Session.perform sha256) w).holds := by
    induction later generalizing w with
    | nil => exact held
    | cons tx later ih => exact ih _ (holds_perform w tx held)
  unfold Session.run at held ⊢
  rw [foldl_append]
  exact step _ held

structure RoundTrips (sha256 : Bytes → BytesN 32) (before after : Session) : Prop where
  decrypts : ∀ h ∈ before.holds, ∀ (env : Env) (caller : Address), env.authorized caller = true →
    isAuthorizedInternal after.state caller = .ok true → decryptData sha256 env after.state caller h.2 = .ok h.1
  active : after.state.admin ≠ none → ∃ c, after.state.currentKeyVersion = some c ∧
    ∀ v, (∃ key, after.state.key v = some key ∧ key.active = true) ↔ v = c
  nonces : Utils.CollisionFree sha256 after.hashed →
    (after.issued.map fun e => ((after.state.key e.keyVersion).map EncryptionKey.keyMaterial, e.nonce)).Nodup

/-- Whatever was encrypted, and exported any number of times, is decrypted at every later point. -/
theorem round_trips (sha256 : Bytes → BytesN 32) (before later : List Tx) :
    RoundTrips sha256 (Session.run sha256 before) (Session.run sha256 (before ++ later)) := by
  have sound := run_sound sha256 (before ++ later)
  constructor
  · intro h held env caller signed authorized
    exact decryptData_of_opens (sound.opens h (holds_run before later held)) signed authorized
  · intro started
    obtain ⟨c, current⟩ := Option.ne_none_iff_exists'.mp (sound.current started)
    exact ⟨c, current, sound.active c current⟩
  · intro collisionFree
    have nonces : ((Session.run sha256 (before ++ later)).issued.map EncryptedData.nonce).Nodup := by
      rw [sound.nonces]
      exact List.Nodup.map_on (fun x member y other same => collisionFree x member y other same) sound.distinct
    apply List.Nodup.of_map Prod.snd
    rw [map_map]
    exact nonces

def tester : Address := ⟨1⟩

def quietEnv : Env := ⟨⟨0, fun _ => true⟩, 0⟩

def startCall : Tx := ⟨quietEnv, .initializeSecurity tester (Vector.replicate 32 7)⟩

def encryptCall : Tx := ⟨quietEnv, .encryptData tester [1, 2, 3]⟩

def reuseCall : Tx := ⟨quietEnv, .rotateKey (Vector.replicate 32 7)⟩

theorem round_trips_reused :
    ((Session.run Sha256.hash [startCall, encryptCall, reuseCall, encryptCall]).issued.map fun e =>
      (((Session.run Sha256.hash [startCall, encryptCall, reuseCall, encryptCall]).state.key e.keyVersion).map
        EncryptionKey.keyMaterial, e.nonce)).Nodup := by
  have collisionFree : Utils.CollisionFree Sha256.hash
      (Session.run Sha256.hash [startCall, encryptCall, reuseCall, encryptCall]).hashed := by
    unfold Utils.CollisionFree
    decide +kernel
  exact (round_trips Sha256.hash [startCall, encryptCall, reuseCall] [encryptCall]).nonces collisionFree

end Runs

section Changes

variable {sha256 : Bytes → BytesN 32} {env : Env} {s s' : State} {caller : Address} {data plaintext : Bytes}
  {e e' : EncryptedData}

def materialOf (s : State) (e : EncryptedData) : Option (BytesN 32) := (s.key e.keyVersion).map EncryptionKey.keyMaterial

def checkedInput (sha256 : Bytes → BytesN 32) (s : State) (e : EncryptedData) : Option Bytes :=
  (materialOf s e).map fun material => macInput material e.nonce (xorCrypt sha256 material e.nonce e.ciphertext)

/-- The fields that the tag covers differ, and the tag is kept; or the tag alone differs. -/
inductive Altered (s : State) (e e' : EncryptedData) : Prop
  | content (mac : e'.mac = e.mac)
      (different : e'.ciphertext ≠ e.ciphertext ∨ e'.nonce ≠ e.nonce ∨ materialOf s e' ≠ materialOf s e)
  | mac (tag : BytesN 32) (changed : e' = { e with mac := tag }) (different : tag ≠ e.mac)

structure Rejects (sha256 : Bytes → BytesN 32) (s : State) (e : EncryptedData) : Prop where
  decrypt : ∀ (env : Env) (caller : Address) (data : Bytes), decryptData sha256 env s caller e ≠ .ok data
  exports : ∀ (env : Env) (caller : Address) (r : EncryptedData × State), exportEncrypted sha256 env s caller e ≠ .ok r

theorem opens_of_decryptData (done : decryptData sha256 env s caller e = .ok data) : Opens sha256 s e data := by
  unfold decryptData at done
  simp only [bind_eq_ok] at done
  obtain ⟨-, -, -, -, key, known, answer, checked, rest⟩ := done
  cases rest
  refine ⟨key, (present_eq_ok ..).mp known, ?_, ((require_eq_ok ..).mp checked).symm⟩
  rw [xorCrypt_xorCrypt]

theorem rejects_of_closed (closed : ∀ data, ¬Opens sha256 s e data) : Rejects sha256 s e := by
  constructor
  · intro env caller data done
    exact closed data (opens_of_decryptData done)
  · intro env caller r done
    obtain ⟨plaintext, opens, -⟩ := exportEncrypted_spec done
    exact closed plaintext opens

theorem Opens.checked (opens : Opens sha256 s e data) :
    ∃ material, materialOf s e = some material ∧ e.ciphertext = xorCrypt sha256 material e.nonce data ∧
      checkedInput sha256 s e = some (macInput material e.nonce data) ∧ e.mac = sha256 (macInput material e.nonce data) := by
  obtain ⟨key, known, made, mac⟩ := opens
  have material : materialOf s e = some key.keyMaterial := by
    unfold materialOf
    rw [known]
    rfl
  refine ⟨key.keyMaterial, material, made, ?_, mac⟩
  unfold checkedInput
  rw [material, made, Option.map_some, xorCrypt_xorCrypt]

theorem same_of_mac (opens : Opens sha256 s e data) (other : Opens sha256 s e' plaintext) (mac : e'.mac = e.mac)
    (collisionFree : Utils.CollisionFree sha256 ((checkedInput sha256 s e).toList ++ (checkedInput sha256 s e').toList)) :
    e'.ciphertext = e.ciphertext ∧ e'.nonce = e.nonce ∧ materialOf s e' = materialOf s e := by
  obtain ⟨material, known, made, input, tag⟩ := opens.checked
  obtain ⟨material', known', made', input', tag'⟩ := other.checked
  rw [input, input'] at collisionFree
  have inputs := collisionFree (macInput material' e'.nonce plaintext) (by simp) (macInput material e.nonce data) (by simp)
    (by rw [← tag', ← tag, mac])
  obtain ⟨sameKey, sameNonce, sameText⟩ := macInput_inj inputs
  refine ⟨?_, sameNonce, ?_⟩
  · rw [made', made, sameKey, sameNonce, sameText]
  · rw [known', known, sameKey]

/-- An envelope that was changed in any of these ways is rejected. -/
theorem tampering_rejected (sha256 : Bytes → BytesN 32) (txs : List Tx) (e e' : EncryptedData)
    (issued : e ∈ (Session.run sha256 txs).issued) (altered : Altered (Session.run sha256 txs).state e e')
    (collisionFree : Utils.CollisionFree sha256
      ((checkedInput sha256 (Session.run sha256 txs).state e).toList ++
        (checkedInput sha256 (Session.run sha256 txs).state e').toList)) :
    Rejects sha256 (Session.run sha256 txs).state e' := by
  obtain ⟨data, opens⟩ := (run_sound sha256 txs).issued e issued
  apply rejects_of_closed
  intro plaintext other
  cases altered with
  | content mac different =>
    obtain ⟨ciphertext, nonce, material⟩ := same_of_mac opens other mac collisionFree
    rcases different with other_text | other_nonce | other_key
    · exact other_text ciphertext
    · exact other_nonce nonce
    · exact other_key material
  | mac tag changed different =>
    rw [changed] at other
    obtain ⟨key, known, made, mac⟩ := opens
    obtain ⟨key', known', made', mac'⟩ := other
    rw [show (Session.run sha256 txs).state.key e.keyVersion = some key' from known'] at known
    cases known
    have text : plaintext = data := xorCrypt_inj (made'.symm.trans made)
    rw [text] at mac'
    exact different (mac'.trans mac.symm)

def sentEnvelope : EncryptedData :=
  (Session.run Sha256.hash [startCall, encryptCall]).issued.headD ⟨0, Vector.replicate 32 0, [], Vector.replicate 32 0⟩

theorem tampering_rejected_truncated :
    Rejects Sha256.hash (Session.run Sha256.hash [startCall, encryptCall]).state { sentEnvelope with ciphertext := [1, 2] } := by
  apply tampering_rejected Sha256.hash [startCall, encryptCall] sentEnvelope
  · decide +kernel
  · exact .content rfl (.inl (by decide +kernel))
  · unfold Utils.CollisionFree
    decide +kernel

end Changes

end SubTrackr.Security
