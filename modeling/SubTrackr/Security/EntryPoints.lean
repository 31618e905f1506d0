import SubTrackr.Lib.Sha256
import SubTrackr.Soroban
import SubTrackr.Lib.Store

namespace SubTrackr.Security

open Lib Soroban

structure EncryptionKey where
  version : Nat
  keyMaterial : BytesN 32
  createdAt : Nat
  active : Bool

structure EncryptedData where
  keyVersion : Nat
  nonce : BytesN 32
  ciphertext : Bytes
  mac : BytesN 32
  deriving DecidableEq

section Cipher

variable (sha256 : Bytes → BytesN 32)

def keystreamBlock (key nonce : BytesN 32) (counter : Nat) : BytesN 32 :=
  sha256 (key.toList ++ nonce.toList ++ beBytes 4 counter)

def xorFrom (key nonce : BytesN 32) : Nat → Nat → BytesN 32 → Bytes → Bytes
  | _, _, _, [] => []
  | i, blockIndex, ks, b :: rest =>
    if i ≠ 0 ∧ i % 32 = 0 then
      let ks := keystreamBlock sha256 key nonce (blockIndex + 1)
      (b ^^^ ks.get (Fin.ofNat 32 i)) :: xorFrom key nonce (i + 1) (blockIndex + 1) ks rest
    else (b ^^^ ks.get (Fin.ofNat 32 i)) :: xorFrom key nonce (i + 1) blockIndex ks rest

def xorCrypt (key nonce : BytesN 32) (input : Bytes) : Bytes :=
  xorFrom sha256 key nonce 0 0 (keystreamBlock sha256 key nonce 0) input

def macInput (key nonce : BytesN 32) (plaintext : Bytes) : Bytes := key.toList ++ nonce.toList ++ plaintext

def computeMac (key nonce : BytesN 32) (plaintext : Bytes) : BytesN 32 := sha256 (macInput key nonce plaintext)

def keystreamByte (key nonce : BytesN 32) (i : Nat) : UInt8 :=
  (keystreamBlock sha256 key nonce (i / 32)).get (Fin.ofNat 32 i)

variable {sha256} {key nonce key' nonce' : BytesN 32} {input plaintext plaintext' : Bytes}

theorem xorFrom_eq (i : Nat) (input : Bytes) :
    xorFrom sha256 key nonce i ((i - 1) / 32) (keystreamBlock sha256 key nonce ((i - 1) / 32)) input =
      input.mapIdx fun j b => b ^^^ keystreamByte sha256 key nonce (i + j) := by
  induction input generalizing i with
  | nil => rfl
  | cons b rest ih =>
    have later := ih (i + 1)
    rw [Nat.add_sub_cancel] at later
    have shifted : (rest.mapIdx fun j b => b ^^^ keystreamByte sha256 key nonce (i + 1 + j)) =
        rest.mapIdx fun j b => b ^^^ keystreamByte sha256 key nonce (i + (j + 1)) := by
      congr
      funext j b
      rw [Nat.add_assoc, Nat.add_comm 1 j]
    rw [List.mapIdx_cons, xorFrom]
    split
    · rename_i start
      have block : (i - 1) / 32 + 1 = i / 32 := by omega
      rw [block]
      dsimp only
      rw [later, shifted]
      rfl
    · rename_i inside
      have block : (i - 1) / 32 = i / 32 := by omega
      rw [block, later, shifted]
      rfl

theorem xorCrypt_eq (input : Bytes) :
    xorCrypt sha256 key nonce input = input.mapIdx fun i b => b ^^^ keystreamByte sha256 key nonce i := by
  have whole := @xorFrom_eq sha256 key nonce 0 input
  simp only [Nat.zero_add] at whole
  exact whole

theorem xor_undoes (i : Nat) (b : UInt8) :
    b ^^^ keystreamByte sha256 key nonce i ^^^ keystreamByte sha256 key nonce i = b := by
  rw [UInt8.xor_assoc, UInt8.xor_self, UInt8.xor_zero]

theorem xorCrypt_xorCrypt (input : Bytes) : xorCrypt sha256 key nonce (xorCrypt sha256 key nonce input) = input := by
  rw [xorCrypt_eq, xorCrypt_eq]
  exact mapIdx_undo xor_undoes

theorem xorCrypt_inj {ciphertext ciphertext' : Bytes}
    (same : xorCrypt sha256 key nonce ciphertext = xorCrypt sha256 key nonce ciphertext') : ciphertext = ciphertext' := by
  rw [xorCrypt_eq, xorCrypt_eq] at same
  exact mapIdx_masks_inj xor_undoes same

theorem macInput_inj (same : macInput key nonce plaintext = macInput key' nonce' plaintext') :
    key = key' ∧ nonce = nonce' ∧ plaintext = plaintext' := by
  unfold macInput at same
  rw [List.append_assoc, List.append_assoc] at same
  obtain ⟨keys, rest⟩ := List.append_inj same (by simp)
  obtain ⟨nonces, plaintexts⟩ := List.append_inj rest (by simp)
  exact ⟨Vector.toList_inj.mp keys, Vector.toList_inj.mp nonces, plaintexts⟩

end Cipher

structure State where
  admin : Option Address
  currentKeyVersion : Option Nat
  key : Store Nat EncryptionKey
  authorized : Store Address Bool
  (rotationCount nonceCounter : Option Nat)

def State.empty : State := ⟨none, none, fun _ => none, fun _ => none, none, none⟩

structure Env extends Host where
  sequence : Nat

def nonceInput (keyMaterial : BytesN 32) (counter : Nat) (env : Env) : Bytes :=
  keyMaterial.toList ++ beBytes 8 counter ++ beBytes 8 env.timestamp ++ beBytes 4 env.sequence

inductive Event where
  | keyRotated (current newVersion : Nat)
  | accessGranted (account : Address)
  | accessRevoked (account : Address)

def initializeSecurity (env : Env) (s : State) (admin : Address) (initialKey : BytesN 32) : Result State := do
  ensure (s.admin = none) "Already initialized"
  env.requireAuth admin
  return { s with
    admin := some admin
    key := put s.key 1 ⟨1, initialKey, env.timestamp, true⟩
    currentKeyVersion := some 1
    rotationCount := some 0
    nonceCounter := some 0 }

def admin (s : State) : Result Address := expect s.admin "Not initialized"

def requireAdmin (env : Env) (s : State) : Result Unit := do
  let administrator ← admin s
  env.requireAuth administrator

def isAuthorizedInternal (s : State) (account : Address) : Result Bool := do
  let administrator ← admin s
  return account = administrator || (s.authorized account).getD false

def requireAuthorized (s : State) (account : Address) : Result Unit := do
  let authorized ← isAuthorizedInternal s account
  ensure (authorized = true) "Unauthorized: account may not access PII encryption"

def loadKey (s : State) (version : Nat) : Result EncryptionKey := expect (s.key version) "Encryption key version not found"

def currentKeyVersion (s : State) : Result Nat := expect s.currentKeyVersion "Not initialized"

def rotationCount (s : State) : Nat := s.rotationCount.getD 0

section Calls

variable (sha256 : Bytes → BytesN 32)

def nextNonce (env : Env) (s : State) (keyMaterial : BytesN 32) : Result (BytesN 32 × State) := do
  let counter ← u64 (s.nonceCounter.getD 0 + 1)
  return (sha256 (nonceInput keyMaterial counter env), { s with nonceCounter := some counter })

def encryptData (env : Env) (s : State) (caller : Address) (data : Bytes) : Result (EncryptedData × State) := do
  env.requireAuth caller
  requireAuthorized s caller
  let version ← currentKeyVersion s
  let key ← loadKey s version
  ensure (key.active = true) "Current key is not active"
  let (nonce, s) ← nextNonce sha256 env s key.keyMaterial
  return (
    { keyVersion := version
      nonce
      ciphertext := xorCrypt sha256 key.keyMaterial nonce data
      mac := computeMac sha256 key.keyMaterial nonce data }, s)

def decryptData (env : Env) (s : State) (caller : Address) (encrypted : EncryptedData) : Result Bytes := do
  env.requireAuth caller
  requireAuthorized s caller
  let key ← loadKey s encrypted.keyVersion
  let plaintext := xorCrypt sha256 key.keyMaterial encrypted.nonce encrypted.ciphertext
  let mac := computeMac sha256 key.keyMaterial encrypted.nonce plaintext
  ensure (mac = encrypted.mac) "MAC verification failed: data tampered or wrong key"
  return plaintext

def exportEncrypted (env : Env) (s : State) (caller : Address) (encrypted : EncryptedData) :
    Result (EncryptedData × State) := do
  env.requireAuth caller
  requireAuthorized s caller
  let oldKey ← loadKey s encrypted.keyVersion
  let plaintext := xorCrypt sha256 oldKey.keyMaterial encrypted.nonce encrypted.ciphertext
  let check := computeMac sha256 oldKey.keyMaterial encrypted.nonce plaintext
  ensure (check = encrypted.mac) "MAC verification failed: data tampered or wrong key"
  let version ← currentKeyVersion s
  let key ← loadKey s version
  let (nonce, s) ← nextNonce sha256 env s key.keyMaterial
  return (
    { keyVersion := version
      nonce
      ciphertext := xorCrypt sha256 key.keyMaterial nonce plaintext
      mac := computeMac sha256 key.keyMaterial nonce plaintext }, s)

end Calls

def rotateKey (env : Env) (s : State) (newKey : BytesN 32) : Result (Nat × State × Event) := do
  requireAdmin env s
  let current ← currentKeyVersion s
  let old ← loadKey s current
  let newVersion ← u32 (current + 1)
  let rotations ← u64 (rotationCount s + 1)
  return (newVersion,
    { s with
      key := put (put s.key current { old with active := false }) newVersion ⟨newVersion, newKey, env.timestamp, true⟩
      currentKeyVersion := some newVersion
      rotationCount := some rotations },
    .keyRotated current newVersion)

def grantAccess (env : Env) (s : State) (account : Address) : Result (State × Event) := do
  requireAdmin env s
  return ({ s with authorized := put s.authorized account true }, .accessGranted account)

def revokeAccess (env : Env) (s : State) (account : Address) : Result (State × Event) := do
  requireAdmin env s
  return ({ s with authorized := remove s.authorized account }, .accessRevoked account)

inductive Call where
  | initializeSecurity (admin : Address) (initialKey : BytesN 32)
  | encryptData (caller : Address) (data : Bytes)
  | exportEncrypted (caller : Address) (encrypted : EncryptedData)
  | rotateKey (newKey : BytesN 32)
  | grantAccess (account : Address)
  | revokeAccess (account : Address)

structure Tx where
  env : Env
  call : Call

/-- The contract, with the data that the envelopes were made for, all envelopes, and what was hashed for their nonces. -/
structure Session where
  state : State
  holds : List (Bytes × EncryptedData)
  issued : List EncryptedData
  hashed : List Bytes

def nextInput (env : Env) (s : State) : Option Bytes :=
  (s.currentKeyVersion.bind s.key).map fun key => nonceInput key.keyMaterial (s.nonceCounter.getD 0 + 1) env

namespace Session

def deployed : Session := ⟨.empty, [], [], []⟩

def heldIn (w : Session) (encrypted : EncryptedData) : List Bytes := (w.holds.filter fun h => h.2 = encrypted).map Prod.fst

def issue (w : Session) (env : Env) (data : List Bytes) (produced : EncryptedData × State) : Session where
  state := produced.2
  holds := data.map (fun d => (d, produced.1)) ++ w.holds
  issued := produced.1 :: w.issued
  hashed := (nextInput env w.state).toList ++ w.hashed

def perform (sha256 : Bytes → BytesN 32) (w : Session) (tx : Tx) : Session :=
  match tx.call with
  | .initializeSecurity admin initialKey =>
    (initializeSecurity tx.env w.state admin initialKey).toOption.elim w fun s => { w with state := s }
  | .encryptData caller data => (encryptData sha256 tx.env w.state caller data).toOption.elim w (w.issue tx.env [data])
  | .exportEncrypted caller encrypted =>
    (exportEncrypted sha256 tx.env w.state caller encrypted).toOption.elim w (w.issue tx.env (w.heldIn encrypted))
  | .rotateKey newKey => (rotateKey tx.env w.state newKey).toOption.elim w fun r => { w with state := r.2.1 }
  | .grantAccess account => (grantAccess tx.env w.state account).toOption.elim w fun r => { w with state := r.1 }
  | .revokeAccess account => (revokeAccess tx.env w.state account).toOption.elim w fun r => { w with state := r.1 }

def run (sha256 : Bytes → BytesN 32) (txs : List Tx) : Session := txs.foldl (perform sha256) deployed

end Session

section Specs

variable {sha256 : Bytes → BytesN 32} {env : Env} {s s' : State} {caller : Address} {data plaintext : Bytes}
  {e encrypted : EncryptedData} {newKey : BytesN 32}

def Opens (sha256 : Bytes → BytesN 32) (s : State) (e : EncryptedData) (data : Bytes) : Prop :=
  ∃ key, s.key e.keyVersion = some key ∧ e.ciphertext = xorCrypt sha256 key.keyMaterial e.nonce data ∧
    e.mac = computeMac sha256 key.keyMaterial e.nonce data

structure Issues (sha256 : Bytes → BytesN 32) (env : Env) (s : State) (data : Bytes) (e : EncryptedData) (s' : State) : Prop where
  counter : s' = { s with nonceCounter := some (s.nonceCounter.getD 0 + 1) }
  fits : s.nonceCounter.getD 0 + 1 < 2 ^ 64
  input : ∃ material, nextInput env s = some (nonceInput material (s.nonceCounter.getD 0 + 1) env)
  nonce : ∀ x ∈ nextInput env s, e.nonce = sha256 x
  opens : Opens sha256 s' e data

theorem nextNonce_eq_ok {material nonce : BytesN 32} (done : nextNonce sha256 env s material = .ok (nonce, s')) :
    s.nonceCounter.getD 0 + 1 < 2 ^ 64 ∧ nonce = sha256 (nonceInput material (s.nonceCounter.getD 0 + 1) env) ∧
      s' = { s with nonceCounter := some (s.nonceCounter.getD 0 + 1) } := by
  unfold nextNonce at done
  obtain ⟨counter, counted, rest⟩ := (bind_eq_ok ..).mp done
  obtain ⟨fits, rfl⟩ := (below_eq_ok ..).mp counted
  obtain ⟨rfl, rfl⟩ := Prod.mk.inj (Except.ok.inj rest)
  exact ⟨fits, rfl, rfl⟩

theorem issues_of_nextNonce {version : Nat} {key : EncryptionKey} {nonce : BytesN 32}
    (current : s.currentKeyVersion = some version) (found : s.key version = some key)
    (done : nextNonce sha256 env s key.keyMaterial = .ok (nonce, s')) :
    Issues sha256 env s data
      ⟨version, nonce, xorCrypt sha256 key.keyMaterial nonce data, computeMac sha256 key.keyMaterial nonce data⟩ s' := by
  obtain ⟨fits, rfl, rfl⟩ := nextNonce_eq_ok done
  have input : nextInput env s = some (nonceInput key.keyMaterial (s.nonceCounter.getD 0 + 1) env) := by
    unfold nextInput
    rw [current, Option.bind_some, found]
    rfl
  constructor
  · rfl
  · exact fits
  · exact ⟨_, input⟩
  · intro x given
    rw [input] at given
    cases given
    rfl
  · exact ⟨key, found, rfl, rfl⟩

theorem encryptData_spec (done : encryptData sha256 env s caller data = .ok (e, s')) : Issues sha256 env s data e s' := by
  unfold encryptData at done
  simp only [bind_eq_ok] at done
  obtain ⟨-, -, -, -, version, current, key, found, -, -, ⟨nonce, next⟩, derived, rest⟩ := done
  obtain ⟨rfl, rfl⟩ := Prod.mk.inj (Except.ok.inj rest)
  exact issues_of_nextNonce ((present_eq_ok ..).mp current) ((present_eq_ok ..).mp found) derived

theorem exportEncrypted_spec (done : exportEncrypted sha256 env s caller encrypted = .ok (e, s')) :
    ∃ plaintext, Opens sha256 s encrypted plaintext ∧ Issues sha256 env s plaintext e s' := by
  unfold exportEncrypted at done
  simp only [bind_eq_ok] at done
  obtain ⟨-, -, -, -, oldKey, known, answer, checked, version, current, key, found, ⟨nonce, next⟩, derived, rest⟩ := done
  obtain ⟨rfl, rfl⟩ := Prod.mk.inj (Except.ok.inj rest)
  have mac := (require_eq_ok ..).mp checked
  refine ⟨_, ⟨oldKey, (present_eq_ok ..).mp known, ?_, mac.symm⟩,
    issues_of_nextNonce ((present_eq_ok ..).mp current) ((present_eq_ok ..).mp found) derived⟩
  rw [xorCrypt_xorCrypt]

theorem Opens.unique (opens : Opens sha256 s e data) (other : Opens sha256 s e plaintext) : data = plaintext := by
  obtain ⟨key, found, made, -⟩ := opens
  obtain ⟨key', found', made', -⟩ := other
  rw [found] at found'
  cases found'
  rw [made] at made'
  exact xorCrypt_inj made'

def KeepsKeys (s s' : State) : Prop :=
  ∀ v key, s.key v = some key → ∃ key', s'.key v = some key' ∧ key'.keyMaterial = key.keyMaterial

theorem Opens.kept (opens : Opens sha256 s e data) (keeps : KeepsKeys s s') : Opens sha256 s' e data := by
  obtain ⟨key, found, made, mac⟩ := opens
  obtain ⟨key', found', same⟩ := keeps _ key found
  exact ⟨key', found', by rw [same, made], by rw [same, mac]⟩

theorem decryptData_of_opens (opens : Opens sha256 s e data) (signed : env.authorized caller = true)
    (authorized : isAuthorizedInternal s caller = .ok true) : decryptData sha256 env s caller e = .ok data := by
  obtain ⟨key, found, made, mac⟩ := opens
  have auth : env.requireAuth caller = .ok () := (require_eq_ok ..).mpr signed
  have allowed : requireAuthorized s caller = .ok () := by
    unfold requireAuthorized
    rw [authorized]
    rfl
  have loaded : loadKey s e.keyVersion = .ok key := (present_eq_ok ..).mpr found
  unfold decryptData
  rw [auth, ok_bind, allowed, ok_bind, loaded, ok_bind]
  dsimp only
  rw [made, xorCrypt_xorCrypt, ← mac]
  have checked : ensure (e.mac = e.mac) "MAC verification failed: data tampered or wrong key" = .ok () := if_pos rfl
  rw [checked]
  rfl

end Specs

end SubTrackr.Security
