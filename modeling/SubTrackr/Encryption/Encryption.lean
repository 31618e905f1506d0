import SubTrackr.Lib.Double
import SubTrackr.Lib.Fallible
import SubTrackr.Lib.InsertionMap
import SubTrackr.Lib.Radix
import SubTrackr.Lib.Utf16
import Mathlib.Data.FinEnum

namespace SubTrackr.Encryption

open Lib

abbrev JsString := List UInt16

abbrev Buffer := List UInt8

def text (s : String) : JsString := Utf16.encode s.toList

/-- What the crypto module computes, and the text that is read from bytes that are not UTF-8. -/
structure Crypto where
  hmac (key message : Buffer) : Buffer
  encrypt (key iv plaintext : Buffer) : Buffer × Buffer
  decrypt (key iv authTag ciphertext : Buffer) : Option Buffer
  replaceInvalid (bytes : Buffer) : JsString

/-- AES-256-GCM: decryption inverts encryption, and a ciphertext is as long as its plaintext. -/
structure Crypto.Inverts (c : Crypto) : Prop where
  decrypt_encrypt : ∀ key iv plaintext, key.length = 32 → iv.length = 16 →
    c.decrypt key iv (c.encrypt key iv plaintext).2 (c.encrypt key iv plaintext).1 = some plaintext
  length_encrypt : ∀ key iv plaintext, key.length = 32 → iv.length = 16 →
    (c.encrypt key iv plaintext).1.length = plaintext.length
  length_hmac : ∀ key message, (c.hmac key message).length = 32

def utf8 (s : JsString) : Buffer := (String.ofList (Utf16.decode s)).toUTF8.data.toList

def toBase64 (bytes : Buffer) : JsString := Utf16.encode (Base64.encode bytes)

def ofBase64 (s : JsString) : Buffer := Base64url.decodeBytes (Utf16.decode s)

structure EncryptionKey where
  id : JsString
  version : ℤ
  key : Buffer
  (createdAt expiresAt : ℤ)

structure EncryptedField where
  (ciphertext iv authTag keyId : JsString)

structure DecryptedField where
  (value keyId : JsString)
  keyVersion : ℤ

/-- A value of a row. The fields of an object stand in the order in which they are enumerated. -/
inductive Value
  | null
  | boolean (b : Bool)
  | number (x : Double)
  | string (s : JsString)
  | date (time : Double)
  | array (items : List Value)
  | object (fields : List (JsString × Value))

abbrev Fields := List (JsString × Value)

def algorithm : JsString := text "aes-256-gcm"

def piiFields : List JsString :=
  ["email", "name", "phoneNumber", "address", "businessName", "recipientEmail", "subscriberId"].map text

def isPiiField (fieldName : JsString) : Bool := piiFields.contains fieldName

section Fields

variable (c : Crypto)

def ofUtf8 (bytes : Buffer) : JsString :=
  match String.fromUTF8? ⟨bytes.toArray⟩ with
  | some s => text s
  | none => c.replaceInvalid bytes

def deriveKey (masterKey : Buffer) (context : String) (version : ℤ) : Buffer :=
  c.hmac masterKey (utf8 (text context) ++ utf8 (text (toString version)))

def encryptField (plaintext : JsString) (key : EncryptionKey) (iv : Vector UInt8 16) : EncryptedField :=
  if plaintext = [] then { ciphertext := [], iv := [], authTag := [], keyId := key.id }
  else
    let (encrypted, authTag) := c.encrypt key.key iv.toList (utf8 plaintext)
    { ciphertext := toBase64 encrypted, iv := toBase64 iv.toList, authTag := toBase64 authTag, keyId := key.id }

def decryptField (encrypted : EncryptedField) (key : EncryptionKey) : Option DecryptedField :=
  if encrypted.ciphertext = [] then some { value := [], keyId := encrypted.keyId, keyVersion := key.version }
  else
    (c.decrypt key.key (ofBase64 encrypted.iv) (ofBase64 encrypted.authTag) (ofBase64 encrypted.ciphertext)).map fun
      decrypted => { value := ofUtf8 c decrypted, keyId := encrypted.keyId, keyVersion := key.version }

end Fields

def truthy : Value → Bool
  | .null => false
  | .boolean b => b
  | .number x => decide (x ≠ .nan ∧ x ≠ 0)
  | .string s => decide (s ≠ [])
  | .date _ | .array _ | .object _ => true

def Value.string? : Value → Option JsString
  | .string s => some s
  | _ => none

def stringAt (fields : Fields) (name : String) : Option JsString := (fields.lookup (text name)).bind Value.string?

def asEncryptedField (fields : Fields) : Option EncryptedField := do
  let ciphertext ← stringAt fields "ciphertext"
  let iv ← stringAt fields "iv"
  let authTag ← stringAt fields "authTag"
  let keyId ← stringAt fields "keyId"
  if stringAt fields "algorithm" = some algorithm then some ⟨ciphertext, iv, authTag, keyId⟩ else none

def isEncryptedField (fields : Fields) : Bool := (asEncryptedField fields).isSome

def EncryptedField.toFields (encrypted : EncryptedField) : Fields :=
  [(text "ciphertext", .string encrypted.ciphertext), (text "iv", .string encrypted.iv),
    (text "authTag", .string encrypted.authTag), (text "keyId", .string encrypted.keyId),
    (text "algorithm", .string algorithm)]

def proto : JsString := text "__proto__"

def hasCiphertext (fields : Fields) : Bool := ((fields.lookup (text "ciphertext")).map truthy).getD false

section Objects

variable (c : Crypto)

mutual

def encryptValue (key : EncryptionKey) (ivs : List JsString → Vector UInt8 16) (depth : ℕ) (fieldName : JsString) : Value → Value
  | .string s => if isPiiField fieldName then .object (encryptField c s key (ivs [])).toFields else .string s
  | .object fields =>
    if hasCiphertext fields then .object fields
    else if 10 < depth + 1 then .object fields
    else .object (encryptEntries key ivs (depth + 1) fields)
  | .date time => if 10 < depth + 1 then .date time else .object []
  | .null => .null
  | .boolean b => .boolean b
  | .number x => .number x
  | .array items => .array items

def encryptEntries (key : EncryptionKey) (ivs : List JsString → Vector UInt8 16) (depth : ℕ) : Fields → Fields
  | [] => []
  | (fieldName, value) :: rest =>
    if fieldName = proto then encryptEntries key ivs depth rest
    else (fieldName, encryptValue key (fun path => ivs (fieldName :: path)) depth fieldName value) ::
      encryptEntries key ivs depth rest

end

def encryptObject (obj : Fields) (key : EncryptionKey) (ivs : List JsString → Vector UInt8 16) : Fields :=
  encryptEntries c key ivs 0 obj

def decryptedField (encrypted : EncryptedField) (getKey : JsString → Option EncryptionKey) (fields : Fields) : Value :=
  match (getKey encrypted.keyId).bind (decryptField c encrypted) with
  | some decrypted => .string decrypted.value
  | none => .object fields

mutual

def decryptValue (getKey : JsString → Option EncryptionKey) (depth : ℕ) : Value → Value
  | .object fields =>
    match asEncryptedField fields with
    | some encrypted => decryptedField c encrypted getKey fields
    | none => if 10 < depth + 1 then .object fields else .object (decryptEntries getKey (depth + 1) fields)
  | .date time => if 10 < depth + 1 then .date time else .object []
  | .string s => .string s
  | .null => .null
  | .boolean b => .boolean b
  | .number x => .number x
  | .array items => .array items

def decryptEntries (getKey : JsString → Option EncryptionKey) (depth : ℕ) : Fields → Fields
  | [] => []
  | (fieldName, value) :: rest =>
    if fieldName = proto then decryptEntries getKey depth rest
    else (fieldName, decryptValue getKey depth value) :: decryptEntries getKey depth rest

end

def decryptObject (obj : Fields) (getKey : JsString → Option EncryptionKey) : Fields := decryptEntries c getKey 0 obj

end Objects

structure SerializedKey where
  id : JsString
  version : ℤ
  key : JsString
  (createdAt expiresAt : ℤ)

structure Serialized where
  activeKeyId : JsString
  keys : List SerializedKey

structure EncryptionService where
  keys : InsertionMap JsString EncryptionKey
  activeKeyId : JsString

def validateEncryptionKey (keyBuf : Buffer) : Except String Unit := do
  require (keyBuf.length = 32) s!"Invalid encryption key length: expected 32 bytes, got {keyBuf.length}"
  require (¬ ∀ b ∈ keyBuf, b = 0) "Encryption key must not be all-zero bytes"

def generateEncryptionKey (c : Crypto) (masterKey : Buffer) (version : ℤ) (id : JsString) (now : ℤ) : EncryptionKey where
  id := id
  version := version
  key := deriveKey c masterKey "pii-encryption" version
  createdAt := now
  expiresAt := now + 90 * 24 * 60 * 60 * 1000

def SerializedKey.restore (k : SerializedKey) : EncryptionKey where
  id := k.id
  version := k.version
  key := ofBase64 k.key
  createdAt := k.createdAt
  expiresAt := k.expiresAt

def activeKeyNotFound (activeKeyId : JsString) : String :=
  s!"Active key {String.ofList (Utf16.decode activeKeyId)} not found in key ring"

namespace EncryptionService

variable (c : Crypto)

def create (masterKey : Buffer) (initialVersion : ℤ) (id : JsString) (now : ℤ) : Except String EncryptionService := do
  validateEncryptionKey masterKey
  let initial := generateEncryptionKey c masterKey initialVersion id now
  return { keys := (∅ : InsertionMap JsString EncryptionKey).set initial.id initial, activeKeyId := initial.id }

def toJSON (s : EncryptionService) : Serialized where
  activeKeyId := s.activeKeyId
  keys := s.keys.values.map fun k => ⟨k.id, k.version, toBase64 k.key, k.createdAt, k.expiresAt⟩

def fromJSON (data : Serialized) : Except String EncryptionService := do
  let keys := InsertionMap.ofValues EncryptionKey.id (data.keys.map SerializedKey.restore)
  require (keys.get data.activeKeyId).isSome (activeKeyNotFound data.activeKeyId)
  return { keys := keys, activeKeyId := data.activeKeyId }

def getActiveKey (s : EncryptionService) : Option EncryptionKey := s.keys.get s.activeKeyId

def highestVersion (s : EncryptionService) : ℤ := (s.keys.values.map EncryptionKey.version).max?.getD 0

def rotateKey (s : EncryptionService) (masterKey : Buffer) (id : JsString) (now : ℤ) :
    Except String (EncryptionService × EncryptionKey) := do
  validateEncryptionKey masterKey
  let newKey := generateEncryptionKey c masterKey (s.highestVersion + 1) id now
  return ({ keys := s.keys.set newKey.id newKey, activeKeyId := newKey.id }, newKey)

def toRemove (s : EncryptionService) (keepCount : ℕ) : List EncryptionKey :=
  (s.keys.values.mergeSort fun a b => decide (b.version ≤ a.version)).drop keepCount

def pruneOldKeys (s : EncryptionService) (keepCount : ℕ) : EncryptionService :=
  { s with keys := (s.toRemove keepCount).foldl (fun keys k => keys.erase k.id) s.keys }

def encryptObject (s : EncryptionService) (obj : Fields) (ivs : List JsString → Vector UInt8 16) : Option Fields :=
  s.getActiveKey.map fun key => Encryption.encryptObject c obj key ivs

def decryptObject (s : EncryptionService) (obj : Fields) : Fields := Encryption.decryptObject c obj s.keys.get

end EncryptionService

inductive Action where
  | rotateKey (masterKey : Buffer) (id : JsString) (now : ℤ)
  | pruneOldKeys (keepCount : ℕ)
  | serialise

def EncryptionService.step (c : Crypto) (s : EncryptionService) : Action → EncryptionService
  | .rotateKey masterKey id now =>
    match s.rotateKey c masterKey id now with
    | .ok (s', _) => s'
    | .error _ => s
  | .pruneOldKeys keepCount => s.pruneOldKeys keepCount
  | .serialise =>
    match EncryptionService.fromJSON s.toJSON with
    | .ok s' => s'
    | .error _ => s

end SubTrackr.Encryption
