import Mathlib.Algebra.Order.Ring.Rat
import SubTrackr.Lib.Fallible
import SubTrackr.Lib.JsValue
import SubTrackr.Lib.Radix
import SubTrackr.Lib.Sha256
import SubTrackr.Lib.Store
import SubTrackr.Lib.Text

namespace SubTrackr.Webhook

open Lib

structure KeyStore where
  current : String
  previous : Option String

namespace KeyStore

def new (initialKey : String) : KeyStore := ⟨initialKey, none⟩

def getActiveKeys (keys : KeyStore) : List String :=
  match keys.previous with
  | some previous => if previous = "" then [keys.current] else [keys.current, previous]
  | none => [keys.current]

def rotate (keys : KeyStore) (newKey : String) : KeyStore := ⟨newKey, some keys.current⟩

def setKeys (current : String) (previous : Option String) : KeyStore := ⟨current, previous⟩

end KeyStore

structure NonceCache where
  memory : Store String ℚ

namespace NonceCache

def new : NonceCache := ⟨fun _ => none⟩

/-- `reply` is what the server said, `none` where there is no server or the call to it failed. -/
def has (cache : NonceCache) (now : ℤ) (nonce : String) (reply : Option Bool) : Bool × NonceCache :=
  match reply with
  | some found => (found, cache)
  | none =>
    match cache.memory nonce with
    | none => (false, cache)
    | some expires =>
      if expires = 0 then (false, cache)
      else if expires < now then (false, ⟨remove cache.memory nonce⟩)
      else (true, cache)

def set (cache : NonceCache) (now : ℤ) (nonce : String) (ttlSeconds : ℚ) (done : Bool) : NonceCache :=
  if done then cache else ⟨put cache.memory nonce (now + ttlSeconds * 1000)⟩

end NonceCache

structure SignatureOptions where
  timestampTolerance : ℚ := 300
  clockSkewTolerance : ℚ := 30
  nonceTtl : ℚ := 600

inductive VerifyError where
  | missingHeader | invalidHeader | unsupportedVersion | outsideTolerance | replay | mismatch
  deriving DecidableEq

def VerifyError.message : VerifyError → String
  | missingHeader => "missing signature header"
  | invalidHeader => "invalid signature header"
  | unsupportedVersion => "unsupported signature version"
  | outsideTolerance => "timestamp outside tolerance"
  | replay => "replay detected"
  | mismatch => "signature mismatch"

def parseInt (text : List Char) : Option ℤ :=
  let digits := fun cs : List Char =>
    match cs.takeWhile Char.isDigit with
    | [] => none
    | ds => some (Nat.ofDigitChars 10 ds 0 : ℤ)
  match text.dropWhile Text.isWhiteSpace with
  | '-' :: rest => (digits rest).map (- ·)
  | '+' :: rest => digits rest
  | rest => digits rest

structure Signed where
  (header sig : List Char)
  ts : ℤ
  nonce : List Char

structure Parsed where
  ts : ℤ
  (sig nonce : List Char)

def hmacSha256 (key message : String) : Vector UInt8 32 :=
  let bytes := key.toUTF8.toList
  let shortened := if 64 < bytes.length then (Sha256.hash bytes).toList else bytes
  let block := shortened ++ List.replicate (64 - shortened.length) 0
  let inner := Sha256.hash (block.map (· ^^^ 0x36) ++ message.toUTF8.toList)
  Sha256.hash (block.map (· ^^^ 0x5c) ++ inner.toList)

example : (hmacSha256 "key" "The quick brown fox jumps over the lazy dog").toList.take 4 = [0xf7, 0xbc, 0x83, 0xf4] := by
  decide +kernel

section Service

variable (hmac : String → String → Vector UInt8 32)

def message (ts : ℤ) (body : String) : String := String.ofList (Numeral.signedDigits ts) ++ "." ++ body

def digest (key : String) (ts : ℤ) (body : String) : List Char := Base64.encode (hmac key (message ts body)).toList

def headerOf (ts : ℤ) (sig nonce : List Char) : List Char :=
  ['t', '='] ++ Numeral.signedDigits ts ++ [',', 's', '='] ++ sig ++ [',', 'v', '=', '1', ',', 'n', '='] ++ nonce

def generate (keys : KeyStore) (now : ℤ) (random : List Char) (body : String) (secret : Option String) (timestamp : Option ℤ)
    (nonce : Option (List Char)) : Signed :=
  let ts := timestamp.getD (now / 1000)
  let n := nonce.getD random
  let sig := digest hmac (secret.getD keys.current) ts body
  { header := headerOf ts sig n, sig := sig, ts := ts, nonce := n }

def assign (map : Store (List Char) (List Char)) (part : List Char) : Store (List Char) (List Char) :=
  match (Text.trim part).splitOn '=' with
  | k :: v :: _ => if k = [] ∨ v = [] ∨ k = "__proto__".toList then map else put map k v
  | _ => map

def parseHeader (header : List Char) : Store (List Char) (List Char) := (header.splitOn ',').foldl assign fun _ => none

def readHeader (opts : SignatureOptions) (now : ℤ) (header : List Char) : Except VerifyError Parsed :=
  if header = [] then .error .missingHeader
  else
    let parsed := parseHeader header
    match (parsed ['t']).bind parseInt, parsed ['s'], parsed ['v'], parsed ['n'] with
    | some ts, some sig, some ver, some nonce =>
      if ts = 0 then .error .invalidHeader
      else if ver ≠ ['1'] then .error .unsupportedVersion
      else if opts.timestampTolerance + opts.clockSkewTolerance < |((now / 1000 - ts : ℤ) : ℚ)| then .error .outsideTolerance
      else .ok ⟨ts, sig, nonce⟩
    | _, _, _, _ => .error .invalidHeader

def isSigned (keys : KeyStore) (rawBody : String) (parsed : Parsed) : Bool :=
  keys.getActiveKeys.any fun k => digest hmac k parsed.ts rawBody == parsed.sig

def verify (keys : KeyStore) (opts : SignatureOptions) (cache : NonceCache) (now : ℤ) (reply : Option Bool) (done : Bool)
    (rawBody : String) (header : List Char) : Except VerifyError NonceCache := do
  let parsed ← readHeader opts now header
  let (found, cache) := cache.has now (String.ofList parsed.nonce) reply
  require (found = false) .replay
  require (isSigned hmac keys rawBody parsed = true) .mismatch
  .ok (cache.set now (String.ofList parsed.nonce) opts.nonceTtl done)

end Service

end SubTrackr.Webhook
