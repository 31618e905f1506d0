import SubTrackr.Webhook.SignatureService

namespace SubTrackr.Webhook

open Lib

variable {hmac : String → String → Vector UInt8 32}

section Header

variable {map : Store (List Char) (List Char)} {parts : List (List Char)} {header part k v : List Char}

def Unmarked (map : Store (List Char) (List Char)) : Prop := ∀ k v, map k = some v → '=' ∉ v

theorem Unmarked.assign (unmarked : Unmarked map) (part : List Char) : Unmarked (assign map part) := by
  unfold Webhook.assign
  cases split : (Text.trim part).splitOn '=' with
  | nil => exact unmarked
  | cons k rest =>
    cases rest with
    | nil => exact unmarked
    | cons v rest =>
      dsimp only
      by_cases skipped : k = [] ∨ v = [] ∨ k = "__proto__".toList
      · rw [if_pos skipped]
        exact unmarked
      · rw [if_neg skipped]
        intro j w found
        rcases (put_eq_some map k j v w).mp found with ⟨rfl, rfl⟩ | ⟨-, old⟩
        · have mem : v ∈ (Text.trim part).splitOn '=' := by simp [split]
          exact Text.mark_notMem_of_mem_splitOn mem
        · exact unmarked j w old

theorem unmarked_parseHeader (header : List Char) : Unmarked (parseHeader header) := by
  unfold parseHeader
  induction header.splitOn ',' using List.reverseRecOn with
  | nil => simp [Unmarked]
  | append_singleton parts part ih =>
    rw [List.foldl_append, List.foldl_cons, List.foldl_nil]
    exact ih.assign part

theorem sig_unmarked {opts : SignatureOptions} {now : ℤ} {parsed : Parsed} (read : readHeader opts now header = .ok parsed) :
    '=' ∉ parsed.sig := by
  have unmarked := unmarked_parseHeader header
  unfold readHeader at read
  split at read
  · cases read
  · dsimp only at read
    split at read
    · rename_i ts sig ver nonce _ found _ _
      split at read
      · cases read
      split at read
      · cases read
      split at read
      · cases read
      · cases read
        exact unmarked _ _ found
    · cases read

theorem mark_mem_digest (key : String) (ts : ℤ) (body : String) : '=' ∈ digest hmac key ts body := by
  obtain ⟨text, padding, same, -, pads⟩ := Base64.encode_eq (hmac key (message ts body)).toList
  rw [Vector.length_toList] at pads
  rw [digest, same, pads]
  simp

theorem isSigned_eq_false {keys : KeyStore} {rawBody : String} {parsed : Parsed} (unmarked : '=' ∉ parsed.sig) :
    isSigned hmac keys rawBody parsed = false := by
  rw [isSigned, List.any_eq_false]
  intro key _ same
  rw [beq_iff_eq] at same
  exact unmarked (same ▸ mark_mem_digest key parsed.ts rawBody)

theorem verify_ne_ok (keys : KeyStore) (opts : SignatureOptions) (cache cache' : NonceCache) (now : ℤ) (reply : Option Bool)
    (done : Bool) (rawBody : String) (header : List Char) :
    verify hmac keys opts cache now reply done rawBody header ≠ .ok cache' := by
  intro accepted
  unfold verify at accepted
  rw [bind_eq_ok] at accepted
  obtain ⟨parsed, read, accepted⟩ := accepted
  rw [isSigned_eq_false (sig_unmarked read)] at accepted
  simp only [bind_eq_ok, require] at accepted
  obtain ⟨_, _, _, refused, _⟩ := accepted
  cases refused

end Header

structure Verifies (hmac : String → String → Vector UInt8 32) (opts : SignatureOptions) (keys : KeyStore) (signedAt : ℤ)
    (nonce : List Char) (body : String) : Prop where
  accepted : ∀ keys' cache now reply done, (keys' = keys ∨ ∃ newKey, keys' = keys.rotate newKey) →
    |((now / 1000 - signedAt / 1000 : ℤ) : ℚ)| ≤ opts.timestampTolerance → (cache.has now (String.ofList nonce) reply).1 = false →
    ∃ cache', verify hmac keys' opts cache now reply done body
      (generate hmac keys signedAt nonce body none none none).header = .ok cache'
  bodies : Function.Injective2 hmac → ∀ keys' cache cache' now reply done body', body' ≠ body →
    verify hmac keys' opts cache now reply done body' (generate hmac keys signedAt nonce body none none none).header ≠ .ok cache'
  timestamps : Function.Injective2 hmac → ∀ keys' cache cache' now reply done ts', ts' ≠ signedAt / 1000 →
    verify hmac keys' opts cache now reply done body
      (headerOf ts' (generate hmac keys signedAt nonce body none none none).sig nonce) ≠ .ok cache'

section Verifies

variable (opts : SignatureOptions) (keys : KeyStore) (signedAt : ℤ) (nonce : List Char) (body : String)

theorem not_verifies (hmac : String → String → Vector UInt8 32) (tolerance : 0 ≤ opts.timestampTolerance) :
    ¬ Verifies hmac opts keys signedAt nonce body := by
  intro verifies
  have near : |((signedAt / 1000 - signedAt / 1000 : ℤ) : ℚ)| ≤ opts.timestampTolerance := by simpa using tolerance
  obtain ⟨cache, accepted⟩ := verifies.accepted keys .new signedAt none false (.inl rfl) near rfl
  exact verify_ne_ok _ _ _ _ _ _ _ _ _ accepted

theorem not_verifies_default : ¬ Verifies hmacSha256 {} (.new "test-secret-1") 1000000 ['0', 'a'] "payload" :=
  not_verifies {} (.new "test-secret-1") 1000000 ['0', 'a'] "payload" hmacSha256 (by decide +kernel)

theorem refused_test : ¬ Verifies hmacSha256 {} (.new "test-secret-1") 1000000 "0a".toList "payload" := by
  intro verifies
  obtain ⟨cache, accepted⟩ :=
    verifies.accepted (.new "test-secret-1") .new 1000000 none false (.inl rfl) (by decide +kernel) (by decide +kernel)
  have refused : (verify hmacSha256 (.new "test-secret-1") {} .new 1000000 none false "payload"
      (generate hmacSha256 (.new "test-secret-1") 1000000 "0a".toList "payload" none none none).header).toBool = false := by
    decide +kernel
  rw [accepted] at refused
  cases refused

end Verifies

end SubTrackr.Webhook
