import SubTrackr.Webhook.Replay

namespace SubTrackr.Webhook

open Lib

/-- Where a call stands: before the look-up of the nonce is done, after it, before the nonce is stored, and after that. -/
inductive Phase where
  | looking (parsed : Parsed)
  | looked (parsed : Parsed) (found : Bool)
  | storing (parsed : Parsed)
  | stored (parsed : Parsed)
  | ended (error : Option VerifyError)

structure Call where
  rawBody : String
  phase : Phase

structure World where
  opts : SignatureOptions
  keys : KeyStore
  cache : NonceCache
  now : ℤ
  calls : List Call
  (generated accepted : List (String × ℤ))

inductive Action where
  | tick (ms : ℕ)
  | rotate (newKey : String)
  | setKeys (current : String) (previous : Option String)
  | generate (random : List Char) (body : String) (secret : Option String) (timestamp : Option ℤ) (nonce : Option (List Char))
  | verify (rawBody : String) (header : List Char)
  | lookUp (i : ℕ) (reply : Option Bool)
  | resume (i : ℕ)
  | store (i : ℕ) (done : Bool)
  | finish (i : ℕ)

namespace World

def new (opts : SignatureOptions) (keys : KeyStore) (now : ℤ) : World := ⟨opts, keys, .new, now, [], [], []⟩

def setCall (w : World) (i : ℕ) (call : Call) (phase : Phase) : World :=
  { w with calls := w.calls.set i { call with phase := phase } }

def lookedUp (w : World) (i : ℕ) (call : Call) (reply : Option Bool) : World :=
  match call.phase with
  | .looking parsed =>
    let (found, cache) := w.cache.has w.now (String.ofList parsed.nonce) reply
    { w with cache := cache }.setCall i call (.looked parsed found)
  | _ => w

def storedNonce (w : World) (i : ℕ) (call : Call) (done : Bool) : World :=
  match call.phase with
  | .storing parsed =>
    { w with cache := w.cache.set w.now (String.ofList parsed.nonce) w.opts.nonceTtl done }.setCall i call (.stored parsed)
  | _ => w

def finished (w : World) (i : ℕ) (call : Call) : World :=
  match call.phase with
  | .stored parsed => { w with accepted := (call.rawBody, parsed.ts) :: w.accepted }.setCall i call (.ended none)
  | _ => w

variable (hmac : String → String → Vector UInt8 32)

def resumed (w : World) (i : ℕ) (call : Call) : World :=
  match call.phase with
  | .looked parsed found =>
    if found then w.setCall i call (.ended (some .replay))
    else if isSigned hmac w.keys call.rawBody parsed then w.setCall i call (.storing parsed)
    else w.setCall i call (.ended (some .mismatch))
  | _ => w

def step (w : World) : Action → World
  | .tick ms => { w with now := w.now + ms }
  | .rotate newKey => { w with keys := w.keys.rotate newKey }
  | .setKeys current previous => { w with keys := .setKeys current previous }
  | .generate random body secret timestamp nonce =>
    let signed := Webhook.generate hmac w.keys w.now random body secret timestamp nonce
    { w with generated := (body, signed.ts) :: w.generated }
  | .verify rawBody header =>
    match readHeader w.opts w.now header with
    | .ok parsed => { w with calls := w.calls ++ [⟨rawBody, .looking parsed⟩] }
    | .error e => { w with calls := w.calls ++ [⟨rawBody, .ended (some e)⟩] }
  | .lookUp i reply => (w.calls[i]?).elim w fun call => w.lookedUp i call reply
  | .resume i => (w.calls[i]?).elim w fun call => w.resumed hmac i call
  | .store i done => (w.calls[i]?).elim w fun call => w.storedNonce i call done
  | .finish i => (w.calls[i]?).elim w fun call => w.finished i call

end World

def Phase.Refused : Phase → Prop
  | .looking parsed | .looked parsed _ => '=' ∉ parsed.sig
  | .storing _ | .stored _ => False
  | .ended _ => True

structure World.Refused (w : World) : Prop where
  calls : ∀ call ∈ w.calls, call.phase.Refused
  accepted : w.accepted = []

namespace World

variable {hmac : String → String → Vector UInt8 32} {w : World} {i : ℕ} {call : Call}

theorem Refused.append (refused : w.Refused) (new : call.phase.Refused) :
    Refused { w with calls := w.calls ++ [call] } := by
  refine ⟨?_, refused.accepted⟩
  intro call' mem
  rcases List.mem_append.mp mem with old | last
  · exact refused.calls call' old
  · obtain rfl := List.mem_singleton.mp last
    exact new

theorem Refused.setCall {phase : Phase} (refused : w.Refused) (new : phase.Refused) : (w.setCall i call phase).Refused := by
  refine ⟨?_, refused.accepted⟩
  intro call' mem
  rcases List.mem_or_eq_of_mem_set mem with old | rfl
  · exact refused.calls call' old
  · exact new

theorem Refused.elim (refused : w.Refused) {f : Call → World} (kept : ∀ call, call.phase.Refused → (f call).Refused) :
    ((w.calls[i]?).elim w f).Refused := by
  cases found : w.calls[i]? with
  | none => exact refused
  | some call => exact kept call (refused.calls call (List.mem_of_getElem? found))

theorem Refused.resumed (refused : w.Refused) (phase : call.phase.Refused) : (w.resumed hmac i call).Refused := by
  unfold World.resumed
  cases at_phase : call.phase with
  | looked parsed found =>
    rw [at_phase] at phase
    cases found with
    | true => exact refused.setCall trivial
    | false =>
      simp only [isSigned_eq_false phase, Bool.false_eq_true, if_false]
      exact refused.setCall trivial
  | _ => exact refused

theorem Refused.step (refused : w.Refused) (action : Action) : (w.step hmac action).Refused := by
  cases action with
  | tick | rotate | setKeys | generate => exact ⟨refused.calls, refused.accepted⟩
  | verify rawBody header =>
    cases read : readHeader w.opts w.now header with
    | error e =>
      simp only [World.step, read]
      exact refused.append trivial
    | ok parsed =>
      simp only [World.step, read]
      exact refused.append (sig_unmarked read)
  | lookUp i reply =>
    apply refused.elim
    intro call phase
    unfold lookedUp
    cases at_phase : call.phase with
    | looking parsed =>
      rw [at_phase] at phase
      exact setCall (w := { w with cache := _ }) ⟨refused.calls, refused.accepted⟩ phase
    | _ => exact refused
  | resume i => exact refused.elim fun call phase => refused.resumed phase
  | store i done =>
    apply refused.elim
    intro call phase
    unfold storedNonce
    cases at_phase : call.phase with
    | storing parsed =>
      rw [at_phase] at phase
      cases phase
    | _ => exact refused
  | finish i =>
    apply refused.elim
    intro call phase
    unfold finished
    cases at_phase : call.phase with
    | stored parsed =>
      rw [at_phase] at phase
      cases phase
    | _ => exact refused

theorem Refused.foldl (refused : w.Refused) (actions : List Action) : (actions.foldl (World.step hmac) w).Refused := by
  induction actions generalizing w with
  | nil => exact refused
  | cons action actions ih => exact ih (refused.step action)

/-- For a body and a timestamp, no more calls return than signatures were generated. -/
theorem accepted_le_generated (hmac : String → String → Vector UInt8 32) (opts : SignatureOptions) (keys : KeyStore) (now : ℤ)
    (actions : List Action) (body : String) (ts : ℤ) :
    (actions.foldl (World.step hmac) (.new opts keys now)).accepted.count (body, ts) ≤
      (actions.foldl (World.step hmac) (.new opts keys now)).generated.count (body, ts) := by
  have initial : (World.new opts keys now).Refused := ⟨by simp [World.new], rfl⟩
  have refused : Refused (actions.foldl (World.step hmac) (.new opts keys now)) := initial.foldl actions
  rw [refused.accepted, List.count_nil]
  exact Nat.zero_le _

end World

end SubTrackr.Webhook
