import SubTrackr.Api.EntryPoints

namespace SubTrackr.Api

open Option List Lib Soroban

def requests (keyId : Nat) (s : State) (tx : Tx) : Bool :=
  match tx.call with
  | .checkRateLimit id keyHash => decide (id = keyId) && validKey s id keyHash tx.env.timestamp
  | _ => false

def allowed (keyId : Nat) (s : State) (tx : Tx) : Bool :=
  match tx.call with
  | .checkRateLimit id keyHash =>
    decide (id = keyId) && (match checkRateLimit tx.env s id keyHash with
      | .ok (status, _) => status.isAllowed
      | .error _ => false)
  | _ => false

def inWindow (window : Window) (ws : Nat) (tx : Tx) : Bool := windowStart tx.env.timestamp window.seconds = ws

def requestsIn (window : Window) (keyId ws : Nat) (history : List (Receipt Tx State)) : Nat :=
  history.countP fun r => requests keyId r.before r.tx && inWindow window ws r.tx

def allowedIn (window : Window) (keyId ws : Nat) (history : List (Receipt Tx State)) : Nat :=
  history.countP fun r => allowed keyId r.before r.tx && inWindow window ws r.tx

def counter (s : State) (window : Window) (keyId ws : Nat) : Nat :=
  ((s.rateLimit (window, keyId, ws)).map (·.count)).getD 0

def Aligned (s : State) : Prop :=
  ∀ window keyId ws record, s.rateLimit (window, keyId, ws) = some record → record.windowStart = ws

def bumped (s : State) (keyId now : Nat) : State :=
  { s with rateLimit := fun (window, id, ws) =>
      if id = keyId ∧ ws = windowStart now window.seconds then some ⟨ws, counter s window keyId ws + 1⟩
      else s.rateLimit (window, id, ws) }

def left (s : State) (key : ApiKey) (now : Nat) (window : Window) : Nat :=
  key.rateLimit.limit window - (counter s window key.id (windowStart now window.seconds) + 1)

def Fits (s : State) (key : ApiKey) (now : Nat) : Prop :=
  ∀ window, counter s window key.id (windowStart now window.seconds) + 1 ≤ key.rateLimit.limit window

theorem forall_window (P : Window → Prop) : (∀ window, P window) ↔ P .minute ∧ P .hour ∧ P .day := by
  constructor
  · exact fun all => ⟨all .minute, all .hour, all .day⟩
  · rintro ⟨minute, hour, day⟩ (_ | _ | _) <;> assumption

instance (s : State) (key : ApiKey) (now : Nat) : Decidable (Fits s key now) :=
  decidable_of_iff _ (forall_window _).symm

def recorded (s : State) (window : Window) (keyId ws count : Nat) : State :=
  { s with rateLimit := put s.rateLimit (window, keyId, ws) ⟨ws, count⟩ }

def Countable (s : State) (keyId now : Nat) : Prop :=
  ∀ window, counter s window keyId (windowStart now window.seconds) + 1 < 2 ^ 32 ∧
    windowStart now window.seconds + window.seconds < 2 ^ 64

def statusOf (s : State) (key : ApiKey) (now : Nat) : RateLimitStatus :=
  let resetAt := min (min (windowStart now 60 + 60) (windowStart now 3600 + 3600)) (windowStart now 86400 + 86400)
  if Fits s key now then
    { isAllowed := true
      remaining := min (min (left s key now .minute) (left s key now .hour)) (left s key now .day)
      resetAt
      retryAfter := 0 }
  else { isAllowed := false, remaining := 0, resetAt, retryAfter := resetAt - now }

section Bump

variable {s s' : State} {window other : Window} {key : ApiKey} {keyId now : Nat}

theorem bumpWindow_ok (aligned : Aligned s) {count reset : Nat} :
    bumpWindow s window keyId now = .ok (count, reset, s') ↔
      (counter s window keyId (windowStart now window.seconds) + 1 < 2 ^ 32 ∧
        windowStart now window.seconds + window.seconds < 2 ^ 64) ∧
      counter s window keyId (windowStart now window.seconds) + 1 = count ∧
      windowStart now window.seconds + window.seconds = reset ∧
      recorded s window keyId (windowStart now window.seconds) count = s' := by
  have counted : bumpWindow s window keyId now = (do
      let count ← u32 (counter s window keyId (windowStart now window.seconds) + 1)
      let reset ← u64 (windowStart now window.seconds + window.seconds)
      return (count, reset, recorded s window keyId (windowStart now window.seconds) count)) := by
    unfold bumpWindow counter
    cases held : s.rateLimit (window, keyId, windowStart now window.seconds) with
    | none =>
      simp only [held]
      rfl
    | some record =>
      have own := aligned _ _ _ _ held
      simp only [held, own, if_true, map_some, getD_some]
      rfl
  simp only [counted, bind_eq_ok, pure_eq_ok, u32_eq_ok, u64_eq_ok, Prod.mk.injEq]
  constructor
  · rintro ⟨_, ⟨fits, rfl⟩, _, ⟨fits', rfl⟩, rfl, rfl, rfl⟩
    exact ⟨⟨fits, fits'⟩, rfl, rfl, rfl⟩
  · rintro ⟨⟨fits, fits'⟩, rfl, rfl, rfl⟩
    exact ⟨_, ⟨fits, rfl⟩, _, ⟨fits', rfl⟩, rfl, rfl, rfl⟩

theorem counter_recorded (s : State) {window other : Window} (keyId ws ws' count : Nat) (nodup : other ≠ window) :
    counter (recorded s window keyId ws count) other keyId ws' = counter s other keyId ws' := by
  simp only [counter, recorded]
  rw [put_of_ne _ _ (by simp [nodup])]

theorem Aligned.recorded (aligned : Aligned s) (window : Window) (keyId ws count : Nat) :
    Aligned (recorded s window keyId ws count) := by
  intro other id start record held
  rcases (put_eq_some ..).mp held with ⟨same, rfl⟩ | ⟨_, held⟩
  · cases same
    rfl
  · exact aligned other id start record held

theorem recorded_bumped (s : State) (keyId now : Nat) :
    recorded (recorded (recorded s .minute keyId (windowStart now 60) (counter s .minute keyId (windowStart now 60) + 1))
        .hour keyId (windowStart now 3600) (counter s .hour keyId (windowStart now 3600) + 1))
      .day keyId (windowStart now 86400) (counter s .day keyId (windowStart now 86400) + 1) = bumped s keyId now := by
  unfold recorded bumped
  congr 1
  funext ⟨window, id, ws⟩
  simp only [put_apply, Prod.mk.injEq]
  cases window <;> by_cases here : id = keyId <;> simp [here, Window.seconds] <;> split <;> simp_all

theorem Aligned.bumped (aligned : Aligned s) (keyId now : Nat) : Aligned (bumped s keyId now) := by
  intro window id ws record held
  simp only [Api.bumped] at held
  split at held
  · cases held
    rfl
  · exact aligned window id ws record held

theorem counter_bumped (s : State) (window : Window) (keyId id now ws : Nat) :
    counter (bumped s keyId now) window id ws =
      if id = keyId ∧ ws = windowStart now window.seconds then counter s window id ws + 1
      else counter s window id ws := by
  unfold counter bumped
  simp only
  split
  · rename_i here
    rw [here.1]
    rfl
  · rfl

theorem checkWindows_eq (aligned : Aligned s) (countable : Countable s key.id now) :
    checkWindows s key now = .ok (statusOf s key now, bumped s key.id now) := by
  have bump {s : State} (window : Window) {n : Nat} (aligned : Aligned s)
      (counted : counter s window key.id (windowStart now window.seconds) = n)
      (small : n + 1 < 2 ^ 32 ∧ windowStart now window.seconds + window.seconds < 2 ^ 64) :
      bumpWindow s window key.id now = .ok (n + 1, windowStart now window.seconds + window.seconds,
        recorded s window key.id (windowStart now window.seconds) (n + 1)) := by
    subst counted
    exact (bumpWindow_ok aligned).mpr ⟨small, rfl, rfl, rfl⟩
  have aligned₁ := aligned.recorded .minute key.id (windowStart now 60) (counter s .minute key.id (windowStart now 60) + 1)
  have aligned₂ := aligned₁.recorded .hour key.id (windowStart now 3600)
    (counter s .hour key.id (windowStart now 3600) + 1)
  have minute := bump .minute aligned rfl (countable .minute)
  have hour := bump .hour aligned₁ (counter_recorded s _ _ _ _ (by decide)) (countable .hour)
  have day := bump .day aligned₂ ((counter_recorded _ _ _ _ _ (by decide)).trans
    (counter_recorded s _ _ _ _ (by decide))) (countable .day)
  have refused : (key.rateLimit.requestsPerMinute.toNat < counter s .minute key.id (windowStart now 60) + 1 ∨
      key.rateLimit.requestsPerHour.toNat < counter s .hour key.id (windowStart now 3600) + 1 ∨
      key.rateLimit.requestsPerDay.toNat < counter s .day key.id (windowStart now 86400) + 1) ↔ ¬ Fits s key now := by
    unfold Fits
    rw [forall_window]
    simp only [RateLimitConfig.limit, Window.seconds]
    omega
  unfold checkWindows
  rw [minute, ok_bind]
  simp only [Window.seconds] at hour day ⊢
  rw [hour, ok_bind]
  simp only
  rw [day, ok_bind]
  simp only [recorded_bumped, refused, statusOf, ite_not]
  split <;> rfl

theorem checkWindows_countable (aligned : Aligned s) {status : RateLimitStatus}
    (run : checkWindows s key now = .ok (status, s')) : Countable s key.id now := by
  simp only [checkWindows, bind_eq_ok] at run
  obtain ⟨⟨minutes, _, s₁⟩, minute, ⟨hours, _, s₂⟩, hour, ⟨_, _, s₃⟩, day, _⟩ := run
  obtain ⟨small, _, _, rfl⟩ := (bumpWindow_ok aligned).mp minute
  have aligned₁ := aligned.recorded .minute key.id (windowStart now 60) minutes
  obtain ⟨small₁, _, _, rfl⟩ := (bumpWindow_ok aligned₁).mp hour
  obtain ⟨small₂, _, _, rfl⟩ := (bumpWindow_ok (aligned₁.recorded .hour key.id (windowStart now 3600) hours)).mp day
  rw [counter_recorded _ _ _ _ _ (by decide)] at small₁
  rw [counter_recorded _ _ _ _ _ (by decide), counter_recorded _ _ _ _ _ (by decide)] at small₂
  exact (forall_window _).mpr ⟨small, small₁, small₂⟩

theorem fits_countable (fits : Fits s key now) (window : Window) :
    counter s window key.id (windowStart now window.seconds) + 1 < 2 ^ 32 := by
  have bound : key.rateLimit.limit window < 2 ^ 32 := by
    cases window <;> exact UInt32.toNat_lt _
  have room := fits window
  omega

end Bump

section Check

variable {s s' : State} {tx : Tx} {keyId : Nat} {key : ApiKey}

theorem validKey_stored {keyHash : BytesN 32} {now : Nat} (valid : validKey s keyId keyHash now = true) :
    ∃ key, s.apiKey keyId = some key := by
  unfold validKey at valid
  cases held : s.apiKey keyId with
  | none =>
    rw [held] at valid
    cases valid
  | some key => exact ⟨key, rfl⟩

theorem requests_eq_true : requests keyId s tx = true ↔
    ∃ keyHash, tx.call = .checkRateLimit keyId keyHash ∧ validKey s keyId keyHash tx.env.timestamp = true := by
  unfold requests
  split
  · rename_i id keyHash call
    rw [Bool.and_eq_true, decide_eq_true_eq, call]
    constructor
    · rintro ⟨rfl, valid⟩
      exact ⟨keyHash, rfl, valid⟩
    · rintro ⟨_, same, valid⟩
      cases same
      exact ⟨rfl, valid⟩
  · rename_i other
    constructor
    · exact nofun
    · rintro ⟨keyHash, call, _⟩
      exact absurd call (other keyId keyHash)

theorem checkRateLimit_eq {env : Env} {keyHash : BytesN 32} (held : s.apiKey keyId = some key)
    (valid : validKey s keyId keyHash env.timestamp = true) :
    checkRateLimit env s keyId keyHash = checkWindows s key env.timestamp := by
  unfold checkRateLimit
  rw [if_neg (by simp [valid]), held]
  rfl

theorem allowed_iff (aligned : Aligned s) (held : s.apiKey keyId = some key) (own : key.id = keyId) :
    allowed keyId s tx = true ↔ requests keyId s tx = true ∧ Fits s key tx.env.timestamp ∧
      ∀ window : Window, windowStart tx.env.timestamp window.seconds + window.seconds < 2 ^ 64 := by
  rw [requests_eq_true]
  unfold allowed
  split
  · rename_i id keyHash call
    rw [Bool.and_eq_true, decide_eq_true_eq, call]
    constructor
    · rintro ⟨rfl, answer⟩
      cases valid : validKey s id keyHash tx.env.timestamp with
      | false =>
        unfold checkRateLimit at answer
        rw [if_pos valid] at answer
        cases answer
      | true =>
        rw [checkRateLimit_eq held valid] at answer
        cases run : checkWindows s key tx.env.timestamp with
        | error p =>
          rw [run] at answer
          cases answer
        | ok result =>
          obtain ⟨status, s'⟩ := result
          have countable := checkWindows_countable aligned run
          rw [checkWindows_eq aligned countable] at answer
          refine ⟨⟨keyHash, rfl, valid⟩, ?_, fun window => (countable window).2⟩
          by_contra unfit
          simp [statusOf, unfit] at answer
    · rintro ⟨⟨_, same, valid⟩, fits, ends⟩
      cases same
      refine ⟨rfl, ?_⟩
      have countable : Countable s key.id tx.env.timestamp := fun window => ⟨fits_countable fits window, ends window⟩
      rw [checkRateLimit_eq held valid, checkWindows_eq aligned countable]
      simp [statusOf, fits]
  · rename_i other
    constructor
    · exact nofun
    · rintro ⟨⟨keyHash, call, _⟩, _⟩
      exact absurd call (other keyId keyHash)

def configs (s : State) : Store Nat (Nat × RateLimitConfig) := fun id => (s.apiKey id).map fun key => (key.id, key.rateLimit)

inductive Effect (tx : Tx) (s s' : State) : Prop where
  | kept (silent : ∀ keyId, requests keyId s tx = false) (counters : s'.rateLimit = s.rateLimit)
    (keys : configs s' = configs s) (count : s'.apiKeyCount = s.apiKeyCount)
  | created (silent : ∀ keyId, requests keyId s tx = false) (counters : s'.rateLimit = s.rateLimit) (id : Nat)
    (config : RateLimitConfig) (fresh : id = s.apiKeyCount.getD 0 + 1) (keys : configs s' = put (configs s) id (id, config))
    (count : s'.apiKeyCount = some id)
  | counted (keyId : Nat) (key : ApiKey) (stored : s.apiKey keyId = some key)
    (only : ∀ other, requests other s tx = true ↔ other = keyId) (status : RateLimitStatus)
    (run : checkWindows s key tx.env.timestamp = .ok (status, s'))

theorem exec_effect (run : exec tx s = .ok s') : Effect tx s s' := by
  obtain ⟨env, call⟩ := tx
  have audited {s s' : State} {keyId : Nat} {action : String} {changedBy : Address} {now : Nat}
      (run : logAudit s keyId action changedBy now = .ok s') :
      s'.rateLimit = s.rateLimit ∧ configs s' = configs s ∧ s'.apiKeyCount = s.apiKeyCount := by
    simp only [logAudit, bind_eq_ok, pure_eq_ok] at run
    obtain ⟨_, _, rfl⟩ := run
    exact ⟨rfl, rfl, rfl⟩
  have rewritten {keyId : Nat} {key key' : ApiKey} (held : s.apiKey keyId = some key)
      (same : (key'.id, key'.rateLimit) = (key.id, key.rateLimit)) :
      configs { s with apiKey := put s.apiKey keyId key' } = configs s := by
    funext id
    simp only [configs, put_apply]
    split
    · rename_i here
      rw [here, held, map_some, map_some, same]
    · rfl
  cases call with
  | createApiKey owner config =>
    simp only [exec, createApiKey, generateKeyId, bind_eq_ok, pure_eq_ok, u64_eq_ok] at run
    obtain ⟨⟨_, _, _⟩, ⟨_, _, ⟨_, _⟩, ⟨id, ⟨_, rfl⟩, same⟩, _, _, same'⟩, rfl⟩ := run
    cases same
    cases same'
    refine .created (fun _ => rfl) rfl _ config.rateLimit rfl ?_ rfl
    funext id
    simp only [configs, put_apply]
    split <;> rfl
  | revokeApiKey caller keyId =>
    simp only [exec, revokeApiKey, bind_eq_ok, expect_eq_ok] at run
    obtain ⟨_, _, key, held, _, _, _, _, logged⟩ := run
    obtain ⟨counters, keys, count⟩ := audited logged
    exact .kept (fun _ => rfl) counters (keys.trans (rewritten held rfl)) count
  | rotateApiKey caller keyId =>
    simp only [exec, rotateApiKey, bind_eq_ok, expect_eq_ok, pure_eq_ok] at run
    obtain ⟨⟨_, _⟩, ⟨_, _, key, held, _, _, _, _, _, logged, same⟩, rfl⟩ := run
    cases same
    obtain ⟨counters, keys, count⟩ := audited logged
    exact .kept (fun _ => rfl) counters (keys.trans (rewritten held rfl)) count
  | validateApiKey keyId keyHash =>
    cases run
    simp only [validateApiKey]
    split
    · cases held : s.apiKey keyId with
      | none => exact .kept (fun _ => rfl) rfl rfl rfl
      | some key => exact .kept (fun _ => rfl) rfl (rewritten held rfl) rfl
    · exact .kept (fun _ => rfl) rfl rfl rfl
  | checkRateLimit keyId keyHash =>
    simp only [exec, bind_eq_ok, pure_eq_ok] at run
    obtain ⟨⟨status, _⟩, run, rfl⟩ := run
    cases valid : validKey s keyId keyHash env.timestamp with
    | false =>
      unfold checkRateLimit at run
      rw [if_pos valid] at run
      cases run
      refine .kept (fun other => ?_) rfl rfl rfl
      by_cases same : keyId = other
      · subst same
        simp only [requests, valid, Bool.and_false]
      · simp only [requests, same, decide_false, Bool.false_and]
    | true =>
      obtain ⟨key, held⟩ := validKey_stored valid
      refine .counted keyId key held (fun other => ?_) status ?_
      · rw [requests_eq_true]
        constructor
        · rintro ⟨_, same, _⟩
          cases same
          rfl
        · rintro rfl
          exact ⟨keyHash, rfl, valid⟩
      · rw [← run]
        exact (checkRateLimit_eq held valid).symm

end Check

section Counts

theorem requestsIn_concat (window : Window) (keyId ws : Nat) (history : List (Receipt Tx State)) (r : Receipt Tx State) :
    requestsIn window keyId ws (history ++ [r]) = requestsIn window keyId ws history +
      if requests keyId r.before r.tx = true ∧ windowStart r.tx.env.timestamp window.seconds = ws then 1 else 0 := by
  simp only [requestsIn, countP_append, countP_singleton, inWindow, Bool.and_eq_true, decide_eq_true_eq]

theorem allowedIn_concat (window : Window) (keyId ws : Nat) (history : List (Receipt Tx State)) (r : Receipt Tx State) :
    allowedIn window keyId ws (history ++ [r]) = allowedIn window keyId ws history +
      if allowed keyId r.before r.tx = true ∧ windowStart r.tx.env.timestamp window.seconds = ws then 1 else 0 := by
  simp only [allowedIn, countP_append, countP_singleton, inWindow, Bool.and_eq_true, decide_eq_true_eq]

structure Counted (w : World) : Prop where
  keyed : ∀ id found, configs w.state id = some found → found.1 = id ∧ id ≤ w.state.apiKeyCount.getD 0
  aligned : Aligned w.state
  counter : ∀ window keyId ws, counter w.state window keyId ws = requestsIn window keyId ws w.history
  known : ∀ window keyId ws, configs w.state keyId = none → requestsIn window keyId ws w.history = 0
  fewer : ∀ window keyId ws, allowedIn window keyId ws w.history ≤ requestsIn window keyId ws w.history
  bounded : ∀ window keyId ws found, configs w.state keyId = some found →
    allowedIn window keyId ws w.history ≤ found.2.limit window

variable {w : World} {tx : Tx} {s : State}

theorem configs_stored {key : ApiKey} {keyId : Nat} (held : s.apiKey keyId = some key) :
    configs s keyId = some (key.id, key.rateLimit) := by
  unfold configs
  rw [held]
  rfl

theorem allowed_requests {keyId : Nat} (answer : allowed keyId s tx = true) : requests keyId s tx = true := by
  unfold allowed at answer
  split at answer
  · rename_i id keyHash call
    rw [Bool.and_eq_true, decide_eq_true_eq] at answer
    obtain ⟨rfl, answer⟩ := answer
    refine requests_eq_true.mpr ⟨keyHash, call, ?_⟩
    by_contra invalid
    unfold checkRateLimit at answer
    rw [if_pos (Bool.not_eq_true _ ▸ invalid)] at answer
    cases answer
  · cases answer

theorem Counted.silent (counted : Counted w) (silent : ∀ keyId, requests keyId w.state tx = false)
    (counters : s.rateLimit = w.state.rateLimit)
    (keyed : ∀ id found, configs s id = some found → found.1 = id ∧ id ≤ s.apiKeyCount.getD 0)
    (known : ∀ id, configs s id = none → configs w.state id = none)
    (same : ∀ id found, configs s id = some found → configs w.state id = some found ∨ configs w.state id = none) :
    Counted ⟨tx.env.timestamp, s, w.history ++ [⟨tx, w.state, s⟩]⟩ := by
  have requested (window : Window) (keyId ws : Nat) :
      requestsIn window keyId ws (w.history ++ [⟨tx, w.state, s⟩]) = requestsIn window keyId ws w.history := by
    rw [requestsIn_concat, silent keyId]
    simp
  have unallowed (window : Window) (keyId ws : Nat) :
      allowedIn window keyId ws (w.history ++ [⟨tx, w.state, s⟩]) = allowedIn window keyId ws w.history := by
    have none : allowed keyId w.state tx = false := by
      by_contra answer
      have request := allowed_requests (Bool.not_eq_false _ ▸ answer)
      rw [silent keyId] at request
      cases request
    rw [allowedIn_concat, none]
    simp
  refine ⟨keyed, ?_, ?_, ?_, ?_, ?_⟩
  · intro window keyId ws record held
    exact counted.aligned window keyId ws record (counters ▸ held)
  · intro window keyId ws
    rw [requested, ← counted.counter]
    simp only [Api.counter, counters]
  · intro window keyId ws unknown
    rw [requested]
    exact counted.known window keyId ws (known keyId unknown)
  · intro window keyId ws
    rw [requested, unallowed]
    exact counted.fewer window keyId ws
  · intro window keyId ws found held
    rw [unallowed]
    rcases same keyId found held with old | fresh
    · exact counted.bounded window keyId ws found old
    · have few := counted.fewer window keyId ws
      rw [counted.known window keyId ws fresh] at few
      omega

theorem Counted.step (counted : Counted w) (effect : Effect tx w.state s) :
    Counted ⟨tx.env.timestamp, s, w.history ++ [⟨tx, w.state, s⟩]⟩ := by
  cases effect with
  | kept silent counters keys count =>
    refine counted.silent silent counters ?_ ?_ ?_
    · rw [keys, count]
      exact counted.keyed
    · exact fun id none => keys ▸ none
    · exact fun id found held => .inl (keys ▸ held)
  | created silent counters id config fresh keys count =>
    have free : configs w.state id = none := by
      cases known : configs w.state id with
      | none => rfl
      | some found =>
        have bound := (counted.keyed id found known).2
        omega
    refine counted.silent silent counters ?_ ?_ ?_
    · intro other found held
      rw [count, getD_some]
      rw [keys, put_eq_some] at held
      rcases held with ⟨rfl, rfl⟩ | ⟨_, held⟩
      · exact ⟨rfl, le_rfl⟩
      · obtain ⟨own, bound⟩ := counted.keyed other found held
        exact ⟨own, by omega⟩
    · intro other unknown
      rw [keys, put_apply] at unknown
      split at unknown
      · cases unknown
      · exact unknown
    · intro other found held
      rw [keys, put_eq_some] at held
      rcases held with ⟨rfl, _⟩ | ⟨_, held⟩
      · exact .inr free
      · exact .inl held
  | counted keyId key held only status run =>
    have own : key.id = keyId := (counted.keyed keyId _ (configs_stored held)).1
    have countable := checkWindows_countable counted.aligned run
    have ran := checkWindows_eq counted.aligned countable
    rw [run] at ran
    cases ran
    rw [own]
    have total (window : Window) (id ws : Nat) :
        requestsIn window id ws (w.history ++ [⟨tx, w.state, bumped w.state keyId tx.env.timestamp⟩]) =
          Api.counter (bumped w.state keyId tx.env.timestamp) window id ws := by
      rw [requestsIn_concat, counter_bumped, counted.counter]
      simp only [only]
      by_cases here : id = keyId ∧ ws = windowStart tx.env.timestamp window.seconds
      · rw [if_pos here, if_pos ⟨here.1, here.2.symm⟩]
      · rw [if_neg here, if_neg fun both => here ⟨both.1, both.2.symm⟩, Nat.add_zero]
    have granted (window : Window) (id ws : Nat) :
        allowedIn window id ws (w.history ++ [⟨tx, w.state, bumped w.state keyId tx.env.timestamp⟩]) ≤
          requestsIn window id ws (w.history ++ [⟨tx, w.state, bumped w.state keyId tx.env.timestamp⟩]) := by
      rw [allowedIn_concat, requestsIn_concat]
      have few := counted.fewer window id ws
      split
      · rename_i answer
        rw [if_pos ⟨allowed_requests answer.1, answer.2⟩]
        omega
      · omega
    refine ⟨counted.keyed, counted.aligned.bumped keyId tx.env.timestamp, fun window id ws => (total window id ws).symm,
      ?_, granted, ?_⟩
    · intro window id ws unknown
      rw [total, counter_bumped, counted.counter, if_neg, counted.known window id ws unknown]
      rintro ⟨rfl, _⟩
      have known := configs_stored held
      change configs w.state _ = none at unknown
      rw [known] at unknown
      cases unknown
    · intro window id ws found config
      by_cases answer : allowed id w.state tx = true ∧ windowStart tx.env.timestamp window.seconds = ws
      · have request := (only id).mp (allowed_requests answer.1)
        subst request
        have fits := ((allowed_iff counted.aligned held own).mp answer.1).2.1 window
        have most := granted window id ws
        rw [total, counter_bumped, if_pos ⟨rfl, answer.2.symm⟩] at most
        have limits : found = (key.id, key.rateLimit) := Option.some.inj (config.symm.trans (configs_stored held))
        rw [own, answer.2] at fits
        rw [limits]
        exact most.trans fits
      · rw [allowedIn_concat, if_neg answer]
        exact counted.bounded window id ws found config

theorem counted_reachable {guard : World → Tx → Prop} (reached : Reachable guard w) : Counted w := by
  refine reached.invariant ?_ ?_ ?_
  · intro s deployed
    rw [deployed]
    exact ⟨nofun, nofun, fun _ _ _ => rfl, fun _ _ _ _ => rfl, fun _ _ _ => le_rfl, nofun⟩
  · exact fun _ _ _ _ counted => ⟨counted.keyed, counted.aligned, counted.counter, counted.known, counted.fewer,
      counted.bounded⟩
  · intro w tx s _ _ run counted
    exact counted.step (exec_effect run)

end Counts

section Remaining

variable {w w' : World} {keyId : Nat} {key : ApiKey}

theorem windowStart_until {now later : Nat} (from_ : now ≤ later) (until_ : later < windowStart now 60 + 60)
    (window : Window) : windowStart later window.seconds = windowStart now window.seconds := by
  unfold windowStart at *
  cases window <;> simp only [Window.seconds] <;> omega

theorem resetAt_minute (now : Nat) :
    min (min (windowStart now 60 + 60) (windowStart now 3600 + 3600)) (windowStart now 86400 + 86400) =
      windowStart now 60 + 60 := by
  unfold windowStart
  omega

theorem lt_left_iff (s : State) (key : ApiKey) (now n : Nat) :
    n < min (min (left s key now .minute) (left s key now .hour)) (left s key now .day) ↔
      ∀ window, counter s window key.id (windowStart now window.seconds) + 1 + n + 1 ≤ key.rateLimit.limit window := by
  rw [forall_window]
  unfold left
  omega

def requestsAmong (keyId : Nat) (history : List (Receipt Tx State)) : Nat :=
  history.countP fun r => requests keyId r.before r.tx

theorem counter_later {now : Nat} {later : List (Receipt Tx State)} (counted : Counted w) (counted' : Counted w')
    (history : w'.history = w.history ++ later)
    (times : ∀ r ∈ later, now ≤ r.tx.env.timestamp ∧ r.tx.env.timestamp < windowStart now 60 + 60) (window : Window) :
    counter w'.state window keyId (windowStart now window.seconds) =
      counter w.state window keyId (windowStart now window.seconds) + requestsAmong keyId later := by
  rw [counted'.counter, counted.counter, history]
  simp only [requestsIn, requestsAmong, countP_append]
  congr 1
  apply countP_congr
  intro r mem
  obtain ⟨from_, until_⟩ := times r mem
  simp [inWindow, windowStart_until from_ until_ window]

theorem configs_kept {guard : World → Tx → Prop} (reached : Reachable guard w) (steps : Ledger.Steps contract guard w w')
    {id : Nat} {found : Nat × RateLimitConfig} (held : configs w.state id = some found) :
    configs w'.state id = some found := by
  refine steps.relates (R := fun s s' => ∀ id found, configs s id = some found → configs s' id = some found)
    (fun _ _ _ held => held) (fun _ _ _ first second id found held => second id found (first id found held))
    reached ?_ id found held
  intro v tx s here _ run id found held
  cases exec_effect run with
  | kept _ _ keys => exact keys ▸ held
  | created _ _ made _ fresh keys =>
    have bound := ((counted_reachable here).keyed id found held).2
    rw [keys, put_of_ne _ _ (by omega)]
    exact held
  | counted keyId key known _ status ran =>
    have counted := counted_reachable here
    rw [checkWindows_eq counted.aligned (checkWindows_countable counted.aligned ran)] at ran
    cases ran
    exact held

theorem agrees_kept {guard : World → Tx → Prop} (reached : Reachable guard w) (steps : Ledger.Steps contract guard w w')
    {key' : ApiKey} (held : w.state.apiKey keyId = some key) (held' : w'.state.apiKey keyId = some key') :
    key'.id = key.id ∧ key'.rateLimit = key.rateLimit := by
  have kept := configs_kept reached steps (configs_stored held)
  rw [configs_stored held'] at kept
  exact Prod.mk.inj (Option.some.inj kept)

/-- Where every window has room for the request at `now`, each has room for `n` more and another one just when `n` is
    below what the answer says is left. -/
theorem room_iff (s : State) (key : ApiKey) (now n : Nat) :
    (∀ window, counter s window key.id (windowStart now window.seconds) + 1 + n + 1 ≤ key.rateLimit.limit window) ↔
      n < (statusOf s key now).remaining := by
  unfold statusOf
  by_cases fits : Fits s key now
  · simp only [fits, if_true]
    exact (lt_left_iff s key now n).symm
  · simp only [fits, if_false, Nat.not_lt_zero, iff_false]
    intro room
    refine fits fun window => ?_
    have here := room window
    omega

theorem checkRateLimit_ok {env : Env} {keyHash : BytesN 32} {status : RateLimitStatus} {s : State} (counted : Counted w)
    (held : w.state.apiKey keyId = some key) (valid : validKey w.state keyId keyHash env.timestamp = true)
    (run : checkRateLimit env w.state keyId keyHash = .ok (status, s)) : Countable w.state key.id env.timestamp ∧
      status = statusOf w.state key env.timestamp ∧
      Ledger.submit contract w ⟨env, .checkRateLimit keyId keyHash⟩ = ⟨env.timestamp,
        bumped w.state key.id env.timestamp, w.history ++ [⟨⟨env, .checkRateLimit keyId keyHash⟩, w.state,
          bumped w.state key.id env.timestamp⟩]⟩ := by
  have ran := run
  rw [checkRateLimit_eq held valid] at ran
  have countable := checkWindows_countable counted.aligned ran
  rw [checkWindows_eq counted.aligned countable] at ran
  cases ran
  have executed : contract.exec ⟨env, .checkRateLimit keyId keyHash⟩ w.state =
      checkRateLimit env w.state keyId keyHash >>= fun answer => pure answer.2 := rfl
  refine ⟨countable, rfl, Ledger.submit_ok _ ?_⟩
  rw [executed, run]
  rfl

/-- No window of a key allows more requests than its limit, and a check that reports what remains is followed by just
    that many allowed requests until its window ends. -/
theorem rate_limit_exact (reached : Reachable (Ledger.inOrder contract) w) (keyId : Nat) :
    (∀ key, w.state.apiKey keyId = some key → ∀ window ws,
      allowedIn window keyId ws w.history ≤ key.rateLimit.limit window) ∧
    ∀ env keyHash status s, w.clock ≤ env.timestamp → checkRateLimit env w.state keyId keyHash = .ok (status, s) →
      ∀ w', Ledger.Steps contract (Ledger.inOrder contract) (Ledger.submit contract w ⟨env, .checkRateLimit keyId keyHash⟩) w' →
        ∀ tx, requests keyId w'.state tx = true → w'.clock ≤ tx.env.timestamp → tx.env.timestamp < status.resetAt →
          (allowed keyId w'.state tx = true ↔
            requestsAmong keyId (w'.history.drop (w.history.length + 1)) < status.remaining) := by
  have counted := counted_reachable reached
  refine ⟨fun key stored window ws => counted.bounded window keyId ws _ (configs_stored stored), ?_⟩
  intro env keyHash status s forward run w' steps tx request later before
  cases valid : validKey w.state keyId keyHash env.timestamp with
  | false =>
    unfold checkRateLimit at run
    rw [if_pos valid] at run
    cases run
    exact absurd before (Nat.not_lt_zero _)
  | true =>
    obtain ⟨key, stored⟩ := validKey_stored valid
    obtain ⟨_, _, valid'⟩ := requests_eq_true.mp request
    obtain ⟨key', stored'⟩ := validKey_stored valid'
    have own : key.id = keyId := (counted.keyed keyId _ (configs_stored stored)).1
    obtain ⟨countable, rfl, submitted⟩ := checkRateLimit_ok counted stored valid run
    have reached' : Reachable (Ledger.inOrder contract) (Ledger.submit contract w ⟨env, .checkRateLimit keyId keyHash⟩) :=
      reached.submit forward
    have counted₁ := counted_reachable reached'
    have counted' := counted_reachable (reached'.steps steps)
    have agrees := agrees_kept reached' steps (by rw [submitted]; exact stored) stored'
    rw [own] at agrees
    -- all requests since then fall into the windows of the first
    obtain ⟨moved, since, history, times⟩ := steps.later fun _ _ met => met
    have dropped : w'.history.drop (w.history.length + 1) = since := by
      rw [history, submitted]
      simp
    rw [submitted] at moved times
    have ends : tx.env.timestamp < windowStart env.timestamp 60 + 60 := by
      rw [← resetAt_minute]
      unfold statusOf at before
      split at before <;> exact before
    have during : ∀ r ∈ since, env.timestamp ≤ r.tx.env.timestamp ∧
        r.tx.env.timestamp < windowStart env.timestamp 60 + 60 :=
      fun r listed => ⟨(times r listed).1, ((times r listed).2.trans later).trans_lt ends⟩
    have same := windowStart_until (moved.trans later) ends
    have count (window : Window) : counter w'.state window keyId (windowStart tx.env.timestamp window.seconds) =
        counter w.state window keyId (windowStart env.timestamp window.seconds) + 1 + requestsAmong keyId since := by
      rw [same window, counter_later counted₁ counted' history during window, submitted, counter_bumped, own,
        if_pos ⟨rfl, rfl⟩]
    rw [dropped, ← room_iff, allowed_iff counted'.aligned stored' agrees.1, own]
    unfold Fits
    simp only [agrees.1, agrees.2, count, request, true_and]
    constructor
    · exact fun both => both.1
    · exact fun room => ⟨room, fun window => same window ▸ (countable window).2⟩

end Remaining

def Env.ofOwner (now : Nat) : Env where
  timestamp := now
  authorized := fun address => address = ⟨1⟩
  drawn := []
  sha256 := fun _ => Vector.replicate 32 0

def checkAt (now : Nat) : Tx := ⟨.ofOwner now, .checkRateLimit 1 (Vector.replicate 32 0)⟩

def keyed : World :=
  Ledger.submit contract (Ledger.genesis .empty) ⟨.ofOwner 0, .createApiKey ⟨1⟩ ⟨"key", ⟨2, 20, 100, 3⟩, 0⟩⟩

theorem rate_limit_exact_keyed : let w' := Ledger.submit contract keyed (checkAt 100)
    (∀ key, keyed.state.apiKey 1 = some key → ∀ window ws, allowedIn window 1 ws keyed.history ≤ key.rateLimit.limit window) ∧
      ∃ status s, checkRateLimit (checkAt 100).env keyed.state 1 (Vector.replicate 32 0) = .ok (status, s) ∧
        status.remaining = 1 ∧ (allowed 1 w'.state (checkAt 110) = true ↔
          requestsAmong 1 (w'.history.drop (keyed.history.length + 1)) < status.remaining) := by
  intro w'
  have reached : Reachable (Ledger.inOrder contract) keyed :=
    ⟨.empty, rfl, .single ⟨_, (Nat.zero_le _ : Ledger.inOrder contract (Ledger.genesis .empty) _), rfl⟩⟩
  have exact_ := rate_limit_exact reached 1
  have answer : ((checkRateLimit (checkAt 100).env keyed.state 1 (Vector.replicate 32 0)).toOption.map
      fun result => (result.1.remaining, result.1.resetAt)) = some (1, 120) := by decide +kernel
  obtain ⟨⟨status, s⟩, run, read⟩ := map_eq_some_iff.mp answer
  have ran := (toOption_eq_some ..).mp run
  refine ⟨exact_.1, status, s, ran, congrArg Prod.fst read, ?_⟩
  refine exact_.2 _ _ status s (by decide +kernel) ran w' .refl (checkAt 110) (by decide +kernel) (by decide +kernel) ?_
  rw [show status.resetAt = 120 from congrArg Prod.snd read]
  decide +kernel

end SubTrackr.Api
