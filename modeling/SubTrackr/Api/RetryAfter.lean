import SubTrackr.Api.Windows

namespace SubTrackr.Api

open Lib Soroban

variable {w w' : World} {keyId : Nat} {key : ApiKey}

theorem windowStart_ends {now : Nat} {window : Window}
    (ends : windowStart now window.seconds + window.seconds = windowStart now 60 + 60) :
    windowStart (windowStart now 60 + 60) window.seconds = windowStart now 60 + 60 := by
  unfold windowStart at *
  cases window <;> simp only [Window.seconds] at * <;> omega

theorem windowStart_goes {now : Nat} {window : Window}
    (goes : windowStart now window.seconds + window.seconds ≠ windowStart now 60 + 60) :
    windowStart (windowStart now 60 + 60) window.seconds = windowStart now window.seconds := by
  unfold windowStart at *
  cases window <;> simp only [Window.seconds] at * <;> omega

theorem counter_ahead (reached : Reachable (Ledger.inOrder contract) w) {window : Window} {ws : Nat} (ahead : w.clock < ws) :
    counter w.state window keyId ws = 0 := by
  rw [(counted_reachable reached).counter, requestsIn, List.countP_eq_zero]
  obtain ⟨_, _, steps⟩ := reached
  obtain ⟨_, since, history, times⟩ := steps.later fun _ _ met => met
  intro r mem both
  have before : r.tx.env.timestamp ≤ w.clock := (times r (by rwa [history] at mem)).2
  have here : windowStart r.tx.env.timestamp window.seconds = ws := of_decide_eq_true (Bool.and_eq_true_iff.mp both).2
  unfold windowStart at here
  omega

theorem counter_unrequested (reached : Reachable (Ledger.inOrder contract) w)
    (reached' : Reachable (Ledger.inOrder contract) w') {later : List (Receipt Tx State)}
    (history : w'.history = w.history ++ later) (none : requestsAmong keyId later = 0) (window : Window) (ws : Nat) :
    counter w'.state window keyId ws = counter w.state window keyId ws := by
  rw [(counted_reachable reached').counter, (counted_reachable reached).counter, history, requestsIn, List.countP_append]
  have silent : later.countP (fun r => requests keyId r.before r.tx && inWindow window ws r.tx) = 0 := by
    refine List.countP_eq_zero.mpr fun r mem both => ?_
    exact List.countP_eq_zero.mp none r mem (Bool.and_eq_true_iff.mp both).1
  rw [silent]
  rfl

/-- A key that waits as it was told is let through exactly where every window ends with the minute of the refused request
    or has room for two requests more, and the next windows end before time overflows. -/
theorem retryAfter_suffices_iff (reached : Reachable (Ledger.inOrder contract) w) {env : Env} {keyHash : BytesN 32}
    {status : RateLimitStatus} {s : State} (forward : w.clock ≤ env.timestamp) (stored : w.state.apiKey keyId = some key)
    (positive : ∀ window, 0 < key.rateLimit.limit window) (valid : validKey w.state keyId keyHash env.timestamp = true)
    (run : checkRateLimit env w.state keyId keyHash = .ok (status, s)) (refused : status.isAllowed = false)
    (steps : Ledger.Steps contract (Ledger.inOrder contract)
      (Ledger.submit contract w ⟨env, .checkRateLimit keyId keyHash⟩) w')
    (waits : requestsAmong keyId (w'.history.drop (w.history.length + 1)) = 0) {tx : Tx}
    (request : requests keyId w'.state tx = true) (retried : tx.env.timestamp = env.timestamp + status.retryAfter) :
    allowed keyId w'.state tx = true ↔ ∀ window : Window,
      (windowStart env.timestamp window.seconds + window.seconds = windowStart env.timestamp 60 + 60 ∨
        counter w.state window keyId (windowStart env.timestamp window.seconds) + 2 ≤ key.rateLimit.limit window) ∧
      windowStart (windowStart env.timestamp 60 + 60) window.seconds + window.seconds < 2 ^ 64 := by
  have counted := counted_reachable reached
  have own : key.id = keyId := (counted.keyed keyId _ (configs_stored stored)).1
  obtain ⟨_, rfl, submitted⟩ := checkRateLimit_ok counted stored valid run
  have reached₁ : Reachable (Ledger.inOrder contract) (Ledger.submit contract w ⟨env, .checkRateLimit keyId keyHash⟩) :=
    reached.submit forward
  have reached' := reached₁.steps steps
  obtain ⟨_, _, valid'⟩ := requests_eq_true.mp request
  obtain ⟨key', stored'⟩ := validKey_stored valid'
  have agrees := agrees_kept reached₁ steps (by rw [submitted]; exact stored) stored'
  rw [own] at agrees
  -- a refused request is told to wait for the end of its minute
  have reset : tx.env.timestamp = windowStart env.timestamp 60 + 60 := by
    have unfit : ¬Fits w.state key env.timestamp := by
      intro fits
      rw [statusOf, if_pos fits] at refused
      cases refused
    rw [retried, statusOf, if_neg unfit, resetAt_minute]
    unfold windowStart
    dsimp only
    omega
  obtain ⟨_, since, history, _⟩ := steps.later fun _ _ met => met
  have dropped : w'.history.drop (w.history.length + 1) = since := by
    rw [history, submitted]
    simp
  rw [dropped] at waits
  have counters (window : Window) (ws : Nat) : counter w'.state window keyId ws =
      if ws = windowStart env.timestamp window.seconds then counter w.state window keyId ws + 1
      else counter w.state window keyId ws := by
    rw [counter_unrequested reached₁ reached' history waits, submitted, counter_bumped, own]
    simp only [true_and]
  rw [allowed_iff (counted_reachable reached').aligned stored' agrees.1, and_iff_right request, reset, Fits, ← forall_and]
  refine forall_congr' fun window => and_congr_left fun _ => ?_
  rw [agrees.1, agrees.2, counters]
  by_cases ends : windowStart env.timestamp window.seconds + window.seconds = windowStart env.timestamp 60 + 60
  · have fresh : windowStart env.timestamp 60 + 60 ≠ windowStart env.timestamp window.seconds := by
      unfold windowStart
      omega
    rw [windowStart_ends ends, if_neg fresh, counter_ahead reached (by unfold windowStart; omega)]
    exact iff_of_true (positive window) (.inl ends)
  · rw [windowStart_goes ends, if_pos rfl, or_iff_right ends]

def limited (config : RateLimitConfig) (times : List Nat) : World :=
  Ledger.run contract (Ledger.genesis .empty) (⟨.ofOwner 0, .createApiKey ⟨1⟩ ⟨"key", config, 0⟩⟩ :: times.map checkAt)

theorem retryAfter_suffices_third :
    allowed 1 (Ledger.submit contract (limited ⟨2, 20, 100, 3⟩ [100, 110]) (checkAt 115)).state (checkAt 120) = true := by
  have answer : ((checkRateLimit (checkAt 115).env (limited ⟨2, 20, 100, 3⟩ [100, 110]).state 1 (Vector.replicate 32 0)).toOption.map
      fun result => (result.1.isAllowed, result.1.retryAfter)) = some (false, 5) := by decide +kernel
  have known : ((limited ⟨2, 20, 100, 3⟩ [100, 110]).state.apiKey 1).map (·.rateLimit) = some ⟨2, 20, 100, 3⟩ := by decide +kernel
  obtain ⟨⟨status, s⟩, run, read⟩ := Option.map_eq_some_iff.mp answer
  obtain ⟨key, held, limits⟩ := Option.map_eq_some_iff.mp known
  refine (retryAfter_suffices_iff ⟨.empty, rfl, Ledger.Steps.run_inOrder (by decide +kernel)⟩ (by decide +kernel) held ?_
    (by decide +kernel) ((toOption_eq_some ..).mp run) (congrArg Prod.fst read) .refl (by decide +kernel) (by decide +kernel)
    (congrArg (115 + ·) (congrArg Prod.snd read).symm)).mpr ?_
  all_goals
    rw [limits, forall_window]
    decide +kernel

/-- The hour is used up, and the key is told to wait for the next minute. -/
theorem retryAfter_short : ¬∀ w, Reachable (Ledger.inOrder contract) w → ∀ env keyId keyHash key status s,
    w.clock ≤ env.timestamp → w.state.apiKey keyId = some key → (∀ window, 0 < key.rateLimit.limit window) →
    validKey w.state keyId keyHash env.timestamp = true → checkRateLimit env w.state keyId keyHash = .ok (status, s) →
    status.isAllowed = false → ∀ w', Ledger.Steps contract (Ledger.inOrder contract)
      (Ledger.submit contract w ⟨env, .checkRateLimit keyId keyHash⟩) w' →
    requestsAmong keyId (w'.history.drop (w.history.length + 1)) = 0 → ∀ tx, requests keyId w'.state tx = true →
      tx.env.timestamp = env.timestamp + status.retryAfter → allowed keyId w'.state tx = true := by
  intro claimed
  have answer : ((checkRateLimit (checkAt 110).env (limited ⟨5, 1, 100, 3⟩ [100]).state 1 (Vector.replicate 32 0)).toOption.map
      fun result => (result.1.isAllowed, result.1.retryAfter)) = some (false, 10) := by decide +kernel
  have known : ((limited ⟨5, 1, 100, 3⟩ [100]).state.apiKey 1).map (·.rateLimit) = some ⟨5, 1, 100, 3⟩ := by decide +kernel
  obtain ⟨⟨status, s⟩, run, read⟩ := Option.map_eq_some_iff.mp answer
  obtain ⟨key, held, limits⟩ := Option.map_eq_some_iff.mp known
  have allowed : allowed 1 (Ledger.submit contract (limited ⟨5, 1, 100, 3⟩ [100]) (checkAt 110)).state (checkAt 120) = true := by
    refine claimed _ ⟨.empty, rfl, Ledger.Steps.run_inOrder (by decide +kernel)⟩ _ 1 _ key status s (by decide +kernel) held ?_
      (by decide +kernel) ((toOption_eq_some ..).mp run) (congrArg Prod.fst read) _ .refl (by decide +kernel) _ (by decide +kernel)
      (congrArg (110 + ·) (congrArg Prod.snd read).symm)
    rw [limits, forall_window]
    decide +kernel
  exact absurd allowed (by decide +kernel)

end SubTrackr.Api
