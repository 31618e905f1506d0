import Mathlib.Data.Rat.Floor
import SubTrackr.Lib.Reservoir
import SubTrackr.Lib.Runs

namespace SubTrackr.RateLimit

structure TokenBucketConfig where
  (capacity refillRatePerSecond : ℚ)

structure PartialConfig where
  (capacity refillRatePerSecond : Option ℚ)

structure TokenBucketSnapshot where
  (tokens capacity refillRatePerSecond lastRefillAt : ℚ)

structure ConsumeResult where
  allowed : Bool
  (remaining retryAfterMs : ℚ)

structure TokenBucket where
  (tokens lastRefillAt capacity refillRatePerSecond : ℚ)

def capacityError : String := "TokenBucket capacity must be > 0"

def rateError : String := "TokenBucket refillRatePerSecond must be > 0"

namespace TokenBucket

def new (config : TokenBucketConfig) (initialTokens : Option ℚ) (now : ℚ) : Except String TokenBucket :=
  if config.capacity ≤ 0 then .error capacityError
  else if config.refillRatePerSecond ≤ 0 then .error rateError
  else
    .ok
      { tokens := initialTokens.getD config.capacity
        lastRefillAt := now
        capacity := config.capacity
        refillRatePerSecond := config.refillRatePerSecond }

variable (b : TokenBucket)

def refill (now : ℚ) : TokenBucket :=
  let elapsedMs := now - b.lastRefillAt
  if 0 < elapsedMs then
    let tokensToAdd := elapsedMs / 1000 * b.refillRatePerSecond
    { b with
      tokens := min b.capacity (b.tokens + tokensToAdd)
      lastRefillAt := now }
  else b

def tryConsume (cost now : ℚ) : TokenBucket × ConsumeResult :=
  let b := b.refill now
  if cost ≤ b.tokens then
    let b := { b with tokens := b.tokens - cost }
    (b, ⟨true, b.tokens, 0⟩)
  else
    let deficit := cost - b.tokens
    (b, ⟨false, b.tokens, (⌈deficit / b.refillRatePerSecond * 1000⌉ : ℤ)⟩)

def getRemaining (now : ℚ) : TokenBucket × ℤ :=
  let b := b.refill now
  (b, ⌊b.tokens⌋)

def setCapacity (capacity : ℚ) : TokenBucket := { b with capacity, tokens := min b.tokens capacity }

def setRate : Option ℚ → TokenBucket × Option String
  | none => (b, none)
  | some rate => if rate ≤ 0 then (b, some rateError) else ({ b with refillRatePerSecond := rate }, none)

def reconfigure (config : PartialConfig) (now : ℚ) : TokenBucket × Option String :=
  let b := b.refill now
  match config.capacity with
  | none => b.setRate config.refillRatePerSecond
  | some capacity =>
    if capacity ≤ 0 then (b, some capacityError) else (b.setCapacity capacity).setRate config.refillRatePerSecond

def setTokens (tokens now : ℚ) : TokenBucket := { b with tokens := max 0 (min b.capacity tokens), lastRefillAt := now }

def snapshot (now : ℚ) : TokenBucket × TokenBucketSnapshot :=
  let b := b.refill now
  (b, ⟨b.tokens, b.capacity, b.refillRatePerSecond, b.lastRefillAt⟩)

end TokenBucket

inductive Action
  | refill (now : ℚ)
  | tryConsume (cost now : ℚ)
  | getRemaining (now : ℚ)
  | snapshot (now : ℚ)
  | reconfigure (config : PartialConfig) (now : ℚ)
  | setTokens (tokens now : ℚ)

def TokenBucket.perform (b : TokenBucket) : Action → TokenBucket
  | .refill now => b.refill now
  | .tryConsume cost now => (b.tryConsume cost now).1
  | .getRemaining now => (b.getRemaining now).1
  | .snapshot now => (b.snapshot now).1
  | .reconfigure config now => (b.reconfigure config now).1
  | .setTokens tokens now => b.setTokens tokens now

def TokenBucket.step (b : TokenBucket) (action : Action) : Option TokenBucket := some (b.perform action)

end SubTrackr.RateLimit

namespace SubTrackr.RateLimit

open Lib

def Action.positive : Action → Prop
  | .tryConsume cost _ => 0 < cost
  | _ => True

def Action.fixed : Action → Prop
  | .reconfigure _ _ => False
  | .setTokens _ _ => False
  | _ => True

def Action.now : Action → ℚ
  | .refill now => now
  | .tryConsume _ now => now
  | .getRemaining now => now
  | .snapshot now => now
  | .reconfigure _ now => now
  | .setTokens _ now => now

def Action.cost : Action → Option ℚ
  | .tryConsume cost _ => some cost
  | _ => none

namespace TokenBucket

variable {b b' : TokenBucket} {now cost : ℚ}

structure Bounded (b : TokenBucket) : Prop where
  capacity : 0 < b.capacity
  rate : 0 < b.refillRatePerSecond
  nonneg : 0 ≤ b.tokens
  full : b.tokens ≤ b.capacity

def reservoir (b : TokenBucket) : Reservoir ℚ := ⟨b.tokens, b.lastRefillAt⟩

def ratePerMs (b : TokenBucket) : ℚ := b.refillRatePerSecond / 1000

theorem refill_reservoir (b : TokenBucket) (now : ℚ) :
    (b.refill now).reservoir = b.reservoir.fill b.capacity b.ratePerMs now := by
  unfold refill Reservoir.fill
  dsimp only
  by_cases later : b.lastRefillAt < now
  · rw [if_pos (sub_pos.mpr later)]
    have same : (now - b.lastRefillAt) / 1000 * b.refillRatePerSecond = (now - b.lastRefillAt) * b.ratePerMs := by
      unfold ratePerMs
      ring
    simp [reservoir, later, same]
  · rw [if_neg (fun elapsed => later (sub_pos.mp elapsed))]
    simp [reservoir, later]

@[simp] theorem refill_capacity (b : TokenBucket) (now : ℚ) : (b.refill now).capacity = b.capacity := by
  unfold refill
  dsimp only
  split <;> rfl

@[simp] theorem refill_rate (b : TokenBucket) (now : ℚ) :
    (b.refill now).refillRatePerSecond = b.refillRatePerSecond := by
  unfold refill
  dsimp only
  split <;> rfl

@[simp] theorem refill_ratePerMs (b : TokenBucket) (now : ℚ) : (b.refill now).ratePerMs = b.ratePerMs := by
  rw [ratePerMs, refill_rate, ratePerMs]

theorem refill_tokens (b : TokenBucket) (now : ℚ) :
    (b.refill now).tokens = (b.reservoir.fill b.capacity b.ratePerMs now).level :=
  congrArg Reservoir.level (refill_reservoir b now)

theorem Bounded.ratePerMs_pos (bounded : b.Bounded) : 0 < b.ratePerMs := div_pos bounded.rate (by norm_num)

theorem refill_bounded (bounded : b.Bounded) (now : ℚ) : (b.refill now).Bounded := by
  constructor
  · rw [refill_capacity]
    exact bounded.capacity
  · rw [refill_rate]
    exact bounded.rate
  · rw [refill_tokens]
    exact bounded.nonneg.trans (Reservoir.le_fill_level bounded.ratePerMs_pos.le bounded.full)
  · rw [refill_tokens, refill_capacity]
    exact Reservoir.fill_level_le bounded.full

theorem new_bounded {config : TokenBucketConfig} {initialTokens : Option ℚ} (made : new config initialTokens now = .ok b) :
    b.Bounded ↔ ∀ tokens ∈ initialTokens, 0 ≤ tokens ∧ tokens ≤ config.capacity := by
  unfold new at made
  split at made
  · cases made
  · rename_i capacity
    split at made
    · cases made
    · rename_i rate
      cases made
      cases initialTokens with
      | none =>
        refine iff_of_true ⟨not_le.mp capacity, not_le.mp rate, ?_, le_rfl⟩ nofun
        exact (not_le.mp capacity).le
      | some tokens =>
        constructor
        · rintro bounded _ ⟨⟩
          exact ⟨bounded.nonneg, bounded.full⟩
        · intro fine
          obtain ⟨nonneg, full⟩ := fine tokens rfl
          exact ⟨not_le.mp capacity, not_le.mp rate, nonneg, full⟩

theorem tryConsume_cases (b : TokenBucket) (cost now : ℚ) :
    (cost ≤ (b.refill now).tokens ∧ (b.tryConsume cost now).2.allowed = true ∧
      (b.tryConsume cost now).1 = { b.refill now with tokens := (b.refill now).tokens - cost }) ∨
    ((b.refill now).tokens < cost ∧ (b.tryConsume cost now).2.allowed = false ∧
      (b.tryConsume cost now).1 = b.refill now ∧ (b.tryConsume cost now).2.retryAfterMs =
        (⌈(cost - (b.refill now).tokens) / b.refillRatePerSecond * 1000⌉ : ℤ)) := by
  unfold tryConsume
  dsimp only
  by_cases enough : cost ≤ (b.refill now).tokens
  · rw [if_pos enough]
    exact .inl ⟨enough, rfl, rfl⟩
  · rw [if_neg enough, refill_rate]
    exact .inr ⟨not_le.mp enough, rfl, rfl, rfl⟩

theorem setCapacity_bounded (bounded : b.Bounded) {capacity : ℚ} (pos : 0 < capacity) :
    (b.setCapacity capacity).Bounded :=
  ⟨pos, bounded.rate, le_min bounded.nonneg pos.le, min_le_right _ _⟩

theorem setRate_bounded (bounded : b.Bounded) (rate : Option ℚ) : (b.setRate rate).1.Bounded := by
  unfold setRate
  split
  · exact bounded
  · split
    · exact bounded
    · rename_i pos
      exact ⟨bounded.capacity, not_le.mp pos, bounded.nonneg, bounded.full⟩

theorem reconfigure_bounded (bounded : b.Bounded) (config : PartialConfig) (now : ℚ) : (b.reconfigure config now).1.Bounded := by
  have refilled := refill_bounded bounded now
  unfold reconfigure
  dsimp only
  split
  · exact setRate_bounded refilled _
  · split
    · exact refilled
    · rename_i pos
      exact setRate_bounded (setCapacity_bounded refilled (not_le.mp pos)) _

theorem perform_bounded {action : Action} (bounded : b.Bounded) (pos : action.positive) : (b.perform action).Bounded := by
  cases action with
  | refill now => exact refill_bounded bounded now
  | getRemaining now => exact refill_bounded bounded now
  | snapshot now => exact refill_bounded bounded now
  | reconfigure config now => exact reconfigure_bounded bounded config now
  | setTokens tokens now =>
    exact ⟨bounded.capacity, bounded.rate, le_max_left _ _, max_le bounded.capacity.le (min_le_left _ _)⟩
  | tryConsume cost now =>
    have refilled := refill_bounded bounded now
    change (b.tryConsume cost now).1.Bounded
    rcases b.tryConsume_cases cost now with ⟨enough, -, same⟩ | ⟨-, -, same, -⟩
    · rw [same]
      exact ⟨refilled.capacity, refilled.rate, sub_nonneg.mpr enough, (sub_le_self _ (le_of_lt pos)).trans refilled.full⟩
    · rw [same]
      exact refilled

theorem setRate_throws {rate : Option ℚ} {error : String} (thrown : (b.setRate rate).2 = some error) :
    (b.setRate rate).1 = b := by
  cases rate with
  | none => rfl
  | some rate =>
    unfold setRate at *
    dsimp only at *
    split
    · rfl
    · rename_i pos
      rw [if_neg pos] at thrown
      cases thrown

theorem setCapacity_self (bounded : b.Bounded) : b.setCapacity b.capacity = b := by
  rw [setCapacity, min_eq_left bounded.full]

/-- A call of `reconfigure` that throws changes nothing (but for the refill that every read does) exactly where it does not
    carry another valid capacity. -/
theorem reconfigure_throws (bounded : b.Bounded) {config : PartialConfig} {error : String}
    (thrown : (b.reconfigure config now).2 = some error) :
    (b.reconfigure config now).1 = b.refill now ↔
      ∀ capacity ∈ config.capacity, 0 < capacity → capacity = b.capacity := by
  have refilled := refill_bounded bounded now
  unfold reconfigure at *
  cases given : config.capacity with
  | none =>
    rw [given] at thrown
    exact iff_of_true (setRate_throws thrown) nofun
  | some capacity =>
    simp only [given] at thrown ⊢
    split
    · rename_i invalid
      refine iff_of_true rfl ?_
      rintro _ ⟨⟩ pos
      exact absurd pos (not_lt.mpr invalid)
    · rename_i valid
      rw [if_neg valid] at thrown
      rw [setRate_throws thrown]
      constructor
      · rintro same _ ⟨⟩ -
        have capacities := congrArg TokenBucket.capacity same
        rwa [refill_capacity] at capacities
      · intro only
        have same := only capacity rfl (not_le.mp valid)
        rw [same, ← refill_capacity b now]
        exact setCapacity_self refilled

theorem reads_tokens (bounded : b.Bounded) {later : ℚ} {reads : List ℚ} (early : ∀ read ∈ reads, read ≤ later) :
    ((reads.foldl refill b).refill later).tokens = (b.refill later).tokens := by
  induction reads generalizing b with
  | nil => rfl
  | cons read reads ih =>
    obtain ⟨first, early⟩ := List.forall_mem_cons.mp early
    refine (ih (refill_bounded bounded read) early).trans ?_
    rw [refill_tokens, refill_tokens, refill_reservoir, refill_capacity, refill_ratePerMs,
      Reservoir.fill_fill bounded.ratePerMs_pos.le first]

/-- A refused request that the bucket can hold is allowed after the time that it was told to wait, whatever is read in
    between; the clock must not have been behind the last refill when it was refused. -/
theorem retry_allowed (bounded : b.Bounded) {later : ℚ} {reads : List ℚ} (refused : (b.tryConsume cost now).2.allowed = false)
    (affordable : cost ≤ b.capacity) (forward : b.lastRefillAt ≤ now)
    (waited : now + (b.tryConsume cost now).2.retryAfterMs ≤ later) (early : ∀ read ∈ reads, read ≤ later) :
    ((reads.foldl refill (b.tryConsume cost now).1).tryConsume cost later).2.allowed = true := by
  have refilled := refill_bounded bounded now
  rcases b.tryConsume_cases cost now with ⟨-, allowed, -⟩ | ⟨short, -, same, retry⟩
  · rw [allowed] at refused
    cases refused
  · rw [same]
    rw [retry] at waited
    have rate := bounded.rate
    have since : (b.refill now).lastRefillAt = now := by
      have filled := congrArg Reservoir.since (refill_reservoir b now)
      rw [Reservoir.fill_since] at filled
      exact filled.trans (max_eq_right forward)
    have missing : 0 < (cost - (b.refill now).tokens) / b.refillRatePerSecond * 1000 :=
      mul_pos (div_pos (sub_pos.mpr short) rate) (by norm_num)
    have wait : (cost - (b.refill now).tokens) / b.refillRatePerSecond * 1000 ≤ later - now := by
      have ceil := Int.le_ceil ((cost - (b.refill now).tokens) / b.refillRatePerSecond * 1000)
      linarith
    have enough : cost - (b.refill now).tokens ≤ (later - now) * b.ratePerMs := by
      have scaled := mul_le_mul_of_nonneg_right wait bounded.ratePerMs_pos.le
      have whole : (cost - (b.refill now).tokens) / b.refillRatePerSecond * 1000 * b.ratePerMs =
          cost - (b.refill now).tokens := by
        unfold ratePerMs
        field_simp
      rwa [whole] at scaled
    have filled : cost ≤ ((reads.foldl refill (b.refill now)).refill later).tokens := by
      rw [reads_tokens refilled early, refill_tokens, refill_capacity, refill_ratePerMs]
      refine Reservoir.le_fill_of_deficit affordable enough (missing.trans_le wait) ?_
      change later = (b.refill now).lastRefillAt + (later - now)
      rw [since]
      ring
    rcases (reads.foldl refill (b.refill now)).tryConsume_cases cost later with ⟨-, allowed, -⟩ | ⟨short, -⟩
    · exact allowed
    · exact absurd filled (not_le.mpr short)

def grant (b : TokenBucket) : Action → List (ℚ × ℚ)
  | .tryConsume cost now => if (b.tryConsume cost now).2.allowed then [(now, cost)] else []
  | _ => []

def granted : TokenBucket → List Action → List (ℚ × ℚ)
  | _, [] => []
  | b, action :: rest => b.grant action ++ (b.perform action).granted rest

theorem granted_eq {actions : List Action} (fixed : ∀ action ∈ actions, action.fixed) :
    b.granted actions = Reservoir.grants b.capacity b.ratePerMs b.reservoir (actions.map fun a => (a.now, a.cost)) := by
  induction actions generalizing b with
  | nil => rfl
  | cons action rest ih =>
    obtain ⟨first, others⟩ := List.forall_mem_cons.mp fixed
    have read (now : ℚ) : (b.refill now).granted rest = Reservoir.grants b.capacity b.ratePerMs
        (b.reservoir.fill b.capacity b.ratePerMs now) (rest.map fun a => (a.now, a.cost)) := by
      rw [ih others, refill_capacity, refill_ratePerMs, refill_reservoir]
    cases action with
    | refill now => exact read now
    | getRemaining now => exact read now
    | snapshot now => exact read now
    | reconfigure config now => exact first.elim
    | setTokens tokens now => exact first.elim
    | tryConsume cost now =>
      rw [List.map_cons, granted, grant, perform]
      change _ = Reservoir.grants _ _ _ ((now, some cost) :: _)
      rw [Reservoir.grants, ← refill_tokens]
      rcases b.tryConsume_cases cost now with ⟨enough, allowed, same⟩ | ⟨short, refused, same, -⟩
      · have drawn : ({ b.refill now with tokens := (b.refill now).tokens - cost } : TokenBucket).reservoir =
            (b.refill now).reservoir.draw cost := rfl
        rw [if_pos allowed, if_pos enough, same, ih others, drawn, refill_reservoir]
        dsimp only [ratePerMs]
        rw [refill_capacity, refill_rate]
        rfl
      · rw [refused, if_neg Bool.false_ne_true, if_neg (not_le.mpr short), same]
        exact read now

theorem granted_window_le (bounded : b.Bounded) {actions : List Action} (pos : ∀ action ∈ actions, action.positive)
    (fixed : ∀ action ∈ actions, action.fixed) (sorted : (actions.map Action.now).Pairwise (· ≤ ·)) {t u : ℚ}
    (forward : t ≤ u) :
    Reservoir.total ((b.granted actions).filter fun grant => t ≤ grant.1 ∧ grant.1 ≤ u) ≤
      b.capacity + b.refillRatePerSecond * ((u - t) / 1000) := by
  have times : (actions.map fun a => (a.now, a.cost)).map Prod.fst = actions.map Action.now := by
    rw [List.map_map]
    rfl
  have costs : ∀ request ∈ actions.map fun a => (a.now, a.cost), ∀ cost ∈ request.2, 0 ≤ cost := by
    intro request member cost known
    obtain ⟨action, mem, rfl⟩ := List.mem_map.mp member
    have pos := pos action mem
    cases action with
    | tryConsume cost' now =>
      cases known
      exact le_of_lt pos
    | _ => cases known
  have bound := @Reservoir.total_window_le _ _ _ b.capacity b.ratePerMs b.reservoir t u _ _ bounded.ratePerMs_pos.le
    bounded.nonneg bounded.full (times ▸ sorted) costs forward
  rw [granted_eq fixed]
  refine bound.trans (le_of_eq ?_)
  unfold ratePerMs
  ring

end TokenBucket

open TokenBucket

/-- A bucket that starts with at most its capacity holds no more in every state reached, grants in a time window no more than
    its capacity and what is added in the window, and allows a refused request after the time it was told to wait where
    the clock was not behind; a call of `reconfigure` that throws changes nothing exactly where it carries no other valid
    capacity. -/
theorem bucket_sound {config : TokenBucketConfig} {initialTokens : Option ℚ} {start : ℚ} {b₀ b : TokenBucket}
    (made : new config initialTokens start = .ok b₀)
    (initial : ∀ tokens ∈ initialTokens, 0 ≤ tokens ∧ tokens ≤ config.capacity)
    (run : Runs TokenBucket.step (fun _ action => action.positive) b₀ b) :
    (0 ≤ b.tokens ∧ b.tokens ≤ b.capacity) ∧
    (∀ actions t u, (∀ action ∈ actions, action.positive) → (∀ action ∈ actions, action.fixed) →
      (actions.map Action.now).Pairwise (· ≤ ·) → t ≤ u →
      Reservoir.total ((b.granted actions).filter fun grant => t ≤ grant.1 ∧ grant.1 ≤ u) ≤
        b.capacity + b.refillRatePerSecond * ((u - t) / 1000)) ∧
    (∀ (cost now later : ℚ) (reads : List ℚ), (b.tryConsume cost now).2.allowed = false → cost ≤ b.capacity → b.lastRefillAt ≤ now →
      now + (b.tryConsume cost now).2.retryAfterMs ≤ later → (∀ read ∈ reads, read ≤ later) →
      ((reads.foldl refill (b.tryConsume cost now).1).tryConsume cost later).2.allowed = true) ∧
    ∀ config now error, (b.reconfigure config now).2 = some error →
      ((b.reconfigure config now).1 = b.refill now ↔ ∀ capacity ∈ config.capacity, 0 < capacity → capacity = b.capacity) := by
  have bounded : b.Bounded := by
    refine run.keeps Bounded ((new_bounded made).mpr initial) fun _ _ _ bounded positive stepped => ?_
    cases stepped
    exact perform_bounded bounded positive
  refine ⟨⟨bounded.nonneg, bounded.full⟩, ?_, ?_, ?_⟩
  · intro actions t u positive fixed sorted forward
    exact granted_window_le bounded positive fixed sorted forward
  · intro cost now later reads refused affordable forward waited early
    exact retry_allowed bounded refused affordable forward waited early
  · intro config now error thrown
    exact reconfigure_throws bounded thrown

section Sample

def full : TokenBucket := ⟨5, 0, 5, 1⟩

theorem bucket_sound_consumed : 0 ≤ (((full.tryConsume 2 0).1.tryConsume 2 500).1).tokens := by
  have run : Runs TokenBucket.step (fun _ action => action.positive) full ((full.tryConsume 2 0).1.tryConsume 2 500).1 :=
    ((Runs.refl full).next (.tryConsume 2 0) (by norm_num [Action.positive]) rfl).next (.tryConsume 2 500)
      (by norm_num [Action.positive]) rfl
  have made : new ⟨5, 1⟩ none 0 = .ok full := by norm_num [new, full]
  exact (bucket_sound made nofun run).1.1

/-- Initial tokens over the capacity, all granted at once; a call of `reconfigure` that throws for its second field and keeps
    the first; and a request that is refused at a clock reading before the last refill, and again after its wait. -/
theorem not_bucket_sound :
    (∃ b, new ⟨5, 1⟩ (some 10) 0 = .ok b ∧ b.capacity < b.tokens ∧ (b.tryConsume 10 0).2.allowed = true) ∧
    ((full.reconfigure ⟨some 3, some 0⟩ 0).2 = some rateError ∧ full.capacity = 5 ∧
      (full.reconfigure ⟨some 3, some 0⟩ 0).1.capacity = 3) ∧
    ∃ b, Runs TokenBucket.step (fun _ action => action.positive) full b ∧ (b.tryConsume 1 0).2.allowed = false ∧
      ((b.tryConsume 1 0).1.tryConsume 1 (0 + (b.tryConsume 1 0).2.retryAfterMs)).2.allowed = false := by
  refine ⟨⟨⟨10, 0, 5, 1⟩, ?_, ?_, ?_⟩, ⟨?_, rfl, ?_⟩, (full.tryConsume 5 1000).1, ?_, ?_, ?_⟩
  · norm_num [new]
  · decide +kernel
  · decide +kernel
  · decide +kernel
  · decide +kernel
  · exact (Runs.refl full).next (.tryConsume 5 1000) (by norm_num [Action.positive]) rfl
  · decide +kernel
  · decide +kernel

end Sample

end SubTrackr.RateLimit
