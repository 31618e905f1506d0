import SubTrackr.PaymentMethods.PaymentMethodRegistry

namespace SubTrackr.PaymentMethods

open List Lib PaymentMethodRegistry

variable {getTime : String → Option ℤ} {r : ChargeRequest} {s : PaymentMethodRegistry} {env : Env} {now : ℤ}
  {merchantId subscriptionId : String} {amount : ℚ} {processor : ChargeProcessor} {chain : FallbackChain}
  {method : RegisteredPaymentMethod}

def accepts (processor : ChargeProcessor) (subscriptionId : String) (amount : ℚ) (asked : List RegisteredPaymentMethod)
    (method : RegisteredPaymentMethod) : Bool := (processor asked ⟨method, subscriptionId, amount⟩).success

/-- The charge asks the processor for the methods of the resolved chain, in order and until one is accepted; it succeeds
    where one is, and throws only where there is none. -/
def FollowsChain (getTime : String → Option ℤ) (s : PaymentMethodRegistry) (env : Env) (merchantId subscriptionId : String)
    (amount : ℚ) (processor : ChargeProcessor) (chain : FallbackChain) : Prop :=
  match s.charge getTime env merchantId subscriptionId amount processor with
  | .error _ => s.resolveChainMethods getTime env.now chain = []
  | .ok charged => (charged.asked, charged.result.success) =
      tryInOrder (accepts processor subscriptionId amount) [] (s.resolveChainMethods getTime env.now chain)

def WithinLimits (s : PaymentMethodRegistry) (chain : FallbackChain) (amount : ℚ) : Prop :=
  ∀ id ∈ chain.methodIds, ∀ method, s.methods.get id = some method → method.spendLimit > 0 → amount ≤ method.spendLimit

def existing (s : PaymentMethodRegistry) (chain : FallbackChain) : List RegisteredPaymentMethod :=
  chain.methodIds.filterMap s.methods.get

/-- Where the ceiling of the chain cuts its existing methods short, those that are kept are all usable, or those that are
    cut off are all unusable; and no method that is kept has an expiry that is no date, unless it is inactive or
    unverified. -/
structure CutsClean (getTime : String → Option ℤ) (s : PaymentMethodRegistry) (now : ℤ) (chain : FallbackChain) : Prop where
  readable : ∀ method ∈ cut chain.maxAttempts (existing s chain), method.isActive = true → method.isVerified = true →
    ∀ text, method.expiresAt = some text → text ≠ "" → (getTime text).isSome
  ceiling : chain.maxAttempts > 0 →
    (∀ method ∈ (existing s chain).take ⌊chain.maxAttempts⌋₊, usable getTime now method = true) ∨
      ∀ method ∈ (existing s chain).drop ⌊chain.maxAttempts⌋₊, usable getTime now method = false

def chargeable (getTime : String → Option ℤ) (now : ℤ) (method : RegisteredPaymentMethod) : Bool :=
  (hardDecline getTime now method).isNone

theorem chargeable_eq_true : chargeable getTime now method = true ↔
    usable getTime now method = true ∨ method.isActive = true ∧ method.isVerified = true ∧
      ∃ text, method.expiresAt = some text ∧ text ≠ "" ∧ getTime text = none := by
  unfold chargeable hardDecline usable
  cases active : method.isActive with
  | false => simp
  | true =>
    cases verified : method.isVerified with
    | false => simp
    | true =>
      cases expiry : method.expiresAt with
      | none => simp
      | some text =>
        by_cases empty : text = ""
        · simp [empty]
        · cases time : getTime text with
          | none => simp [daysUntil, time, empty]
          | some time => simp [daysUntil, time, empty]

theorem chargeThrough_spec {candidates : List RegisteredPaymentMethod} {attempts : List ChargeAttempt}
    {asked : List RegisteredPaymentMethod} {position : ℕ} (lenient : r.chain.any (·.stopOnHardDecline) = false)
    (within : ∀ method ∈ candidates, exceeds r.amount method = false)
    (held : ∀ method ∈ candidates, s.methods.get method.id = some method) :
    ∃ charged, chargeThrough getTime r s attempts asked position candidates = .ok charged ∧
      (charged.asked, charged.result.success) =
        tryInOrder (accepts r.processor r.subscriptionId r.amount) asked (candidates.filter (chargeable getTime r.env.now)) := by
  induction candidates generalizing s attempts asked position with
  | nil => exact ⟨_, rfl, rfl⟩
  | cons method rest ih =>
    have within' := fun m mem => within m (mem_cons_of_mem _ mem)
    have held' := fun m mem => held m (mem_cons_of_mem _ mem)
    unfold chargeThrough
    cases decline : hardDecline getTime r.env.now method with
    | some reason =>
      have skipped : ¬ chargeable getTime r.env.now method = true := by simp [chargeable, decline]
      rw [filter_cons_of_neg skipped]
      simp only [lenient, Bool.false_eq_true, if_false]
      exact ih within' held'
    | none =>
      have tried : chargeable getTime r.env.now method = true := by simp [chargeable, decline]
      rw [filter_cons_of_pos tried]
      simp only [within method mem_cons_self, Bool.false_eq_true, if_false]
      cases outcome : (r.processor asked ⟨method, r.subscriptionId, r.amount⟩).success with
      | true =>
        rw [tryInOrder_cons_of_accepts outcome, if_pos rfl]
        have found : (r.record s method position true
            ((r.processor asked ⟨method, r.subscriptionId, r.amount⟩).failureReason.or none)).1.methods.get method.id =
              some method := held method mem_cons_self
        unfold setMethodFlags requireMethod
        simp only [if_true, found]
        exact ⟨_, rfl, rfl⟩
      | false =>
        rw [tryInOrder_cons_of_refuses outcome, if_neg Bool.false_ne_true]
        exact ih within' held'

theorem mem_existing (mem : method ∈ existing s chain) : ∃ id ∈ chain.methodIds, s.methods.get id = some method := by
  obtain ⟨id, named, found⟩ := mem_filterMap.mp mem
  exact ⟨id, named, found⟩

variable (getTime env processor) in
theorem charge_eq (applies : s.chainForSubscription merchantId subscriptionId = some chain)
    (lenient : chain.stopOnHardDecline = false) (within : WithinLimits s chain amount) :
    match s.charge getTime env merchantId subscriptionId amount processor with
    | .error _ => cut chain.maxAttempts (existing s chain) = []
    | .ok charged => (charged.asked, charged.result.success) = tryInOrder (accepts processor subscriptionId amount) []
        ((cut chain.maxAttempts (existing s chain)).filter (chargeable getTime env.now)) := by
  have candidates : s.candidates merchantId subscriptionId = cut chain.maxAttempts (existing s chain) := by
    unfold PaymentMethodRegistry.candidates
    rw [applies]
    rfl
  unfold charge
  rw [candidates, applies]
  dsimp only
  by_cases none : (cut chain.maxAttempts (existing s chain)).length = 0
  · rw [if_pos none]
    exact length_eq_zero_iff.mp none
  · rw [if_neg none]
    obtain ⟨charged, returned, result⟩ := @chargeThrough_spec getTime
      ⟨env, some chain, subscriptionId, amount, processor⟩ s (cut chain.maxAttempts (existing s chain)) [] [] 0 lenient
      (by
        intro method kept
        obtain ⟨id, named, found⟩ := mem_existing (mem_of_mem_cut kept)
        have bounded := within id named method found
        unfold exceeds
        rw [decide_eq_false_iff_not]
        exact fun above => absurd (bounded above.1) (not_le.mpr above.2))
      (by
        intro method kept
        obtain ⟨id, named, found⟩ := mem_existing (mem_of_mem_cut kept)
        rw [s.named id method found]
        exact found)
    rw [returned]
    exact result

theorem usable_of_chargeable {xs : List RegisteredPaymentMethod}
    (readable : ∀ method ∈ xs, method.isActive = true → method.isVerified = true →
      ∀ text, method.expiresAt = some text → text ≠ "" → (getTime text).isSome) :
    xs.filter (chargeable getTime now) = xs.filter (usable getTime now) := by
  apply filter_congr
  intro method mem
  rw [Bool.eq_iff_iff, chargeable_eq_true, or_iff_left_iff_imp]
  rintro ⟨active, verified, text, expiry, nonempty, unreadable⟩
  have readable := readable method mem active verified text expiry nonempty
  simp [unreadable] at readable

theorem readable_of_eq {xs ys : List RegisteredPaymentMethod} (same : xs.filter (chargeable getTime now) = ys)
    (all : ∀ method ∈ ys, usable getTime now method = true) :
    ∀ method ∈ xs, method.isActive = true → method.isVerified = true →
      ∀ text, method.expiresAt = some text → text ≠ "" → (getTime text).isSome := by
  intro method mem active verified text expiry nonempty
  by_contra unreadable
  have unreadable : getTime text = none := by simpa using unreadable
  have tried : method ∈ xs.filter (chargeable getTime now) :=
    mem_filter.mpr ⟨mem, chargeable_eq_true.mpr (.inr ⟨active, verified, text, expiry, nonempty, unreadable⟩)⟩
  have fine := all method (same ▸ tried)
  simp [usable, active, verified, expiry, nonempty, daysUntil, unreadable] at fine

theorem cutsClean_iff : CutsClean getTime s now chain ↔
    (cut chain.maxAttempts (existing s chain)).filter (chargeable getTime now) = s.resolveChainMethods getTime now chain := by
  have resolved : s.resolveChainMethods getTime now chain =
      cut chain.maxAttempts ((existing s chain).filter (usable getTime now)) := rfl
  rw [resolved]
  have usable_of_mem (method : RegisteredPaymentMethod)
      (kept : method ∈ cut chain.maxAttempts ((existing s chain).filter (usable getTime now))) :
      usable getTime now method = true := (mem_filter.mp (mem_of_mem_cut kept)).2
  by_cases limited : chain.maxAttempts > 0
  · constructor
    · intro clean
      rw [usable_of_chargeable clean.readable]
      unfold cut
      rw [if_pos limited, if_pos limited]
      exact filter_take_eq_iff.mpr (clean.ceiling limited)
    · intro same
      have readable := readable_of_eq same usable_of_mem
      refine ⟨readable, fun _ => ?_⟩
      rw [usable_of_chargeable readable] at same
      unfold cut at same
      rw [if_pos limited, if_pos limited] at same
      exact filter_take_eq_iff.mp same
  · constructor
    · intro clean
      rw [usable_of_chargeable clean.readable]
      unfold cut
      rw [if_neg limited, if_neg limited]
    · intro same
      exact ⟨readable_of_eq same usable_of_mem, fun above => absurd above limited⟩

/-- Charges follow the resolved chain, for every amount within the limits and every processor, exactly where the chain is
    cut clean. -/
theorem followsChain_iff (applies : s.chainForSubscription merchantId subscriptionId = some chain)
    (lenient : chain.stopOnHardDecline = false) :
    (∀ amount processor, WithinLimits s chain amount →
      FollowsChain getTime s env merchantId subscriptionId amount processor chain) ↔ CutsClean getTime s env.now chain := by
  rw [cutsClean_iff]
  constructor
  · intro follows
    -- a processor that declines everything is asked for all that the charge tries
    have within : WithinLimits s chain 0 := fun _ _ _ _ limited => limited.le
    have declines (asked : List RegisteredPaymentMethod) (method : RegisteredPaymentMethod) :
        accepts (fun _ _ => ⟨false, none⟩) subscriptionId 0 asked method = false := rfl
    have charged := charge_eq getTime env (fun _ _ => ⟨false, none⟩) applies lenient within
    have follows := follows 0 (fun _ _ => ⟨false, none⟩) within
    unfold FollowsChain at follows
    split at follows
    · rename_i failed
      rw [failed] at charged
      dsimp only at charged
      rw [charged, follows]
      rfl
    · rename_i result returned
      rw [returned] at charged
      dsimp only at charged
      rw [charged, tryInOrder_of_refuses declines, tryInOrder_of_refuses declines, Prod.mk.injEq, nil_append,
        nil_append] at follows
      exact follows.1
  · intro same amount processor within
    have charged := charge_eq getTime env processor applies lenient within
    unfold FollowsChain
    rw [← same]
    split
    · rename_i failed
      rw [failed] at charged
      dsimp only at charged
      rw [charged]
      rfl
    · rename_i result returned
      rw [returned] at charged
      exact charged

def exampleMethod (id : String) (kind : PaymentMethodKind) : RegisteredPaymentMethod where
  id := id
  merchantId := "merchant_1"
  label := "Method"
  kind := kind
  reference := "4242"
  currency := "USD"
  spendLimit := 0
  isVerified := kind = .crypto
  isActive := true
  expiresAt := none
  lastUsedAt := none
  createdAt := 0
  updatedAt := 0

def exampleChain (maxAttempts : ℚ) : FallbackChain where
  id := "chain_3"
  merchantId := "merchant_1"
  name := "Main"
  methodIds := ["pm_1", "pm_2"]
  subscriptionId := none
  maxAttempts := maxAttempts
  stopOnHardDecline := false
  isActive := true
  createdAt := 0
  updatedAt := 0

def exampleRegistry (maxAttempts : ℚ) : PaymentMethodRegistry :=
  ((PaymentMethodRegistry.new.setMethod (exampleMethod "pm_1" .card)).setMethod (exampleMethod "pm_2" .crypto)).setChain
    "chain_3" (exampleChain maxAttempts)

def exampleEnv : Env := ⟨0, fun _ => []⟩

theorem followsChain_uncut : (∀ amount processor, WithinLimits (exampleRegistry 0) (exampleChain 0) amount →
    FollowsChain (fun _ => none) (exampleRegistry 0) exampleEnv "merchant_1" "sub_1" amount processor (exampleChain 0)) ↔
      CutsClean (fun _ => none) (exampleRegistry 0) 0 (exampleChain 0) :=
  followsChain_iff (by decide +kernel) rfl

theorem not_followsChain : ¬ ∀ (getTime : String → Option ℤ) (s : PaymentMethodRegistry) (env : Env)
    (merchantId subscriptionId : String) (chain : FallbackChain),
    s.chainForSubscription merchantId subscriptionId = some chain → chain.stopOnHardDecline = false →
    ∀ amount processor, WithinLimits s chain amount →
      FollowsChain getTime s env merchantId subscriptionId amount processor chain := by
  intro all
  have within : WithinLimits (exampleRegistry 1) (exampleChain 1) 0 := fun _ _ _ _ limited => limited.le
  have follows := all (fun _ => none) (exampleRegistry 1) exampleEnv "merchant_1" "sub_1" (exampleChain 1)
    (by decide +kernel) rfl 0 (fun _ _ => ⟨true, none⟩) within
  have asked : ((exampleRegistry 1).charge (fun _ => none) exampleEnv "merchant_1" "sub_1" 0 fun _ _ => ⟨true, none⟩).toOption.map
      (·.asked) = some [] := by decide +kernel
  have resolved : (exampleRegistry 1).resolveChainMethods (fun _ => none) 0 (exampleChain 1) =
      [exampleMethod "pm_2" .crypto] := by decide +kernel
  unfold FollowsChain at follows
  split at follows
  · rw [show exampleEnv.now = 0 from rfl, resolved] at follows
    cases follows
  · rename_i charged returned
    rw [returned] at asked
    have nothing : charged.asked = [] := Option.some.inj asked
    rw [show exampleEnv.now = 0 from rfl, resolved, nothing] at follows
    cases follows

end SubTrackr.PaymentMethods
