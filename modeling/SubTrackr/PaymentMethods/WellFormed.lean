import SubTrackr.PaymentMethods.PaymentMethodRegistry
import SubTrackr.Lib.Fallible
import SubTrackr.Lib.Histories
import SubTrackr.Lib.Runs

namespace SubTrackr.PaymentMethods

open Option List Lib PaymentMethodRegistry

inductive Call where
  | addMethod (merchantId : String) (draft : PaymentMethodDraft)
  | updateMethod (id : String) (updates : PaymentMethodUpdates)
  | verifyMethod (id : String)
  | removeMethod (id : String)
  | deactivateExpired (merchantId : String)
  | createChain (merchantId name : String) (methodIds : List String) (options : ChainOptions)
  | updateChain (id : String) (updates : FallbackChainUpdates)
  | deleteChain (id : String)

section Runs

variable (getTime : String → Option ℤ) (s : PaymentMethodRegistry)

def perform (env : Env) : Call → Except BillingError PaymentMethodRegistry
  | .addMethod merchantId draft => Prod.fst <$> s.addMethod env merchantId draft
  | .updateMethod id updates => Prod.fst <$> s.updateMethod env id updates
  | .verifyMethod id => Prod.fst <$> s.verifyMethod env id
  | .removeMethod id => s.removeMethod env id
  | .deactivateExpired merchantId => Prod.fst <$> s.deactivateExpired getTime env merchantId
  | .createChain merchantId name methodIds options => Prod.fst <$> s.createChain getTime env merchantId name methodIds options
  | .updateChain id updates => Prod.fst <$> s.updateChain env id updates
  | .deleteChain id => .ok (s.deleteChain id)

def step (action : Env × Call) : Option PaymentMethodRegistry := (perform getTime s action.1 action.2).toOption

end Runs

structure Sound (s : PaymentMethodRegistry) (chain : FallbackChain) : Prop where
  nonempty : chain.methodIds ≠ []
  short : chain.methodIds.length ≤ MAX_CHAIN_LENGTH
  distinct : chain.methodIds.Nodup
  owned : ∀ id ∈ chain.methodIds, ∃ method, s.methods.get id = some method ∧ method.merchantId = chain.merchantId
  attempts : 0 ≤ chain.maxAttempts

/-- All chains and limits are as they should be, and no charge of one merchant asks the processor for another one's
    method. -/
structure WellFormed (getTime : String → Option ℤ) (s : PaymentMethodRegistry) : Prop where
  chains : ∀ id chain, s.chains.get id = some chain → Sound s chain
  limits : ∀ id method, s.methods.get id = some method → 0 ≤ method.spendLimit
  charges : ∀ env merchantId subscriptionId amount processor charged,
    s.charge getTime env merchantId subscriptionId amount processor = .ok charged →
      ∀ method ∈ charged.asked, method.merchantId = merchantId

/-- What `validateChain` asks for, beside a name and a method that can be charged. -/
structure Accepted (s : PaymentMethodRegistry) (chain : FallbackChain) : Prop where
  nonempty : chain.methodIds.length ≠ 0
  short : chain.methodIds.length ≤ MAX_CHAIN_LENGTH
  attempts : 0 ≤ chain.maxAttempts
  ids : s.idErrors chain.merchantId [] chain.methodIds = []

/-- An update sets no negative spend limit, and makes no chain that creating it would refuse for its methods or its
    ceiling; a method is removed only where every chain that names it names another one too, and is stored under its own
    id. -/
def Careful (s : PaymentMethodRegistry) (action : Env × Call) : Prop :=
  match action.2 with
  | .updateMethod _ updates => ∀ limit, updates.spendLimit = some limit → 0 ≤ limit
  | .removeMethod id => ∀ key chain, s.chains.get key = some chain → id ∈ chain.methodIds →
    chain.id = key ∧ ∃ other ∈ chain.methodIds, other ≠ id
  | .updateChain id updates => ∀ chain, s.chains.get id = some chain → Accepted s (chain.update updates action.1.now)
  | _ => True

structure Kept (s : PaymentMethodRegistry) : Prop where
  chains : ∀ id chain, s.chains.get id = some chain → Sound s chain
  limits : ∀ id method, s.methods.get id = some method → 0 ≤ method.spendLimit
  numbered : ∀ id method, s.methods.get id = some method →
    ∃ n random, n ≤ s.sequence ∧ id = idText ['p', 'm'] n random

variable {getTime : String → Option ℤ} {s t : PaymentMethodRegistry} {env : Env} {chain : FallbackChain}
  {method : RegisteredPaymentMethod} {id : String}

theorem kept_new : Kept .new where
  chains _ _ found := by cases found
  limits _ _ found := by cases found
  numbered _ _ found := by cases found

theorem Sound.of_methods (sound : Sound s chain) (kept : ∀ id method, id ∈ chain.methodIds → s.methods.get id = some method →
    ∃ method', t.methods.get id = some method' ∧ method'.merchantId = method.merchantId) : Sound t chain where
  nonempty := sound.nonempty
  short := sound.short
  distinct := sound.distinct
  owned id named := by
    obtain ⟨method, found, own⟩ := sound.owned id named
    obtain ⟨method', found', same⟩ := kept id method named found
    exact ⟨method', found', same.trans own⟩
  attempts := sound.attempts

theorem Kept.setMethod (kept : Kept s) (same : ∀ before, s.methods.get method.id = some before →
      before.merchantId = method.merchantId)
    (limit : 0 ≤ method.spendLimit) (numbered : ∃ n random, n ≤ s.sequence ∧ method.id = idText ['p', 'm'] n random) :
    Kept (s.setMethod method) where
  chains id chain found := by
    apply (kept.chains id chain found).of_methods
    intro id before _ stored
    by_cases here : id = method.id
    · subst here
      exact ⟨method, InsertionMap.get_set_self .., (same before stored).symm⟩
    · exact ⟨before, (InsertionMap.get_set_of_ne _ _ here).trans stored, rfl⟩
  limits id found stored := by
    rcases InsertionMap.get_set_eq_some.mp stored with ⟨-, rfl⟩ | ⟨-, old⟩
    · exact limit
    · exact kept.limits id found old
  numbered id found stored := by
    rcases InsertionMap.get_set_eq_some.mp stored with ⟨rfl, -⟩ | ⟨-, old⟩
    · exact numbered
    · exact kept.numbered id found old

theorem Kept.nextId (kept : Kept s) (kind random : List Char) : Kept (s.nextId kind random).1 where
  chains id chain found := (kept.chains id chain found).of_methods fun _ method _ held => ⟨method, held, rfl⟩
  limits := kept.limits
  numbered id method found := by
    obtain ⟨n, random, early, named⟩ := kept.numbered id method found
    exact ⟨n, random, early.trans (Nat.le_succ _), named⟩

theorem Kept.addMethod (kept : Kept s) {merchantId : String} {draft : PaymentMethodDraft}
    (done : s.addMethod env merchantId draft = .ok (t, method)) : Kept t := by
  unfold PaymentMethodRegistry.addMethod at done
  split at done
  · cases done
  · split at done
    · cases done
    · rename_i limit
      cases done
      apply (kept.nextId ['p', 'm'] (env.random 0)).setMethod
      · intro before held
        obtain ⟨n, random, early, named⟩ := kept.numbered _ before held
        have same := idText_inj named
        omega
      · exact not_lt.mp limit
      · exact ⟨s.sequence + 1, env.random 0, le_refl _, rfl⟩

theorem Kept.changeMethod (kept : Kept s) {before : RegisteredPaymentMethod} (held : s.methods.get id = some before)
    (same : method.id = before.id) (own : method.merchantId = before.merchantId) (limit : 0 ≤ method.spendLimit) :
    Kept (s.setMethod method) := by
  have named := s.named id before held
  apply kept.setMethod _ limit
  · rw [same, named]
    exact kept.numbered id before held
  · intro before' held'
    rw [same, named, held] at held'
    rw [← Option.some.inj held', own]

theorem requireMethod_eq_ok : s.requireMethod id = .ok method ↔ s.methods.get id = some method := by
  unfold requireMethod
  cases s.methods.get id with
  | none => simp [invalidPlan]
  | some found => simp

theorem Kept.setMethodFlags (kept : Kept s) {flags : MethodFlags} (done : s.setMethodFlags env id flags = .ok (t, method)) :
    Kept t := by
  unfold PaymentMethodRegistry.setMethodFlags at done
  obtain ⟨before, found, done⟩ := (bind_eq_ok ..).mp done
  cases done
  have held := requireMethod_eq_ok.mp found
  exact kept.changeMethod held rfl rfl (kept.limits id before held)

theorem Kept.updateMethod (kept : Kept s) {updates : PaymentMethodUpdates}
    (careful : ∀ limit, updates.spendLimit = some limit → 0 ≤ limit)
    (done : s.updateMethod env id updates = .ok (t, method)) : Kept t := by
  unfold PaymentMethodRegistry.updateMethod at done
  obtain ⟨before, found, done⟩ := (bind_eq_ok ..).mp done
  cases done
  have held := requireMethod_eq_ok.mp found
  have limit : 0 ≤ updates.spendLimit.getD before.spendLimit := by
    cases given : updates.spendLimit with
    | none => exact kept.limits id before held
    | some limit => exact careful limit given
  have own : (before.update updates env.now).merchantId = before.merchantId := rfl
  exact kept.changeMethod held rfl own limit

theorem Kept.deactivateExpired (kept : Kept s) {merchantId : String} {count : ℕ}
    (done : s.deactivateExpired getTime env merchantId = .ok (t, count)) : Kept t := by
  apply foldlM_keeps (fun state : PaymentMethodRegistry × ℕ => Kept state.1) _ kept done
  rintro ⟨s, count⟩ method ⟨t, count'⟩ kept done
  dsimp only at done
  split at done
  · cases done
    exact kept
  · split at done
    · cases done
      exact kept
    · obtain ⟨⟨t', method'⟩, flagged, done⟩ := (bind_eq_ok ..).mp done
      cases done
      exact kept.setMethodFlags flagged

section Removal

variable {key : String}

def strip (env : Env) (id : String) (chain : FallbackChain) : FallbackChain :=
  if id ∉ chain.methodIds then chain
  else { chain with methodIds := chain.methodIds.filter fun methodId => methodId ≠ id, updatedAt := env.now }

theorem notMem_strip (chain : FallbackChain) : id ∉ (strip env id chain).methodIds := by
  unfold strip
  split
  · assumption
  · simp

theorem strip_strip (chain : FallbackChain) : strip env id (strip env id chain) = strip env id chain := by
  rw [strip, if_pos (notMem_strip chain)]

theorem dropFromChain_methods (s : PaymentMethodRegistry) (env : Env) (id key : String) :
    (s.dropFromChain env id key).methods = s.methods ∧ (s.dropFromChain env id key).sequence = s.sequence := by
  unfold dropFromChain
  split
  · exact ⟨rfl, rfl⟩
  · split <;> exact ⟨rfl, rfl⟩

theorem dropFromChain_chains (env : Env) (own : ∀ chain, s.chains.get key = some chain → id ∈ chain.methodIds → chain.id = key)
    (j : String) : (s.dropFromChain env id key).chains.get j =
      if j = key then (s.chains.get j).map (strip env id) else s.chains.get j := by
  unfold dropFromChain
  by_cases here : j = key
  · subst here
    rw [if_pos rfl]
    cases held : s.chains.get j with
    | none => exact held
    | some chain =>
      rw [map_some]
      by_cases named : id ∈ chain.methodIds
      · have same := own chain held named
        rw [strip, if_neg (not_not.mpr named)]
        simp only [named, not_true_eq_false, if_false, setChain, same, InsertionMap.get_set_self]
      · rw [strip, if_pos named]
        simp only [named, not_false_eq_true, if_true]
        exact held
  · rw [if_neg here]
    split
    · rfl
    · rename_i chain held
      split
      · rfl
      · rename_i named
        rw [not_not] at named
        rw [setChain, own chain held named]
        exact InsertionMap.get_set_of_ne _ _ here

theorem chains_after_loop (env : Env) (own : ∀ key chain, s.chains.get key = some chain → id ∈ chain.methodIds → chain.id = key)
    (keys : List String) (j : String) :
    (keys.foldl (fun s key => s.dropFromChain env id key) s).chains.get j =
      if j ∈ keys then (s.chains.get j).map (strip env id) else s.chains.get j := by
  induction keys generalizing s with
  | nil => rfl
  | cons key keys ih =>
    have first := dropFromChain_chains env (own key)
    have own' (key' : String) (chain : FallbackChain)
        (held : (s.dropFromChain env id key).chains.get key' = some chain) (named : id ∈ chain.methodIds) : chain.id = key' := by
      rw [first] at held
      split at held
      · obtain ⟨before, -, rfl⟩ := map_eq_some_iff.mp held
        exact absurd named (notMem_strip before)
      · exact own key' chain held named
    rw [foldl_cons, ih own', first]
    by_cases here : j = key
    · subst here
      simp only [if_true, mem_cons_self, Option.map_map]
      split
      · congr 1
        funext chain
        exact strip_strip chain
      · rfl
    · simp only [here, if_false, mem_cons, false_or]

theorem methods_after_loop (s : PaymentMethodRegistry) (env : Env) (id : String) (keys : List String) :
    (keys.foldl (fun s key => s.dropFromChain env id key) s).methods = s.methods ∧
      (keys.foldl (fun s key => s.dropFromChain env id key) s).sequence = s.sequence := by
  induction keys generalizing s with
  | nil => exact ⟨rfl, rfl⟩
  | cons key keys ih =>
    obtain ⟨methods, sequence⟩ := dropFromChain_methods s env id key
    rw [foldl_cons, (ih _).1, (ih _).2]
    exact ⟨methods, sequence⟩

theorem Sound.strip {gone : String} (sound : Sound s chain) (other : gone ∈ chain.methodIds → ∃ other ∈ chain.methodIds, other ≠ gone)
    (kept : ∀ id, id ≠ gone → t.methods.get id = s.methods.get id) : Sound t (strip env gone chain) := by
  unfold PaymentMethods.strip
  split
  · rename_i unnamed
    apply sound.of_methods
    intro id method named held
    have apart : id ≠ gone := fun same => unnamed (same ▸ named)
    exact ⟨method, (kept id apart).trans held, rfl⟩
  · rename_i named
    obtain ⟨other, mem, apart⟩ := other (not_not.mp named)
    have remaining : other ∈ chain.methodIds.filter fun methodId => methodId ≠ gone :=
      mem_filter.mpr ⟨mem, by simp [apart]⟩
    constructor
    · exact ne_nil_of_mem remaining
    · exact (length_filter_le ..).trans sound.short
    · exact sound.distinct.filter _
    · intro id kept'
      obtain ⟨mem, apart⟩ := mem_filter.mp kept'
      rw [kept id (of_decide_eq_true apart)]
      exact sound.owned id mem
    · exact sound.attempts

theorem Kept.removeMethod (kept : Kept s)
    (careful : ∀ key chain, s.chains.get key = some chain → id ∈ chain.methodIds →
      chain.id = key ∧ ∃ other ∈ chain.methodIds, other ≠ id)
    (done : s.removeMethod env id = .ok t) : Kept t := by
  unfold PaymentMethodRegistry.removeMethod at done
  obtain ⟨method, -, done⟩ := (bind_eq_ok ..).mp done
  cases done
  obtain ⟨methods, sequence⟩ := methods_after_loop (s.deleteMethod id) env id s.chains.keys
  have own (key : String) (chain : FallbackChain) (held : (s.deleteMethod id).chains.get key = some chain)
      (named : id ∈ chain.methodIds) : chain.id = key := (careful key chain held named).1
  have chains := chains_after_loop env own s.chains.keys
  constructor
  · intro key chain found
    rw [chains] at found
    split at found
    · obtain ⟨before, held, rfl⟩ := map_eq_some_iff.mp found
      apply (kept.chains key before held).strip fun named => (careful key before held named).2
      intro id' apart
      rw [methods]
      ext found
      exact InsertionMap.get_erase_eq_some.trans (and_iff_right apart)
    · rename_i unlisted
      exact absurd (InsertionMap.mem_keys.mpr ⟨chain, found⟩) unlisted
  · intro id' found held
    rw [methods] at held
    exact kept.limits id' found (InsertionMap.get_erase_eq_some.mp held).2
  · intro id' found held
    rw [methods] at held
    rw [sequence]
    exact kept.numbered id' found (InsertionMap.get_erase_eq_some.mp held).2

end Removal

section Chains

variable {merchantId : String}

theorem owned_of_idErrors {seen ids : List String} (fine : s.idErrors merchantId seen ids = []) :
    (∀ id ∈ ids, id ∉ seen ∧ ∃ method, s.methods.get id = some method ∧ method.merchantId = merchantId) ∧ ids.Nodup := by
  induction ids generalizing seen with
  | nil => simp
  | cons id rest ih =>
    rw [idErrors, append_eq_nil_iff, append_eq_nil_iff] at fine
    obtain ⟨⟨fresh, owned⟩, later⟩ := fine
    have unseen : id ∉ seen := by
      intro again
      simp [again] at fresh
    have own : ∃ method, s.methods.get id = some method ∧ method.merchantId = merchantId := by
      cases stored : s.methods.get id with
      | none => simp [stored] at owned
      | some method =>
        refine ⟨method, rfl, ?_⟩
        by_contra other
        simp [stored, other] at owned
    obtain ⟨others, nodup⟩ := ih later
    constructor
    · rw [forall_mem_cons]
      refine ⟨⟨unseen, own⟩, fun id' listed => ?_⟩
      obtain ⟨new, own'⟩ := others id' listed
      exact ⟨fun before => new (mem_cons_of_mem _ before), own'⟩
    · rw [nodup_cons]
      exact ⟨fun again => (others id again).1 mem_cons_self, nodup⟩

theorem Accepted.sound (accepted : Accepted s chain) : Sound s chain := by
  obtain ⟨owned, nodup⟩ := owned_of_idErrors accepted.ids
  constructor
  · exact fun empty => accepted.nonempty (congrArg List.length empty)
  · exact accepted.short
  · exact nodup
  · exact fun id named => (owned id named).2
  · exact accepted.attempts

theorem accepted_of_chainErrors (fine : s.chainErrors chain = []) : Accepted s chain := by
  unfold chainErrors at fine
  simp only [append_eq_nil_iff] at fine
  obtain ⟨⟨⟨⟨-, nonempty⟩, short⟩, attempts⟩, ids⟩ := fine
  constructor
  · intro empty
    simp [empty] at nonempty
  · by_contra long
    simp [not_le.mp long] at short
  · by_contra negative
    simp [not_le.mp negative] at attempts
  · exact ids

theorem Kept.setChain (kept : Kept s) (sound : Sound s chain) : Kept (s.setChain id chain) where
  chains key found stored := by
    have same : Sound s found := by
      rcases InsertionMap.get_set_eq_some.mp stored with ⟨-, rfl⟩ | ⟨-, old⟩
      · exact sound
      · exact kept.chains key found old
    exact same.of_methods fun _ method _ stored => ⟨method, stored, rfl⟩
  limits := kept.limits
  numbered := kept.numbered

theorem Kept.createChain (kept : Kept s) {name : String} {methodIds : List String} {opts : ChainOptions}
    (done : s.createChain getTime env merchantId name methodIds opts = .ok (t, chain)) : Kept t := by
  unfold PaymentMethodRegistry.createChain at done
  dsimp only at done
  split at done
  · cases done
  · rename_i valid
    cases done
    have kept := kept.nextId ['c', 'h', 'a', 'i', 'n'] (env.random 0)
    apply kept.setChain
    apply Accepted.sound
    apply accepted_of_chainErrors
    simp only [validateChain, Bool.not_eq_true, Bool.not_eq_false', decide_eq_true_eq, length_eq_zero_iff,
      append_eq_nil_iff] at valid
    exact valid.1

theorem Kept.updateChain (kept : Kept s) {updates : FallbackChainUpdates}
    (careful : ∀ chain, s.chains.get id = some chain → Accepted s (chain.update updates env.now))
    (done : s.updateChain env id updates = .ok (t, chain)) : Kept t := by
  unfold PaymentMethodRegistry.updateChain at done
  split at done
  · cases done
  · rename_i before held
    cases done
    exact kept.setChain (careful before held).sound

theorem Kept.deleteChain (kept : Kept s) (id : String) : Kept (s.deleteChain id) where
  chains key found stored := by
    have sound := kept.chains key found (InsertionMap.get_erase_eq_some.mp stored).2
    exact sound.of_methods fun _ method _ stored => ⟨method, stored, rfl⟩
  limits := kept.limits
  numbered := kept.numbered

end Chains

theorem kept_step {action : Env × Call} (kept : Kept s) (careful : Careful s action) (stepped : step getTime s action = some t) :
    Kept t := by
  obtain ⟨env, call⟩ := action
  have done : perform getTime s env call = .ok t := (toOption_eq_some _ _).mp stepped
  cases call with
  | addMethod merchantId draft =>
    obtain ⟨⟨t, method⟩, returned, rfl⟩ := (map_eq_ok ..).mp done
    exact kept.addMethod returned
  | updateMethod id updates =>
    obtain ⟨⟨t, method⟩, returned, rfl⟩ := (map_eq_ok ..).mp done
    exact kept.updateMethod careful returned
  | verifyMethod id =>
    obtain ⟨⟨t, method⟩, returned, rfl⟩ := (map_eq_ok ..).mp done
    exact kept.setMethodFlags returned
  | removeMethod id => exact kept.removeMethod careful done
  | deactivateExpired merchantId =>
    obtain ⟨⟨t, count⟩, returned, rfl⟩ := (map_eq_ok ..).mp done
    exact kept.deactivateExpired returned
  | createChain merchantId name methodIds opts =>
    obtain ⟨⟨t, chain⟩, returned, rfl⟩ := (map_eq_ok ..).mp done
    exact kept.createChain returned
  | updateChain id updates =>
    obtain ⟨⟨t, chain⟩, returned, rfl⟩ := (map_eq_ok ..).mp done
    exact kept.updateChain careful returned
  | deleteChain id =>
    cases done
    exact kept.deleteChain id

section Charges

variable {merchantId subscriptionId : String} {r : ChargeRequest} {attempts : List ChargeAttempt}
  {asked methods : List RegisteredPaymentMethod} {position : ℕ} {charged : Charged}

theorem asked_subset (charge : chargeThrough getTime r s attempts asked position methods = .ok charged)
    (found : method ∈ charged.asked) : method ∈ asked ∨ method ∈ methods := by
  induction methods generalizing s attempts asked position with
  | nil =>
    cases charge
    exact .inl found
  | cons candidate rest ih =>
    have grown (h : method ∈ asked ++ [candidate] ∨ method ∈ rest) : method ∈ asked ∨ method ∈ candidate :: rest := by
      simp only [mem_append, mem_singleton] at h
      simp only [mem_cons]
      tauto
    rw [chargeThrough] at charge
    split at charge
    · dsimp only at charge
      split at charge
      · cases charge
        exact .inl found
      · exact (ih charge).imp_right (mem_cons_of_mem _)
    · split at charge
      · exact (ih charge).imp_right (mem_cons_of_mem _)
      · dsimp only at charge
        split at charge
        · obtain ⟨⟨t, used⟩, -, done⟩ := (bind_eq_ok ..).mp charge
          cases done
          exact grown (.inl found)
        · exact grown (ih charge)

theorem chainForSubscription_spec (found : s.chainForSubscription merchantId subscriptionId = some chain) :
    chain.merchantId = merchantId ∧ ∃ key, s.chains.get key = some chain := by
  have mem : chain ∈ (s.listChains merchantId).filter (·.isActive) := by
    rcases or_eq_some_iff.mp found with own | ⟨-, any⟩
    · exact mem_of_find?_eq_some own
    · exact mem_of_find?_eq_some any
  obtain ⟨held, own⟩ := mem_filter.mp (mem_filter.mp mem).1
  exact ⟨of_decide_eq_true own, InsertionMap.mem_values.mp held⟩

theorem Kept.candidates_own (kept : Kept s) (candidate : method ∈ s.candidates merchantId subscriptionId) :
    method.merchantId = merchantId := by
  unfold candidates at candidate
  split at candidate
  · rename_i chain found
    obtain ⟨own, key, stored⟩ := chainForSubscription_spec found
    obtain ⟨id, named, here⟩ := mem_filterMap.mp (mem_of_mem_cut candidate)
    obtain ⟨method', here', own'⟩ := (kept.chains key chain stored).owned id named
    rw [here] at here'
    rw [Option.some.inj here', own', own]
  · have listed := (perm_insertionSort _ _).mem_iff.mp candidate
    exact of_decide_eq_true (mem_filter.mp (mem_filter.mp listed).1).2

theorem Kept.wellFormed (kept : Kept s) : WellFormed getTime s where
  chains := kept.chains
  limits := kept.limits
  charges env merchantId subscriptionId amount processor charged charge method found := by
    unfold PaymentMethodRegistry.charge at charge
    dsimp only at charge
    split at charge
    · cases charge
    · rcases asked_subset charge found with early | candidate
      · cases early
      · exact kept.candidates_own candidate

end Charges

/-- The stored chains and limits stay well formed in every run that is careful with updates and removals. -/
theorem wellFormed_of_careful (run : Runs (step getTime) Careful .new s) : WellFormed getTime s := by
  have kept := run.keeps Kept kept_new fun s t action kept careful stepped => kept_step kept careful stepped
  exact kept.wellFormed

def exampleDraft : PaymentMethodDraft where
  label := "Wallet"
  kind := .crypto
  reference := "wallet"
  currency := "USD"
  spendLimit := 0
  expiresAt := none

def exampleCalls : List (Env × Call) :=
  [(⟨0, fun _ => []⟩, .addMethod "merchant_1" exampleDraft), (⟨0, fun _ => []⟩, .addMethod "merchant_2" exampleDraft),
    (⟨0, fun _ => []⟩, .createChain "merchant_2" "Main" ["pm_2_"] {})]

def adds : Call → Bool
  | .addMethod .. => true
  | .createChain .. => true
  | _ => false

theorem wellFormed_exampleCalls : ∃ s : PaymentMethodRegistry,
    (s.chains.get "chain_3_").isSome ∧ WellFormed (fun _ => none) s := by
  have reached : ∃ s, Runs (step fun _ => none) (fun _ action => adds action.2 = true) .new s ∧
      (s.chains.get "chain_3_").isSome := Runs.exists_of_foldlM exampleCalls (by decide +kernel)
  obtain ⟨s, run, stored⟩ := reached
  refine ⟨s, stored, wellFormed_of_careful (run.mono ?_)⟩
  intro s action added
  obtain ⟨env, call⟩ := action
  cases call with
  | addMethod => trivial
  | createChain => trivial
  | updateMethod | verifyMethod | removeMethod | deactivateExpired | updateChain | deleteChain => cases added

def strays (s : PaymentMethodRegistry) : Bool :=
  (s.charge (fun _ => none) ⟨0, fun _ => []⟩ "merchant_2" "sub_1" 1 fun _ _ => ⟨true, none⟩).toOption.any fun charged =>
    charged.asked.any fun method => method.merchantId ≠ "merchant_2"

theorem not_wellFormed : ¬ ∀ (getTime : String → Option ℤ) (s : PaymentMethodRegistry),
    Runs (step getTime) anyAction .new s → WellFormed getTime s := by
  intro all
  have reached : ∃ s, Runs (step fun _ => none) anyAction .new s ∧ strays s = true :=
    Runs.exists_of_foldlM
      (exampleCalls ++ [(⟨0, fun _ => []⟩, .updateChain "chain_3_" { methodIds := some ["pm_1_"] })]) (by decide +kernel)
  obtain ⟨s, run, strays⟩ := reached
  obtain ⟨charged, returned, other⟩ := (any_eq_true _ _).mp strays
  obtain ⟨method, asked, foreign⟩ := any_eq_true.mp other
  have own := (all _ s run).charges _ _ _ _ _ charged ((toOption_eq_some _ _).mp returned) method asked
  exact of_decide_eq_true foreign own

end SubTrackr.PaymentMethods
