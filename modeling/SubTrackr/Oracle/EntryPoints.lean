import SubTrackr.Soroban
import SubTrackr.Lib.Store
import SubTrackr.Lib.Agree

namespace SubTrackr.Oracle

open Lib Soroban

def circuitFaultLimit : Nat := 3
def circuitCooldownSecs : Nat := 3600
def maxHistory : Nat := 64

inductive OracleError where
  | alreadyInitialized | notInitialized | unauthorized | feedNotFound | feedExists | invalidPrice | invalidTimestamp
  | noPriceAvailable | stalePrice | circuitOpen | noHistory | invalidConfig
  deriving DecidableEq

abbrev Outcome (α : Type) := Except (Failure OracleError) α

inductive PriceSource where
  | primary | fallback
  deriving DecidableEq

abbrev Pair := String × String

structure Price where
  (token quote : String)
  value : Int
  (decimals timestamp : Nat)
  source : PriceSource
  deriving DecidableEq

structure FeedConfig where
  (token quote : String)
  primary : Address
  fallback : Option Address
  (maxStalenessSecs deviationThresholdBps decimals : Nat)
  deriving DecidableEq

structure CircuitState where
  tripped : Bool
  (consecutiveFaults trippedAt : Nat)
  deriving DecidableEq

def CircuitState.closed : CircuitState where
  tripped := false
  consecutiveFaults := 0
  trippedAt := 0

def isStale (now observedAt maxStalenessSecs : Nat) : Bool := decide (maxStalenessSecs < now - observedAt)

def u32Max : Nat := 2 ^ 32 - 1
def u128Max : Nat := 2 ^ 128 - 1

/-- The subtraction is checked; the product saturates in `u128` and the quotient in `u32`. -/
def deviationBps (previous current : Int) : Result Nat :=
  if previous = 0 then .ok 0
  else do
    let diff ← i128 (current - previous)
    return min (min (diff.natAbs * 10000) u128Max / previous.natAbs) u32Max

def selectPrice (now maxStalenessSecs : Nat) (primary fallback : Option Price) : Option Price :=
  (primary.filter fun p => !isStale now p.timestamp maxStalenessSecs) <|>
    (fallback.filter fun p => !isStale now p.timestamp maxStalenessSecs)

inductive Event where
  | deviation (pair : Pair) (previous value : Int) (dev : Nat)
  | breaker (pair : Pair) (now : Nat)
  | price (pair : Pair) (value : Int) (timestamp : Nat) (source : PriceSource)

structure State where
  admin : Option Address
  feed : Store Pair FeedConfig
  latest : Store (Pair × PriceSource) Price
  cache : Store Pair (Price × Nat)
  circuit : Store Pair CircuitState
  history : Store Pair (List Price)
  events : List Event

def State.empty : State where
  admin := none
  feed := fun _ => none
  latest := fun _ => none
  cache := fun _ => none
  circuit := fun _ => none
  history := fun _ => none
  events := []

theorem isStale_eq_false (now observedAt maxStalenessSecs : Nat) :
    isStale now observedAt maxStalenessSecs = false ↔ now - observedAt ≤ maxStalenessSecs := by
  unfold isStale
  rw [decide_eq_false_iff_not, Nat.not_lt]

theorem selectPrice_eq_some {now maxStalenessSecs : Nat} (held : PriceSource → Option Price) {price : Price}
    (selected : selectPrice now maxStalenessSecs (held .primary) (held .fallback) = some price) :
    (∃ source, held source = some price) ∧ now - price.timestamp ≤ maxStalenessSecs := by
  have usable (source : PriceSource) (kept : (held source).filter
      (fun p => !isStale now p.timestamp maxStalenessSecs) = some price) :
      (∃ source, held source = some price) ∧ now - price.timestamp ≤ maxStalenessSecs := by
    obtain ⟨found, fresh⟩ := Option.filter_eq_some_iff.mp kept
    exact ⟨⟨source, found⟩, (isStale_eq_false ..).mp (Bool.not_eq_true' _ ▸ fresh)⟩
  unfold selectPrice at selected
  cases first : (held .primary).filter (fun p => !isStale now p.timestamp maxStalenessSecs) with
  | some p =>
    rw [first] at selected
    exact usable .primary (first.trans selected)
  | none =>
    rw [first] at selected
    exact usable .fallback selected

def requireAdmin (s : State) : Outcome Address := present s.admin (.error .notInitialized)

def loadFeed (s : State) (pair : Pair) : Outcome FeedConfig := present (s.feed pair) (.error .feedNotFound)

def circuit (s : State) (pair : Pair) : CircuitState := (s.circuit pair).getD .closed

def saveCircuit (s : State) (pair : Pair) (state : CircuitState) : State :=
  { s with circuit := put s.circuit pair state }

def pushHistory (s : State) (pair : Pair) (price : Price) : State :=
  let history := (s.history pair).getD [] ++ [price]
  { s with history := put s.history pair (history.drop (history.length - maxHistory)) }

def initializeOracle (s : State) (admin : Address) : Outcome State := do
  require (s.admin = none) (.error .alreadyInitialized)
  return { s with admin := some admin }

def registerFeed (host : Host) (s : State) (pair : Pair) (primary : Address) (fallback : Option Address)
    (maxStalenessSecs deviationThresholdBps decimals : Nat) : Outcome State := do
  let admin ← requireAdmin s
  orPanic (host.requireAuth admin)
  require (maxStalenessSecs ≠ 0 ∧ decimals ≤ 18) (.error .invalidConfig)
  let cfg : FeedConfig := {
    token := pair.1, quote := pair.2, primary, fallback, maxStalenessSecs, deviationThresholdBps, decimals }
  return saveCircuit { s with feed := put s.feed pair cfg } pair .closed

def sourceKind (cfg : FeedConfig) (source : Address) : Outcome PriceSource :=
  if source = cfg.primary then .ok .primary
  else if cfg.fallback = some source then .ok .fallback
  else .error (.error .unauthorized)

def fault (now : Nat) (pair : Pair) (state : CircuitState) : Outcome (CircuitState × List Event) := do
  let faults ← orPanic (u32 (state.consecutiveFaults + 1))
  let state := { state with consecutiveFaults := faults }
  if circuitFaultLimit ≤ faults ∧ state.tripped = false then
    return ({ state with tripped := true, trippedAt := now }, [.breaker pair now])
  else
    return (state, [])

def checkDeviation (now : Nat) (pair : Pair) (cfg : FeedConfig) (prev : Option Price) (value : Int)
    (state : CircuitState) : Outcome (CircuitState × List Event) :=
  match prev with
  | none => return (state, [])
  | some prevPrice => do
    let dev ← orPanic (deviationBps prevPrice.value value)
    if cfg.deviationThresholdBps < dev then do
      let (state, events) ← fault now pair state
      return (state, .deviation pair prevPrice.value value dev :: events)
    else
      return ({ state with consecutiveFaults := 0 }, [])

def submitPrice (host : Host) (s : State) (source : Address) (pair : Pair) (value : Int) (timestamp : Nat) :
    Outcome State := do
  orPanic (host.requireAuth source)
  let cfg ← loadFeed s pair
  let kind ← sourceKind cfg source
  require (0 < value) (.error .invalidPrice)
  let now := host.timestamp
  require (timestamp ≤ now) (.error .invalidTimestamp)
  let observation : Price := {
    token := pair.1, quote := pair.2, value, decimals := cfg.decimals, timestamp, source := kind }
  let (state, events) ← checkDeviation now pair cfg (s.latest (pair, kind)) value (circuit s pair)
  let s := saveCircuit s pair state
  let s := pushHistory { s with latest := put s.latest (pair, kind) observation } pair observation
  return { s with events := s.events ++ events ++ [.price pair value timestamp kind] }

def CircuitState.isOpen (state : CircuitState) (now : Nat) : Bool :=
  state.tripped && decide (now - state.trippedAt < circuitCooldownSecs)

def probe (now : Nat) (cfg : FeedConfig) (s : State) (pair : Pair) : Outcome (Price × State) :=
  let state := circuit s pair
  let primary := s.latest (pair, .primary)
  let fallback := s.latest (pair, .fallback)
  match selectPrice now cfg.maxStalenessSecs primary fallback with
  | some price =>
    return (price, if state.consecutiveFaults ≠ 0 then saveCircuit s pair { state with consecutiveFaults := 0 } else s)
  | none => do
    -- The fault counted here is reverted with the rest of the call.
    let _ ← orPanic (u32 (state.consecutiveFaults + 1))
    .error (.error (if primary.isSome || fallback.isSome then .stalePrice else .noPriceAvailable))

def getPrice (host : Host) (s : State) (pair : Pair) : Outcome (Price × State) := do
  let cfg ← loadFeed s pair
  let now := host.timestamp
  let state := circuit s pair
  require (state.isOpen now = false) (.error .circuitOpen)
  -- A breaker that is tripped and admits the read has cooled down.
  probe now cfg (if state.tripped then saveCircuit s pair .closed else s) pair

def cached (now : Nat) (s : State) (pair : Pair) (ttl : Nat) : Option Price :=
  ((s.cache pair).filter fun entry => decide (now - entry.2 ≤ ttl)).map (·.1)

def getPriceWithCache (host : Host) (s : State) (pair : Pair) (ttl : Nat) : Outcome (Price × State) :=
  let now := host.timestamp
  match cached now s pair ttl with
  | some price => return (price, s)
  | none => do
    let (price, s) ← getPrice host s pair
    return (price, { s with cache := put s.cache pair (price, now) })

/-- The newest observation of the history at or before `timestamp`, and the first of those when several are. -/
def getHistoricalPrice (s : State) (pair : Pair) (timestamp : Nat) : Outcome Price := do
  let history ← present (s.history pair) (.error .noHistory)
  let best := history.foldl (fun best p =>
    if p.timestamp ≤ timestamp then
      match best with
      | some (b : Price) => if p.timestamp ≤ b.timestamp then best else some p
      | none => some p
    else best) none
  present best (.error .noHistory)

def getCircuitState (s : State) (pair : Pair) : Outcome CircuitState := do
  let _ ← loadFeed s pair
  return circuit s pair

def resetCircuit (host : Host) (s : State) (pair : Pair) : Outcome State := do
  let admin ← requireAdmin s
  orPanic (host.requireAuth admin)
  let _ ← loadFeed s pair
  return saveCircuit s pair .closed

def getFeed (s : State) (pair : Pair) : Outcome FeedConfig := loadFeed s pair

inductive Call where
  | initializeOracle (admin : Address)
  | registerFeed (pair : Pair) (primary : Address) (fallback : Option Address)
    (maxStalenessSecs deviationThresholdBps decimals : Nat)
  | submitPrice (source : Address) (pair : Pair) (value : Int) (timestamp : Nat)
  | getPrice (pair : Pair)
  | getPriceWithCache (pair : Pair) (ttl : Nat)
  | resetCircuit (pair : Pair)

structure Tx where
  host : Host
  call : Call

def exec (tx : Tx) (s : State) : Outcome State :=
  match tx.call with
  | .initializeOracle admin => initializeOracle s admin
  | .registerFeed pair primary fallback maxStalenessSecs deviationThresholdBps decimals =>
    registerFeed tx.host s pair primary fallback maxStalenessSecs deviationThresholdBps decimals
  | .submitPrice source pair value timestamp => submitPrice tx.host s source pair value timestamp
  | .getPrice pair => do
    let (_, s) ← getPrice tx.host s pair
    return s
  | .getPriceWithCache pair ttl => do
    let (_, s) ← getPriceWithCache tx.host s pair ttl
    return s
  | .resetCircuit pair => resetCircuit tx.host s pair

def contract : Contract Tx State (Failure OracleError) where
  time tx := tx.host.timestamp
  exec := exec

abbrev World := Ledger Tx State

def Deployed (s : State) : Prop := s = .empty

abbrev Reachable (guard : World → Tx → Prop) (w : World) : Prop :=
  Ledger.Reachable contract Deployed guard w

def signedBy (now : Nat) (signers : List Address) : Host where
  timestamp := now
  authorized := fun address => signers.contains address

def txs (calls : List (Nat × List Address × Call)) : List Tx :=
  calls.map fun (now, signers, call) => ⟨signedBy now signers, call⟩

def trial (calls : List (Nat × List Address × Call)) : World :=
  Ledger.run contract (Ledger.genesis .empty) (txs calls)

theorem trial_inOrder {calls : List (Nat × List Address × Call)} (sorted : (0 :: calls.map (·.1)).IsChain (· ≤ ·)) :
    Reachable (Ledger.inOrder contract) (trial calls) := by
  refine ⟨.empty, rfl, Ledger.Steps.run_inOrder ?_⟩
  rw [txs, List.map_map]
  exact sorted

def Price.pair (price : Price) : Pair := (price.token, price.quote)

section Calls

variable {host : Host} {s s' : State} {pair : Pair}

theorem circuit_saveCircuit (s : State) (pair other : Pair) (state : CircuitState) :
    circuit (saveCircuit s pair state) other = if other = pair then state else circuit s other := by
  unfold circuit
  show (put s.circuit pair state other).getD .closed = _
  rw [put_apply]
  split <;> rfl

theorem initializeOracle_ok {admin : Address} (run : initializeOracle s admin = .ok s') :
    s.admin = none ∧ s' = { s with admin := some admin } := by
  simp only [initializeOracle, bind_eq_ok, pure_eq_ok, require_eq_ok] at run
  obtain ⟨_, fresh, rfl⟩ := run
  exact ⟨fresh, rfl⟩

theorem registerFeed_ok {primary : Address} {fallback : Option Address}
    {maxStalenessSecs deviationThresholdBps decimals : Nat}
    (run : registerFeed host s pair primary fallback maxStalenessSecs deviationThresholdBps decimals = .ok s') :
    maxStalenessSecs ≠ 0 ∧ decimals ≤ 18 ∧ s' = saveCircuit { s with feed := put s.feed pair {
      token := pair.1, quote := pair.2, primary, fallback, maxStalenessSecs, deviationThresholdBps, decimals } }
      pair .closed := by
  simp only [registerFeed, bind_eq_ok, pure_eq_ok, require_eq_ok] at run
  obtain ⟨_, _, _, _, _, ⟨window, scale⟩, rfl⟩ := run
  exact ⟨window, scale, rfl⟩

theorem resetCircuit_ok (run : resetCircuit host s pair = .ok s') : s' = saveCircuit s pair .closed := by
  simp only [resetCircuit, bind_eq_ok, pure_eq_ok] at run
  obtain ⟨_, _, _, _, _, _, rfl⟩ := run
  rfl

structure Accepts (host : Host) (s : State) (source : Address) (price : Price) : Prop where
  signed : host.authorized source = true
  registered : ∃ cfg, s.feed price.pair = some cfg ∧ sourceKind cfg source = .ok price.source ∧
    price.decimals = cfg.decimals
  positive : 0 < price.value
  past : price.timestamp ≤ host.timestamp

theorem submitPrice_ok {source : Address} {value : Int} {timestamp : Nat}
    (run : submitPrice host s source pair value timestamp = .ok s') :
    ∃ cfg price state events, s.feed pair = some cfg ∧ price.pair = pair ∧ price.value = value ∧
      price.timestamp = timestamp ∧ Accepts host s source price ∧
      checkDeviation host.timestamp pair cfg (s.latest (pair, price.source)) value (circuit s pair) =
        .ok (state, events) ∧
      (∀ other, circuit s' other = if other = pair then state else circuit s other) ∧
      s'.feed = s.feed ∧ s'.cache = s.cache ∧ s'.latest = put s.latest (pair, price.source) price := by
  simp only [submitPrice, bind_eq_ok, pure_eq_ok, require_eq_ok, loadFeed, present_eq_ok, orPanic_eq_ok,
    Host.requireAuth_eq_ok] at run
  obtain ⟨_, signed, cfg, registered, kind, known, _, pos, _, past, ⟨state, events⟩, checked, rfl⟩ := run
  refine ⟨cfg, ⟨pair.1, pair.2, value, cfg.decimals, timestamp, kind⟩, state, events, registered, rfl, rfl, rfl,
    ⟨signed, ⟨cfg, registered, known, rfl⟩, pos, past⟩, checked, fun other => ?_, rfl, rfl, rfl⟩
  exact circuit_saveCircuit s pair other state

def CircuitState.calmed (state : CircuitState) : CircuitState :=
  if state.tripped then .closed else { state with consecutiveFaults := 0 }

theorem probe_ok {now : Nat} {cfg : FeedConfig} {price : Price} (run : probe now cfg s pair = .ok (price, s')) :
    selectPrice now cfg.maxStalenessSecs (s.latest (pair, .primary)) (s.latest (pair, .fallback)) = some price ∧
      s' = if (circuit s pair).consecutiveFaults ≠ 0 then
        saveCircuit s pair { circuit s pair with consecutiveFaults := 0 } else s := by
  simp only [probe] at run
  split at run
  · rename_i selected
    cases run
    exact ⟨selected, rfl⟩
  · obtain ⟨_, _, run⟩ := (bind_eq_ok ..).mp run
    cases run

theorem getPrice_ok {price : Price} (run : getPrice host s pair = .ok (price, s')) :
    (circuit s pair).isOpen host.timestamp = false ∧
      (∃ cfg, s.feed pair = some cfg ∧ selectPrice host.timestamp cfg.maxStalenessSecs (s.latest (pair, .primary))
        (s.latest (pair, .fallback)) = some price) ∧
      s' = if circuit s pair = (circuit s pair).calmed then s else saveCircuit s pair (circuit s pair).calmed := by
  simp only [getPrice, bind_eq_ok, require_eq_ok, loadFeed, present_eq_ok] at run
  obtain ⟨cfg, registered, _, admitted, run⟩ := run
  obtain ⟨selected, rfl⟩ := probe_ok run
  refine ⟨admitted, ⟨cfg, registered, ?_⟩, ?_⟩
  · split at selected <;> exact selected
  · unfold CircuitState.calmed
    generalize known : circuit s pair = state
    rcases state with ⟨_ | _, faults, trippedAt⟩
    · simp [known]
    · simp [circuit_saveCircuit, CircuitState.closed]

theorem getPrice_kept {price : Price} (run : getPrice host s pair = .ok (price, s')) :
    s'.feed = s.feed ∧ s'.latest = s.latest ∧ s'.cache = s.cache ∧
      ∀ other, circuit s' other = if other = pair then (circuit s pair).calmed else circuit s other := by
  obtain ⟨_, _, rfl⟩ := getPrice_ok run
  split
  · rename_i calm
    refine ⟨rfl, rfl, rfl, fun other => ?_⟩
    split
    · rename_i here
      rw [here]
      exact calm
    · rfl
  · exact ⟨rfl, rfl, rfl, fun other => circuit_saveCircuit ..⟩

theorem getPriceWithCache_ok {ttl : Nat} {price : Price}
    (run : getPriceWithCache host s pair ttl = .ok (price, s')) :
    (cached host.timestamp s pair ttl = some price ∧ s' = s) ∨
      cached host.timestamp s pair ttl = none ∧ ∃ read, getPrice host s pair = .ok (price, read) ∧
        s' = { read with cache := put read.cache pair (price, host.timestamp) } := by
  simp only [getPriceWithCache] at run
  split at run
  · rename_i hit
    cases run
    exact .inl ⟨hit, rfl⟩
  · rename_i miss
    simp only [bind_eq_ok, pure_eq_ok] at run
    obtain ⟨⟨_, read⟩, run, same⟩ := run
    cases same
    exact .inr ⟨miss, read, run, rfl⟩

end Calls

def Call.pair : Call → Option Pair
  | .initializeOracle _ => none
  | .registerFeed pair .. | .submitPrice _ pair .. | .getPrice pair | .getPriceWithCache pair _ | .resetCircuit pair =>
    some pair

def Call.registers : Call → Option Pair
  | .registerFeed pair .. => some pair
  | _ => none

def Submits (tx : Tx) (s : State) (price : Price) : Prop :=
  ∃ source, tx.call = .submitPrice source price.pair price.value price.timestamp ∧ Accepts tx.host s source price

def Caches (tx : Tx) (s : State) (pair : Pair) (price : Price) : Prop :=
  ∃ ttl s', tx.call = .getPriceWithCache pair ttl ∧ getPrice tx.host s pair = .ok (price, s')

section Effects

variable {tx : Tx} {s s' : State}

def Ran (host : Host) (s s' : State) : Call → Prop
  | .initializeOracle admin => initializeOracle s admin = .ok s'
  | .registerFeed pair primary fallback maxStalenessSecs deviationThresholdBps decimals =>
    registerFeed host s pair primary fallback maxStalenessSecs deviationThresholdBps decimals = .ok s'
  | .submitPrice source pair value timestamp => submitPrice host s source pair value timestamp = .ok s'
  | .getPrice pair => ∃ price, getPrice host s pair = .ok (price, s')
  | .getPriceWithCache pair ttl => ∃ price, getPriceWithCache host s pair ttl = .ok (price, s')
  | .resetCircuit pair => resetCircuit host s pair = .ok s'

theorem exec_ran (run : exec tx s = .ok s') : Ran tx.host s s' tx.call := by
  obtain ⟨host, call⟩ := tx
  cases call with
  | getPrice | getPriceWithCache =>
    obtain ⟨⟨price, _⟩, run, same⟩ := (bind_eq_ok ..).mp run
    cases same
    exact ⟨price, run⟩
  | _ => exact run

/-- What a call that goes through changes: the feed and the breaker of its pair, and the observation or the cache entry
    that it makes. -/
structure Effect (tx : Tx) (s s' : State) : Prop where
  feed : ∀ pair, tx.call.registers ≠ some pair → s'.feed pair = s.feed pair
  breaker : ∀ pair, tx.call.pair ≠ some pair → circuit s' pair = circuit s pair
  latest : s'.latest = s.latest ∧ (∀ price, ¬ Submits tx s price) ∨
    ∃ price, Submits tx s price ∧ s'.latest = put s.latest (price.pair, price.source) price
  cache : s'.cache = s.cache ∨ ∃ pair price, Caches tx s pair price ∧
    s'.cache = put s.cache pair (price, tx.host.timestamp)

theorem Effect.silent (reads : ∀ source pair value timestamp, tx.call ≠ .submitPrice source pair value timestamp)
    (feed : ∀ pair, tx.call.registers ≠ some pair → s'.feed pair = s.feed pair)
    (breaker : ∀ pair, tx.call.pair ≠ some pair → circuit s' pair = circuit s pair)
    (latest : s'.latest = s.latest) (cache : s'.cache = s.cache ∨ ∃ pair price, Caches tx s pair price ∧
      s'.cache = put s.cache pair (price, tx.host.timestamp)) : Effect tx s s' where
  feed := feed
  breaker := breaker
  latest := by
    refine .inl ⟨latest, ?_⟩
    rintro price ⟨source, same, _⟩
    exact reads _ _ _ _ same
  cache := cache

theorem exec_effect (run : exec tx s = .ok s') : Effect tx s s' := by
  obtain ⟨host, call⟩ := tx
  have ran := exec_ran run
  -- every call but the first is about one pair, and leaves the breakers of the others
  have elsewhere {at_ pair : Pair} {state : CircuitState} (other : some at_ ≠ some pair) :
      (if pair = at_ then state else circuit s pair) = circuit s pair :=
    if_neg fun here => other (congrArg some here.symm)
  cases call with
  | initializeOracle =>
    rw [(initializeOracle_ok ran).2]
    exact .silent nofun (fun _ _ => rfl) (fun _ _ => rfl) rfl (.inl rfl)
  | registerFeed at_ =>
    rw [(registerFeed_ok ran).2.2]
    refine .silent nofun (fun pair other => ?_) (fun pair other => ?_) rfl (.inl rfl)
    · exact put_of_ne _ _ fun here => other (congrArg some here.symm)
    · exact (circuit_saveCircuit ..).trans (elsewhere other)
  | submitPrice source =>
    obtain ⟨_, price, _, _, _, rfl, rfl, rfl, accepted, _, circuits, feed, cache, latest⟩ := submitPrice_ok ran
    refine ⟨fun pair _ => by rw [feed], fun pair other => ?_, ?_, .inl cache⟩
    · exact (circuits pair).trans (elsewhere other)
    · exact .inr ⟨price, ⟨source, rfl, accepted⟩, latest⟩
  | getPrice =>
    obtain ⟨_, ran⟩ := ran
    obtain ⟨feed, latest, cache, circuits⟩ := getPrice_kept ran
    exact .silent nofun (fun pair _ => by rw [feed]) (fun pair other => (circuits pair).trans (elsewhere other)) latest
      (.inl cache)
  | getPriceWithCache at_ ttl =>
    obtain ⟨price, ran⟩ := ran
    obtain ⟨_, rfl⟩ | ⟨_, read, fetched, rfl⟩ := getPriceWithCache_ok ran
    · exact .silent nofun (fun _ _ => rfl) (fun _ _ => rfl) rfl (.inl rfl)
    · obtain ⟨feed, latest, cache, circuits⟩ := getPrice_kept fetched
      refine .silent nofun (fun pair _ => congrFun feed pair) (fun pair other => ?_) latest ?_
      · exact (circuits pair).trans (elsewhere other)
      · exact .inr ⟨at_, price, ⟨ttl, read, rfl, fetched⟩, by rw [cache]⟩
  | resetCircuit at_ =>
    rw [resetCircuit_ok ran]
    refine .silent nofun (fun _ _ => rfl) (fun pair other => ?_) rfl (.inl rfl)
    exact (circuit_saveCircuit ..).trans (elsewhere other)

end Effects

end SubTrackr.Oracle
