import SubTrackr.Oracle.EntryPoints

namespace SubTrackr.Oracle

open Lib Soroban

def Call.reads : Call → Bool
  | .getPrice _ | .getPriceWithCache .. => true
  | _ => false

def Call.submits : Call → Bool
  | .submitPrice .. => true
  | _ => false

def breakers (s : State) : List Tx → List (Pair → CircuitState)
  | [] => []
  | tx :: txs =>
    let s := Ledger.settle contract tx s
    if tx.call.submits then circuit s :: breakers s txs else breakers s txs

/-- A read that has nothing to clear: the cache answers it, it fails, or the breaker is closed with no fault counted. -/
def Quiet (tx : Tx) (s : State) : Prop :=
  match tx.call with
  | .getPrice pair => (getPrice tx.host s pair).toBool = true → circuit s pair = (circuit s pair).calmed
  | .getPriceWithCache pair ttl => cached tx.host.timestamp s pair ttl = none →
    (getPrice tx.host s pair).toBool = true → circuit s pair = (circuit s pair).calmed
  | _ => True

def QuietReads (s : State) : List Tx → Prop
  | [] => True
  | tx :: txs => Quiet tx s ∧ QuietReads (Ledger.settle contract tx s) txs

/-- A submission that goes through, with a value too far from the same source's previous one. -/
def Deviates (pair : Pair) (tx : Tx) (s : State) : Prop :=
  ∃ source value timestamp cfg kind prev dev, tx.call = .submitPrice source pair value timestamp ∧
    s.feed pair = some cfg ∧ sourceKind cfg source = .ok kind ∧ s.latest (pair, kind) = some prev ∧
    deviationBps prev.value value = .ok dev ∧ cfg.deviationThresholdBps < dev ∧ (exec tx s).toBool = true

def Spares (pair : Pair) (tx : Tx) (s : State) : Prop :=
  tx.call.pair ≠ some pair ∨ (exec tx s).toBool = false ∨ tx.call.reads = true ∧ Quiet tx s

/-- A run from `s` to `s'` with `n` submissions that deviate, and no other call that the breaker of the pair shows. -/
inductive Deviations (pair : Pair) : State → List Tx → Nat → State → Prop where
  | done (s) : Deviations pair s [] 0 s
  | deviates {s tx txs n s'} (submission : Deviates pair tx s)
      (rest : Deviations pair (Ledger.settle contract tx s) txs n s') : Deviations pair s (tx :: txs) (n + 1) s'
  | spares {s tx txs n s'} (other : Spares pair tx s)
      (rest : Deviations pair (Ledger.settle contract tx s) txs n s') : Deviations pair s (tx :: txs) n s'

section Calls

variable {host : Host} {s s' : State} {pair : Pair} {tx : Tx}

theorem settle_quiet (reads : tx.call.reads = true) (quiet : Quiet tx s) :
    ∃ cache, Ledger.settle contract tx s = { s with cache } := by
  cases run : contract.exec tx s with
  | error e =>
    exact ⟨s.cache, Ledger.settle_error run⟩
  | ok s' =>
    rw [Ledger.settle_ok run]
    obtain ⟨host, call⟩ := tx
    have ran := exec_ran run
    have untouched {price : Price} {read : State} {pair : Pair} (fetched : getPrice host s pair = .ok (price, read))
        (clear : (getPrice host s pair).toBool = true → circuit s pair = (circuit s pair).calmed) : read = s := by
      have succeeds : (getPrice host s pair).toBool = true := by rw [fetched]; rfl
      rw [(getPrice_ok fetched).2.2, if_pos (clear succeeds)]
    cases call with
    | getPrice =>
      obtain ⟨_, ran⟩ := ran
      exact ⟨s.cache, untouched ran quiet⟩
    | getPriceWithCache =>
      obtain ⟨_, ran⟩ := ran
      obtain ⟨_, rfl⟩ | ⟨miss, _, fetched, rfl⟩ := getPriceWithCache_ok ran
      · exact ⟨s'.cache, rfl⟩
      · rw [untouched fetched (quiet miss)]
        exact ⟨_, rfl⟩
    | _ => cases reads

theorem exec_uncached (silent : tx.call.reads = false) (cache : Store Pair (Price × Nat)) :
    Agree (fun a b => b = { a with cache }) (exec tx s) (exec tx { s with cache }) := by
  obtain ⟨host, call⟩ := tx
  cases call with
  | initializeOracle => exact .bind_same fun _ _ => .ok rfl
  | registerFeed =>
    exact .bind_same fun _ _ => .bind_same fun _ _ => .bind_same fun _ _ => .ok rfl
  | submitPrice =>
    refine .bind_same fun _ _ => .bind_same fun _ _ => .bind_same fun _ _ => .bind_same fun _ _ => ?_
    exact .bind_same fun _ _ => .bind_same fun _ _ => .ok rfl
  | resetCircuit => exact .bind_same fun _ _ => .bind_same fun _ _ => .bind_same fun _ _ => .ok rfl
  | getPrice => cases silent
  | getPriceWithCache => cases silent

theorem settle_uncached (silent : tx.call.reads = false) (cache : Store Pair (Price × Nat)) :
    Ledger.settle contract tx { s with cache } = { Ledger.settle contract tx s with cache } := by
  obtain related | ⟨left, right⟩ := Ledger.settle_agree (c := contract) (exec_uncached silent cache)
  · exact related
  · rw [left, right]

end Calls

theorem breakers_quiet {s : State} {txs : List Tx} (quiet : QuietReads s txs) (cache : Store Pair (Price × Nat)) :
    breakers { s with cache } (txs.filter fun tx => !tx.call.reads) = breakers s txs := by
  induction txs generalizing s cache with
  | nil => rfl
  | cons tx txs ih =>
    obtain ⟨first, rest⟩ := quiet
    cases kind : tx.call.reads with
    | true =>
      have silent : tx.call.submits = false := by
        revert kind
        cases tx.call <;> simp [Call.reads, Call.submits]
      obtain ⟨written, same⟩ := settle_quiet kind first
      have later := ih rest cache
      rw [same] at later
      rw [List.filter_cons_of_neg (by simp [kind])]
      simp only [breakers, silent, same]
      exact later
    | false =>
      have later := ih rest cache
      rw [List.filter_cons_of_pos (by simp [kind])]
      simp only [breakers]
      rw [settle_uncached kind, later]
      rfl

def CircuitState.faulted (state : CircuitState) (now : Nat) : CircuitState :=
  if circuitFaultLimit ≤ state.consecutiveFaults + 1 ∧ state.tripped = false then
    { tripped := true, consecutiveFaults := state.consecutiveFaults + 1, trippedAt := now }
  else { state with consecutiveFaults := state.consecutiveFaults + 1 }

section Faults

variable {s s' : State} {pair : Pair} {tx : Tx} {txs : List Tx} {n : Nat}

theorem fault_ok {now : Nat} {state state' : CircuitState} {events : List Event}
    (run : fault now pair state = .ok (state', events)) : state' = state.faulted now := by
  simp only [fault, bind_eq_ok, orPanic_eq_ok, u32_eq_ok] at run
  obtain ⟨_, ⟨_, rfl⟩, run⟩ := run
  unfold CircuitState.faulted
  split at run
  · rename_i trips
    cases run
    rw [if_pos trips]
  · rename_i holds
    cases run
    rw [if_neg holds]

theorem checkDeviation_beyond {now dev : Nat} {cfg : FeedConfig} {prev : Price} {value : Int}
    {state state' : CircuitState} {events : List Event} (far : deviationBps prev.value value = .ok dev)
    (beyond : cfg.deviationThresholdBps < dev)
    (run : checkDeviation now pair cfg (some prev) value state = .ok (state', events)) :
    state' = state.faulted now := by
  simp only [checkDeviation, bind_eq_ok, orPanic_eq_ok, far] at run
  obtain ⟨_, same, run⟩ := run
  cases same
  rw [if_pos beyond] at run
  obtain ⟨⟨_, _⟩, faulted, same⟩ := (bind_eq_ok ..).mp run
  cases same
  exact fault_ok faulted

theorem Deviates.circuit (deviates : Deviates pair tx s) : ∃ s', exec tx s = .ok s' ∧
    circuit s' pair = (circuit s pair).faulted tx.host.timestamp := by
  obtain ⟨host, _⟩ := tx
  obtain ⟨source, value, timestamp, cfg, kind, prev, dev, rfl, registered, known, held, far, beyond, succeeds⟩ :=
    deviates
  obtain ⟨s', run⟩ := toBool_eq_true succeeds
  refine ⟨s', run, ?_⟩
  obtain ⟨_, price, state, events, feed, here, _, _, ⟨_, ⟨_, feed', kind', _⟩, _⟩, checked, circuits, _⟩ :=
    submitPrice_ok (exec_ran run)
  rw [here, registered] at feed'
  rw [registered] at feed
  cases feed
  cases feed'
  obtain rfl : kind = price.source := Except.ok.inj (known.symm.trans kind')
  rw [held] at checked
  rw [circuits, if_pos rfl, checkDeviation_beyond far beyond checked]

theorem Spares.circuit (spares : Spares pair tx s) : circuit (Ledger.settle contract tx s) pair = circuit s pair := by
  cases run : contract.exec tx s with
  | error => rw [Ledger.settle_error run]
  | ok s' =>
    rw [Ledger.settle_ok run]
    obtain other | failed | ⟨reads, quiet⟩ := spares
    · exact (exec_effect run).breaker pair other
    · change (contract.exec tx s).toBool = false at failed
      rw [run] at failed
      cases failed
    · obtain ⟨cache, same⟩ := settle_quiet reads quiet
      rw [Ledger.settle_ok run] at same
      rw [same]
      rfl

theorem Deviations.trips (run : Deviations pair s txs n s') :
    ((circuit s pair).tripped = true → (circuit s' pair).tripped = true ∧
      (circuit s' pair).trippedAt = (circuit s pair).trippedAt) ∧
    ((circuit s pair).tripped = false → n ≠ 0 → circuitFaultLimit ≤ (circuit s pair).consecutiveFaults + n →
      (circuit s' pair).tripped = true ∧ ∃ tx ∈ txs, (circuit s' pair).trippedAt = tx.host.timestamp) := by
  induction run with
  | done s => exact ⟨fun tripped => ⟨tripped, rfl⟩, fun _ none => absurd rfl none⟩
  | spares other _ ih =>
    rw [Spares.circuit other] at ih
    refine ⟨ih.1, fun closed some limit => ?_⟩
    obtain ⟨tripped, tx, mem, at_⟩ := ih.2 closed some limit
    exact ⟨tripped, tx, List.mem_cons_of_mem _ mem, at_⟩
  | @deviates s tx txs n s' submission _ ih =>
    obtain ⟨_, run, faulted⟩ := submission.circuit
    rw [Ledger.settle_ok (c := contract) run, faulted] at ih
    unfold CircuitState.faulted at ih
    split at ih
    · rename_i trips
      obtain ⟨tripped, at_⟩ := ih.1 rfl
      refine ⟨fun already => ?_, fun _ _ _ => ⟨tripped, tx, .head _, at_⟩⟩
      rw [trips.2] at already
      cases already
    · rename_i short
      refine ⟨ih.1, fun closed _ limit => ?_⟩
      have below : (circuit s pair).consecutiveFaults + 1 < circuitFaultLimit := by
        by_contra reached
        exact short ⟨Nat.not_lt.mp reached, closed⟩
      obtain ⟨tripped, later, mem, at_⟩ := ih.2 closed (by omega) (by dsimp only; omega)
      exact ⟨tripped, later, List.mem_cons_of_mem _ mem, at_⟩

end Faults

/-- Reads change the breakers of a run only where they clear one: quiet reads may be left out, submissions that deviate
    trip the breaker through any of them, and a read that computes a price clears the faults. -/
theorem reads_clear : (∀ s txs, QuietReads s txs → breakers s (txs.filter fun tx => !tx.call.reads) = breakers s txs) ∧
    (∀ pair s txs n s', Deviations pair s txs n s' → circuitFaultLimit ≤ n → (circuit s' pair).tripped = true ∧
      ((circuit s pair).tripped = true ∧ (circuit s' pair).trippedAt = (circuit s pair).trippedAt ∨
        ∃ tx ∈ txs, (circuit s' pair).trippedAt = tx.host.timestamp)) ∧
    ∀ host s pair price s', getPrice host s pair = .ok (price, s') →
      (circuit s' pair).tripped = false ∧ (circuit s' pair).consecutiveFaults = 0 := by
  refine ⟨fun s txs quiet => breakers_quiet quiet s.cache, ?_, ?_⟩
  · intro pair s txs n s' run limit
    obtain ⟨kept, trips⟩ := run.trips
    cases before : (circuit s pair).tripped with
    | true =>
      obtain ⟨tripped, at_⟩ := kept before
      exact ⟨tripped, .inl ⟨rfl, at_⟩⟩
    | false =>
      have some : n ≠ 0 := fun none => by rw [none] at limit; exact absurd limit (by decide)
      obtain ⟨tripped, first⟩ := trips before some (limit.trans (Nat.le_add_left ..))
      exact ⟨tripped, .inr first⟩
  · intro host s pair price s' run
    rw [(getPrice_kept run).2.2.2, if_pos rfl]
    unfold CircuitState.calmed
    split
    · exact ⟨rfl, rfl⟩
    · rename_i closed
      exact ⟨Bool.eq_false_iff.mpr closed, rfl⟩

def opened : State := (trial
  [(0, [], .initializeOracle ⟨1⟩), (1000, [⟨1⟩], .registerFeed ("XLM", "USD") ⟨2⟩ none 10000 100 7),
    (1000, [⟨2⟩], .submitPrice ⟨2⟩ ("XLM", "USD") 1000000 1000),
    (1000, [], .getPriceWithCache ("XLM", "USD") 600)]).state

def doublings : List Tx := txs
  [(1000, [⟨2⟩], .submitPrice ⟨2⟩ ("XLM", "USD") 2000000 1000), (1000, [], .getPriceWithCache ("XLM", "USD") 600),
    (1000, [⟨2⟩], .submitPrice ⟨2⟩ ("XLM", "USD") 4000000 1000),
    (1000, [⟨2⟩], .submitPrice ⟨2⟩ ("XLM", "USD") 8000000 1000)]

def afterDoublings : State := doublings.foldl (fun s tx => Ledger.settle contract tx s) opened

theorem reads_clear_doublings : breakers opened (doublings.filter fun tx => !tx.call.reads) = breakers opened doublings ∧
      (circuit afterDoublings ("XLM", "USD")).tripped = true := by
  have quiet : QuietReads opened doublings := by
    refine ⟨trivial, fun miss => ?_, trivial, trivial, trivial⟩
    revert miss
    decide +kernel
  have deviates (previous : Int) (s : State) (value : Int)
      (feed : s.feed ("XLM", "USD") = some ⟨"XLM", "USD", ⟨2⟩, none, 10000, 100, 7⟩)
      (stored : s.latest (("XLM", "USD"), .primary) = some ⟨"XLM", "USD", previous, 7, 1000, .primary⟩)
      (twice : deviationBps previous value = .ok 10000)
      (succeeds : (exec ⟨signedBy 1000 [⟨2⟩], .submitPrice ⟨2⟩ ("XLM", "USD") value 1000⟩ s).toBool = true) :
      Deviates ("XLM", "USD") ⟨signedBy 1000 [⟨2⟩], .submitPrice ⟨2⟩ ("XLM", "USD") value 1000⟩ s :=
    ⟨⟨2⟩, value, 1000, _, .primary, _, 10000, rfl, feed, rfl, stored, twice, by decide, succeeds⟩
  have run : Deviations ("XLM", "USD") opened doublings 3 afterDoublings := by
    refine .deviates (deviates 1000000 _ _ ?_ ?_ ?_ ?_) (.spares (.inr (.inr ⟨rfl, quiet.2.1⟩))
      (.deviates (deviates 2000000 _ _ ?_ ?_ ?_ ?_) (.deviates (deviates 4000000 _ _ ?_ ?_ ?_ ?_) (.done _)))) <;>
      decide +kernel
  exact ⟨reads_clear.1 opened doublings quiet, (reads_clear.2.1 _ _ _ _ _ run (by decide)).1⟩

def shielded : List Tx := txs
  [(0, [], .initializeOracle ⟨1⟩), (1000, [⟨1⟩], .registerFeed ("XLM", "USD") ⟨2⟩ none 10000 100 7),
    (1000, [⟨2⟩], .submitPrice ⟨2⟩ ("XLM", "USD") 1000000 1000),
    (1000, [⟨2⟩], .submitPrice ⟨2⟩ ("XLM", "USD") 2000000 1000), (1000, [], .getPrice ("XLM", "USD")),
    (1000, [⟨2⟩], .submitPrice ⟨2⟩ ("XLM", "USD") 4000000 1000), (1000, [], .getPrice ("XLM", "USD")),
    (1000, [⟨2⟩], .submitPrice ⟨2⟩ ("XLM", "USD") 8000000 1000)]

def lastBreaker (txs : List Tx) : Option CircuitState :=
  (breakers .empty txs).getLast?.map fun circuit => circuit ("XLM", "USD")

theorem reads_shield : (0 :: shielded.map contract.time).IsChain (· ≤ ·) ∧
    lastBreaker shielded = some ⟨false, 1, 0⟩ ∧
    lastBreaker (shielded.filter fun tx => !tx.call.reads) = some ⟨true, 3, 1000⟩ ∧
    ¬ ∀ txs, (0 :: txs.map contract.time).IsChain (· ≤ ·) →
      breakers .empty txs = breakers .empty (txs.filter fun tx => !tx.call.reads) := by
  have sorted : (0 :: shielded.map contract.time).IsChain (· ≤ ·) := by decide +kernel
  have closed : lastBreaker shielded = some ⟨false, 1, 0⟩ := by decide +kernel
  have trips : lastBreaker (shielded.filter fun tx => !tx.call.reads) = some ⟨true, 3, 1000⟩ := by decide +kernel
  refine ⟨sorted, closed, trips, fun same => ?_⟩
  have equal : lastBreaker shielded = lastBreaker (shielded.filter fun tx => !tx.call.reads) := by
    unfold lastBreaker
    rw [same shielded sorted]
  rw [closed, trips] at equal
  cases equal

end SubTrackr.Oracle
