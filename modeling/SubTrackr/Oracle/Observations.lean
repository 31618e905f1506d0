import SubTrackr.Oracle.EntryPoints

namespace SubTrackr.Oracle

open List Lib Soroban

/-- `price` is the last observation that was accepted from a source of the pair: the receipt at `i` is of its
    submission. -/
structure LastSubmitted (history : List (Receipt Tx State)) (pair : Pair) (kind : PriceSource) (price : Price)
    (i : Nat) (r : Receipt Tx State) : Prop where
  found : history[i]? = some r
  submits : Submits r.tx r.before price
  at_ : price.pair = pair ∧ price.source = kind
  last : ∀ later ∈ history.drop (i + 1), ∀ newer, Submits later.tx later.before newer →
    newer.pair = pair → newer.source ≠ kind

def Forward (history : List (Receipt Tx State)) : Prop :=
  ∀ r ∈ history, ∀ key old new, r.before.latest key = some old → r.after.latest key = some new →
    old.timestamp ≤ new.timestamp

def CurrentDecimals (w : World) : Prop :=
  ∀ host pair price s, w.clock ≤ host.timestamp → getPrice host w.state pair = .ok (price, s) →
    ∃ cfg, w.state.feed pair = some cfg ∧ price.decimals = cfg.decimals

section Runs

variable {guard : World → Tx → Prop} {w : World} {pair : Pair} {kind : PriceSource} {price : Price}
  {history : List (Receipt Tx State)} {i : Nat} {r next : Receipt Tx State}

theorem Submits.unique {tx : Tx} {s : State} {price newer : Price} (submits : Submits tx s price)
    (again : Submits tx s newer) : newer = price := by
  obtain ⟨_, call, _, ⟨cfg, registered, kind, scale⟩, _⟩ := submits
  obtain ⟨_, call', _, ⟨cfg', registered', kind', scale'⟩, _⟩ := again
  obtain ⟨rfl, pair, value, timestamp⟩ := Call.submitPrice.inj (call.symm.trans call')
  rw [← pair, registered] at registered'
  cases registered'
  have source := Except.ok.inj (kind.symm.trans kind')
  cases price
  cases newer
  cases pair
  simp_all

theorem LastSubmitted.concat (last : LastSubmitted history pair kind price i r)
    (other : ∀ newer, Submits next.tx next.before newer → newer.pair = pair → newer.source ≠ kind) :
    LastSubmitted (history ++ [next]) pair kind price i r where
  found := by
    have bound := (List.getElem?_eq_some_iff.mp last.found).1
    rw [List.getElem?_append_left bound]
    exact last.found
  submits := last.submits
  at_ := last.at_
  last := by
    have bound : i + 1 ≤ history.length := (List.getElem?_eq_some_iff.mp last.found).1
    rw [List.drop_append_of_le_length bound]
    intro later listed
    obtain earlier | listed := List.mem_append.mp listed
    · exact last.last later earlier
    · rw [mem_singleton.mp listed]
      exact other

theorem latest_origin (reached : Reachable guard w) (held : w.state.latest (pair, kind) = some price) :
    ∃ i r, LastSubmitted w.history pair kind price i r := by
  refine reached.invariant (I := fun w => ∀ pair kind price, w.state.latest (pair, kind) = some price →
    ∃ i r, LastSubmitted w.history pair kind price i r) ?_ ?_ ?_ pair kind price held
  · intro s deployed pair kind price held
    rw [deployed] at held
    cases held
  · exact fun _ _ _ _ ih => ih
  · intro w tx s _ _ run ih pair kind price held
    obtain ⟨same, silent⟩ | ⟨new, submits, latest⟩ := (exec_effect run).latest
    · rw [same] at held
      obtain ⟨i, r, last⟩ := ih pair kind price held
      exact ⟨i, r, last.concat fun newer submits => absurd submits (silent newer)⟩
    · rw [latest, put_eq_some] at held
      obtain ⟨here, rfl⟩ | ⟨elsewhere, held⟩ := held
      · cases here
        refine ⟨w.history.length, _, getElem?_concat_length, submits, ⟨rfl, rfl⟩, fun later mem => ?_⟩
        rw [drop_eq_nil_of_le (by simp)] at mem
        cases mem
      · obtain ⟨i, r, last⟩ := ih pair kind price held
        refine ⟨i, r, last.concat fun newer again here same => elsewhere ?_⟩
        rw [← submits.unique again, here, same]

theorem latest_step (reached : Reachable guard w) : ∀ r ∈ w.history, ∀ key old, r.before.latest key = some old →
    ∃ new, r.after.latest key = some new ∧ (new = old ∨ Submits r.tx r.before new) := by
  intro r mem key old held
  obtain ⟨_, _, _, _, run⟩ := reached.receipt r mem
  obtain ⟨same, _⟩ | ⟨new, submits, latest⟩ := (exec_effect run).latest
  · exact ⟨old, by rw [same, held], .inl rfl⟩
  · by_cases here : key = (new.pair, new.source)
    · exact ⟨new, by rw [latest, here, put_self], .inr submits⟩
    · exact ⟨old, by rw [latest, put_of_ne _ _ here, held], .inl rfl⟩

theorem feed_since (reached : Reachable guard w) (last : LastSubmitted w.history pair kind price i r)
    (since : ∀ later ∈ w.history.drop (i + 1), later.tx.call.registers ≠ some pair) :
    w.state.feed pair = r.before.feed pair := by
  refine reached.unchanged (fun tx => tx.call.registers = some pair) (fun s => s.feed pair) ?_ last.found ?_
  · exact fun w tx s _ run other => (exec_effect run).feed pair other
  · intro later listed
    rw [drop_eq_getElem?_toList_append, last.found] at listed
    obtain rfl | listed := mem_cons.mp listed
    · obtain ⟨_, call, _⟩ := last.submits
      rw [call]
      exact nofun
    · exact since later listed

/-- Stored observations are the last ones accepted, and replaced by those only; a price read is the last one accepted
    from a source that was registered when it was submitted, under the decimals of then. -/
theorem observations_submitted (reached : Reachable guard w) :
    (∀ r ∈ w.history, ∀ key old, r.before.latest key = some old →
      ∃ new, r.after.latest key = some new ∧ (new = old ∨ Submits r.tx r.before new)) ∧
    (∀ pair kind price, w.state.latest (pair, kind) = some price →
      ∃ i r, LastSubmitted w.history pair kind price i r) ∧
    ∀ host pair price s, getPrice host w.state pair = .ok (price, s) →
      ∃ i r, LastSubmitted w.history pair price.source price i r ∧
        ((∀ later ∈ w.history.drop (i + 1), later.tx.call.registers ≠ some pair) →
          ∃ cfg source, w.state.feed pair = some cfg ∧ price.decimals = cfg.decimals ∧
            sourceKind cfg source = .ok price.source ∧
            r.tx.call = .submitPrice source pair price.value price.timestamp) := by
  refine ⟨latest_step reached, fun pair kind price => latest_origin reached, ?_⟩
  intro host pair price s run
  obtain ⟨_, ⟨_, _, selected⟩, _⟩ := getPrice_ok run
  obtain ⟨⟨kind, stored⟩, _⟩ := selectPrice_eq_some (fun kind => w.state.latest (pair, kind)) selected
  obtain ⟨i, r, last⟩ := latest_origin reached stored
  obtain ⟨rfl, rfl⟩ := last.at_
  refine ⟨i, r, last, fun since => ?_⟩
  obtain ⟨source, call, _, ⟨cfg, registered, known, scale⟩, _⟩ := last.submits
  exact ⟨cfg, source, (feed_since reached last since).trans registered, scale, known, call⟩

end Runs

def rescaledRun : World := trial
  [(0, [], .initializeOracle ⟨1⟩), (1000, [⟨1⟩], .registerFeed ("XLM", "USD") ⟨2⟩ none 10000 10000 7),
    (1000, [⟨2⟩], .submitPrice ⟨2⟩ ("XLM", "USD") 1000000 1000),
    (1001, [⟨2⟩], .submitPrice ⟨2⟩ ("XLM", "USD") 1000000 500),
    (1002, [⟨1⟩], .registerFeed ("XLM", "USD") ⟨2⟩ none 10000 10000 6)]

def older : Receipt Tx State := rescaledRun.history.get ⟨3, by decide +kernel⟩

def observedAt500 : Price := ⟨"XLM", "USD", 1000000, 7, 500, .primary⟩

theorem observations_submitted_rescaled :
    ∃ i r, LastSubmitted rescaledRun.history ("XLM", "USD") .primary observedAt500 i r :=
  (observations_submitted (trial_inOrder (by decide))).2.1 _ _ _ (by decide +kernel)

theorem observations_back : Reachable (Ledger.inOrder contract) rescaledRun ∧ ¬ Forward rescaledRun.history ∧
    ¬ CurrentDecimals rescaledRun := by
  refine ⟨trial_inOrder (by decide), fun forward => ?_, fun current => ?_⟩
  · have newer : older.before.latest (("XLM", "USD"), .primary) = some ⟨"XLM", "USD", 1000000, 7, 1000, .primary⟩ := by
      decide +kernel
    have stored : older.after.latest (("XLM", "USD"), .primary) = some observedAt500 := by decide +kernel
    exact absurd (forward older (get_mem ..) _ _ _ newer stored) (by decide)
  · have read : (getPrice (signedBy 1003 []) rescaledRun.state ("XLM", "USD")).map (·.1) = .ok observedAt500 := by
      decide +kernel
    cases run : getPrice (signedBy 1003 []) rescaledRun.state ("XLM", "USD") with
    | error => rw [run] at read; cases read
    | ok result =>
      rw [run] at read
      obtain ⟨price, s⟩ := result
      cases read
      obtain ⟨cfg, registered, scale⟩ := current _ _ _ _ (by decide +kernel) run
      have feed : rescaledRun.state.feed ("XLM", "USD") = some ⟨"XLM", "USD", ⟨2⟩, none, 10000, 10000, 6⟩ := by
        decide +kernel
      rw [feed] at registered
      cases registered
      exact absurd scale (by decide)

/-- Observed no longer before `now` than the feed allows, with the breaker of the feed not open. -/
structure Fresh (now : Nat) (s : State) (pair : Pair) (price : Price) : Prop where
  observed : ∃ cfg, s.feed pair = some cfg ∧ price.timestamp ≤ now ∧ now ≤ price.timestamp + cfg.maxStalenessSecs
  admitted : (circuit s pair).isOpen now = false

def NeverStale (w : World) : Prop :=
  ∀ host pair, w.clock ≤ host.timestamp →
    (∀ price s, getPrice host w.state pair = .ok (price, s) → Fresh host.timestamp w.state pair price) ∧
      ∀ ttl price s, getPriceWithCache host w.state pair ttl = .ok (price, s) →
        Fresh host.timestamp w.state pair price

section Reads

variable {guard : World → Tx → Prop} {w : World} {host : Host} {pair : Pair} {price : Price} {s : State} {ttl : Nat}

theorem latest_past (reached : Reachable (Ledger.inOrder contract) w) {kind : PriceSource}
    (held : w.state.latest (pair, kind) = some price) : price.timestamp ≤ w.clock := by
  refine reached.invariant (I := fun w => ∀ key price, w.state.latest key = some price → price.timestamp ≤ w.clock)
    ?_ ?_ ?_ (pair, kind) price held
  · intro s deployed key price held
    rw [deployed] at held
    cases held
  · intro w tx _ later past key price held
    exact (past key price held).trans later
  · intro w tx s _ later run past key price held
    obtain ⟨same, _⟩ | ⟨new, ⟨source, _, accepted⟩, latest⟩ := (exec_effect run).latest
    · rw [same] at held
      exact (past key price held).trans later
    · rw [latest, put_eq_some] at held
      obtain ⟨_, rfl⟩ | ⟨_, held⟩ := held
      · exact accepted.past
      · exact (past key price held).trans later

theorem cache_origin (reached : Reachable guard w) {cachedAt : Nat}
    (held : w.state.cache pair = some (price, cachedAt)) :
    ∃ r ∈ w.history, Caches r.tx r.before pair price ∧ r.tx.host.timestamp = cachedAt := by
  refine reached.invariant (I := fun w => ∀ pair price cachedAt, w.state.cache pair = some (price, cachedAt) →
    ∃ r ∈ w.history, Caches r.tx r.before pair price ∧ r.tx.host.timestamp = cachedAt)
    ?_ ?_ ?_ pair price cachedAt held
  · intro s deployed pair price cachedAt held
    rw [deployed] at held
    cases held
  · exact fun _ _ _ _ ih => ih
  · intro w tx s _ _ run ih pair price cachedAt held
    have older (kept : w.state.cache pair = some (price, cachedAt)) : ∃ r ∈ w.history ++ [⟨tx, w.state, s⟩],
        Caches r.tx r.before pair price ∧ r.tx.host.timestamp = cachedAt := by
      obtain ⟨r, mem, origin⟩ := ih pair price cachedAt kept
      exact ⟨r, mem_append_left _ mem, origin⟩
    obtain same | ⟨at_, new, caches, cache⟩ := (exec_effect run).cache
    · rw [same] at held
      exact older held
    · rw [cache, put_eq_some] at held
      obtain ⟨rfl, same⟩ | ⟨_, held⟩ := held
      · cases same
        exact ⟨_, mem_append_right _ (.head _), caches, rfl⟩
      · exact older held

section

variable (reached : Reachable (Ledger.inOrder contract) w)

include reached

theorem getPrice_fresh (later : w.clock ≤ host.timestamp)
    (run : getPrice host w.state pair = .ok (price, s)) : Fresh host.timestamp w.state pair price := by
  obtain ⟨admitted, ⟨cfg, registered, selected⟩, _⟩ := getPrice_ok run
  obtain ⟨⟨kind, held⟩, window⟩ := selectPrice_eq_some (fun kind => w.state.latest (pair, kind)) selected
  have past := latest_past reached held
  exact ⟨⟨cfg, registered, by omega, by omega⟩, admitted⟩

theorem getPriceWithCache_fresh (later : w.clock ≤ host.timestamp)
    (miss : cached host.timestamp w.state pair ttl = none)
    (run : getPriceWithCache host w.state pair ttl = .ok (price, s)) : Fresh host.timestamp w.state pair price := by
  obtain ⟨hit, _⟩ | ⟨_, read, run, _⟩ := getPriceWithCache_ok run
  · rw [miss] at hit
    cases hit
  · exact getPrice_fresh reached later run

theorem cached_fresh
    (hit : cached host.timestamp w.state pair ttl = some price) :
    ∃ r ∈ w.history, Caches r.tx r.before pair price ∧ Fresh r.tx.host.timestamp r.before pair price ∧
      host.timestamp ≤ r.tx.host.timestamp + ttl := by
  obtain ⟨⟨_, cachedAt⟩, kept, rfl⟩ := Option.map_eq_some_iff.mp hit
  obtain ⟨held, young⟩ := Option.filter_eq_some_iff.mp kept
  have young : host.timestamp - cachedAt ≤ ttl := of_decide_eq_true young
  obtain ⟨r, mem, caches, rfl⟩ := cache_origin reached held
  obtain ⟨v, here, met, state, _⟩ := reached.receipt r mem
  refine ⟨r, mem, caches, ?_, by omega⟩
  obtain ⟨_, _, _, read⟩ := caches
  rw [← state] at read ⊢
  exact getPrice_fresh here met read

end

/-- A price is fresh when it is returned, or was when a read of the last `ttl` seconds put it into the cache. -/
theorem reads_fresh (reached : Reachable (Ledger.inOrder contract) w) (later : w.clock ≤ host.timestamp) (pair : Pair) :
    (∀ price s, getPrice host w.state pair = .ok (price, s) → Fresh host.timestamp w.state pair price) ∧
      ∀ ttl price s, getPriceWithCache host w.state pair ttl = .ok (price, s) →
        match cached host.timestamp w.state pair ttl with
        | none => Fresh host.timestamp w.state pair price
        | some hit => price = hit ∧ ∃ r ∈ w.history, Caches r.tx r.before pair price ∧
          Fresh r.tx.host.timestamp r.before pair price ∧ r.tx.host.timestamp ≤ host.timestamp ∧
          host.timestamp ≤ r.tx.host.timestamp + ttl := by
  refine ⟨fun price s run => getPrice_fresh reached later run, fun ttl price s run => ?_⟩
  split
  · rename_i miss
    exact getPriceWithCache_fresh reached later miss run
  · rename_i hit known
    obtain ⟨again, _⟩ | ⟨miss, _⟩ := getPriceWithCache_ok run
    · obtain rfl := Option.some.inj (known.symm.trans again)
      obtain ⟨r, listed, caches, fresh, young⟩ := cached_fresh reached known
      have past : r.tx.host.timestamp ≤ w.clock := reached.past (fun _ _ met => met) r listed
      exact ⟨rfl, r, listed, caches, fresh, past.trans later, young⟩
    · rw [known] at miss
      cases miss

end Reads

def cachedRun : World := trial
  [(0, [], .initializeOracle ⟨1⟩), (1000, [⟨1⟩], .registerFeed ("XLM", "USD") ⟨2⟩ none 300 10000 7),
    (1000, [⟨2⟩], .submitPrice ⟨2⟩ ("XLM", "USD") 1000000 1000), (1000, [], .getPriceWithCache ("XLM", "USD") 600)]

theorem reads_fresh_cached : (∀ price s, getPrice (signedBy 1200 []) cachedRun.state ("XLM", "USD") = .ok (price, s) →
    Fresh 1200 cachedRun.state ("XLM", "USD") price) ∧
    ∀ ttl price s, getPriceWithCache (signedBy 1200 []) cachedRun.state ("XLM", "USD") ttl = .ok (price, s) →
      match cached 1200 cachedRun.state ("XLM", "USD") ttl with
      | none => Fresh 1200 cachedRun.state ("XLM", "USD") price
      | some hit => price = hit ∧ ∃ r ∈ cachedRun.history, Caches r.tx r.before ("XLM", "USD") price ∧
        Fresh r.tx.host.timestamp r.before ("XLM", "USD") price ∧ r.tx.host.timestamp ≤ 1200 ∧
        1200 ≤ r.tx.host.timestamp + ttl :=
  reads_fresh (trial_inOrder (by decide)) (by decide +kernel) ("XLM", "USD")

def observedAt1000 : Price := ⟨"XLM", "USD", 1000000, 7, 1000, .primary⟩

theorem cache_stale : Reachable (Ledger.inOrder contract) cachedRun ∧ ¬ NeverStale cachedRun := by
  refine ⟨trial_inOrder (by decide), fun never => ?_⟩
  have hit : getPriceWithCache (signedBy 1400 []) cachedRun.state ("XLM", "USD") 600 =
      .ok (observedAt1000, cachedRun.state) := by
    have known : cached 1400 cachedRun.state ("XLM", "USD") 600 = some observedAt1000 := by decide +kernel
    simp only [getPriceWithCache, signedBy, known]
    rfl
  obtain ⟨⟨cfg, registered, _, window⟩, _⟩ :=
    (never (signedBy 1400 []) ("XLM", "USD") (by decide +kernel)).2 600 _ _ hit
  have feed : cachedRun.state.feed ("XLM", "USD") = some ⟨"XLM", "USD", ⟨2⟩, none, 300, 10000, 7⟩ := by decide +kernel
  rw [feed] at registered
  cases registered
  exact absurd window (by decide)

end SubTrackr.Oracle
