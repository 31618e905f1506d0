import SubTrackr.IntelligentCache.Service

namespace SubTrackr.IntelligentCache

open Option List Lib

variable {Value : Type}

def Write.pending (write : Write Value) : List String :=
  match write.phase with
  | .storing _ => write.entry.tags
  | .reading tag rest _ => tag :: rest
  | .listing tag rest _ performed => if performed then rest else tag :: rest
  | .returned _ => []

def LoadPhase.started : LoadPhase Value → Option ℕ
  | .queued => none
  | .loading started => some started
  | .storing started _ => some started
  | .settled started _ => some started

def LoadPhase.Past : LoadPhase Value → Prop
  | .queued => False
  | .loading _ => False
  | .storing _ _ => True
  | .settled _ _ => True

def LoadPhase.Settled (phase : LoadPhase Value) : Prop := ∃ started value, phase = .settled started value

def Load.tags (load : Load Value) : List String := load.options.tags.getD []

namespace State

variable (config : IntelligentCacheConfig) (s : State Value)

def Live (key : String) (entry : CacheEntry Value) (expiresAt : ℕ) : Prop :=
  s.redis (config.fullKey key) = some ⟨.entry entry, expiresAt⟩ ∧ s.now < expiresAt

/-- An entry with the tag is found under the key, and its `set` has done with the tag's index. -/
def Filed (tag key : String) (expiresAt : ℕ) : Prop :=
  ∃ entry, s.Live config key entry expiresAt ∧ tag ∈ entry.tags ∧
    ∀ write, s.writes entry.source = some write → tag ∉ write.pending

def Lists (tag key : String) (expiresAt : ℕ) : Prop :=
  ∃ keys lasts, s.redis (config.tagKey tag) = some ⟨.index keys, lasts⟩ ∧ key ∈ keys ∧ expiresAt ≤ lasts

/-- What an invalidation that began at a time must reach: what a `set` with the tag has stored that had returned before, and
    what comes from a load with the tag that was started before. -/
inductive Doomed (s : State Value) (tag : String) (began n : ℕ) : Prop where
  | write (write : Write Value) (finished : ℕ) (made : s.writes n = some write) (tagged : tag ∈ write.entry.tags)
      (returned : write.phase = .returned finished) (before : finished < began)
  | load (load : Load Value) (started : ℕ) (made : s.loads n = some load) (tagged : tag ∈ load.tags)
      (starts : load.phase.started = some started) (before : started < began)

/-- No load with the tag that was started before the given time can still be joined. -/
def NoneAboard (tag : String) (began : ℕ) : Prop :=
  ∀ key n load started, s.inflight key = some n → s.loads n = some load → tag ∈ load.tags →
    load.phase.started = some started → ¬ started < began

def Allowed : Action Value → Prop
  | .perform i =>
    match s.tasks i with
    | some (.invalidateByTag tag (.reading none)) =>
      ∀ n load started, s.loads n = some load → tag ∈ load.tags → load.phase.started = some started → started < i →
        load.phase.Settled
    | some (.invalidateByTag tag (.unindexing _ false)) => ∀ key expiresAt, ¬ s.Filed config tag key expiresAt
    | _ => True
  | .answer i =>
    match s.tasks i with
    | some (.invalidateByTag tag (.reading (some read))) => taggedKeys read = some [] → s.NoneAboard tag i
    | some (.invalidateByTag tag (.unindexing _ true)) => s.NoneAboard tag i
    | _ => True
  | .performWrite i =>
    match s.writes i with
    | some ⟨_, entry, .listing tag _ members false⟩ => ∀ key expiresAt, s.Filed config tag key expiresAt →
      key ∈ members ∧ expiresAt ≤ s.now + (entry.ttlSeconds + 60) * 1000
    | _ => True
  | .answerWrite i =>
    match s.writes i with
    | some ⟨key, _, .reading tag rest (some read)⟩ => extended key read = none → tag ∉ rest →
      ∀ entry expiresAt, s.Live config key entry expiresAt → entry.source = i → s.Lists config tag key expiresAt
    | _ => True
  | _ => True

end State

/-- Nothing that a returned invalidation must have reached is returned by a `getOrLoad` that started later. -/
def Effective (s : State Value) : Prop :=
  ∀ j tag finished count i key options finished' value, s.tasks j = some (.invalidateByTag tag (.returned finished count)) →
    s.tasks i = some (.getOrLoad key options (.returned finished' (some value))) → finished < i →
      ¬ s.Doomed tag j value.source

def Apart (config : IntelligentCacheConfig) : Prop := ∀ key tag, config.fullKey key ≠ config.tagKey tag

theorem fullKey_inj {config : IntelligentCacheConfig} {k k' : String} : config.fullKey k = config.fullKey k' ↔ k = k' := by
  unfold IntelligentCacheConfig.fullKey
  exact String.append_right_inj _

theorem tagKey_inj {config : IntelligentCacheConfig} {tag tag' : String} :
    config.tagKey tag = config.tagKey tag' ↔ tag = tag' := by
  unfold IntelligentCacheConfig.tagKey
  exact String.append_right_inj _

theorem apart_default (ttl : Option ℕ) : Apart ⟨none, ttl⟩ := by
  intro key tag same
  have := congrArg (fun name => name.toList.head?) same
  simp [IntelligentCacheConfig.fullKey, IntelligentCacheConfig.tagKey, IntelligentCacheConfig.namePrefix, tagIndexPrefix] at this

section Flows

variable {config : IntelligentCacheConfig} {s t : State Value} {n : ℕ}

inductive WriteFrom (s : State Value) (loads : Store ℕ (Load Value)) (n : ℕ) (after : Write Value) : Prop where
  | old (before : Write Value) (made : s.writes n = some before) (key : after.key = before.key)
      (entry : after.entry = before.entry) (stored : after.phase = .storing false → before = after)
      (returned : ∀ finished, before.phase = .returned finished → after.phase = .returned finished)
      (returns : ∀ finished, after.phase = .returned finished → before.phase = .returned finished ∨ finished = s.clock)
      (lists : ∀ tag rest members performed, after.phase = .listing tag rest members performed →
        after.key ∈ members ∨ before.phase = .listing tag rest members false ∨ before = after)
  | new (absent : s.writes n = none) (phase : after.phase = .storing false) (source : after.entry.source = n)
      (early : n ≤ s.clock) (loading : ∀ load, s.loads n = some load → ¬ load.phase.Past)
      (stored : ∀ load, loads n = some load → load.phase.Past ∧ ¬ load.phase.Settled ∧ after.entry.tags = load.tags)

inductive LoadFrom (s : State Value) (n : ℕ) (after : Load Value) : Prop where
  | old (before : Load Value) (made : s.loads n = some before) (options : after.options = before.options)
      (past : before.phase.Past → after.phase.Past)
      (settles : after.phase.Settled → before.phase.Settled ∨
        ∀ write, s.writes n = some write → ∃ finished, write.phase = .returned finished)
      (starts : ∀ started, after.phase.started = some started → before.phase.started = some started ∨
        started = s.clock ∧ ¬ after.phase.Past)
  | new (absent : s.loads n = none) (unwritten : s.writes n = none) (early : n ≤ s.clock) (loading : ¬ after.phase.Past)
      (starts : ∀ started, after.phase.started = some started → started = s.clock)

structure Flow (config : IntelligentCacheConfig) (s t : State Value) : Prop where
  now : s.now ≤ t.now
  writes (n : ℕ) (after : Write Value) : t.writes n = some after → WriteFrom s t.loads n after
  lasting (n : ℕ) (before : Write Value) : s.writes n = some before → ∃ after, t.writes n = some after
  loads (n : ℕ) (after : Load Value) : t.loads n = some after → LoadFrom s n after
  staying (n : ℕ) (before : Load Value) : s.loads n = some before → ∃ after, t.loads n = some after
  cells (key : String) (entry : CacheEntry Value) (expiresAt : ℕ) :
    t.redis (config.fullKey key) = some ⟨.entry entry, expiresAt⟩ →
      s.redis (config.fullKey key) = some ⟨.entry entry, expiresAt⟩ ∨
      expiresAt = s.now + entry.ttlSeconds * 1000 ∧ s.writes entry.source = some ⟨key, entry, .storing false⟩ ∧
        t.writes entry.source = some ⟨key, entry, .storing true⟩
  aboard (key : String) (n : ℕ) : t.inflight key = some n →
    s.inflight key = some n ∨ s.writes n = none ∧ s.loads n = none ∧ ∃ load, t.loads n = some load

structure Sound (config : IntelligentCacheConfig) (s : State Value) : Prop where
  written (n : ℕ) (write : Write Value) : s.writes n = some write → n < s.clock ∧ write.entry.source = n ∧
    (∀ finished, write.phase = .returned finished → finished < s.clock) ∧
      ∀ tag rest members performed, write.phase = .listing tag rest members performed → write.key ∈ members
  loaded (n : ℕ) (load : Load Value) : s.loads n = some load → n < s.clock ∧
    (∀ started, load.phase.started = some started → started < s.clock) ∧ (¬ load.phase.Past → s.writes n = none) ∧
      ∀ write, s.writes n = some write → write.entry.tags = load.tags ∧
        (load.phase.Settled → ∃ finished, write.phase = .returned finished) ∧
          ∀ started finished, load.phase.started = some started → write.phase = .returned finished → started < finished
  called (i : ℕ) (task : Task Value) : s.tasks i = some task → i < s.clock
  idle (i : ℕ) (key : String) (options : CacheSetOptions) (read : Option (Option (Cell Value))) :
    s.tasks i = some (.getOrLoad key options (.getting read)) → s.loads i = none ∧ s.writes i = none
  aboard (key : String) (n : ℕ) : s.inflight key = some n → ∃ load, s.loads n = some load
  stored (key : String) (entry : CacheEntry Value) (expiresAt : ℕ) :
    s.redis (config.fullKey key) = some ⟨.entry entry, expiresAt⟩ → expiresAt ≤ s.now + entry.ttlSeconds * 1000 ∧
      ∃ write, s.writes entry.source = some write ∧ write.key = key ∧ write.entry = entry ∧ write.phase ≠ .storing false

theorem LoadPhase.Past.started {phase : LoadPhase Value} (past : phase.Past) : ∃ started, phase.started = some started := by
  cases phase with
  | queued | loading started => exact past.elim
  | storing started value => exact ⟨started, rfl⟩
  | settled started value => exact ⟨started, rfl⟩

theorem LoadPhase.Settled.past {phase : LoadPhase Value} (settled : phase.Settled) : phase.Past := by
  obtain ⟨started, value, rfl⟩ := settled
  trivial

theorem Load.tags_congr {load load' : Load Value} (same : load.options = load'.options) : load.tags = load'.tags := by
  unfold Load.tags
  rw [same]

theorem Sound.fresh (sound : Sound config s) : s.loads s.clock = none ∧ s.writes s.clock = none :=
  ⟨eq_none_iff_forall_not_mem.mpr fun load made => absurd (sound.loaded _ load made).1 (lt_irrefl _),
    eq_none_iff_forall_not_mem.mpr fun write made => absurd (sound.written _ write made).1 (lt_irrefl _)⟩

theorem sound_initial : Sound config (.initial : State Value) where
  written _ _ made := nomatch made
  loaded _ _ made := nomatch made
  called _ _ made := nomatch made
  idle _ _ _ _ made := nomatch made
  aboard _ _ boards := nomatch boards
  stored _ _ _ found := nomatch found

theorem Sound.flow (sound : Sound config s) (flow : Flow config s t) (clock : t.clock = s.clock + 1)
    (called : ∀ i task, t.tasks i = some task → i ≤ s.clock)
    (idle : ∀ i key options read, t.tasks i = some (.getOrLoad key options (.getting read)) →
      t.loads i = none ∧ t.writes i = none) : Sound config t where
  written n after made := by
    rw [clock]
    cases flow.writes n after made with
    | old before known key entry stored returned returns lists =>
      obtain ⟨early, source, finishes, members⟩ := sound.written n before known
      refine ⟨early.trans (Nat.lt_succ_self _), entry ▸ source, fun finished ends => ?_, fun tag rest ms performed listing => ?_⟩
      · obtain same | now := returns finished ends
        · exact (finishes finished same).trans (Nat.lt_succ_self _)
        · omega
      · obtain listed | same | same := lists tag rest ms performed listing
        · exact listed
        · rw [key]
          exact members tag rest ms false same
        · rw [← same] at listing ⊢
          exact members tag rest ms performed listing
    | new absent phase source early loading loads =>
      exact ⟨by omega, source, by simp [phase], by simp [phase]⟩
  loaded n after made := by
    rw [clock]
    cases flow.loads n after made with
    | old before known options past settles starts =>
      obtain ⟨early, begun, unwritten, writes⟩ := sound.loaded n before known
      refine ⟨by omega, fun started starting => ?_, fun unpast => ?_, fun write wrote => ?_⟩
      · obtain same | ⟨now, _⟩ := starts started starting
        · have := begun started same
          omega
        · omega
      · have none := unwritten fun before => unpast (past before)
        cases wrote : t.writes n with
        | none => rfl
        | some write =>
          cases flow.writes n write wrote with
          | old first known' => simp [none] at known'
          | new _ _ _ _ _ loads => exact absurd (loads after made).1 unpast
      · cases flow.writes n write wrote with
        | old first known' key entry stored returned returns lists =>
          obtain ⟨tags, ended, order⟩ := writes first known'
          refine ⟨by rw [entry, tags, Load.tags_congr options], fun settled => ?_, fun started finished starting ends => ?_⟩
          · obtain ⟨finished, ends⟩ := (settles settled).elim ended fun all => all first known'
            exact ⟨finished, returned finished ends⟩
          · obtain same | ⟨_, unpast⟩ := starts started starting
            · obtain before | now := returns finished ends
              · exact order started finished same before
              · have := begun started same
                omega
            · have none := unwritten fun before => unpast (past before)
              simp [none] at known'
        | new _ phase _ _ _ loads =>
          obtain ⟨_, unsettled, tags⟩ := loads after made
          exact ⟨tags, fun settled => absurd settled unsettled, by simp [phase]⟩
    | new absent unwritten early loading starts =>
      have fresh (write : Write Value) (wrote : t.writes n = some write) : False := by
        cases flow.writes n write wrote with
        | old first known' => simp [unwritten] at known'
        | new _ _ _ _ _ loads => exact loading (loads after made).1
      refine ⟨by omega, fun started starting => ?_, fun _ => ?_, fun write wrote => (fresh write wrote).elim⟩
      · have := starts started starting
        omega
      · exact eq_none_iff_forall_not_mem.mpr fun write wrote => fresh write wrote
  called i task made := by
    have := called i task made
    omega
  idle := idle
  aboard key n boards := by
    obtain before | ⟨_, _, load⟩ := flow.aboard key n boards
    · obtain ⟨load, made⟩ := sound.aboard key n before
      exact flow.staying n load made
    · exact load
  stored key entry expiresAt found := by
    obtain before | ⟨expires, _, wrote⟩ := flow.cells key entry expiresAt found
    · obtain ⟨expires, first, made, same, holds, stored⟩ := sound.stored key entry expiresAt before
      obtain ⟨after, made'⟩ := flow.lasting _ first made
      refine ⟨by have := flow.now; omega, after, made', ?_⟩
      cases flow.writes _ after made' with
      | old before' made'' key' entry' stored' =>
        cases made.symm.trans made''
        refine ⟨key'.trans same, entry'.trans holds, fun phase => stored ?_⟩
        rw [stored' phase]
        exact phase
      | new absent => simp [absent] at made
    · exact ⟨by have := flow.now; omega, _, wrote, rfl, rfl, by simp⟩

theorem State.Doomed.back (flow : Flow config s t) {tag : String} {j : ℕ} (past : j ≤ s.clock) (doomed : t.Doomed tag j n) :
    s.Doomed tag j n := by
  cases doomed with
  | write after finished made tagged returned before =>
    cases flow.writes n after made with
    | old first known key entry held returned' returns lists =>
      obtain same | now := returns finished returned
      · exact .write first finished known (entry ▸ tagged) same before
      · omega
    | new _ phase => simp [phase] at returned
  | load after started made tagged starts before =>
    cases flow.loads n after made with
    | old first known opts past' _ starts' =>
      obtain same | ⟨now, _⟩ := starts' started starts
      · exact .load first started known (Load.tags_congr opts ▸ tagged) same before
      · omega
    | new _ _ _ _ starts' =>
      have := starts' started starts
      omega

def State.Quiet (s : State Value) (tag : String) (began : ℕ) : Prop :=
  ∀ n, s.Doomed tag began n → (∀ write, s.writes n = some write → ∃ finished, write.phase = .returned finished) ∧
    ∀ load, s.loads n = some load → load.phase.Past

theorem State.Quiet.flow {tag : String} {j : ℕ} (quiet : s.Quiet tag j) (flow : Flow config s t) (past : j ≤ s.clock) :
    t.Quiet tag j := by
  intro n doomed
  have before := doomed.back flow past
  obtain ⟨returned, loads⟩ := quiet n before
  refine ⟨fun after made => ?_, fun after made => ?_⟩
  · cases flow.writes n after made with
    | old first known _ _ _ stays =>
      obtain ⟨finished, ends⟩ := returned first known
      exact ⟨finished, stays finished ends⟩
    | new absent _ _ _ loading _ =>
      cases before with
      | write write _ known => simp [absent] at known
      | load load _ known => exact absurd (loads load known) (loading load known)
  · cases flow.loads n after made with
    | old first known _ stays => exact stays (loads first known)
    | new absent unwritten =>
      cases before with
      | write write _ known => simp [unwritten] at known
      | load load _ known => simp [absent] at known

theorem State.Live.back {key tag : String} {entry : CacheEntry Value} {x j : ℕ} (live : t.Live config key entry x)
    (quiet : s.Quiet tag j) (flow : Flow config s t) (past : j ≤ s.clock) (doomed : t.Doomed tag j entry.source) :
    s.Live config key entry x ∧ s.Doomed tag j entry.source := by
  have before := doomed.back flow past
  obtain same | ⟨_, storing, _⟩ := flow.cells key entry x live.1
  · exact ⟨⟨same, flow.now.trans_lt live.2⟩, before⟩
  · obtain ⟨finished, ends⟩ := (quiet _ before).1 _ storing
    cases ends

theorem WriteFrom.same {loads : Store ℕ (Load Value)} {write : Write Value} (made : s.writes n = some write) :
    WriteFrom s loads n write :=
  .old write made rfl rfl (fun _ => rfl) (fun _ ends => ends) (fun _ ends => .inl ends) fun _ _ _ _ _ => .inr (.inr rfl)

theorem LoadFrom.same {load : Load Value} (made : s.loads n = some load) : LoadFrom s n load :=
  .old load made rfl id .inl fun _ starts => .inl starts

variable {i : ℕ}

theorem Flow.ofRedis {redis : Store String (Cell Value)} {now : ℕ} (later : s.now ≤ now)
    (cells : ∀ key entry expiresAt, redis (config.fullKey key) = some ⟨.entry entry, expiresAt⟩ →
      s.redis (config.fullKey key) = some ⟨.entry entry, expiresAt⟩) :
    Flow config s { s with redis := redis, now := now } where
  now := later
  writes _ _ made := .same made
  lasting _ before made := ⟨before, made⟩
  loads _ _ made := .same made
  staying _ before made := ⟨before, made⟩
  cells key entry expiresAt found := .inl (cells key entry expiresAt found)
  aboard _ _ boards := .inl boards

theorem Flow.refl (s : State Value) : Flow config s s := .ofRedis le_rfl fun _ _ _ => id

theorem Flow.del (names : List String) : Flow config s (s.del names) := by
  refine .ofRedis le_rfl fun key entry expiresAt found => ?_
  split at found
  · cases found
  · exact found

theorem Flow.write {redis : Store String (Cell Value)} {after : Write Value}
    (comes : WriteFrom s s.loads i after)
    (cells : ∀ key entry expiresAt, redis (config.fullKey key) = some ⟨.entry entry, expiresAt⟩ →
      s.redis (config.fullKey key) = some ⟨.entry entry, expiresAt⟩ ∨
      expiresAt = s.now + entry.ttlSeconds * 1000 ∧ s.writes entry.source = some ⟨key, entry, .storing false⟩ ∧
        entry.source = i ∧ after = ⟨key, entry, .storing true⟩) :
    Flow config s (State.moveWrite { s with redis := redis } i after) where
  now := le_rfl
  writes := forall_put comes fun _ _ made => .same made
  lasting := put_lasting _ _ _
  loads _ _ made := .same made
  staying _ before made := ⟨before, made⟩
  cells key entry expiresAt found := by
    refine (cells key entry expiresAt found).imp_right fun ⟨expires, storing, here, same⟩ => ⟨expires, storing, ?_⟩
    simp only [State.moveWrite, here, put_self, same]
  aboard _ _ boards := .inl boards

theorem Flow.beginSet {key : String} {value : Value} {opts : CacheSetOptions} (absent : s.writes s.clock = none)
    (unloaded : s.loads s.clock = none) : Flow config s (s.beginSet config s.clock key value opts) where
  now := le_rfl
  writes := forall_put (.new absent rfl rfl le_rfl (by simp [unloaded]) (by simp [State.beginSet, State.moveWrite, unloaded]))
    fun _ _ made => .same made
  lasting := put_lasting _ _ _
  loads _ _ made := .same made
  staying _ before made := ⟨before, made⟩
  cells _ _ _ found := .inl found
  aboard _ _ boards := .inl boards

theorem Flow.load {inflight : Store String ℕ} {load : Load Value} (comes : LoadFrom s i load)
    (aboard : ∀ key n, inflight key = some n → s.inflight key = some n ∨ n = i ∧ s.writes i = none ∧ s.loads i = none) :
    Flow config s { s.moveLoad i load with inflight := inflight } where
  now := le_rfl
  writes _ _ made := .same made
  lasting _ before made := ⟨before, made⟩
  loads := forall_put comes fun _ _ made => .same made
  staying := put_lasting _ _ _
  cells _ _ _ found := .inl found
  aboard key n boards := by
    refine (aboard key n boards).imp_right fun ⟨here, unwritten, absent⟩ => ?_
    subst here
    exact ⟨unwritten, absent, load, by simp only [State.moveLoad, put_self]⟩

theorem Flow.loaded {load : Load Value} {started : ℕ} {value : Value} (made : s.loads i = some load)
    (loading : load.phase = .loading started) (unwritten : s.writes i = none) (early : i ≤ s.clock) :
    Flow config s ((s.beginSet config i load.key value load.options).moveLoad i
      { load with phase := .storing started value }) where
  now := le_rfl
  writes := by
    refine forall_put (.new unwritten rfl rfl early (fun other known => ?_) (fun other known => ?_)) fun _ _ made => .same made
    · cases made.symm.trans known
      simp [loading, LoadPhase.Past]
    · simp only [State.beginSet, State.moveWrite, State.moveLoad, put_self, Option.some.injEq] at known
      subst known
      exact ⟨trivial, by simp [LoadPhase.Settled], rfl⟩
  lasting := put_lasting _ _ _
  loads := by
    refine forall_put (.old load made rfl (fun _ => trivial) (by simp [LoadPhase.Settled]) fun c starts => .inl ?_)
      fun _ _ made => .same made
    simpa [loading, LoadPhase.started] using starts
  staying := put_lasting _ _ _
  cells _ _ _ found := .inl found
  aboard _ _ boards := .inl boards

theorem Flow.called (flow : Flow config s t) (task : Task Value) : Flow config s (t.moveTask i task).tick :=
  ⟨flow.now, flow.writes, flow.lasting, flow.loads, flow.staying, flow.cells, flow.aboard⟩

theorem Flow.tick (flow : Flow config s t) : Flow config s t.tick :=
  ⟨flow.now, flow.writes, flow.lasting, flow.loads, flow.staying, flow.cells, flow.aboard⟩

end Flows

section Kept

variable {config : IntelligentCacheConfig} {s t : State Value} {tag : String} {i j : ℕ}

def GetPhase.Clean (s : State Value) (tag : String) (began : ℕ) : GetPhase Value → Prop
  | .getting read => ∀ entry expiresAt, read = some (some ⟨.entry entry, expiresAt⟩) → ¬ s.Doomed tag began entry.source
  | .flying leader => ¬ s.Doomed tag began leader
  | .returned _ value => ∀ sourced, value = some sourced → ¬ s.Doomed tag began sourced.source

def State.Found (config : IntelligentCacheConfig) (s : State Value) (tag : String) (began : ℕ) (P : String → Prop) : Prop :=
  ∀ key entry expiresAt, s.Live config key entry expiresAt → s.Doomed tag began entry.source → P key

/-- What must hold while an invalidation of the tag that began at the given time has come that far. -/
def ByTagPhase.Kept (config : IntelligentCacheConfig) (s : State Value) (tag : String) (began : ℕ) : ByTagPhase Value → Prop
  | .reading (some read) => s.Quiet tag began ∧ s.Found config tag began fun key =>
      ∃ keys, State.taggedKeys read = some keys ∧ key ∈ keys
  | .deleting names performed => s.Quiet tag began ∧ (∀ name ∈ names, ∃ key, name = config.fullKey key) ∧
      s.Found config tag began fun key => performed = false ∧ config.fullKey key ∈ names
  | .unindexing _ _ => s.Quiet tag began ∧ s.Found config tag began fun _ => False
  | .returned _ _ => s.Quiet tag began ∧ (s.Found config tag began fun _ => False) ∧
      ∀ key n, s.inflight key = some n → ¬ s.Doomed tag began n
  | _ => True

def Task.Fine (config : IntelligentCacheConfig) (s : State Value) (i : ℕ) : Task Value → Prop
  | .getOrLoad _ _ phase => ∀ j tag finished count, s.tasks j = some (.invalidateByTag tag (.returned finished count)) →
      finished < i → phase.Clean s tag j
  | .invalidate _ _ => True
  | .invalidateByTag tag phase => phase.Kept config s tag i

structure Inv (config : IntelligentCacheConfig) (s : State Value) : Prop where
  sound : Sound config s
  listed (tag key : String) (expiresAt : ℕ) : s.Filed config tag key expiresAt → s.Lists config tag key expiresAt
  fine (i : ℕ) (task : Task Value) : s.tasks i = some task → task.Fine config s i

theorem GetPhase.Clean.flow {phase : GetPhase Value} (clean : phase.Clean s tag j) (flow : Flow config s t) (past : j ≤ s.clock) :
    phase.Clean t tag j := by
  cases phase with
  | getting read => exact fun entry expiresAt found doomed => clean entry expiresAt found (doomed.back flow past)
  | flying leader => exact fun doomed => clean (doomed.back flow past)
  | returned finished value => exact fun sourced same doomed => clean sourced same (doomed.back flow past)

theorem State.Found.flow {P : String → Prop} (found : s.Found config tag j P) (quiet : s.Quiet tag j)
    (flow : Flow config s t) (past : j ≤ s.clock) : t.Found config tag j P := by
  intro key entry expiresAt live doomed
  obtain ⟨live, doomed⟩ := live.back quiet flow past doomed
  exact found key entry expiresAt live doomed

theorem unboarded_flow (unboarded : ∀ key n, s.inflight key = some n → ¬ s.Doomed tag j n) (flow : Flow config s t)
    (past : j ≤ s.clock) (key : String) (n : ℕ) (boards : t.inflight key = some n) : ¬ t.Doomed tag j n := by
  intro doomed
  obtain before | ⟨unwritten, absent, _⟩ := flow.aboard key n boards
  · exact unboarded key n before (doomed.back flow past)
  · cases doomed.back flow past with
    | write write _ made => simp [unwritten] at made
    | load load _ made => simp [absent] at made

theorem ByTagPhase.Kept.flow {phase : ByTagPhase Value} (kept : phase.Kept config s tag j) (flow : Flow config s t)
    (past : j ≤ s.clock) : phase.Kept config t tag j := by
  cases phase with
  | matching | naming | threw => trivial
  | reading read =>
    cases read with
    | none => trivial
    | some read => exact ⟨kept.1.flow flow past, kept.2.flow kept.1 flow past⟩
  | deleting names performed => exact ⟨kept.1.flow flow past, kept.2.1, kept.2.2.flow kept.1 flow past⟩
  | unindexing count performed => exact ⟨kept.1.flow flow past, kept.2.flow kept.1 flow past⟩
  | returned finished count =>
    exact ⟨kept.1.flow flow past, kept.2.1.flow kept.1 flow past, unboarded_flow kept.2.2 flow past⟩

theorem Inv.next (inv : Inv config s) (i : ℕ) (flow : Flow config s t) (clock : t.clock = s.clock + 1)
    (tasks : ∀ k task, t.tasks k = some task → s.tasks k = some task ∨ k = i ∧ i ≤ s.clock ∧ task.Fine config t i ∧
      ∀ tag finished count, task = .invalidateByTag tag (.returned finished count) → finished = s.clock)
    (idle : ∀ k key opts read, t.tasks k = some (.getOrLoad key opts (.getting read)) →
      t.loads k = none ∧ t.writes k = none)
    (mem : ∀ tag key expiresAt, t.Filed config tag key expiresAt → t.Lists config tag key expiresAt) : Inv config t where
  sound := inv.sound.flow flow clock (fun k task made => (tasks k task made).elim (fun old => (inv.sound.called k task old).le)
    fun moved => moved.1 ▸ moved.2.1) idle
  listed := mem
  fine k task made := by
    obtain old | ⟨here, _, fine, _⟩ := tasks k task made
    · have early := inv.sound.called k task old
      have before := inv.fine k task old
      cases task with
      | invalidate key phase => trivial
      | invalidateByTag tag phase => exact before.flow flow early.le
      | getOrLoad key opts phase =>
        intro j tag finished count returned later
        obtain old' | ⟨_, _, _, now⟩ := tasks j _ returned
        · exact (before j tag finished count old' later).flow flow (inv.sound.called j _ old').le
        · have := now tag finished count rfl
          omega
    · exact here ▸ fine

variable {u : State Value} {after : Task Value}

theorem Inv.stay (inv : Inv config s) (flow : Flow config s u) (clock : u.clock = s.clock) (tasks : u.tasks = s.tasks)
    (idle : ∀ k key opts read, s.tasks k = some (.getOrLoad key opts (.getting read)) →
      u.loads k = none ∧ u.writes k = none)
    (mem : ∀ tag key expiresAt, u.Filed config tag key expiresAt → u.Lists config tag key expiresAt) :
    Inv config u.tick := by
  refine inv.next s.clock flow.tick (congrArg (· + 1) clock) (fun k task made => .inl ?_)
    (fun k key opts read made => ?_) mem
  · rw [← tasks]
    exact made
  · rw [← tasks] at idle
    exact idle k key opts read made

theorem Inv.move (inv : Inv config s) (flow : Flow config s u) (clock : u.clock = s.clock) (tasks : u.tasks = s.tasks)
    (early : i ≤ s.clock)
    (idle : ∀ k key opts read, put s.tasks i after k = some (.getOrLoad key opts (.getting read)) →
      u.loads k = none ∧ u.writes k = none)
    (mem : ∀ tag key expiresAt, u.Filed config tag key expiresAt → u.Lists config tag key expiresAt)
    (fine : after.Fine config (u.moveTask i after).tick i)
    (returns : ∀ tag finished count, after = .invalidateByTag tag (.returned finished count) → finished = s.clock) :
    Inv config (u.moveTask i after).tick := by
  have moved (k : ℕ) : (u.moveTask i after).tick.tasks k = put s.tasks i after k := by rw [← tasks]; rfl
  refine inv.next i (flow.called after) (congrArg (· + 1) clock) (fun k task made => ?_)
    (fun k key opts read made => ?_) mem
  · rw [moved, put_eq_some] at made
    obtain ⟨here, same⟩ | ⟨_, old⟩ := made
    · exact .inr ⟨here, early, same ▸ fine, same ▸ returns⟩
    · exact .inl old
  · rw [moved] at made
    exact idle k key opts read made

theorem Sound.idle_put (sound : Sound config s)
    (other : ∀ key opts read, after = .getOrLoad key opts (.getting read) → s.loads i = none ∧ s.writes i = none)
    (k : ℕ) (key : String) (opts : CacheSetOptions) (read : Option (Option (Cell Value)))
    (made : put s.tasks i after k = some (.getOrLoad key opts (.getting read))) :
    s.loads k = none ∧ s.writes k = none := by
  rw [put_eq_some] at made
  obtain ⟨here, same⟩ | ⟨_, old⟩ := made
  · exact here ▸ other key opts read same
  · exact sound.idle k key opts read old

def Task.Midway : Task Value → Prop
  | .getOrLoad _ _ (.getting _) => False
  | .getOrLoad _ _ (.flying _) => True
  | .getOrLoad _ _ (.returned _ _) => True
  | .invalidate _ _ => True
  | .invalidateByTag _ (.returned _ _) => False
  | .invalidateByTag _ _ => True

theorem Inv.pass (inv : Inv config s) (flow : Flow config s u)
    (same : u.clock = s.clock ∧ u.tasks = s.tasks ∧ u.loads = s.loads ∧ u.writes = s.writes) (early : i ≤ s.clock)
    (midway : after.Midway)
    (mem : ∀ tag key expiresAt, u.Filed config tag key expiresAt → u.Lists config tag key expiresAt)
    (fine : after.Fine config (u.moveTask i after).tick i) : Inv config (u.moveTask i after).tick := by
  obtain ⟨clock, tasks, loads, writes⟩ := same
  refine inv.move flow clock tasks early ?_ mem fine fun tag finished count here => ?_
  · rw [loads, writes]
    refine inv.sound.idle_put fun key opts read here => ?_
    rw [here] at midway
    exact midway.elim
  · rw [here] at midway
    exact midway.elim

theorem Inv.goOn (inv : Inv config s) (early : i ≤ s.clock) (midway : after.Midway)
    (fine : Flow config s (s.moveTask i after).tick → after.Fine config (s.moveTask i after).tick i) :
    Inv config (s.moveTask i after).tick :=
  inv.pass (.refl s) ⟨rfl, rfl, rfl, rfl⟩ early midway inv.listed (fine (.called (.refl s) after))

theorem Inv.listed_of (inv : Inv config s)
    (cells : ∀ key entry expiresAt, u.Live config key entry expiresAt → s.Live config key entry expiresAt ∨
      ∃ write, u.writes entry.source = some write ∧ write.pending = entry.tags)
    (pending : ∀ n before, s.writes n = some before → ∃ after, u.writes n = some after ∧ ∀ tag ∈ before.pending, tag ∈ after.pending)
    (indexes : ∀ tag, u.redis (config.tagKey tag) = s.redis (config.tagKey tag)) (tag key : String) (expiresAt : ℕ)
    (filed : u.Filed config tag key expiresAt) : u.Lists config tag key expiresAt := by
  obtain ⟨entry, live, tagged, done⟩ := filed
  obtain old | ⟨write, wrote, all⟩ := cells key entry expiresAt live
  · obtain ⟨_, before, made, _⟩ := inv.sound.stored key entry expiresAt old.1
    obtain ⟨after, made', more⟩ := pending _ before made
    have filed : s.Filed config tag key expiresAt := by
      refine ⟨entry, old, tagged, fun write wrote waiting => ?_⟩
      cases made.symm.trans wrote
      exact done after made' (more tag waiting)
    obtain ⟨keys, lasts, found, rest⟩ := inv.listed tag key expiresAt filed
    exact ⟨keys, lasts, (indexes tag).trans found, rest⟩
  · exact absurd (all ▸ tagged) (done write wrote)

theorem fine_put {key : String} {opts : CacheSetOptions} {phase : GetPhase Value}
    (tasks : t.tasks = put s.tasks i (.getOrLoad key opts phase))
    (clean : ∀ j tag finished count, s.tasks j = some (.invalidateByTag tag (.returned finished count)) → finished < i →
      phase.Clean t tag j) : (Task.getOrLoad key opts phase).Fine config t i := by
  intro j tag finished count returned later
  rw [tasks, put_eq_some] at returned
  obtain ⟨_, same⟩ | ⟨_, old⟩ := returned
  · cases same
  · exact clean j tag finished count old later

theorem inv_begin (inv : Inv config s) (call : Call Value) : Inv config (s.begin config call).tick := by
  obtain ⟨unloaded, unwritten⟩ := inv.sound.fresh
  cases call with
  | getOrLoad key opts =>
    refine inv.move (.refl s) rfl rfl le_rfl (inv.sound.idle_put fun _ _ _ _ => ⟨unloaded, unwritten⟩) inv.listed ?_
      fun _ _ _ same => nomatch same
    exact fun _ _ _ _ _ _ _ _ found => nomatch found
  | invalidate | invalidateByTag => exact inv.goOn le_rfl trivial fun _ => trivial
  | set key value opts =>
    have other {n : ℕ} {write : Write Value} (made : s.writes n = some write) : n ≠ s.clock :=
      (inv.sound.written n write made).1.ne
    refine inv.stay (.beginSet unwritten unloaded) rfl rfl (fun k _ _ _ made => ?_)
      (inv.listed_of (fun _ _ _ => .inl) (fun n before made => ⟨before, ?_, fun _ => id⟩) fun _ => rfl)
    · obtain ⟨absent, unwritten⟩ := inv.sound.idle k _ _ _ made
      exact ⟨absent, (put_of_ne _ _ (inv.sound.called k _ made).ne).trans unwritten⟩
    · exact (put_of_ne _ _ (other made)).trans made

section Writes

variable {write : Write Value}

theorem Sound.idle_write (sound : Sound config s) (made : s.writes i = some write) {after : Write Value} (k : ℕ)
    (key : String) (opts : CacheSetOptions) (read : Option (Option (Cell Value)))
    (called : s.tasks k = some (.getOrLoad key opts (.getting read))) :
    s.loads k = none ∧ put s.writes i after k = none := by
  obtain ⟨absent, unwritten⟩ := sound.idle k key opts read called
  refine ⟨absent, (put_of_ne _ _ fun here => ?_).trans unwritten⟩
  rw [here, made] at unwritten
  cases unwritten

theorem pending_put {after : Write Value} (made : s.writes i = some write) (more : ∀ tag ∈ write.pending, tag ∈ after.pending)
    (n : ℕ) (before : Write Value) (known : s.writes n = some before) :
    ∃ next, put s.writes i after n = some next ∧ ∀ tag ∈ before.pending, tag ∈ next.pending := by
  rw [put_apply]
  split
  · rename_i here
    rw [here, made] at known
    cases known
    exact ⟨after, rfl, more⟩
  · exact ⟨before, known, fun _ => id⟩

theorem Inv.onwards (inv : Inv config s) (made : s.writes i = some write) {phase : WritePhase Value}
    (comes : WriteFrom s s.loads i { write with phase := phase })
    (more : ∀ tag ∈ write.pending, tag ∈ ({ write with phase := phase } : Write Value).pending) :
    Inv config (s.moveWrite i { write with phase := phase }).tick := by
  refine inv.stay (.write comes fun _ _ _ => .inl) rfl rfl (inv.sound.idle_write made)
    (inv.listed_of (fun _ _ _ => .inl) (pending_put made more) fun _ => rfl)

theorem pending_nextTag (key : String) (entry : CacheEntry Value) (s : State Value) (tags : List String) :
    (⟨key, entry, s.nextTag tags⟩ : Write Value).pending = tags := by
  cases tags <;> rfl

theorem WriteFrom.nextTag {tags : List String} (made : s.writes i = some write)
    (unreturned : ∀ finished, write.phase ≠ .returned finished) :
    WriteFrom s s.loads i { write with phase := s.nextTag tags } := by
  refine .old write made rfl rfl ?_ (fun finished ends => absurd ends (unreturned finished)) ?_ ?_
  · cases tags <;> simp [State.nextTag]
  · intro finished ends
    cases tags with
    | nil =>
      cases ends
      exact .inr rfl
    | cons => cases ends
  · intro tag rest members performed ends
    cases tags <;> cases ends

theorem mem_extended {key : String} {read : Option (Cell Value)} {members : List String}
    (extends_ : State.extended key read = some members) : key ∈ members := by
  unfold State.extended at extends_
  split at extends_
  · cases extends_
    exact mem_singleton_self key
  · split at extends_
    · cases extends_
    · cases extends_
      simp
  · cases extends_

theorem Inv.filed_back (inv : Inv config s) {key key' tag' : String} {entry found : CacheEntry Value}
    {phase next : WritePhase Value} {x : ℕ} (made : s.writes i = some ⟨key, entry, phase⟩)
    (waiting : ∀ t ∈ (⟨key, entry, phase⟩ : Write Value).pending, t = tag ∨ t ∈ (⟨key, entry, next⟩ : Write Value).pending)
    (live : s.Live config key' found x) (tagged : tag' ∈ found.tags)
    (done : ∀ write, put s.writes i ⟨key, entry, next⟩ found.source = some write → tag' ∉ write.pending) :
    s.Filed config tag' key' x ∨ tag' = tag ∧ key' = key ∧ found = entry ∧ found.source = i ∧
      tag' ∉ (⟨key, entry, next⟩ : Write Value).pending := by
  by_cases here : found.source = i
  · obtain ⟨_, write, made', same, holds, _⟩ := inv.sound.stored key' found x live.1
    rw [here, made] at made'
    cases made'
    subst same holds
    rw [here, put_self] at done
    have done := done _ rfl
    by_cases other : tag' = tag
    · exact .inr ⟨other, rfl, rfl, here, done⟩
    · refine .inl ⟨entry, live, tagged, fun write wrote => ?_⟩
      rw [here, made] at wrote
      cases wrote
      exact fun mem => (waiting tag' mem).elim other done
  · rw [put_of_ne _ _ here] at done
    exact .inl ⟨found, live, tagged, done⟩

theorem listed_listing (inv : Inv config s) (apart : Apart config) {key : String} {entry : CacheEntry Value}
    {rest members : List String} (made : s.writes i = some ⟨key, entry, .listing tag rest members false⟩)
    (complete : ∀ key expiresAt, s.Filed config tag key expiresAt →
      key ∈ members ∧ expiresAt ≤ s.now + (entry.ttlSeconds + 60) * 1000)
    (tag' key' : String) (x : ℕ)
    (filed : ((s.setEx (config.tagKey tag) (.index members) (entry.ttlSeconds + 60)).moveWrite i
      ⟨key, entry, .listing tag rest members true⟩).Filed config tag' key' x) :
    ((s.setEx (config.tagKey tag) (.index members) (entry.ttlSeconds + 60)).moveWrite i
      ⟨key, entry, .listing tag rest members true⟩).Lists config tag' key' x := by
  obtain ⟨found, ⟨held, fresh⟩, tagged, done⟩ := filed
  simp only [State.moveWrite, State.setEx, put_of_ne _ _ (apart key' tag)] at held
  obtain filed | ⟨rfl, rfl, rfl, -, -⟩ := inv.filed_back made (fun _ => mem_cons.mp) ⟨held, fresh⟩ tagged done
  · by_cases other : tag' = tag
    · subst other
      obtain ⟨mem, lasts⟩ := complete key' x filed
      exact ⟨members, _, put_self .., mem, lasts⟩
    · obtain ⟨keys, lasts, index, rest⟩ := inv.listed tag' key' x filed
      refine ⟨keys, lasts, ?_, rest⟩
      simpa only [State.moveWrite, State.setEx, put_of_ne _ _ (fun same => other (tagKey_inj.mp same))] using index
  · have lasts : x ≤ s.now + (found.ttlSeconds + 60) * 1000 :=
      (inv.sound.stored key' found x held).1.trans
        (Nat.add_le_add_left (Nat.mul_le_mul_right _ (Nat.le_add_right _ _)) _)
    exact ⟨members, _, put_self .., (inv.sound.written i _ made).2.2.2 tag' rest members false rfl, lasts⟩

theorem inv_performWrite (inv : Inv config s) (apart : Apart config) (made : s.writes i = some write)
    (allowed : s.Allowed config (.performWrite i)) (done : s.performWrite config i write = some t) : Inv config t.tick := by
  obtain ⟨key, entry, phase⟩ := write
  unfold State.performWrite at done
  split at done
  · rename_i storing
    cases storing
    split at done
    · cases done
      have source : entry.source = i := (inv.sound.written i _ made).2.1
      have comes : WriteFrom s s.loads i ⟨key, entry, .storing true⟩ :=
        .old _ made rfl rfl (by simp) (by simp) (by simp) (by simp)
      refine inv.stay (.write comes fun key' found x held => ?_) rfl rfl (inv.sound.idle_write made)
        (inv.listed_of (fun key' found x live => ?_) (pending_put made fun _ => id) fun tag => ?_)
      · rw [put_apply] at held
        split at held
        · rename_i same
          cases fullKey_inj.mp same
          cases held
          exact .inr ⟨rfl, source ▸ made, source, rfl⟩
        · exact .inl held
      · obtain ⟨held, fresh⟩ := live
        simp only [State.moveWrite, State.setEx, put_apply] at held
        split at held
        · cases held
          exact .inr ⟨⟨key, entry, .storing true⟩, by simp only [State.moveWrite, source, put_self], rfl⟩
        · exact .inl ⟨held, fresh⟩
      · exact put_of_ne _ _ fun same => apart key tag same.symm
    · cases done
  · rename_i tag rest reading
    cases reading
    cases done
    exact inv.onwards made (.old _ made rfl rfl (by simp) (by simp) (by simp) (by simp)) fun _ => id
  · rename_i tag rest members listing
    cases listing
    cases done
    simp only [State.Allowed, made] at allowed
    have comes : WriteFrom s s.loads i ⟨key, entry, .listing tag rest members true⟩ :=
      .old _ made rfl rfl (by simp) (by simp) (by simp) fun _ _ _ _ same => by cases same; exact .inr (.inl rfl)
    refine inv.stay (.write comes fun key' found x held => .inl ?_) rfl rfl (inv.sound.idle_write made)
      (listed_listing inv apart made allowed)
    rw [put_of_ne _ _ (apart key' tag)] at held
    exact held
  · cases done

theorem inv_answerWrite (inv : Inv config s) (made : s.writes i = some write)
    (allowed : s.Allowed config (.answerWrite i)) (done : s.answerWrite i write = some t) : Inv config t.tick := by
  obtain ⟨key, entry, phase⟩ := write
  unfold State.answerWrite at done
  split at done
  · rename_i storing
    cases storing
    cases done
    refine inv.onwards made (.nextTag made nofun) fun tag waiting => ?_
    rw [pending_nextTag]
    exact waiting
  · rename_i tag rest read reading
    cases reading
    split at done
    · rename_i members mem
      cases done
      refine inv.onwards made (.old _ made rfl rfl nofun nofun nofun fun _ _ _ _ same => ?_) fun _ => id
      cases same
      exact .inl (mem_extended mem)
    · rename_i skipped
      cases done
      simp only [State.Allowed, made] at allowed
      refine inv.stay (.write (.nextTag made nofun) fun _ _ _ => .inl) rfl rfl (inv.sound.idle_write made) ?_
      intro tag' key' x filed
      obtain ⟨found, live, tagged, done⟩ := filed
      have waiting (t : String) (mem : t ∈ tag :: rest) :
          t = tag ∨ t ∈ (⟨key, entry, s.nextTag rest⟩ : Write Value).pending := by
        rw [pending_nextTag]
        exact mem_cons.mp mem
      obtain filed | ⟨rfl, rfl, rfl, here, passed⟩ := inv.filed_back made waiting live tagged done
      · exact inv.listed tag' key' x filed
      · rw [pending_nextTag] at passed
        exact allowed skipped passed found x live here
  · rename_i tag rest members listing
    cases listing
    cases done
    refine inv.onwards made (.nextTag made nofun) fun tag waiting => ?_
    rw [pending_nextTag]
    exact waiting
  · cases done

end Writes

section Tasks

variable {task : Task Value}

theorem Inv.doomed_listed (inv : Inv config s) (quiet : s.Quiet tag j) {key : String} {entry : CacheEntry Value} {x : ℕ}
    (live : s.Live config key entry x) (doomed : s.Doomed tag j entry.source) : s.Lists config tag key x := by
  obtain ⟨_, write, made, _, holds, _⟩ := inv.sound.stored key entry x live.1
  obtain ⟨finished, returned⟩ := (quiet _ doomed).1 write made
  refine inv.listed tag key x ⟨entry, live, ?_, fun write' made' => ?_⟩
  · rw [← holds]
    cases doomed with
    | write other _ made' tagged =>
      cases made.symm.trans made'
      exact tagged
    | load load _ known tagged =>
      rw [((inv.sound.loaded _ load known).2.2.2 write made).1]
      exact tagged
  · cases made.symm.trans made'
    simp [Write.pending, returned]

theorem Inv.quiet (inv : Inv config s) (settled : ∀ n load started, s.loads n = some load → tag ∈ load.tags →
    load.phase.started = some started → started < j → load.phase.Settled) : s.Quiet tag j := by
  intro n doomed
  cases doomed with
  | write write finished made tagged returned before =>
    refine ⟨fun write' made' => ?_, fun load known => ?_⟩
    · cases made.symm.trans made'
      exact ⟨finished, returned⟩
    · by_contra unpast
      simp [(inv.sound.loaded n load known).2.2.1 unpast] at made
  | load load started known tagged starts before =>
    have ended := settled n load started known tagged starts before
    refine ⟨fun write made => ((inv.sound.loaded n load known).2.2.2 write made).2.1 ended, fun load' known' => ?_⟩
    cases known.symm.trans known'
    exact ended.past

theorem Inv.unboarded (inv : Inv config s) (none : s.NoneAboard tag j) (key : String) (n : ℕ)
    (boards : s.inflight key = some n) : ¬ s.Doomed tag j n := by
  intro doomed
  cases doomed with
  | load load started known tagged starts before => exact none key n load started boards known tagged starts before
  | write write finished made tagged returned before =>
    obtain ⟨load, known⟩ := inv.sound.aboard key n boards
    obtain ⟨_, _, unwritten, writes⟩ := inv.sound.loaded n load known
    have past : load.phase.Past := by
      by_contra unpast
      simp [unwritten unpast] at made
    obtain ⟨started, starts⟩ := past.started
    obtain ⟨tags, _, order⟩ := writes write made
    exact none key n load started boards known (tags ▸ tagged) starts ((order started finished starts returned).trans before)

theorem get_eq_some {name : String} {cell : Cell Value} :
    s.get name = some cell ↔ s.redis name = some cell ∧ s.now < cell.expiresAt := by
  simp [State.get, filter_eq_some_iff]

theorem inv_performTask (inv : Inv config s) (apart : Apart config) (called : s.tasks i = some task)
    (allowed : s.Allowed config (.perform i)) (done : s.performTask config i task = some t) : Inv config t.tick := by
  have early := (inv.sound.called i task called).le
  have fine := inv.fine i task called
  have fewer {names : List String} {key : String} {entry : CacheEntry Value} {x : ℕ}
      (live : (s.del names).Live config key entry x) : s.Live config key entry x ∧ config.fullKey key ∉ names := by
    obtain ⟨held, fresh⟩ := live
    simp only [State.del] at held
    split at held
    · cases held
    · rename_i other
      exact ⟨⟨held, fresh⟩, other⟩
  unfold State.performTask at done
  split at done
  · rename_i key opts
    cases done
    refine inv.move (.refl s) rfl rfl early (inv.sound.idle_put fun _ _ _ _ => inv.sound.idle i _ _ _ called) inv.listed
      (fine_put rfl fun j tag finished count returned later entry x found doomed => ?_) fun _ _ _ same => nomatch same
    have flow : Flow config s s := .refl s
    have cell := get_eq_some.mp (Option.some.inj found)
    have kept := inv.fine j _ returned
    exact kept.2.1 key entry x cell (doomed.back (flow.called _) (inv.sound.called j _ returned).le)
  · rename_i key
    cases done
    refine inv.pass (.del _) ⟨rfl, rfl, rfl, rfl⟩ early trivial
      (inv.listed_of (fun _ _ _ live => .inl (fewer live).1) (fun _ before made => ⟨before, made, fun _ => id⟩) fun tag => ?_)
      trivial
    exact if_neg fun mem => apart key tag (mem_singleton.mp mem).symm
  · rename_i tag
    cases done
    exact inv.goOn early trivial fun _ => trivial
  · rename_i tag
    cases done
    exact inv.goOn early trivial fun _ => trivial
  · rename_i tag
    cases done
    simp only [State.Allowed, called] at allowed
    have quiet := inv.quiet allowed
    have found : s.Found config tag i fun key =>
        ∃ keys, State.taggedKeys (s.get (config.tagKey tag)) = some keys ∧ key ∈ keys := by
      intro key entry x live doomed
      obtain ⟨keys, lasts, index, mem, within⟩ := inv.doomed_listed quiet live doomed
      have read : s.get (config.tagKey tag) = some ⟨.index keys, lasts⟩ := get_eq_some.mpr ⟨index, live.2.trans_le within⟩
      exact ⟨keys, by rw [read]; rfl, mem⟩
    exact inv.goOn early trivial fun flow => ⟨quiet.flow flow early, found.flow quiet flow early⟩
  · rename_i tag names
    cases done
    obtain ⟨quiet, images, found⟩ := fine
    have flow : Flow config s (s.del names) := .del names
    refine inv.pass flow ⟨rfl, rfl, rfl, rfl⟩ early trivial
      (inv.listed_of (fun _ _ _ live => .inl (fewer live).1) (fun _ before made => ⟨before, made, fun _ => id⟩) fun tag' => ?_)
      ⟨quiet.flow (flow.called _) early, images, fun key entry x live doomed => ?_⟩
    · refine if_neg fun mem => ?_
      obtain ⟨key, same⟩ := images _ mem
      exact apart key tag' same.symm
    · obtain ⟨before, gone⟩ := fewer live
      exact absurd (found key entry x before (doomed.back (flow.called _) early)).2 gone
  · rename_i tag count
    cases done
    simp only [State.Allowed, called] at allowed
    obtain ⟨quiet, found⟩ := fine
    have flow : Flow config s (s.del [config.tagKey tag]) := .del _
    refine inv.pass flow ⟨rfl, rfl, rfl, rfl⟩ early trivial (fun tag' key x filed => ?_)
      ⟨quiet.flow (flow.called _) early, found.flow quiet (flow.called _) early⟩
    obtain ⟨entry, live, tagged, done⟩ := filed
    have before : s.Filed config tag' key x := ⟨entry, (fewer live).1, tagged, done⟩
    have other : tag' ≠ tag := fun same => allowed key x (same ▸ before)
    obtain ⟨keys, lasts, index, rest⟩ := inv.listed tag' key x before
    refine ⟨keys, lasts, (if_neg fun mem => ?_).trans index, rest⟩
    exact other (tagKey_inj.mp (mem_singleton.mp mem))
  · cases done

theorem inv_miss (inv : Inv config s) {key : String} {opts : CacheSetOptions} {read : Option (Option (Cell Value))}
    (called : s.tasks i = some (.getOrLoad key opts (.getting read))) : Inv config (s.miss i key opts).tick := by
  have early := (inv.sound.called i _ called).le
  obtain ⟨absent, unwritten⟩ := inv.sound.idle i _ _ _ called
  unfold State.miss
  split
  · rename_i leader boards
    refine inv.goOn early trivial fun flow => fine_put rfl fun j tag finished count returned _ doomed => ?_
    exact (inv.fine j _ returned).2.2 key leader boards (doomed.back flow (inv.sound.called j _ returned).le)
  · have comes : LoadFrom s i ⟨key, opts, .loading s.clock⟩ :=
      .new absent unwritten early id fun started starts => (Option.some.inj starts).symm
    have flow : Flow config s { s.moveLoad i ⟨key, opts, .loading s.clock⟩ with inflight := put s.inflight key i } := by
      refine .load comes fun key' n boards => ?_
      rw [put_eq_some] at boards
      obtain ⟨_, same⟩ | ⟨_, old⟩ := boards
      · exact .inr ⟨same.symm, unwritten, absent⟩
      · exact .inl old
    refine inv.move flow rfl rfl early (fun k key' opts' read' made => ?_) inv.listed
      (fine_put rfl fun j tag finished count returned later doomed => ?_) fun _ _ _ same => nomatch same
    · obtain ⟨_, same⟩ | ⟨other, old⟩ := (put_eq_some ..).mp made
      · cases same
      · obtain ⟨absent, unwritten⟩ := inv.sound.idle k _ _ _ old
        exact ⟨(put_of_ne _ _ other).trans absent, unwritten⟩
    · have past := (inv.sound.called j _ returned).le
      cases doomed.back (flow.called _) past with
      | write write _ made => simp [unwritten] at made
      | load load _ made => simp [absent] at made

theorem inv_answerGet (inv : Inv config s) {key : String} {opts : CacheSetOptions} {read : Option (Cell Value)}
    (called : s.tasks i = some (.getOrLoad key opts (.getting (some read)))) :
    Inv config (s.answerGet i key opts read).tick := by
  have early := inv.sound.called i _ called
  have hit {entry : CacheEntry Value} {x : ℕ} {u : State Value} (flow : Flow config s u) (tasks : u.tasks = s.tasks)
      (same : read = some ⟨.entry entry, x⟩) : (Task.getOrLoad key opts
        (.returned s.clock (some ⟨entry.value, entry.source⟩))).Fine config
          (u.moveTask i (.getOrLoad key opts (.returned s.clock (some ⟨entry.value, entry.source⟩)))).tick i := by
    refine fine_put (by rw [← tasks]; rfl) fun j tag finished count returned later sourced given doomed => ?_
    cases given
    have clean := inv.fine i _ called j tag finished count returned later entry x (congrArg some same)
    exact clean (doomed.back (flow.called _) (inv.sound.called j _ returned).le)
  unfold State.answerGet
  split
  · dsimp only
    split
    · exact inv.pass (.refl s) ⟨rfl, rfl, rfl, rfl⟩ early.le trivial inv.listed (hit (.refl s) rfl rfl)
    · split
      · obtain ⟨unloaded, unwritten⟩ := inv.sound.fresh
        have flow : Flow config s (s.moveLoad s.clock ⟨key, opts, .queued⟩) :=
          .load (.new unloaded unwritten le_rfl id nofun) fun _ _ => .inl
        refine inv.move flow rfl rfl early.le (fun k key' opts' read' made => ?_) inv.listed (hit flow rfl rfl)
          fun _ _ _ same => nomatch same
        obtain ⟨_, same⟩ | ⟨_, old⟩ := (put_eq_some ..).mp made
        · cases same
        · obtain ⟨absent, unwritten⟩ := inv.sound.idle k _ _ _ old
          exact ⟨(put_of_ne _ _ (inv.sound.called k _ old).ne).trans absent, unwritten⟩
      · exact inv_miss inv called
  · exact inv_miss inv called

theorem Inv.return (inv : Inv config s) (early : i ≤ s.clock) (quiet : s.Quiet tag i)
    (gone : s.Found config tag i fun _ => False) (none : s.NoneAboard tag i) (count : ℕ) :
    Inv config (s.moveTask i (.invalidateByTag tag (.returned s.clock count))).tick := by
  have flow : Flow config s s := .refl s
  refine inv.move flow rfl rfl early (inv.sound.idle_put fun _ _ _ same => nomatch same) inv.listed
    ⟨quiet.flow (flow.called _) early, gone.flow quiet (flow.called _) early,
      unboarded_flow (inv.unboarded none) (flow.called _) early⟩ ?_
  intro _ _ _ same
  cases same
  rfl

theorem inv_answerRead (inv : Inv config s) {read : Option (Cell Value)}
    (called : s.tasks i = some (.invalidateByTag tag (.reading (some read))))
    (allowed : s.Allowed config (.answer i)) : Inv config (s.answerRead config i tag read).tick := by
  have early := (inv.sound.called i _ called).le
  obtain ⟨quiet, found⟩ := inv.fine i _ called
  simp only [State.Allowed, called] at allowed
  unfold State.answerRead
  split
  · exact inv.goOn early trivial fun _ => trivial
  · rename_i keys tagged
    dsimp only
    split
    · rename_i empty
      have none : keys = [] := by
        cases keys with
        | nil => rfl
        | cons key keys =>
          have mem : config.fullKey key ∈ ((key :: keys).map config.fullKey).eraseDups := by simp
          rw [length_eq_zero_iff.mp empty] at mem
          cases mem
      subst none
      refine inv.return early quiet (fun key entry x live doomed => ?_) (allowed tagged) 0
      obtain ⟨keys, same, mem⟩ := found key entry x live doomed
      cases tagged.symm.trans same
      cases mem
    · refine inv.goOn early trivial fun flow =>
        ⟨quiet.flow flow early, fun name mem => ?_, fun key entry x live doomed => ?_⟩
      · obtain ⟨key, _, same⟩ := mem_map.mp (mem_eraseDups.mp mem)
        exact ⟨key, same.symm⟩
      · obtain ⟨live, doomed⟩ := live.back quiet flow early doomed
        obtain ⟨keys, same, mem⟩ := found key entry x live doomed
        cases tagged.symm.trans same
        exact ⟨rfl, mem_eraseDups.mpr (mem_map_of_mem mem)⟩

theorem inv_answerTask (inv : Inv config s) (called : s.tasks i = some task)
    (allowed : s.Allowed config (.answer i)) (done : s.answerTask config i task = some t) : Inv config t.tick := by
  have early := (inv.sound.called i task called).le
  have fine := inv.fine i task called
  unfold State.answerTask at done
  split at done
  · cases done
    exact inv_answerGet inv called
  · cases done
    exact inv.goOn early trivial fun _ => trivial
  · cases done
    exact inv.goOn early trivial fun _ => trivial
  · cases done
    exact inv.goOn early trivial fun _ => trivial
  · cases done
    exact inv_answerRead inv called allowed
  · rename_i tag names
    cases done
    obtain ⟨quiet, _, found⟩ := fine
    refine inv.goOn early trivial fun flow => ⟨quiet.flow flow early, fun key entry x live doomed => ?_⟩
    obtain ⟨live, doomed⟩ := live.back quiet flow early doomed
    exact absurd (found key entry x live doomed).1 (by simp)
  · rename_i tag count
    cases done
    obtain ⟨quiet, found⟩ := fine
    simp only [State.Allowed, called] at allowed
    exact inv.return early quiet found allowed count
  · cases done

end Tasks

section Loads

variable {load : Load Value}

theorem Sound.idle_load (sound : Sound config s) (known : s.loads i = some load) {next : Load Value} (k : ℕ)
    (key : String) (opts : CacheSetOptions) (read : Option (Option (Cell Value)))
    (called : s.tasks k = some (.getOrLoad key opts (.getting read))) :
    put s.loads i next k = none ∧ k ≠ i ∧ s.writes k = none := by
  obtain ⟨absent, unwritten⟩ := sound.idle k key opts read called
  have other : k ≠ i := fun here => by simp [here, known] at absent
  exact ⟨(put_of_ne _ _ other).trans absent, other, unwritten⟩

section

variable (inv : Inv config s) (known : s.loads i = some load)

include inv known

theorem Inv.loads {phase : LoadPhase Value}
    (comes : LoadFrom s i { load with phase := phase }) : Inv config (s.moveLoad i { load with phase := phase }).tick := by
  refine inv.stay (.load comes fun _ _ => .inl) rfl rfl (fun k key opts read called => ?_) inv.listed
  obtain ⟨absent, _, unwritten⟩ := inv.sound.idle_load known k key opts read called
  exact ⟨absent, unwritten⟩

theorem inv_startLoad (done : s.startLoad i load = some t) : Inv config t.tick := by
  unfold State.startLoad at done
  split at done
  · rename_i queued
    cases done
    refine inv.loads known (.old load known rfl (fun past => ?_) (by simp [LoadPhase.Settled]) fun started starts => ?_)
    · rw [queued] at past
      exact past
    · exact .inr ⟨(Option.some.inj starts).symm, id⟩
  · cases done

theorem inv_loadedLoad {outcome : Option Value}
    (done : s.loadedLoad config i load outcome = some t) : Inv config t.tick := by
  obtain ⟨early, _, unwritten, _⟩ := inv.sound.loaded i load known
  unfold State.loadedLoad at done
  split at done
  · rename_i started value loading
    cases done
    have unwritten := unwritten (by simp [loading, LoadPhase.Past])
    refine inv.stay (.loaded known loading unwritten early.le) rfl rfl (fun k key opts read called => ?_)
      (inv.listed_of (fun _ _ _ => .inl) (fun n before made => ⟨before, (put_of_ne _ _ fun here => ?_).trans made, fun _ => id⟩)
        fun _ => rfl)
    · obtain ⟨absent, other, unwritten⟩ := inv.sound.idle_load known k key opts read called
      exact ⟨absent, (put_of_ne _ _ other).trans unwritten⟩
    · simp [here, unwritten] at made
  · rename_i started loading
    cases done
    have unwritten := unwritten (by simp [loading, LoadPhase.Past])
    refine inv.loads known (.old load known rfl (fun _ => trivial) (fun _ => .inr ?_) fun c starts => .inl ?_)
    · simp [unwritten]
    · simpa [loading, LoadPhase.started] using starts
  · cases done

theorem inv_settleLoad {write : Write Value}
    (made : s.writes i = some write) (done : s.settleLoad i load write = some t) : Inv config t.tick := by
  unfold State.settleLoad at done
  split at done
  · rename_i started value finished storing returned
    cases done
    refine inv.loads known (.old load known rfl (fun _ => trivial) (fun _ => .inr fun other made' => ?_) fun c starts => .inl ?_)
    · cases made.symm.trans made'
      exact ⟨finished, returned⟩
    · simpa [storing, LoadPhase.started] using starts
  · cases done

end

theorem inv_land (inv : Inv config s) {key : String} {opts : CacheSetOptions} {leader : ℕ}
    (called : s.tasks i = some (.getOrLoad key opts (.flying leader)))
    (done : s.land i key opts leader load = some t) : Inv config t.tick := by
  have early := (inv.sound.called i _ called).le
  have fine {u : State Value} (flow : Flow config s u) (tasks : u.tasks = s.tasks) (value : Option Value) :
      (Task.getOrLoad key opts (.returned s.clock (value.map fun v => ⟨v, leader⟩))).Fine config
        (u.moveTask i (.getOrLoad key opts (.returned s.clock (value.map fun v => ⟨v, leader⟩)))).tick i := by
    refine fine_put (by rw [← tasks]; rfl) fun j tag finished count returned later sourced given doomed => ?_
    obtain ⟨v, rfl, rfl⟩ := map_eq_some_iff.mp given
    have clean := inv.fine i _ called j tag finished count returned later
    exact clean (doomed.back (flow.called _) (inv.sound.called j _ returned).le)
  unfold State.land at done
  split at done
  · rename_i value _
    dsimp only at done
    split at done
    · cases done
      have flow : Flow config s { s with inflight := remove s.inflight key } :=
        ⟨le_rfl, fun _ _ made => .same made, fun _ before made => ⟨before, made⟩, fun _ _ made => .same made,
          fun _ before made => ⟨before, made⟩, fun _ _ _ => .inl, fun _ _ boards => .inl ((remove_eq_some ..).mp boards).2⟩
      exact inv.pass flow ⟨rfl, rfl, rfl, rfl⟩ early trivial inv.listed (fine flow rfl value)
    · cases done
      exact inv.pass (.refl s) ⟨rfl, rfl, rfl, rfl⟩ early trivial inv.listed (fine (.refl s) rfl value)
  · cases done

end Loads

theorem inv_initial : Inv config (.initial : State Value) where
  sound := sound_initial
  listed _ _ _ filed := by
    obtain ⟨_, ⟨stored, _⟩, _⟩ := filed
    cases stored
  fine _ _ called := nomatch called

theorem inv_step (inv : Inv config s) (apart : Apart config) {action : Action Value} (allowed : s.Allowed config action)
    (stepped : s.step config action = some t) : Inv config t := by
  obtain ⟨t, acted, rfl⟩ := map_eq_some_iff.mp stepped
  cases action with
  | call call =>
    cases acted
    exact inv_begin inv call
  | perform i =>
    obtain ⟨task, called, done⟩ := bind_eq_some_iff.mp acted
    exact inv_performTask inv apart called allowed done
  | performWrite i =>
    obtain ⟨write, made, done⟩ := bind_eq_some_iff.mp acted
    exact inv_performWrite inv apart made allowed done
  | answer i =>
    obtain ⟨task, called, done⟩ := bind_eq_some_iff.mp acted
    exact inv_answerTask inv called allowed done
  | answerWrite i =>
    obtain ⟨write, made, done⟩ := bind_eq_some_iff.mp acted
    exact inv_answerWrite inv made allowed done
  | start i =>
    obtain ⟨load, known, done⟩ := bind_eq_some_iff.mp acted
    exact inv_startLoad inv known done
  | loaded i outcome =>
    obtain ⟨load, known, done⟩ := bind_eq_some_iff.mp acted
    exact inv_loadedLoad inv known done
  | settle i =>
    obtain ⟨load, known, rest⟩ := bind_eq_some_iff.mp acted
    obtain ⟨write, made, done⟩ := bind_eq_some_iff.mp rest
    exact inv_settleLoad inv known made done
  | land i =>
    unfold State.act at acted
    dsimp only at acted
    split at acted
    · rename_i key opts leader called
      obtain ⟨load, _, done⟩ := bind_eq_some_iff.mp acted
      exact inv_land inv called done
    · cases acted
  | wait ms =>
    cases acted
    refine inv.stay (.ofRedis (Nat.le_add_right _ _) fun _ _ _ => id) rfl rfl inv.sound.idle
      (inv.listed_of (fun key entry x live => .inl ⟨live.1, (Nat.le_add_right _ _).trans_lt live.2⟩)
        (fun _ before made => ⟨before, made, fun _ => id⟩) fun _ => rfl)

end Kept

variable {config : IntelligentCacheConfig} {s : State Value}

theorem Inv.effective (inv : Inv config s) : Effective s := by
  intro j tag finished count i key opts finished' value invalidated loaded later
  exact inv.fine i _ loaded j tag finished count invalidated later value rfl

def exampleConfig : IntelligentCacheConfig := ⟨none, none⟩

def untagged : CacheSetOptions := ⟨none, none, none, false, none⟩

def tagged (ttlSeconds : ℕ) : CacheSetOptions := ⟨some ttlSeconds, none, some ["t"], false, none⟩

def setSteps (i : ℕ) (key : String) (value : ℕ) (ttlSeconds : ℕ) : List (Action ℕ) :=
  [.call (.set key value (tagged ttlSeconds)), .performWrite i, .answerWrite i, .performWrite i, .answerWrite i,
    .performWrite i, .answerWrite i]

def expiredIndex : List (Action ℕ) :=
  setSteps 0 "a" 1 3600 ++ setSteps 7 "b" 2 60 ++
    [.wait 200000, .call (.invalidateByTag "t"), .perform 15, .answer 15, .perform 15, .answer 15, .perform 15, .answer 15,
      .call (.getOrLoad "a" (tagged 60)), .perform 22, .answer 22]

def Stale (s : State ℕ) : Prop :=
  s.tasks 15 = some (.invalidateByTag "t" (.returned 21 0)) ∧
    s.tasks 22 = some (.getOrLoad "a" (tagged 60) (.returned 24 (some ⟨1, 0⟩))) ∧
      s.writes 0 = some ⟨"a", ⟨1, 0, 3600, ["t"], 0⟩, .returned 6⟩

instance : DecidablePred Stale := fun _ => inferInstanceAs (Decidable (_ ∧ _))

end SubTrackr.IntelligentCache
