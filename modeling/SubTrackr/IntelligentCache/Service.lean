import Mathlib.Data.Rat.Defs
import SubTrackr.Lib.Runs
import SubTrackr.Lib.Store

namespace SubTrackr.IntelligentCache

open Lib

inductive CacheTier where
  | hot | warm | cold
  deriving DecidableEq

def tierTtl : CacheTier → ℕ
  | .hot => 60
  | .warm => 300
  | .cold => 3600

structure CacheSetOptions where
  ttlSeconds : Option ℕ
  tier : Option CacheTier
  tags : Option (List String)
  staleWhileRevalidate : Bool
  staleGracePeriodSeconds : Option ℚ
  deriving DecidableEq

structure IntelligentCacheConfig where
  keyPrefix : Option String
  defaultTtlSeconds : Option ℕ

def tagIndexPrefix : String := "__tag__:"

namespace IntelligentCacheConfig

variable (config : IntelligentCacheConfig)

def namePrefix : String := config.keyPrefix.getD "subtrackr:icache:"

def defaultTtl : ℕ := config.defaultTtlSeconds.getD (tierTtl .warm)

def fullKey (key : String) : String := config.namePrefix ++ key

def tagKey (tag : String) : String := tagIndexPrefix ++ config.namePrefix ++ tag

def ttl (options : CacheSetOptions) : ℕ := options.ttlSeconds.getD ((options.tier.map tierTtl).getD config.defaultTtl)

end IntelligentCacheConfig

structure CacheEntry (Value : Type) where
  value : Value
  (cachedAt ttlSeconds : ℕ)
  tags : List String
  source : ℕ
  deriving DecidableEq

inductive Content (Value : Type) where
  | entry (entry : CacheEntry Value)
  | index (keys : List String)
  deriving DecidableEq

structure Cell (Value : Type) where
  content : Content Value
  expiresAt : ℕ
  deriving DecidableEq

/-- How far a `set` has come. Where Redis has read something already, it waits for the answer. -/
inductive WritePhase (Value : Type) where
  | storing (performed : Bool)
  | reading (tag : String) (rest : List String) (read : Option (Option (Cell Value)))
  | listing (tag : String) (rest : List String) (members : List String) (performed : Bool)
  | returned (finished : ℕ)
  deriving DecidableEq

structure Write (Value : Type) where
  key : String
  entry : CacheEntry Value
  phase : WritePhase Value
  deriving DecidableEq

inductive LoadPhase (Value : Type) where
  /-- a refresh in the background, before its loader is called -/
  | queued
  | loading (started : ℕ)
  | storing (started : ℕ) (value : Value)
  /-- no value, where the loader threw -/
  | settled (started : ℕ) (value : Option Value)

structure Load (Value : Type) where
  key : String
  options : CacheSetOptions
  phase : LoadPhase Value

/-- A value that a `getOrLoad` returns, with the number of the `set` call or the load that it comes from. -/
structure Sourced (Value : Type) where
  value : Value
  source : ℕ
  deriving DecidableEq

inductive GetPhase (Value : Type) where
  | getting (read : Option (Option (Cell Value)))
  | flying (leader : ℕ)
  | returned (finished : ℕ) (value : Option (Sourced Value))
  deriving DecidableEq

inductive InvalidatePhase where
  | deleting (performed : Bool)
  | returned (finished : ℕ)
  deriving DecidableEq

inductive ByTagPhase (Value : Type) where
  /-- the two `KEYS` commands, whose results nothing uses -/
  | matching (performed : Bool)
  | naming (performed : Bool)
  | reading (read : Option (Option (Cell Value)))
  | deleting (names : List String) (performed : Bool)
  | unindexing (count : ℕ) (performed : Bool)
  | returned (finished : ℕ) (count : ℕ)
  | threw
  deriving DecidableEq

inductive Task (Value : Type) where
  | getOrLoad (key : String) (options : CacheSetOptions) (phase : GetPhase Value)
  | invalidate (key : String) (phase : InvalidatePhase)
  | invalidateByTag (tag : String) (phase : ByTagPhase Value)
  deriving DecidableEq

inductive Call (Value : Type) where
  | getOrLoad (key : String) (options : CacheSetOptions)
  | set (key : String) (value : Value) (options : CacheSetOptions)
  | invalidate (key : String)
  | invalidateByTag (tag : String)

/-- Redis and the service. Calls are numbered by the time at which they are made, the load that a `getOrLoad` leads by the
    number of the call, a refresh by the time at which it is queued, and a write by that of its `set` call or its load. -/
structure State (Value : Type) where
  (clock now : ℕ)
  redis : Store String (Cell Value)
  inflight : Store String ℕ
  tasks : Store ℕ (Task Value)
  loads : Store ℕ (Load Value)
  writes : Store ℕ (Write Value)

inductive Action (Value : Type) where
  | call (call : Call Value)
  | perform (task : ℕ)
  | performWrite (write : ℕ)
  | answer (task : ℕ)
  | answerWrite (write : ℕ)
  | start (load : ℕ)
  | loaded (load : ℕ) (outcome : Option Value)
  | settle (load : ℕ)
  | land (task : ℕ)
  | wait (ms : ℕ)

namespace State

variable {Value : Type}

def initial : State Value where
  clock := 0
  now := 0
  redis _ := none
  inflight _ := none
  tasks _ := none
  loads _ := none
  writes _ := none

variable (config : IntelligentCacheConfig) (s : State Value)

def get (name : String) : Option (Cell Value) := (s.redis name).filter fun cell => s.now < cell.expiresAt

def setEx (name : String) (content : Content Value) (seconds : ℕ) : State Value :=
  { s with redis := put s.redis name ⟨content, s.now + seconds * 1000⟩ }

def del (names : List String) : State Value := { s with redis := fun name => if name ∈ names then none else s.redis name }

def moveTask (i : ℕ) (task : Task Value) : State Value := { s with tasks := put s.tasks i task }

def moveLoad (i : ℕ) (load : Load Value) : State Value := { s with loads := put s.loads i load }

def moveWrite (i : ℕ) (write : Write Value) : State Value := { s with writes := put s.writes i write }

def beginSet (i : ℕ) (key : String) (value : Value) (options : CacheSetOptions) : State Value :=
  s.moveWrite i ⟨key, ⟨value, s.now, config.ttl options, options.tags.getD [], i⟩, .storing false⟩

def begin : Call Value → State Value
  | .getOrLoad key options => s.moveTask s.clock (.getOrLoad key options (.getting none))
  | .set key value options => s.beginSet config s.clock key value options
  | .invalidate key => s.moveTask s.clock (.invalidate key (.deleting false))
  | .invalidateByTag tag => s.moveTask s.clock (.invalidateByTag tag (.matching false))

/-- Redis refuses an expiry of 0 seconds. -/
def performWrite (i : ℕ) (write : Write Value) : Option (State Value) :=
  match write.phase with
  | .storing false =>
    if 0 < write.entry.ttlSeconds then
      some ((s.setEx (config.fullKey write.key) (.entry write.entry) write.entry.ttlSeconds).moveWrite i
        { write with phase := .storing true })
    else none
  | .reading tag rest none =>
    some (s.moveWrite i { write with phase := .reading tag rest (some (s.get (config.tagKey tag))) })
  | .listing tag rest members false =>
    some ((s.setEx (config.tagKey tag) (.index members) (write.entry.ttlSeconds + 60)).moveWrite i
      { write with phase := .listing tag rest members true })
  | _ => none

def nextTag : List String → WritePhase Value
  | [] => .returned s.clock
  | tag :: rest => .reading tag rest none

/-- What `indexTags` does with what it has read: it writes the index, unless the key is listed or `includes` throws. -/
def extended (key : String) : Option (Cell Value) → Option (List String)
  | none => some [key]
  | some ⟨.index keys, _⟩ => if key ∈ keys then none else some (keys ++ [key])
  | some ⟨.entry _, _⟩ => none

def answerWrite (i : ℕ) (write : Write Value) : Option (State Value) :=
  match write.phase with
  | .storing true => some (s.moveWrite i { write with phase := s.nextTag write.entry.tags })
  | .reading tag rest (some read) =>
    match extended write.key read with
    | some members => some (s.moveWrite i { write with phase := .listing tag rest members false })
    | none => some (s.moveWrite i { write with phase := s.nextTag rest })
  | .listing _ rest _ true => some (s.moveWrite i { write with phase := s.nextTag rest })
  | _ => none

def performTask (i : ℕ) : Task Value → Option (State Value)
  | .getOrLoad key options (.getting none) =>
    some (s.moveTask i (.getOrLoad key options (.getting (some (s.get (config.fullKey key))))))
  | .invalidate key (.deleting false) => some ((s.del [config.fullKey key]).moveTask i (.invalidate key (.deleting true)))
  | .invalidateByTag tag (.matching false) => some (s.moveTask i (.invalidateByTag tag (.matching true)))
  | .invalidateByTag tag (.naming false) => some (s.moveTask i (.invalidateByTag tag (.naming true)))
  | .invalidateByTag tag (.reading none) =>
    some (s.moveTask i (.invalidateByTag tag (.reading (some (s.get (config.tagKey tag))))))
  | .invalidateByTag tag (.deleting names false) =>
    some ((s.del names).moveTask i (.invalidateByTag tag (.deleting names true)))
  | .invalidateByTag tag (.unindexing count false) =>
    some ((s.del [config.tagKey tag]).moveTask i (.invalidateByTag tag (.unindexing count true)))
  | _ => none

def miss (i : ℕ) (key : String) (options : CacheSetOptions) : State Value :=
  match s.inflight key with
  | some leader => s.moveTask i (.getOrLoad key options (.flying leader))
  | none =>
    { s.moveLoad i ⟨key, options, .loading s.clock⟩ with inflight := put s.inflight key i }.moveTask i
      (.getOrLoad key options (.flying i))

/-- What is read of an index has no `cachedAt` and no `ttlSeconds`, and no comparison holds. -/
def answerGet (i : ℕ) (key : String) (options : CacheSetOptions) : Option (Cell Value) → State Value
  | some ⟨.entry entry, _⟩ =>
    let ageMs := s.now - entry.cachedAt
    let ttlMs := entry.ttlSeconds * 1000
    let gracePeriod := options.staleGracePeriodSeconds.getD 30 * 1000
    let hit := Task.getOrLoad key options (.returned s.clock (some ⟨entry.value, entry.source⟩))
    if ageMs < ttlMs then s.moveTask i hit
    else if options.staleWhileRevalidate = true ∧ (ageMs : ℚ) < ttlMs + gracePeriod then
      (s.moveLoad s.clock ⟨key, options, .queued⟩).moveTask i hit
    else s.miss i key options
  | _ => s.miss i key options

def taggedKeys : Option (Cell Value) → Option (List String)
  | none => some []
  | some ⟨.index keys, _⟩ => some keys
  | some ⟨.entry _, _⟩ => none

def answerRead (i : ℕ) (tag : String) (read : Option (Cell Value)) : State Value :=
  match taggedKeys read with
  | none => s.moveTask i (.invalidateByTag tag .threw)
  | some keys =>
    let keysToDelete := (keys.map config.fullKey).eraseDups
    if keysToDelete.length = 0 then s.moveTask i (.invalidateByTag tag (.returned s.clock 0))
    else s.moveTask i (.invalidateByTag tag (.deleting keysToDelete false))

def answerTask (i : ℕ) : Task Value → Option (State Value)
  | .getOrLoad key options (.getting (some read)) => some (s.answerGet i key options read)
  | .invalidate key (.deleting true) => some (s.moveTask i (.invalidate key (.returned s.clock)))
  | .invalidateByTag tag (.matching true) => some (s.moveTask i (.invalidateByTag tag (.naming false)))
  | .invalidateByTag tag (.naming true) => some (s.moveTask i (.invalidateByTag tag (.reading none)))
  | .invalidateByTag tag (.reading (some read)) => some (s.answerRead config i tag read)
  | .invalidateByTag tag (.deleting names true) =>
    some (s.moveTask i (.invalidateByTag tag (.unindexing names.length false)))
  | .invalidateByTag tag (.unindexing count true) => some (s.moveTask i (.invalidateByTag tag (.returned s.clock count)))
  | _ => none

def startLoad (i : ℕ) (load : Load Value) : Option (State Value) :=
  match load.phase with
  | .queued => some (s.moveLoad i { load with phase := .loading s.clock })
  | _ => none

def loadedLoad (i : ℕ) (load : Load Value) (outcome : Option Value) : Option (State Value) :=
  match load.phase, outcome with
  | .loading started, some value =>
    some ((s.beginSet config i load.key value load.options).moveLoad i { load with phase := .storing started value })
  | .loading started, none => some (s.moveLoad i { load with phase := .settled started none })
  | _, _ => none

def settleLoad (i : ℕ) (load : Load Value) (write : Write Value) : Option (State Value) :=
  match load.phase, write.phase with
  | .storing started value, .returned _ => some (s.moveLoad i { load with phase := .settled started (some value) })
  | _, _ => none

def land (i : ℕ) (key : String) (options : CacheSetOptions) (leader : ℕ) (load : Load Value) : Option (State Value) :=
  match load.phase with
  | .settled _ value =>
    let returned := s.moveTask i (.getOrLoad key options (.returned s.clock (value.map fun v => ⟨v, leader⟩)))
    if i = leader then some { returned with inflight := remove s.inflight key } else some returned
  | _ => none

def act : Action Value → Option (State Value)
  | .call call => some (s.begin config call)
  | .perform i => (s.tasks i).bind (s.performTask config i)
  | .performWrite i => (s.writes i).bind (s.performWrite config i)
  | .answer i => (s.tasks i).bind (s.answerTask config i)
  | .answerWrite i => (s.writes i).bind (s.answerWrite i)
  | .start i => (s.loads i).bind (s.startLoad i)
  | .loaded i outcome => (s.loads i).bind fun load => s.loadedLoad config i load outcome
  | .settle i => (s.loads i).bind fun load => (s.writes i).bind (s.settleLoad i load)
  | .land i =>
    match s.tasks i with
    | some (.getOrLoad key options (.flying leader)) => (s.loads leader).bind (s.land i key options leader)
    | _ => none
  | .wait ms => some { s with now := s.now + ms }

def tick : State Value := { s with clock := s.clock + 1 }

def step (action : Action Value) : Option (State Value) := (s.act config action).map tick

end State

end SubTrackr.IntelligentCache
