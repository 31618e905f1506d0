import SubTrackr.Lib.Record
import SubTrackr.Lib.Store

namespace SubTrackr.Cache

open Lib

/-- A value with the time at which its loader, or the `set` call that brought it, was started. -/
structure Entry (Value : Type) where
  value : Value
  started : ℕ
  deriving DecidableEq

inductive LoadPhase (Value : Type) where
  | getting (read : Option (Option (Entry Value)))
  | loading (started : ℕ)
  | flying (leader : ℕ)
  | returned (finished : ℕ) (value : Option (Entry Value))
  deriving DecidableEq

inductive BypassPhase (Value : Type) where
  | loading (started : ℕ)
  | writing (entry : Entry Value) (performed : Bool)
  | returned (finished : ℕ) (value : Option (Entry Value))
  deriving DecidableEq

inductive SetPhase (Value : Type) where
  | writing (entry : Entry Value) (performed : Bool)
  | returned (finished : ℕ)
  deriving DecidableEq

inductive InvalidatePhase where
  | deleting (performed : Bool)
  | returned (finished : ℕ)
  deriving DecidableEq

inductive PatternPhase (Key : Type) where
  | listing (found : Option (Finset Key))
  | deleting (keys : Finset Key) (performed : Bool)
  | returned (finished : ℕ)
  deriving DecidableEq

inductive PingPhase where
  | pinging
  | returned (finished : ℕ)
  deriving DecidableEq

inductive Task (Key Pattern Value : Type) where
  | load (key : Key) (phase : LoadPhase Value)
  | bypass (key : Key) (phase : BypassPhase Value)
  | set (key : Key) (phase : SetPhase Value)
  | invalidate (keys : Finset Key) (phase : InvalidatePhase)
  | invalidatePattern (pattern : Pattern) (phase : PatternPhase Key)
  | isHealthy (phase : PingPhase)
  deriving DecidableEq

inductive FlightPhase (Value : Type) where
  | loading
  | writing (value : Value) (performed : Bool)
  | settled (value : Option Value)

structure Flight (Key Value : Type) where
  key : Key
  started : ℕ
  phase : FlightPhase Value

/-- A call that has not returned is known by the time at which it was made, and a flight by its leader. -/
structure State (Key Pattern Value : Type) where
  clock : ℕ
  degraded : Bool
  redis : Record Key fun _ => Entry Value
  inflight : Store Key ℕ
  flights : Store ℕ (Flight Key Value)
  tasks : Store ℕ (Task Key Pattern Value)

inductive Call (Key Pattern Value : Type) where
  | getOrLoad (key : Key) (bypassCache : Bool)
  | set (key : Key) (value : Value)
  | invalidate (keys : Finset Key)
  | invalidatePattern (pattern : Pattern)
  | isHealthy

inductive Loaded (Value : Type) where
  | value (value : Value)
  | null
  | threw

/-- How a Redis command settles. `unexpected` is a reply to `ping` other than `PONG`. -/
inductive Reply where
  | ok
  | failed
  | unexpected
  deriving DecidableEq

inductive Action (Key Pattern Value : Type) where
  | call (call : Call Key Pattern Value)
  | perform (task : ℕ)
  | performFlight (leader : ℕ)
  | answer (task : ℕ) (reply : Reply)
  | answerFlight (leader : ℕ) (reply : Reply)
  | loaded (task : ℕ) (outcome : Loaded Value)
  | loadedFlight (leader : ℕ) (outcome : Loaded Value)
  | land (task : ℕ)
  | expire (key : Key)

namespace State

variable {Key Pattern Value : Type}

def initial : State Key Pattern Value where
  clock := 0
  degraded := false
  redis := ∅
  inflight _ := none
  flights _ := none
  tasks _ := none

variable (s : State Key Pattern Value)

def moveTask (i : ℕ) (task : Task Key Pattern Value) : State Key Pattern Value := { s with tasks := put s.tasks i task }

def moveFlight (i : ℕ) (flight : Flight Key Value) : State Key Pattern Value := { s with flights := put s.flights i flight }

def enterDegraded : State Key Pattern Value := { s with degraded := true }

def begin : Call Key Pattern Value → State Key Pattern Value
  | .getOrLoad key true => s.moveTask s.clock (.bypass key (.loading s.clock))
  | .getOrLoad key false =>
    if s.degraded then s.moveTask s.clock (.load key (.loading s.clock)) else s.moveTask s.clock (.load key (.getting none))
  | .set key value =>
    if s.degraded then s.moveTask s.clock (.set key (.returned s.clock))
    else s.moveTask s.clock (.set key (.writing ⟨value, s.clock⟩ false))
  | .invalidate keys =>
    if s.degraded then s.moveTask s.clock (.invalidate keys (.returned s.clock))
    else s.moveTask s.clock (.invalidate keys (.deleting false))
  | .invalidatePattern pattern =>
    if s.degraded then s.moveTask s.clock (.invalidatePattern pattern (.returned s.clock))
    else s.moveTask s.clock (.invalidatePattern pattern (.listing none))
  | .isHealthy => s.moveTask s.clock (.isHealthy .pinging)

variable [DecidableEq Key]

def store (key : Key) (entry : Entry Value) : State Key Pattern Value := { s with redis := s.redis.put key entry }

def erase (keys : Finset Key) : State Key Pattern Value := { s with redis := s.redis.select fun key _ => key ∉ keys }

def singleFlight (i : ℕ) (key : Key) : State Key Pattern Value :=
  if s.degraded then s.moveTask i (.load key (.loading s.clock))
  else
    match s.inflight key with
    | some leader => s.moveTask i (.load key (.flying leader))
    | none =>
      { s.moveFlight i ⟨key, s.clock, .loading⟩ with inflight := put s.inflight key i }.moveTask i (.load key (.flying i))

def performTask (glob : Pattern → Key → Bool) (i : ℕ) : Task Key Pattern Value → Option (State Key Pattern Value)
  | .load key (.getting none) => some (s.moveTask i (.load key (.getting (some (s.redis.get key)))))
  | .bypass key (.writing entry false) => some ((s.store key entry).moveTask i (.bypass key (.writing entry true)))
  | .set key (.writing entry false) => some ((s.store key entry).moveTask i (.set key (.writing entry true)))
  | .invalidate keys (.deleting false) => some ((s.erase keys).moveTask i (.invalidate keys (.deleting true)))
  | .invalidatePattern pattern (.listing none) =>
    some (s.moveTask i (.invalidatePattern pattern (.listing (some (s.redis.keys.filter fun key => glob pattern key)))))
  | .invalidatePattern pattern (.deleting keys false) =>
    some ((s.erase keys).moveTask i (.invalidatePattern pattern (.deleting keys true)))
  | _ => none

def answerTask (i : ℕ) : Task Key Pattern Value → Reply → Option (State Key Pattern Value)
  | .load key (.getting (some (some entry))), .ok => some (s.moveTask i (.load key (.returned s.clock (some entry))))
  | .load key (.getting (some none)), .ok => some (s.singleFlight i key)
  | .load key (.getting _), .failed => some (s.enterDegraded.singleFlight i key)
  | .bypass key (.writing entry true), .ok => some (s.moveTask i (.bypass key (.returned s.clock (some entry))))
  | .bypass key (.writing entry _), .failed =>
    some (s.enterDegraded.moveTask i (.bypass key (.returned s.clock (some entry))))
  | .set key (.writing _ true), .ok => some (s.moveTask i (.set key (.returned s.clock)))
  | .set key (.writing _ _), .failed => some (s.enterDegraded.moveTask i (.set key (.returned s.clock)))
  | .invalidate keys (.deleting true), .ok => some (s.moveTask i (.invalidate keys (.returned s.clock)))
  | .invalidate keys (.deleting _), .failed => some (s.enterDegraded.moveTask i (.invalidate keys (.returned s.clock)))
  | .invalidatePattern pattern (.listing (some keys)), .ok =>
    if keys.card > 0 then some (s.moveTask i (.invalidatePattern pattern (.deleting keys false)))
    else some (s.moveTask i (.invalidatePattern pattern (.returned s.clock)))
  | .invalidatePattern pattern (.deleting _ true), .ok =>
    some (s.moveTask i (.invalidatePattern pattern (.returned s.clock)))
  | .invalidatePattern pattern (.listing _), .failed | .invalidatePattern pattern (.deleting _ _), .failed =>
    some (s.enterDegraded.moveTask i (.invalidatePattern pattern (.returned s.clock)))
  | .isHealthy .pinging, .ok => some ({ s with degraded := false }.moveTask i (.isHealthy (.returned s.clock)))
  | .isHealthy .pinging, .unexpected => some (s.moveTask i (.isHealthy (.returned s.clock)))
  | .isHealthy .pinging, .failed => some (s.enterDegraded.moveTask i (.isHealthy (.returned s.clock)))
  | _, _ => none

omit [DecidableEq Key] in
def loadedTask (i : ℕ) : Task Key Pattern Value → Loaded Value → Option (State Key Pattern Value)
  | .load key (.loading started), .value v => some (s.moveTask i (.load key (.returned s.clock (some ⟨v, started⟩))))
  | .load key (.loading _), _ => some (s.moveTask i (.load key (.returned s.clock none)))
  | .bypass key (.loading started), .value v =>
    -- `set` does nothing while the cache is degraded
    if s.degraded then some (s.moveTask i (.bypass key (.returned s.clock (some ⟨v, started⟩))))
    else some (s.moveTask i (.bypass key (.writing ⟨v, started⟩ false)))
  | .bypass key (.loading _), _ => some (s.moveTask i (.bypass key (.returned s.clock none)))
  | _, _ => none

def performFlight (i : ℕ) (flight : Flight Key Value) : Option (State Key Pattern Value) :=
  match flight.phase with
  | .writing value false =>
    some ((s.store flight.key ⟨value, flight.started⟩).moveFlight i { flight with phase := .writing value true })
  | _ => none

def answerFlight (i : ℕ) (flight : Flight Key Value) (reply : Reply) : Option (State Key Pattern Value) :=
  match flight.phase, reply with
  | .writing value true, .ok => some (s.moveFlight i { flight with phase := .settled (some value) })
  | .writing value _, .failed => some (s.enterDegraded.moveFlight i { flight with phase := .settled (some value) })
  | _, _ => none

def loadedFlight (i : ℕ) (flight : Flight Key Value) (outcome : Loaded Value) : Option (State Key Pattern Value) :=
  match flight.phase, outcome with
  | .loading, .value v => some (s.moveFlight i { flight with phase := .writing v false })
  | .loading, _ => some (s.moveFlight i { flight with phase := .settled none })
  | _, _ => none

def land (i : ℕ) (key : Key) (leader : ℕ) (flight : Flight Key Value) : Option (State Key Pattern Value) :=
  match flight.phase with
  | .settled value =>
    let returned := s.moveTask i (.load key (.returned s.clock (value.map fun v => ⟨v, flight.started⟩)))
    if i = leader then some { returned with inflight := remove s.inflight key } else some returned
  | _ => none

def act (glob : Pattern → Key → Bool) : Action Key Pattern Value → Option (State Key Pattern Value)
  | .call call => some (s.begin call)
  | .perform i => (s.tasks i).bind (s.performTask glob i)
  | .performFlight i => (s.flights i).bind (s.performFlight i)
  | .answer i reply => (s.tasks i).bind fun task => s.answerTask i task reply
  | .answerFlight i reply => (s.flights i).bind fun flight => s.answerFlight i flight reply
  | .loaded i outcome => (s.tasks i).bind fun task => s.loadedTask i task outcome
  | .loadedFlight i outcome => (s.flights i).bind fun flight => s.loadedFlight i flight outcome
  | .land i =>
    match s.tasks i with
    | some (.load key (.flying leader)) => (s.flights leader).bind (s.land i key leader)
    | _ => none
  | .expire key => some (s.erase {key})

def tick : State Key Pattern Value := { s with clock := s.clock + 1 }

def step (glob : Pattern → Key → Bool) (action : Action Key Pattern Value) : Option (State Key Pattern Value) :=
  (s.act glob action).map tick

end State

variable {Key Pattern Value : Type}

def Task.Brings : Task Key Pattern Value → Key → ℕ → Prop
  | .bypass key (.loading started), k, c => key = k ∧ started = c
  | .bypass key (.writing entry _), k, c => key = k ∧ entry.started = c
  | .set key (.writing entry _), k, c => key = k ∧ entry.started = c
  | _, _, _ => False

def Flight.Brings (flight : Flight Key Value) (k : Key) (c : ℕ) : Prop :=
  flight.key = k ∧ flight.started = c ∧ ∀ value, flight.phase ≠ .settled value

namespace State

variable {s t u : State Key Pattern Value} {k : Key} {c i : ℕ}

/-- A load or a `set` of the key that was started at the given time is under way: its value may yet be written, or be
    handed to those who join its flight. -/
inductive UnderWay (s : State Key Pattern Value) (k : Key) (c : ℕ) : Prop where
  | task (i : ℕ) (task : Task Key Pattern Value) (called : s.tasks i = some task) (brings : task.Brings k c)
  | flight (i : ℕ) (flight : Flight Key Value) (flies : s.flights i = some flight) (brings : flight.Brings k c)
  | boarding (i : ℕ) (flight : Flight Key Value) (boards : s.inflight k = some i) (flies : s.flights i = some flight)
      (started : flight.started = c)

theorem UnderWay.of_same (under : t.UnderWay k c) (tasks : t.tasks = s.tasks) (flights : t.flights = s.flights)
    (inflight : t.inflight = s.inflight) : s.UnderWay k c := by
  cases under with
  | task i task called brings => exact .task i task (tasks ▸ called) brings
  | flight i flight flies brings => exact .flight i flight (flights ▸ flies) brings
  | boarding i flight boards flies started => exact .boarding i flight (inflight ▸ boards) (flights ▸ flies) started

/-- Nothing that `t` has for Redis, or has in it, is older than `now`, unless `s` had it too. -/
structure Flow (now : ℕ) (s t : State Key Pattern Value) : Prop where
  underWay : ∀ k c, t.UnderWay k c → s.UnderWay k c ∨ c = now
  redis : ∀ k entry, t.redis.get k = some entry →
    s.redis.get k = some entry ∨ s.UnderWay k entry.started ∨ entry.started = now
  flights : ∀ i flight, t.flights i = some flight →
    (∃ before, s.flights i = some before ∧ before.started = flight.started) ∨ flight.started = now

namespace Flow

variable {now : ℕ}

theorem trans (first : Flow now s t) (second : Flow now t u) : Flow now s u where
  underWay k c under := by
    rcases second.underWay k c under with under | new
    · exact first.underWay k c under
    · exact .inr new
  redis k entry found := by
    rcases second.redis k entry found with found | under | new
    · exact first.redis k entry found
    · exact .inr (first.underWay k _ under)
    · exact .inr (.inr new)
  flights i flight flies := by
    rcases second.flights i flight flies with ⟨before, flies, same⟩ | new
    · rw [← same]
      exact first.flights i before flies
    · exact .inr new

theorem moveTask {task : Task Key Pattern Value} (old : ∀ k c, task.Brings k c → s.UnderWay k c ∨ c = now) :
    Flow now s (s.moveTask i task) where
  underWay k c under := by
    cases under with
    | task j task' called brings =>
      rcases (put_eq_some ..).mp called with ⟨-, rfl⟩ | ⟨-, called⟩
      · exact old k c brings
      · exact .inl (.task j task' called brings)
    | flight j flight flies brings => exact .inl (.flight j flight flies brings)
    | boarding j flight boards flies started => exact .inl (.boarding j flight boards flies started)
  redis _ _ found := .inl found
  flights _ flight flies := .inl ⟨flight, flies, rfl⟩

theorem moveFlight {flight : Flight Key Value}
    (old : (∃ before, s.flights i = some before ∧ before.started = flight.started ∧
      ∀ k c, flight.Brings k c → before.Brings k c) ∨ flight.started = now) : Flow now s (s.moveFlight i flight) where
  underWay k c under := by
    cases under with
    | task j task called brings => exact .inl (.task j task called brings)
    | flight j flight' flies brings =>
      rcases (put_eq_some ..).mp flies with ⟨-, rfl⟩ | ⟨-, flies⟩
      · rcases old with ⟨before, flies, -, weaker⟩ | new
        · exact .inl (.flight i before flies (weaker k c brings))
        · exact .inr (brings.2.1.symm.trans new)
      · exact .inl (.flight j flight' flies brings)
    | boarding j flight' boards flies started =>
      rcases (put_eq_some ..).mp flies with ⟨rfl, rfl⟩ | ⟨-, flies⟩
      · rcases old with ⟨before, flies, same, -⟩ | new
        · exact .inl (.boarding j before boards flies (same.trans started))
        · exact .inr (started.symm.trans new)
      · exact .inl (.boarding j flight' boards flies started)
  redis _ _ found := .inl found
  flights j flight' flies := by
    rcases (put_eq_some ..).mp flies with ⟨rfl, rfl⟩ | ⟨-, flies⟩
    · rcases old with ⟨before, flies, same, -⟩ | new
      · exact .inl ⟨before, flies, same⟩
      · exact .inr new
    · exact .inl ⟨flight', flies, rfl⟩

theorem tick (s : State Key Pattern Value) : Flow now s s.tick where
  underWay _ _ under := .inl (under.of_same rfl rfl rfl)
  redis _ _ found := .inl found
  flights _ flight flies := .inl ⟨flight, flies, rfl⟩

theorem degrade (degraded : Bool) : Flow now s { s with degraded := degraded } where
  underWay _ _ under := .inl (under.of_same rfl rfl rfl)
  redis _ _ found := .inl found
  flights _ flight flies := .inl ⟨flight, flies, rfl⟩

variable [DecidableEq Key]

theorem store {entry : Entry Value} (old : s.UnderWay k entry.started) : Flow now s (s.store k entry) where
  underWay _ _ under := .inl (under.of_same rfl rfl rfl)
  redis k' entry' found := by
    by_cases here : k' = k
    · subst here
      rw [State.store, Record.get_put_self, Option.some.injEq] at found
      exact .inr (.inl (found ▸ old))
    · rw [State.store, Record.get_put_of_ne _ _ here] at found
      exact .inl found
  flights _ flight flies := .inl ⟨flight, flies, rfl⟩

theorem erase (keys : Finset Key) : Flow now s (s.erase keys) where
  underWay _ _ under := .inl (under.of_same rfl rfl rfl)
  redis k entry found := by
    rw [State.erase, Record.get_select] at found
    exact .inl (Option.filter_eq_some_iff.mp found).1
  flights _ flight flies := .inl ⟨flight, flies, rfl⟩

theorem board {flight : Flight Key Value} (flies : s.flights i = some flight) (new : flight.started = now) :
    Flow now s { s with inflight := put s.inflight k i } where
  underWay k' c under := by
    cases under with
    | task j task called brings => exact .inl (.task j task called brings)
    | flight j flight' flies' brings => exact .inl (.flight j flight' flies' brings)
    | boarding j flight' boards flies' started =>
      rcases (put_eq_some ..).mp boards with ⟨-, rfl⟩ | ⟨-, boards⟩
      · obtain rfl : flight = flight' := Option.some.inj (flies.symm.trans flies')
        exact .inr (started.symm.trans new)
      · exact .inl (.boarding j flight' boards flies' started)
  redis _ _ found := .inl found
  flights _ flight flies := .inl ⟨flight, flies, rfl⟩

theorem leave (k : Key) : Flow now s { s with inflight := remove s.inflight k } where
  underWay k' c under := by
    cases under with
    | task j task called brings => exact .inl (.task j task called brings)
    | flight j flight flies brings => exact .inl (.flight j flight flies brings)
    | boarding j flight boards flies started =>
      exact .inl (.boarding j flight ((remove_eq_some ..).mp boards).2 flies started)
  redis _ _ found := .inl found
  flights _ flight flies := .inl ⟨flight, flies, rfl⟩

end Flow

end State

end SubTrackr.Cache
