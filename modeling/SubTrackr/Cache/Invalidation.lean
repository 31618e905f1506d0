import SubTrackr.Cache.CacheService
import SubTrackr.Lib.Runs

namespace SubTrackr.Cache

open Option Lib

variable {Key Pattern Value : Type} (glob : Pattern → Key → Bool)

def Task.Targets : Task Key Pattern Value → Key → Prop
  | .invalidate keys _, k => k ∈ keys
  | .invalidatePattern pattern _, k => glob pattern k = true
  | _, _ => False

def Task.Invalidated : Task Key Pattern Value → Key → ℕ → Prop
  | .invalidate keys (.returned finished), k, n => k ∈ keys ∧ finished = n
  | .invalidatePattern pattern (.returned finished), k, n => glob pattern k = true ∧ finished = n
  | _, _, _ => False

/-- No `getOrLoad` called after an invalidation of its key has returned, and not bypassing the cache, returns a value
    that was started before the invalidation was called. -/
def Effective (s : State Key Pattern Value) : Prop :=
  ∀ i invalidation k finished j finished' entry, s.tasks i = some invalidation →
    invalidation.Invalidated glob k finished → s.tasks j = some (.load k (.returned finished' (some entry))) →
    finished < j → i ≤ entry.started

namespace State

def Quiet (s : State Key Pattern Value) (k : Key) (c : ℕ) : Prop := ∀ n, s.UnderWay k n → c ≤ n

def Purged (s : State Key Pattern Value) (k : Key) (c : ℕ) : Prop :=
  ∀ entry, s.redis.get k = some entry → c ≤ entry.started

def Vacant (s : State Key Pattern Value) (k : Key) : Prop :=
  (∀ c, ¬ s.UnderWay k c) ∧ (s.degraded = true → s.redis.get k = none)

/-- An invalidation is called while its keys are vacant, and where one of its commands fails Redis has nothing for its
    keys from before the call. -/
def Allowed (s : State Key Pattern Value) : Action Key Pattern Value → Prop
  | .call (.invalidate keys) => ∀ k ∈ keys, s.Vacant k
  | .call (.invalidatePattern pattern) => ∀ k, glob pattern k = true → s.Vacant k
  | .answer i .failed => ∀ task k, s.tasks i = some task → task.Targets glob k → s.Purged k i
  | _ => True

variable {glob} {s t : State Key Pattern Value} {k : Key} {c i j now : ℕ}

theorem Flow.quiet (flow : Flow now s t) (early : c ≤ now) (quiet : s.Quiet k c) : t.Quiet k c := by
  intro n under
  rcases flow.underWay k n under with under | new
  · exact quiet n under
  · exact early.trans new.ge

theorem Flow.purged (flow : Flow now s t) (early : c ≤ now) (quiet : s.Quiet k c) (purged : s.Purged k c) :
    t.Purged k c := by
  intro entry found
  rcases flow.redis k entry found with found | under | new
  · exact purged entry found
  · exact quiet _ under
  · exact early.trans new.ge

theorem Vacant.quiet (vacant : s.Vacant k) : s.Quiet k c := fun n under => absurd under (vacant.1 n)

end State

def LoadPhase.Since (s : State Key Pattern Value) (c : ℕ) : LoadPhase Value → Prop
  | .getting (some (some entry)) => c ≤ entry.started
  | .getting _ => True
  | .loading started => c ≤ started
  | .flying leader => ∀ flight, s.flights leader = some flight → c ≤ flight.started
  | .returned _ (some entry) => c ≤ entry.started
  | .returned _ none => True

def Earlier (glob : Pattern → Key → Bool) (s : State Key Pattern Value) (k : Key) (j c : ℕ) : Prop :=
  ∃ task finished, s.tasks c = some task ∧ task.Invalidated glob k finished ∧ finished < j

def Task.Kept (glob : Pattern → Key → Bool) (s : State Key Pattern Value) (i : ℕ) : Task Key Pattern Value → Prop
  | .invalidate keys phase => ∀ k ∈ keys, s.Quiet k i ∧ (phase ≠ .deleting false → s.Purged k i)
  | .invalidatePattern pattern phase => ∀ k, glob pattern k = true → s.Quiet k i ∧
    match phase with
    | .listing none => True
    | .listing (some keys) | .deleting keys false => k ∈ keys ∨ s.Purged k i
    | .deleting _ true | .returned _ => s.Purged k i
  | .load key phase => ∀ c, Earlier glob s key i c → phase.Since s c
  | _ => True

structure Inv (glob : Pattern → Key → Bool) (s : State Key Pattern Value) : Prop where
  called : ∀ i task, s.tasks i = some task → i < s.clock
  kept : ∀ i task, s.tasks i = some task → task.Kept glob s i

variable {glob} {s t : State Key Pattern Value} {k : Key} {c i j now : ℕ}

theorem inv_initial : Inv glob (.initial : State Key Pattern Value) where
  called _ _ called := by cases called
  kept _ _ called := by cases called

theorem LoadPhase.Since.flow {phase : LoadPhase Value} (since : phase.Since s c) (flow : s.Flow now t) (early : c ≤ now) :
    phase.Since t c := by
  cases phase with
  | getting read => rcases read with _ | _ | entry <;> exact since
  | loading started => exact since
  | flying leader =>
    intro flight flies
    rcases flow.flights leader flight flies with ⟨before, flies, same⟩ | new
    · exact same ▸ since before flies
    · exact early.trans new.ge
  | returned finished value => cases value <;> exact since

theorem Inv.earlier (inv : Inv glob s) (earlier : Earlier glob s k j c) : s.Quiet k c ∧ s.Purged k c ∧ c < s.clock := by
  obtain ⟨task, finished, called, invalidated, -⟩ := earlier
  have kept := inv.kept c task called
  have before := inv.called c task called
  unfold Task.Invalidated at invalidated
  split at invalidated
  · have ⟨quiet, purged⟩ := kept k invalidated.1
    exact ⟨quiet, purged (by simp), before⟩
  · have ⟨quiet, purged⟩ := kept k invalidated.1
    exact ⟨quiet, purged, before⟩
  · exact invalidated.elim

theorem Task.Kept.flow {task : Task Key Pattern Value} (kept : task.Kept glob s i) (inv : Inv glob s)
    (flow : s.Flow s.clock t) (called : i ≤ s.clock) (earlier : ∀ k c, Earlier glob t k i c → Earlier glob s k i c) :
    task.Kept glob t i := by
  cases task with
  | load key phase =>
    intro c before
    have before := earlier key c before
    exact (kept c before).flow flow (inv.earlier before).2.2.le
  | invalidate keys phase =>
    intro k mem
    obtain ⟨quiet, purged⟩ := kept k mem
    exact ⟨flow.quiet called quiet, fun past => flow.purged called quiet (purged past)⟩
  | invalidatePattern pattern phase =>
    intro k matching
    obtain ⟨quiet, stage⟩ := kept k matching
    refine ⟨flow.quiet called quiet, ?_⟩
    split
    · trivial
    · exact stage.imp_right (flow.purged called quiet)
    · exact stage.imp_right (flow.purged called quiet)
    · exact flow.purged called quiet stage
    · exact flow.purged called quiet stage
  | bypass | set | isHealthy => trivial

section

variable (inv : Inv glob s) (flow : s.Flow s.clock t) (clock : t.clock = s.clock + 1)

include inv flow clock

theorem Inv.move {task : Task Key Pattern Value} (called : i ≤ s.clock) (tasks : t.tasks = put s.tasks i task)
    (finished : ∀ k n, task.Invalidated glob k n → n = s.clock)
    (kept : (∀ k c, Earlier glob t k i c → Earlier glob s k i c) → task.Kept glob t i) : Inv glob t := by
  have earlier (j : ℕ) (early : j ≤ s.clock) (k : Key) (c : ℕ) (before : Earlier glob t k j c) : Earlier glob s k j c := by
    obtain ⟨task', n, called', invalidated, past⟩ := before
    rw [tasks] at called'
    rcases (put_eq_some ..).mp called' with ⟨-, rfl⟩ | ⟨-, called'⟩
    · have := finished k n invalidated
      omega
    · exact ⟨task', n, called', invalidated, past⟩
  constructor
  · intro j task' called'
    rw [tasks] at called'
    rw [clock]
    rcases (put_eq_some ..).mp called' with ⟨rfl, -⟩ | ⟨-, called'⟩
    · exact Nat.lt_succ_of_le called
    · exact (inv.called j task' called').trans (Nat.lt_succ_self _)
  · intro j task' called'
    rw [tasks] at called'
    rcases (put_eq_some ..).mp called' with ⟨rfl, rfl⟩ | ⟨-, called'⟩
    · exact kept (earlier j called)
    · have before := (inv.called j task' called').le
      exact (inv.kept j task' called').flow inv flow before (earlier j before)

theorem Inv.stay (tasks : t.tasks = s.tasks) : Inv glob t where
  called i task called := by
    rw [clock]
    exact (inv.called i task (tasks ▸ called)).trans (Nat.lt_succ_self _)
  kept i task called := by
    rw [tasks] at called
    apply (inv.kept i task called).flow inv flow (inv.called i task called).le
    intro k c before
    obtain ⟨task', n, called', rest⟩ := before
    exact ⟨task', n, tasks ▸ called', rest⟩

theorem Inv.moveLoad {key : Key} {phase : LoadPhase Value} (called : i ≤ s.clock) (tasks : t.tasks = put s.tasks i (.load key phase))
    (since : ∀ c, c < s.clock → s.Quiet key c → s.Purged key c →
      (∀ before, s.tasks i = some (.load key before) → before.Since s c) → phase.Since t c) : Inv glob t := by
  apply inv.move flow clock called tasks
  · exact fun _ _ invalidated => invalidated.elim
  · intro earlier c before
    have before := earlier key c before
    obtain ⟨quiet, purged, early⟩ := inv.earlier before
    exact since c early quiet purged fun phase called' => inv.kept i _ called' c before

end

def Task.Other : Task Key Pattern Value → Prop
  | .bypass _ _ | .set _ _ | .isHealthy _ => True
  | _ => False

theorem Inv.moveOther {task : Task Key Pattern Value} (inv : Inv glob s) (flow : s.Flow s.clock t)
    (clock : t.clock = s.clock + 1) (called : i ≤ s.clock) (tasks : t.tasks = put s.tasks i task) (other : task.Other) :
    Inv glob t := by
  apply inv.move flow clock called tasks
  · intro k n invalidated
    cases task with
    | load | bypass | set | isHealthy => exact invalidated.elim
    | invalidate | invalidatePattern => exact other.elim
  · intro _
    cases task with
    | bypass | set | isHealthy => trivial
    | load | invalidate | invalidatePattern => exact other.elim

section Steps

open State (Flow Quiet Purged)

theorem brings_nothing {task : Task Key Pattern Value} (nothing : ∀ k c, ¬ task.Brings k c) :
    Flow now s (s.moveTask i task) :=
  .moveTask fun k c brings => absurd brings (nothing k c)

theorem inv_begin (inv : Inv glob s) (call : Call Key Pattern Value) (allowed : s.Allowed glob (.call call)) :
    Inv glob (s.begin call).tick := by
  have fresh {key : Key} {before : LoadPhase Value} (called : s.tasks s.clock = some (.load key before)) : False :=
    absurd (inv.called _ _ called) (lt_irrefl _)
  cases call with
  | getOrLoad key bypassCache =>
    cases bypassCache with
    | true =>
      have flow : Flow s.clock s (s.moveTask s.clock (.bypass key (.loading s.clock))) :=
        .moveTask fun k c brings => .inr brings.2.symm
      exact inv.moveOther (flow.trans (.tick _)) rfl le_rfl rfl trivial
    | false =>
      unfold State.begin
      dsimp only
      split
      · exact inv.moveLoad ((brings_nothing fun _ _ => id).trans (.tick _)) rfl le_rfl rfl fun c early _ _ _ => early.le
      · exact inv.moveLoad ((brings_nothing fun _ _ => id).trans (.tick _)) rfl le_rfl rfl fun _ _ _ _ _ => trivial
  | set key value =>
    unfold State.begin
    dsimp only
    split
    · exact inv.moveOther ((brings_nothing fun _ _ => id).trans (.tick _)) rfl le_rfl rfl trivial
    · have flow : Flow s.clock s (s.moveTask s.clock (.set key (.writing ⟨value, s.clock⟩ false))) :=
        .moveTask fun k c brings => .inr brings.2.symm
      exact inv.moveOther (flow.trans (.tick _)) rfl le_rfl rfl trivial
  | invalidate keys =>
    unfold State.begin
    dsimp only
    split
    · rename_i degraded
      have flow : Flow s.clock s (s.moveTask s.clock (.invalidate keys (.returned s.clock))).tick :=
        (brings_nothing fun _ _ => id).trans (.tick _)
      apply inv.move flow rfl le_rfl rfl
      · rintro k n ⟨-, rfl⟩
        rfl
      · intro _ k mem
        have vacant := allowed k mem
        have purged : s.Purged k s.clock := by
          intro entry found
          rw [vacant.2 degraded] at found
          cases found
        exact ⟨flow.quiet le_rfl vacant.quiet, fun _ => flow.purged le_rfl vacant.quiet purged⟩
    · have flow : Flow s.clock s (s.moveTask s.clock (.invalidate keys (.deleting false))).tick :=
        (brings_nothing fun _ _ => id).trans (.tick _)
      apply inv.move flow rfl le_rfl rfl (fun _ _ done => done.elim)
      intro _ k mem
      exact ⟨flow.quiet le_rfl (allowed k mem).quiet, fun past => absurd rfl past⟩
  | invalidatePattern pattern =>
    unfold State.begin
    dsimp only
    split
    · rename_i degraded
      have flow : Flow s.clock s (s.moveTask s.clock (.invalidatePattern pattern (.returned s.clock))).tick :=
        (brings_nothing fun _ _ => id).trans (.tick _)
      apply inv.move flow rfl le_rfl rfl
      · rintro k n ⟨-, rfl⟩
        rfl
      · intro _ k matching
        have vacant := allowed k matching
        have purged : s.Purged k s.clock := by
          intro entry found
          rw [vacant.2 degraded] at found
          cases found
        exact ⟨flow.quiet le_rfl vacant.quiet, flow.purged le_rfl vacant.quiet purged⟩
    · have flow : Flow s.clock s (s.moveTask s.clock (.invalidatePattern pattern (.listing none))).tick :=
        (brings_nothing fun _ _ => id).trans (.tick _)
      apply inv.move flow rfl le_rfl rfl (fun _ _ done => done.elim)
      intro _ k matching
      exact ⟨flow.quiet le_rfl (allowed k matching).quiet, trivial⟩
  | isHealthy =>
    exact inv.moveOther ((brings_nothing fun _ _ => id).trans (.tick _)) rfl le_rfl rfl trivial

theorem inv_invalidated (inv : Inv glob s) {keys : Finset Key} {phase : InvalidatePhase}
    (called : s.tasks i = some (.invalidate keys phase)) (purged : ∀ k ∈ keys, s.Purged k i) (degraded : Bool) :
    Inv glob ({ s with degraded := degraded }.moveTask i (.invalidate keys (.returned s.clock))).tick := by
  have early := (inv.called i _ called).le
  have flow : Flow s.clock s ({ s with degraded := degraded }.moveTask i (.invalidate keys (.returned s.clock))).tick :=
    ((Flow.degrade degraded).trans (brings_nothing fun _ _ => id)).trans (.tick _)
  apply inv.move flow rfl early rfl
  · rintro k n ⟨-, rfl⟩
    rfl
  · intro _ k mem
    have quiet := (inv.kept i _ called k mem).1
    exact ⟨flow.quiet early quiet, fun _ => flow.purged early quiet (purged k mem)⟩

theorem inv_patternInvalidated (inv : Inv glob s) {pattern : Pattern} {phase : PatternPhase Key}
    (called : s.tasks i = some (.invalidatePattern pattern phase)) (purged : ∀ k, glob pattern k = true → s.Purged k i)
    (degraded : Bool) :
    Inv glob ({ s with degraded := degraded }.moveTask i (.invalidatePattern pattern (.returned s.clock))).tick := by
  have early := (inv.called i _ called).le
  have flow : Flow s.clock s ({ s with degraded := degraded }.moveTask i (.invalidatePattern pattern (.returned s.clock))).tick :=
    ((Flow.degrade degraded).trans (brings_nothing fun _ _ => id)).trans (.tick _)
  apply inv.move flow rfl early rfl
  · rintro k n ⟨-, rfl⟩
    rfl
  · intro _ k matching
    have quiet := (inv.kept i _ called k matching).1
    exact ⟨flow.quiet early quiet, flow.purged early quiet (purged k matching)⟩

variable [DecidableEq Key]

theorem purged_erase {keys : Finset Key} (mem : k ∈ keys) : (s.erase keys).Purged k c := by
  intro entry found
  rw [State.erase, Record.get_select] at found
  simp [mem] at found

theorem inv_performTask (inv : Inv glob s) {task : Task Key Pattern Value} (called : s.tasks i = some task)
    (done : s.performTask glob i task = some t) : Inv glob t.tick := by
  have early := (inv.called i task called).le
  unfold State.performTask at done
  split at done
  · cases done
    rename_i key
    apply inv.moveLoad ((brings_nothing fun _ _ => id).trans (.tick _)) rfl early rfl
    intro c _ _ purged _
    cases read : s.redis.get key with
    | none => trivial
    | some entry => exact purged entry read
  · cases done
    rename_i key entry
    have under : s.UnderWay key entry.started := .task i _ called ⟨rfl, rfl⟩
    have moved : Flow s.clock (s.store key entry) ((s.store key entry).moveTask i (.bypass key (.writing entry true))) :=
      .moveTask fun k c brings => .inl (.task i _ called brings)
    exact inv.moveOther (((Flow.store under).trans moved).trans (.tick _)) rfl early rfl trivial
  · cases done
    rename_i key entry
    have under : s.UnderWay key entry.started := .task i _ called ⟨rfl, rfl⟩
    have moved : Flow s.clock (s.store key entry) ((s.store key entry).moveTask i (.set key (.writing entry true))) :=
      .moveTask fun k c brings => .inl (.task i _ called brings)
    exact inv.moveOther (((Flow.store under).trans moved).trans (.tick _)) rfl early rfl trivial
  · cases done
    rename_i keys
    have kept := inv.kept i _ called
    have flow : Flow s.clock s ((s.erase keys).moveTask i (.invalidate keys (.deleting true))).tick :=
      ((Flow.erase keys).trans (brings_nothing fun _ _ => id)).trans (.tick _)
    apply inv.move flow rfl early rfl (fun _ _ past => past.elim)
    intro _ k mem
    exact ⟨flow.quiet early (kept k mem).1, fun _ => purged_erase mem⟩
  · cases done
    rename_i pattern
    have kept := inv.kept i _ called
    have flow : Flow s.clock s (s.moveTask i (.invalidatePattern pattern
        (.listing (some (s.redis.keys.filter fun key => glob pattern key))))).tick :=
      (brings_nothing fun _ _ => id).trans (.tick _)
    apply inv.move flow rfl early rfl (fun _ _ past => past.elim)
    intro _ k matching
    refine ⟨flow.quiet early (kept k matching).1, ?_⟩
    by_cases known : k ∈ s.redis.keys
    · exact .inl (Finset.mem_filter.mpr ⟨known, matching⟩)
    · right
      intro entry found
      cases (Record.absent known).symm.trans found
  · cases done
    rename_i pattern keys
    have kept := inv.kept i _ called
    have flow : Flow s.clock s ((s.erase keys).moveTask i (.invalidatePattern pattern (.deleting keys true))).tick :=
      ((Flow.erase keys).trans (brings_nothing fun _ _ => id)).trans (.tick _)
    apply inv.move flow rfl early rfl (fun _ _ past => past.elim)
    intro _ k matching
    obtain ⟨quiet, mem | purged⟩ := kept k matching
    · exact ⟨flow.quiet early quiet, purged_erase mem⟩
    · exact ⟨flow.quiet early quiet, flow.purged early quiet purged⟩
  · cases done

theorem inv_singleFlight (inv : Inv glob s) {key : Key} {before : LoadPhase Value}
    (called : s.tasks i = some (.load key before)) (degraded : Bool) :
    Inv glob ({ s with degraded := degraded }.singleFlight i key).tick := by
  have early := (inv.called i _ called).le
  have start : Flow s.clock s { s with degraded := degraded } := .degrade degraded
  unfold State.singleFlight
  dsimp only
  split
  · exact inv.moveLoad ((start.trans (brings_nothing fun _ _ => id)).trans (.tick _)) rfl early rfl
      fun c past _ _ _ => past.le
  · split
    · rename_i leader boards
      apply inv.moveLoad ((start.trans (brings_nothing fun _ _ => id)).trans (.tick _)) rfl early rfl
      intro c _ quiet _ _ flight flies
      exact quiet flight.started (.boarding leader flight boards flies rfl)
    · have led : Flow s.clock { s with degraded := degraded }
          ({ s with degraded := degraded }.moveFlight i ⟨key, s.clock, .loading⟩) := .moveFlight (.inr rfl)
      have boarded := led.trans (.board (k := key) (put_self ..) rfl)
      apply inv.moveLoad (((start.trans boarded).trans (brings_nothing fun _ _ => id)).trans (.tick _)) rfl early rfl
      intro c past _ _ _ flight flies
      rw [← Option.some.inj ((put_self ..).symm.trans flies)]
      exact past.le

theorem inv_answerTask (inv : Inv glob s) {task : Task Key Pattern Value} (called : s.tasks i = some task) {reply : Reply}
    (allowed : s.Allowed glob (.answer i reply)) (done : s.answerTask i task reply = some t) : Inv glob t.tick := by
  have early := (inv.called i task called).le
  unfold State.answerTask at done
  split at done
  · cases done
    apply inv.moveLoad ((brings_nothing fun _ _ => id).trans (.tick _)) rfl early rfl
    exact fun c _ _ _ since => since _ called
  · cases done
    exact inv_singleFlight inv called s.degraded
  · cases done
    exact inv_singleFlight inv called true
  · cases done
    exact inv.moveOther ((brings_nothing fun _ _ => id).trans (.tick _)) rfl early rfl trivial
  · cases done
    exact inv.moveOther (((Flow.degrade true).trans (brings_nothing fun _ _ => id)).trans (.tick _)) rfl early rfl
      trivial
  · cases done
    exact inv.moveOther ((brings_nothing fun _ _ => id).trans (.tick _)) rfl early rfl trivial
  · cases done
    exact inv.moveOther (((Flow.degrade true).trans (brings_nothing fun _ _ => id)).trans (.tick _)) rfl early rfl
      trivial
  · cases done
    exact inv_invalidated inv called (fun k mem => (inv.kept i _ called k mem).2 (by simp)) s.degraded
  · cases done
    exact inv_invalidated inv called (fun k mem => allowed _ k called mem) true
  · rename_i pattern keys
    have kept := inv.kept i _ called
    split at done
    · cases done
      have flow : Flow s.clock s (s.moveTask i (.invalidatePattern pattern (.deleting keys false))).tick :=
        (brings_nothing fun _ _ => id).trans (.tick _)
      apply inv.move flow rfl early rfl (fun _ _ past => past.elim)
      intro _ k matching
      obtain ⟨quiet, stage⟩ := kept k matching
      exact ⟨flow.quiet early quiet, stage.imp_right (flow.purged early quiet)⟩
    · rename_i none
      cases done
      obtain rfl : keys = ∅ := by simpa using none
      apply inv_patternInvalidated inv called _ s.degraded
      exact fun k matching => (kept k matching).2.resolve_left (Finset.notMem_empty k)
  · cases done
    exact inv_patternInvalidated inv called (fun k matching => (inv.kept i _ called k matching).2) s.degraded
  · cases done
    exact inv_patternInvalidated inv called (fun k matching => allowed _ k called matching) true
  · cases done
    exact inv_patternInvalidated inv called (fun k matching => allowed _ k called matching) true
  · cases done
    exact inv.moveOther (((Flow.degrade false).trans (brings_nothing fun _ _ => id)).trans (.tick _)) rfl early rfl trivial
  · cases done
    exact inv.moveOther ((brings_nothing fun _ _ => id).trans (.tick _)) rfl early rfl trivial
  · cases done
    exact inv.moveOther (((Flow.degrade true).trans (brings_nothing fun _ _ => id)).trans (.tick _)) rfl early rfl trivial
  · cases done

omit [DecidableEq Key] in
theorem inv_loadedTask (inv : Inv glob s) {task : Task Key Pattern Value} (called : s.tasks i = some task)
    {outcome : Loaded Value} (done : s.loadedTask i task outcome = some t) : Inv glob t.tick := by
  have early := (inv.called i task called).le
  unfold State.loadedTask at done
  split at done
  · cases done
    apply inv.moveLoad ((brings_nothing fun _ _ => id).trans (.tick _)) rfl early rfl
    exact fun c _ _ _ since => since _ called
  · cases done
    exact inv.moveLoad ((brings_nothing fun _ _ => id).trans (.tick _)) rfl early rfl fun _ _ _ _ _ => trivial
  · rename_i key started v
    split at done
    · cases done
      exact inv.moveOther ((brings_nothing fun _ _ => id).trans (.tick _)) rfl early rfl trivial
    · cases done
      have flow : Flow s.clock s (s.moveTask i (.bypass key (.writing ⟨v, started⟩ false))) :=
        .moveTask fun k c brings => .inl (.task i _ called brings)
      exact inv.moveOther (flow.trans (.tick _)) rfl early rfl trivial
  · cases done
    exact inv.moveOther ((brings_nothing fun _ _ => id).trans (.tick _)) rfl early rfl trivial
  · cases done

section Flights

variable {flight : Flight Key Value} (flies : s.flights i = some flight)

include flies

omit [DecidableEq Key] in
theorem flow_flight {phase : FlightPhase Value} (unsettled : ∀ value, flight.phase ≠ .settled value) :
    Flow now s (s.moveFlight i { flight with phase := phase }) :=
  .moveFlight (.inl ⟨flight, flies, rfl, fun _ _ brings => ⟨brings.1, brings.2.1, unsettled⟩⟩)

theorem inv_performFlight (inv : Inv glob s) (done : s.performFlight i flight = some t) : Inv glob t.tick := by
  unfold State.performFlight at done
  split at done
  · rename_i value writing
    cases done
    have under : s.UnderWay flight.key flight.started := .flight i flight flies ⟨rfl, rfl, by simp [writing]⟩
    have held : Flow s.clock s (s.store flight.key ⟨value, flight.started⟩) := .store under
    have moved : Flow s.clock (s.store flight.key ⟨value, flight.started⟩)
        ((s.store flight.key ⟨value, flight.started⟩).moveFlight i { flight with phase := .writing value true }) :=
      flow_flight (s := s.store flight.key ⟨value, flight.started⟩) flies (by simp [writing])
    exact inv.stay ((held.trans moved).trans (.tick _)) rfl rfl
  · cases done

omit [DecidableEq Key] in
theorem inv_answerFlight (inv : Inv glob s) {reply : Reply} (done : s.answerFlight i flight reply = some t) :
    Inv glob t.tick := by
  unfold State.answerFlight at done
  split at done
  · rename_i value writing
    cases done
    exact inv.stay ((flow_flight flies (by simp [writing])).trans (.tick _)) rfl rfl
  · rename_i value performed writing
    cases done
    have moved : Flow s.clock s.enterDegraded
        (s.enterDegraded.moveFlight i { flight with phase := .settled (some value) }) :=
      flow_flight (s := s.enterDegraded) flies (by simp [writing])
    exact inv.stay (((Flow.degrade true).trans moved).trans (.tick _)) rfl rfl
  · cases done

omit [DecidableEq Key] in
theorem inv_loadedFlight (inv : Inv glob s) {outcome : Loaded Value} (done : s.loadedFlight i flight outcome = some t) :
    Inv glob t.tick := by
  unfold State.loadedFlight at done
  split at done
  · rename_i loading
    cases done
    exact inv.stay ((flow_flight flies (by simp [loading])).trans (.tick _)) rfl rfl
  · rename_i loading _
    cases done
    exact inv.stay ((flow_flight flies (by simp [loading])).trans (.tick _)) rfl rfl
  · cases done

end Flights

theorem inv_land (inv : Inv glob s) {key : Key} {leader : ℕ} {flight : Flight Key Value}
    (called : s.tasks i = some (.load key (.flying leader))) (flies : s.flights leader = some flight)
    (done : s.land i key leader flight = some t) : Inv glob t.tick := by
  have early := (inv.called i _ called).le
  unfold State.land at done
  split at done
  · rename_i value _
    have flow : Flow s.clock s (s.moveTask i (.load key (.returned s.clock (value.map fun v => ⟨v, flight.started⟩)))) :=
      brings_nothing fun _ _ => id
    have since (c : ℕ) (since : ∀ before, s.tasks i = some (.load key before) → before.Since s c) (t : State Key Pattern Value) :
        LoadPhase.Since t c (.returned s.clock (value.map fun v => ⟨v, flight.started⟩)) := by
      cases value with
      | none => trivial
      | some v => exact since _ called flight flies
    dsimp only at done
    split at done
    · cases done
      exact inv.moveLoad ((flow.trans (.leave key)).trans (.tick _)) rfl early rfl fun c _ _ _ before => since c before _
    · cases done
      exact inv.moveLoad (flow.trans (.tick _)) rfl early rfl fun c _ _ _ before => since c before _
  · cases done

theorem inv_step {action : Action Key Pattern Value} (inv : Inv glob s) (allowed : s.Allowed glob action)
    (stepped : s.step glob action = some t) : Inv glob t := by
  obtain ⟨t, acted, rfl⟩ := map_eq_some_iff.mp stepped
  cases action with
  | call call =>
    cases acted
    exact inv_begin inv call allowed
  | perform i =>
    obtain ⟨task, called, done⟩ := bind_eq_some_iff.mp acted
    exact inv_performTask inv called done
  | performFlight i =>
    obtain ⟨flight, flies, done⟩ := bind_eq_some_iff.mp acted
    exact inv_performFlight flies inv done
  | answer i reply =>
    obtain ⟨task, called, done⟩ := bind_eq_some_iff.mp acted
    exact inv_answerTask inv called allowed done
  | answerFlight i reply =>
    obtain ⟨flight, flies, done⟩ := bind_eq_some_iff.mp acted
    exact inv_answerFlight flies inv done
  | loaded i outcome =>
    obtain ⟨task, called, done⟩ := bind_eq_some_iff.mp acted
    exact inv_loadedTask inv called done
  | loadedFlight i outcome =>
    obtain ⟨flight, flies, done⟩ := bind_eq_some_iff.mp acted
    exact inv_loadedFlight flies inv done
  | land i =>
    unfold State.act at acted
    dsimp only at acted
    split at acted
    · rename_i key leader called
      obtain ⟨flight, flies, done⟩ := bind_eq_some_iff.mp acted
      exact inv_land inv called flies done
    · cases acted
  | expire key =>
    cases acted
    exact inv.stay ((Flow.erase {key}).trans (.tick _)) rfl rfl

end Steps

theorem Inv.effective (inv : Inv glob s) : Effective glob s := by
  intro i invalidation k finished j finished' entry called invalidated loaded later
  exact inv.kept j _ loaded i ⟨invalidation, finished, called, invalidated, later⟩

theorem effective_of_allowed [DecidableEq Key]
    (run : Runs (fun s => State.step s glob) (State.Allowed glob) .initial s) : Effective glob s :=
  (run.keeps (Inv glob) inv_initial fun _ _ _ inv allowed stepped => inv_step inv allowed stepped).effective

/-- What `KEYS` finds for a text without special characters, and any text after it. -/
def startsWith (pattern key : String) : Bool := pattern.toList.isPrefixOf key.toList

theorem effective_reload : ∃ s : State String String ℕ, s.tasks 3 = some (.load "k" (.returned 9 (some ⟨7, 5⟩))) ∧
    Effective startsWith s := by
  have vacant : (State.initial : State String String ℕ).Vacant "k" := by
    refine ⟨?_, fun _ => rfl⟩
    intro c under
    cases under with
    | task _ _ called => cases called
    | flight _ _ flies => cases flies
    | boarding _ _ boards => cases boards
  have allowed : State.Allowed startsWith (State.initial : State String String ℕ) (.call (.invalidate {"k"})) := by
    intro k listed
    rw [Finset.mem_singleton.mp listed]
    exact vacant
  have start : Runs (fun s : State String String ℕ => State.step s startsWith) (State.Allowed startsWith) .initial .initial := .refl _
  have invalidated := ((start.next _ allowed rfl).next (.perform 0) trivial rfl).next (.answer 0 .ok) trivial rfl
  have missed := ((invalidated.next (.call (.getOrLoad "k" false)) trivial rfl).next (.perform 3) trivial rfl).next
    (.answer 3 .ok) trivial rfl
  have flown := ((missed.next (.loadedFlight 3 (.value 7)) trivial rfl).next (.performFlight 3) trivial rfl).next
    (.answerFlight 3 .ok) trivial rfl
  have landed := flown.next (.land 3) trivial rfl
  exact ⟨_, rfl, effective_of_allowed landed⟩

def staleJoin : List (Action String String ℕ) :=
  [.call (.getOrLoad "k" false), .perform 0, .answer 0 .ok, .call (.invalidate {"k"}), .perform 3, .answer 3 .ok,
    .call (.getOrLoad "k" false), .perform 6, .answer 6 .ok, .loadedFlight 0 (.value 1), .performFlight 0,
    .answerFlight 0 .ok, .land 6]

/-- How `staleJoin` ends: call 3 has returned at time 5, and call 6 with a value started at time 2. -/
def Stale (s : State String String ℕ) : Prop :=
  s.tasks 3 = some (.invalidate {"k"} (.returned 5)) ∧ s.tasks 6 = some (.load "k" (.returned 12 (some ⟨1, 2⟩)))

instance : DecidablePred Stale := fun _ => inferInstanceAs (Decidable (_ ∧ _))

theorem not_effective : ¬ ∀ s : State String String ℕ,
    Runs (fun s => State.step s startsWith) anyAction .initial s → Effective startsWith s := by
  intro all
  have ends : (staleJoin.foldlM (Runs.guarded (fun s => State.step s startsWith) anyAction) .initial).any
      (fun s => decide (Stale s)) = true := by decide +kernel
  obtain ⟨s, run, invalidated, loaded⟩ := Runs.exists_of_foldlM staleJoin ends
  have fresh := all s run 3 _ "k" 5 6 12 ⟨1, 2⟩ invalidated ⟨by simp, rfl⟩ loaded (by decide)
  exact absurd fresh (by decide)

end SubTrackr.Cache
