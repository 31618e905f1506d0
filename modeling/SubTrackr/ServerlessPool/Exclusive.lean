import SubTrackr.Lib.Histories
import SubTrackr.ServerlessPool.ServerlessConnectionPool

namespace SubTrackr.ServerlessPool

open List Lib

def InTransaction (client : Client) (call : ℕ) : List Entry → Prop
  | [] => False
  | entry :: earlier =>
    if entry.client = client ∧ entry.call = call then
      match entry.event with
      | .begin => True
      | .statement => InTransaction client call earlier
      | .commit | .rollback | .ended => False
    else InTransaction client call earlier

def Unmixed : List Entry → Prop
  | [] => True
  | entry :: earlier => (∀ call, InTransaction entry.client call earlier → call = entry.call) ∧ Unmixed earlier

namespace World

def recordOf (w : World) (i : ℕ) : Option ℕ :=
  match w.phaseOf i with
  | some (.running r _) => some r
  | _ => none

def clientOf (w : World) (i : ℕ) : Option Client := (w.recordOf i).bind fun r => (w.records[r]?).map (·.client)

end World

structure Exclusive (w : World) : Prop where
  single : ∀ i j client, w.clientOf i = some client → w.clientOf j = some client → i = j
  unmixed : Unmixed w.log
  atMostOnce : ∀ r, w.released.count r ≤ 1
  once : ∀ r record, w.records[r]? = some record → (∀ i, w.recordOf i ≠ some r) → w.released.count r = 1
  pools : w.created ≤ 1

/-- No sweep finds a checkout that is older than the threshold, and no pool is created where another call has created one. -/
def Careful (w : World) : Action → Prop
  | .sweep => ∀ r ∈ w.checkouts, ∀ record, w.records[r]? = some record →
      w.now - record.checkedOutAt ≤ w.leakDetectionThresholdMs ∨ record.forceClosed = true
  | .poolCreated i ok => w.phaseOf i = some .creating → ok = true → w.pool = none
  | _ => True

section Phases

variable {w : World} {i j : ℕ} {phase : Phase}

theorem phaseOf_setPhase_self (present : w.phaseOf i ≠ none) : (w.setPhase i phase).phaseOf i = some phase := by
  unfold World.phaseOf at present ⊢
  cases found : w.calls[i]? with
  | none => simp [found] at present
  | some call => simp [World.setPhase, found]

theorem phaseOf_setPhase_of_ne (other : i ≠ j) : (w.setPhase i phase).phaseOf j = w.phaseOf j := by
  cases found : w.calls[j]? with
  | none => simp [World.phaseOf, World.setPhase, getElem?_modify, found]
  | some call => simp [World.phaseOf, World.setPhase, found, other]

theorem recordOf_setPhase_of_ne (other : i ≠ j) : (w.setPhase i phase).recordOf j = w.recordOf j := by
  rw [World.recordOf, phaseOf_setPhase_of_ne other, World.recordOf]

def Phase.record? : Phase → Option ℕ
  | .running r _ => some r
  | _ => none

theorem recordOf_setPhase_self (present : w.phaseOf i ≠ none) : (w.setPhase i phase).recordOf i = phase.record? := by
  rw [World.recordOf, phaseOf_setPhase_self present]
  cases phase <;> rfl

theorem recordOf_running {r : ℕ} {stage : Stage} (phase : w.phaseOf i = some (.running r stage)) : w.recordOf i = some r := by
  rw [World.recordOf, phase]

end Phases

section Invariant

variable {w w' : World} {i j r : ℕ} {client : Client} {record : CheckoutRecord} {phase : Phase} {event : Event}

structure Inv (w : World) : Prop where
  held : ∀ i r, w.recordOf i = some r →
    ∃ record, w.records[r]? = some record ∧ record.forceClosed = false ∧ record.client ∈ w.busy ∧ r ∉ w.released
  single : ∀ i j client, w.clientOf i = some client → w.clientOf j = some client → i = j
  atMostOnce : ∀ r, w.released.count r ≤ 1
  once : ∀ r record, w.records[r]? = some record → (∀ i, w.recordOf i ≠ some r) → w.released.count r = 1
  known : ∀ r ∈ w.released, r < w.records.length
  transactions : ∀ client j, InTransaction client j w.log → w.clientOf j = some client
  unmixed : Unmixed w.log
  pools : w.created = w.pool.elim 0 fun _ => 1

theorem clientOf_eq (holds : w.recordOf i = some r) (found : w.records[r]? = some record) :
    w.clientOf i = some record.client := by
  simp [World.clientOf, holds, found]

theorem inv_initial (threshold now : ℤ) : Inv { leakDetectionThresholdMs := threshold, now := now } where
  held := by simp [World.recordOf, World.phaseOf]
  single := by simp [World.clientOf, World.recordOf, World.phaseOf]
  atMostOnce := by simp
  once := by simp
  known := by simp
  transactions := by simp [InTransaction]
  unmixed := trivial
  pools := rfl

theorem Inv.exclusive (inv : Inv w) : Exclusive w := by
  refine ⟨inv.single, inv.unmixed, inv.atMostOnce, inv.once, ?_⟩
  rw [inv.pools]
  cases w.pool with
  | none => exact Nat.zero_le 1
  | some pool => exact Nat.le_refl 1

theorem Inv.quiet (inv : Inv w) (records : w'.records = w.records) (busy : w'.busy = w.busy) (released : w'.released = w.released)
    (log : w'.log = w.log) (same : ∀ i, w'.recordOf i = w.recordOf i) (pools : w'.created = w'.pool.elim 0 fun _ => 1) : Inv w' := by
  have clients : ∀ i, w'.clientOf i = w.clientOf i := by
    intro i
    rw [World.clientOf, same, records, World.clientOf]
  refine ⟨?_, ?_, ?_, ?_, ?_, ?_, ?_, pools⟩
  · simpa only [same, records, busy, released] using inv.held
  · simpa only [clients] using inv.single
  · simpa only [released] using inv.atMostOnce
  · simpa only [same, records, released] using inv.once
  · simpa only [records, released] using inv.known
  · simpa only [clients, log] using inv.transactions
  · simpa only [log] using inv.unmixed

theorem Inv.setPhase (inv : Inv w) (before : w.phaseOf i ≠ none)
    (same : w.recordOf i = phase.record?) : Inv (w.setPhase i phase) := by
  refine inv.quiet rfl rfl rfl rfl ?_ inv.pools
  intro j
  by_cases here : i = j
  · subst here
    rw [same, recordOf_setPhase_self before]
  · exact recordOf_setPhase_of_ne here

theorem Inv.emit (inv : Inv w) (uses : w.clientOf i = some client) : Inv (w.emit i client event) := by
  refine ⟨inv.held, inv.single, inv.atMostOnce, inv.once, inv.known, ?_, ?_, inv.pools⟩
  · intro client' j inside
    simp only [World.emit, InTransaction] at inside
    split at inside
    · rename_i here
      obtain ⟨rfl, rfl⟩ := here
      exact uses
    · exact inv.transactions client' j inside
  · exact ⟨fun call inside => inv.single call i client (inv.transactions client call inside) uses, inv.unmixed⟩

theorem finish_eq (unswept : record.forceClosed = false) :
    w.finish i r record = ((({ w with checkouts := w.checkouts.filter (· ≠ r) } : World).release r record).setPhase i .ended).emit i
      record.client .ended := by
  rw [World.finish, unswept]
  rfl

theorem Inv.finish (inv : Inv w) (holds : w.recordOf i = some r) (found : w.records[r]? = some record) :
    Inv (w.finish i r record) := by
  obtain ⟨_, found', unswept, busy, unreleased⟩ := inv.held i r holds
  obtain rfl := Option.some.inj (found.symm.trans found')
  have uses := clientOf_eq holds found
  have present : w.phaseOf i ≠ none := by
    intro none_there
    simp [World.recordOf, none_there] at holds
  have mine : (w.finish i r record).recordOf i = none := by
    rw [finish_eq unswept]
    exact recordOf_setPhase_self present
  have theirs : ∀ j, j ≠ i → (w.finish i r record).recordOf j = w.recordOf j := by
    intro j other
    rw [finish_eq unswept]
    exact recordOf_setPhase_of_ne (Ne.symm other)
  have records : (w.finish i r record).records = w.records := by
    rw [finish_eq unswept]
    rfl
  have released : (w.finish i r record).released = r :: w.released := by
    rw [finish_eq unswept]
    rfl
  have apart : ∀ j, j ≠ i → ∀ r', w.recordOf j = some r' → ∀ record', w.records[r']? = some record' →
      record'.client ≠ record.client := by
    intro j other r' holds' record' found' same
    exact other (inv.single j i record.client (same ▸ clientOf_eq holds' found') uses)
  have others : ∀ j, j ≠ i → ∀ r', w.recordOf j = some r' → r' ≠ r := by
    rintro j other r' holds' rfl
    exact apart j other r' holds' record found rfl
  have clients : ∀ j, j ≠ i → (w.finish i r record).clientOf j = w.clientOf j := by
    intro j other
    rw [World.clientOf, theirs j other, records, World.clientOf]
  have gone : (w.finish i r record).clientOf i = none := by rw [World.clientOf, mine]; rfl
  refine ⟨?_, ?_, ?_, ?_, ?_, ?_, ?_, ?_⟩
  · intro j r' holds'
    have other : j ≠ i := by
      rintro rfl
      rw [mine] at holds'
      cases holds'
    rw [theirs j other] at holds'
    obtain ⟨record', found', unswept', busy', unreleased'⟩ := inv.held j r' holds'
    refine ⟨record', records ▸ found', unswept', ?_, ?_⟩
    · rw [finish_eq unswept]
      exact mem_filter.mpr ⟨busy', by simpa using apart j other r' holds' record' found'⟩
    · rw [released, mem_cons, not_or]
      exact ⟨others j other r' holds', unreleased'⟩
  · intro j k client usesJ usesK
    have otherJ : j ≠ i := by
      rintro rfl
      rw [gone] at usesJ
      cases usesJ
    have otherK : k ≠ i := by
      rintro rfl
      rw [gone] at usesK
      cases usesK
    rw [clients j otherJ] at usesJ
    rw [clients k otherK] at usesK
    exact inv.single j k client usesJ usesK
  · intro r'
    rw [released]
    by_cases here : r = r'
    · subst here
      simp [count_eq_zero.mpr unreleased]
    · rw [count_cons_of_ne here]
      exact inv.atMostOnce r'
  · intro r' record' found' idle
    rw [released]
    by_cases here : r = r'
    · subst here
      rw [count_cons_self, count_eq_zero.mpr unreleased]
    · rw [count_cons_of_ne here]
      apply inv.once r' record' (records ▸ found')
      intro j
      by_cases other : j = i
      · subst other
        rw [holds]
        simpa using here
      · rw [← theirs j other]
        exact idle j
  · intro r' mem
    rw [released, mem_cons] at mem
    rw [records]
    rcases mem with rfl | old
    · exact (List.getElem?_eq_some_iff.mp found).1
    · exact inv.known r' old
  · intro client j inside
    rw [finish_eq unswept] at inside
    simp only [World.emit, InTransaction] at inside
    split at inside
    · cases inside
    · rename_i elsewhere
      have before := inv.transactions client j inside
      by_cases other : j = i
      · subst other
        obtain rfl := Option.some.inj (uses.symm.trans before)
        exact absurd ⟨rfl, rfl⟩ elsewhere
      · rw [clients j other]
        exact before
  · rw [finish_eq unswept]
    exact ⟨fun call inside => inv.single call i record.client (inv.transactions _ call inside) uses, inv.unmixed⟩
  · rw [finish_eq unswept]
    exact inv.pools

theorem Inv.checkOut {call : Call} {pool : ℕ} (inv : Inv w) (waits : w.phaseOf i = some (.connecting pool))
    (idle : client ∉ w.busy) : Inv (w.checkOut i call client) := by
  have present : w.phaseOf i ≠ none := by simp [waits]
  have none_yet : w.recordOf i = none := by rw [World.recordOf, waits]
  have handed : ∀ stage, Inv ((w.handOut call.origin client).setPhase i (.running w.records.length stage)) := by
    intro stage
    let record : CheckoutRecord := { client := client, checkedOutAt := w.now, origin := call.origin }
    generalize state : (w.handOut call.origin client).setPhase i (.running w.records.length stage) = w'
    have records : w'.records = w.records ++ [record] := by rw [← state]; rfl
    have busy : w'.busy = client :: w.busy := by rw [← state]; rfl
    have released : w'.released = w.released := by rw [← state]; rfl
    have log : w'.log = w.log := by rw [← state]; rfl
    have mine : w'.recordOf i = some w.records.length := by rw [← state]; exact recordOf_setPhase_self present
    have theirs : ∀ j, i ≠ j → w'.recordOf j = w.recordOf j := by
      intro j other
      rw [← state]
      exact recordOf_setPhase_of_ne other
    have new : w'.records[w.records.length]? = some record := by simp [records]
    have old : ∀ (r : ℕ) (record : CheckoutRecord), w.records[r]? = some record → w'.records[r]? = some record := by
      intro r record' found
      rw [records, List.getElem?_append_left (List.getElem?_eq_some_iff.mp found).1, found]
    have fresh : w.records.length ∉ w.released := fun mem => absurd (inv.known _ mem) (Nat.lt_irrefl _)
    have here : w'.clientOf i = some client := clientOf_eq mine new
    have there : ∀ j, i ≠ j → w'.clientOf j = w.clientOf j := by
      intro j other
      rw [World.clientOf, theirs j other, World.clientOf]
      cases holds : w.recordOf j with
      | none => rfl
      | some r =>
        obtain ⟨record', found, -⟩ := inv.held j r holds
        simp only [Option.bind_some]
        rw [found, old r record' found]
    have used : ∀ j, i ≠ j → w'.clientOf j ≠ some client := by
      intro j other uses
      rw [there j other] at uses
      obtain ⟨r, holds, uses⟩ := Option.bind_eq_some_iff.mp uses
      obtain ⟨record', found, rfl⟩ := Option.map_eq_some_iff.mp uses
      obtain ⟨_, found', -, busy, -⟩ := inv.held j r holds
      obtain rfl := Option.some.inj (found.symm.trans found')
      exact idle busy
    refine ⟨?_, ?_, ?_, ?_, ?_, ?_, ?_, ?_⟩
    · intro j r holds
      by_cases other : i = j
      · subst other
        obtain rfl := Option.some.inj (mine.symm.trans holds)
        exact ⟨record, new, rfl, by simp [busy, record], released ▸ fresh⟩
      · rw [theirs j other] at holds
        obtain ⟨record', found, unswept, inside, unreleased⟩ := inv.held j r holds
        exact ⟨record', old r record' found, unswept, by simp [busy, inside], released ▸ unreleased⟩
    · intro j k client' usesJ usesK
      by_cases first : i = j
      · subst first
        obtain rfl := Option.some.inj (here.symm.trans usesJ)
        by_contra other
        exact used k other usesK
      · by_cases second : i = k
        · subst second
          obtain rfl := Option.some.inj (here.symm.trans usesK)
          exact absurd usesJ (used j first)
        · rw [there j first] at usesJ
          rw [there k second] at usesK
          exact inv.single j k client' usesJ usesK
    · rw [released]
      exact inv.atMostOnce
    · intro r record' found unheld
      rw [released]
      rw [records] at found
      rcases Nat.lt_or_ge r w.records.length with inside | outside
      · rw [List.getElem?_append_left inside] at found
        apply inv.once r record' found
        intro j holds
        by_cases other : i = j
        · subst other
          rw [none_yet] at holds
          cases holds
        · exact unheld j (by rw [theirs j other, holds])
      · have bound := (List.getElem?_eq_some_iff.mp found).1
        rw [List.length_append, List.length_singleton] at bound
        obtain rfl : r = w.records.length := by omega
        exact absurd mine (unheld i)
    · intro r mem
      have inside := inv.known r (released ▸ mem)
      rw [records, List.length_append, List.length_singleton]
      omega
    · intro client' j inside
      rw [log] at inside
      have uses := inv.transactions client' j inside
      have other : i ≠ j := by
        rintro rfl
        rw [World.clientOf, none_yet] at uses
        cases uses
      rw [there j other, uses]
    · rw [log]
      exact inv.unmixed
    · rw [← state]
      exact inv.pools
  unfold World.checkOut
  cases call.transaction with
  | false => exact handed .plain
  | true =>
    have uses : ((w.handOut call.origin client).setPhase i (.running w.records.length .beginning)).clientOf i = some client := by
      have there : (w.handOut call.origin client).phaseOf i ≠ none := present
      rw [World.clientOf, recordOf_setPhase_self there]
      simp [Phase.record?, World.setPhase, World.handOut]
    exact (handed .beginning).emit uses

theorem sweepLeaks_eq (careful : Careful w .sweep) : w.sweepLeaks = w := by
  have one : ∀ r ∈ w.checkouts, w.sweepOne r = w := by
    intro r mem
    unfold World.sweepOne
    cases found : w.records[r]? with
    | none => rfl
    | some record =>
      dsimp only
      rw [if_neg]
      rintro ⟨late, unswept⟩
      rcases careful r mem record found with early | swept
      · omega
      · rw [unswept] at swept
        cases swept
  have all : ∀ rs : List ℕ, (∀ r ∈ rs, w.sweepOne r = w) → rs.foldl World.sweepOne w = w := by
    intro rs each
    induction rs with
    | nil => rfl
    | cons r rs ih => rw [foldl_cons, each r (by simp), ih fun r' mem => each r' (by simp [mem])]
  exact all w.checkouts one

theorem Inv.running {f : ℕ → CheckoutRecord → Stage → World} (inv : Inv w)
    (kept : ∀ r record stage, w.phaseOf i = some (.running r stage) → w.recordOf i = some r → w.records[r]? = some record →
      Inv (f r record stage)) : Inv (w.running i f) := by
  unfold World.running
  split
  · rename_i r stage phase
    cases found : w.records[r]? with
    | none => exact inv
    | some record => exact kept r record stage phase (recordOf_running phase) found
  · exact inv

theorem Inv.step {action : Action} (inv : Inv w) (careful : Careful w action) : Inv (w.step action) := by
  cases action with
  | tick ms => exact inv.quiet rfl rfl rfl rfl (fun _ => rfl) inv.pools
  | start transaction origin =>
    refine inv.quiet rfl rfl rfl rfl ?_ inv.pools
    intro j
    have phases : (w.start transaction origin).phaseOf j = w.phaseOf j ∨
        w.phaseOf j = none ∧ ∃ phase, (w.start transaction origin).phaseOf j = some phase ∧ phase.record? = none := by
      rcases Nat.lt_trichotomy j w.calls.length with inside | rfl | outside
      · exact .inl (by simp [World.phaseOf, World.start, List.getElem?_append_left inside])
      · right
        refine ⟨by simp [World.phaseOf], w.pool.elim .credential .poolReady, by simp [World.phaseOf, World.start], ?_⟩
        cases w.pool <;> rfl
      · left
        have beyond : ¬ j - w.calls.length = 0 := by omega
        simp [World.phaseOf, World.start, getElem?_append_right (Nat.le_of_lt outside), Nat.le_of_lt outside, beyond]
    rcases phases with same | ⟨absent, phase, here, unheld⟩
    · simp only [World.step, World.recordOf, same]
    · simp only [World.step, World.recordOf, absent, here]
      cases phase with
      | running r stage => cases unheld
      | _ => rfl
  | credentialResolved i ok =>
    simp only [World.step]
    split
    · rename_i phase
      exact inv.setPhase (by simp [phase]) (by cases ok <;> simp [World.recordOf, phase, Phase.record?])
    · exact inv
  | poolCreated i ok =>
    simp only [World.step]
    split
    · rename_i phase
      cases ok with
      | false => exact inv.setPhase (by simp [phase]) (by simp [World.recordOf, phase, Phase.record?])
      | true =>
        have none_yet := careful phase rfl
        have started : Inv { w with pool := some w.created, created := w.created + 1 } := by
          refine inv.quiet rfl rfl rfl rfl (fun _ => rfl) ?_
          have count := inv.pools
          rw [none_yet] at count
          exact congrArg (· + 1) count
        have present : w.phaseOf i ≠ none := by simp [phase]
        have unheld : w.recordOf i = none := by simp [World.recordOf, phase]
        exact started.setPhase present unheld
    · exact inv
  | goOn | connectFailed =>
    simp only [World.step]
    split
    · rename_i pool phase
      exact inv.setPhase (by simp [phase]) (by simp [World.recordOf, phase, Phase.record?])
    · exact inv
  | connected i n =>
    simp only [World.step]
    split
    · rename_i origin transaction pool found
      split
      · exact inv
      · rename_i idle
        have waits : w.phaseOf i = some (.connecting pool) := by simp [World.phaseOf, found]
        exact inv.checkOut waits idle
    · exact inv
  | statement i =>
    refine inv.running fun r record stage phase holds found => ?_
    cases stage with
    | plain | body => exact inv.emit (clientOf_eq holds found)
    | _ => exact inv
  | settled i ok =>
    refine inv.running fun r record stage phase holds found => ?_
    have moved : ∀ stage', Inv (w.setPhase i (.running r stage')) := fun stage' => inv.setPhase (by simp [phase]) holds
    have moved_uses : ∀ stage', (w.setPhase i (.running r stage')).clientOf i = some record.client :=
      fun stage' => clientOf_eq (recordOf_setPhase_self (by simp [phase])) found
    cases stage with
    | plain => exact inv.finish holds found
    | body =>
      cases ok with
      | true => exact (moved .committing).emit (moved_uses .committing)
      | false => exact (moved .rollingBack).emit (moved_uses .rollingBack)
    | _ => exact inv
  | answered i ok =>
    refine inv.running fun r record stage phase holds found => ?_
    have moved : ∀ stage', Inv (w.setPhase i (.running r stage')) := fun stage' => inv.setPhase (by simp [phase]) holds
    have moved_uses : ∀ stage', (w.setPhase i (.running r stage')).clientOf i = some record.client :=
      fun stage' => clientOf_eq (recordOf_setPhase_self (by simp [phase])) found
    cases stage with
    | beginning =>
      cases ok with
      | true => exact moved .body
      | false => exact inv.finish holds found
    | committing =>
      cases ok with
      | true => exact inv.finish holds found
      | false => exact (moved .rollingBack).emit (moved_uses .rollingBack)
    | rollingBack => exact inv.finish holds found
    | _ => exact inv
  | sweep =>
    rw [World.step, sweepLeaks_eq careful]
    exact inv

end Invariant

section Runs

variable {actions : List Action}

theorem exclusive_of_careful (threshold now : ℤ) (careful : Throughout World.step
    { leakDetectionThresholdMs := threshold, now := now } Careful actions) :
    Exclusive (actions.foldl World.step { leakDetectionThresholdMs := threshold, now := now }) :=
  (careful.keeps Inv (inv_initial threshold now) fun _ _ inv fine => inv.step fine).exclusive

def exampleActions : List Action :=
  [.start true "transfer", .credentialResolved 0 true, .poolCreated 0 true, .goOn 0, .connected 0 0, .answered 0 true,
    .start false "query", .goOn 1]

theorem exclusive_exampleActions : Exclusive ((exampleActions ++ [Action.sweep]).foldl World.step { now := 0 }) := by
  apply exclusive_of_careful 30000 0
  refine .cons trivial (.cons trivial (.cons (fun _ _ => rfl) (.cons trivial (.cons trivial (.cons trivial (.cons trivial
    (.cons trivial (.cons ?_ .nil))))))))
  intro r listed record found
  obtain rfl : r = 0 := mem_singleton.mp listed
  cases found
  exact .inl (by decide)

theorem not_exclusive : ¬ ∀ (threshold now : ℤ) (actions : List Action),
    Exclusive (actions.foldl World.step { leakDetectionThresholdMs := threshold, now := now }) := by
  intro exclusive
  have alone := exclusive 30000 0 (exampleActions ++ [Action.tick 30001, .sweep, .connected 1 0])
  exact absurd (alone.single 0 1 (0, 0) (by decide) (by decide)) (by decide)

end Runs

end SubTrackr.ServerlessPool
