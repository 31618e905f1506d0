import SubTrackr.FairQueue.Weights
import Mathlib.Data.Rat.Floor

namespace SubTrackr.FairQueue

structure QueueJob (τ : Type) where
  (id name : String)
  data : τ
  priority : PriorityClass
  enqueuedAt : ℤ
  bullJobId : Option String

structure EnqueueOptions where
  parentPriority : Option PriorityClass
  jobId : Option String

structure Request (τ : Type) where
  priority : PriorityClass
  name : String
  data : τ
  opts : EnqueueOptions

structure PriorityQueue where
  pending : List ℕ
  paused : Bool
  maxSize : ℕ

variable {τ : Type}

/-- A call at the `await` where it is suspended. A job that was taken from its queue goes to the handler registered for
    it, or to the caller of `dequeue` or `scheduleNext` where there are no handlers. -/
inductive Call (τ : Type)
  | pausing (toPause : PriorityClass) (request : Request τ)
  | checked (request : Request τ)
  | persisting (request : Request τ) (enqueuedAt : ℤ)
  | removing (priority : PriorityClass) (job : ℕ) (handlers : Option (String → Bool))
  | dequeued (priority : PriorityClass) (job : ℕ) (handlers : Option (String → Bool))
  | handling (priority : PriorityClass) (job : ℕ)

inductive Outcome
  | done (id : Option String)
  | failed

/-- What happens between two switch points. `resumeAll` resumes queues and then clears the paused classes; pausing and
    resuming do nothing after they have waited. -/
inductive Action (τ : Type)
  | enqueue (request : Request τ)
  | scheduleNext (handlers : Option (String → Bool))
  | dequeue (priority : PriorityClass)
  | pause (priority : PriorityClass)
  | resume (priority : PriorityClass)
  | clearPaused
  | settle (call : ℕ) (outcome : Outcome) (now : ℤ)

/-- The scheduler and its queues, with every job that was accepted (and the class of its queue), the suspended calls in
    the order they started, and the jobs of each class that were handed out. A job has the number of its acceptance. -/
structure WeightedFairQueue (τ : Type) where
  queues : PriorityClass → PriorityQueue
  weights : PriorityClass → ℚ
  maxSize : ℕ
  deficits : PriorityClass → ℚ
  paused : PriorityClass → Bool
  jobs : List (PriorityClass × QueueJob τ)
  calls : List (Call τ)
  handed : PriorityClass → List ℕ

namespace WeightedFairQueue

variable (s : WeightedFairQueue τ)

def getDepths (p : PriorityClass) : ℕ := (s.queues p).pending.length

def setQueue (p : PriorityClass) (queue : PriorityQueue) : WeightedFairQueue τ :=
  { s with queues := Function.update s.queues p queue }

def suspend (call : Call τ) : WeightedFairQueue τ := { s with calls := s.calls ++ [call] }

def finish (call : ℕ) : WeightedFairQueue τ := { s with calls := s.calls.eraseIdx call }

def proceed (call : ℕ) (next : Call τ) : WeightedFairQueue τ := { s with calls := s.calls.set call next }

def resolveBackpressure (depths : PriorityClass → ℕ) (maxSize : ℕ) (currentlyPaused : PriorityClass → Bool) :
    Option PriorityClass :=
  if PRIORITY_ORDER.all fun p => currentlyPaused p || maxSize ≤ depths p then
    PRIORITY_ORDER.reverse.dropLast.find? fun p => !currentlyPaused p
  else none

def enqueue (request : Request τ) : WeightedFairQueue τ :=
  match resolveBackpressure s.getDepths s.maxSize s.paused with
  | some p => (s.setQueue p { s.queues p with paused := true }).suspend (.pausing p request)
  | none => s.suspend (.checked request)

def add (call : ℕ) (request : Request τ) (now : ℤ) : WeightedFairQueue τ :=
  if s.paused request.priority || (s.queues request.priority).paused then s.finish call
  else if (s.queues request.priority).maxSize ≤ s.getDepths request.priority then s.finish call
  else s.proceed call (.persisting request now)

def newJob (request : Request τ) (enqueuedAt : ℤ) (id : Option String) : QueueJob τ :=
  let bullJobId := id.or request.opts.jobId
  { id := bullJobId.getD (request.name ++ "_" ++ toString enqueuedAt)
    name := request.name
    data := request.data
    priority := request.opts.parentPriority.getD request.priority
    enqueuedAt
    bullJobId }

def push (call : ℕ) (request : Request τ) (enqueuedAt : ℤ) (id : Option String) : WeightedFairQueue τ :=
  let queue := s.queues request.priority
  { s.setQueue request.priority { queue with pending := queue.pending ++ [s.jobs.length] } with
    jobs := s.jobs ++ [(request.priority, newJob request enqueuedAt id)]
    calls := s.calls.eraseIdx call }

def persisted (job : ℕ) : Bool := s.jobs[job]?.any fun j => j.2.bullJobId.any (· ≠ "")

def dequeue (p : PriorityClass) (handlers : Option (String → Bool)) : WeightedFairQueue τ :=
  if (s.queues p).paused then s
  else
    match (s.queues p).pending with
    | [] => s
    | job :: rest =>
      (s.setQueue p { s.queues p with pending := rest }).suspend
        (if s.persisted job then .removing p job handlers else .dequeued p job handlers)

def effectiveWeights : PriorityClass → ℚ := computeEffectiveWeights s.weights s.getDepths s.paused

def selection : Option PriorityClass × (PriorityClass → ℚ) :=
  selectNextPriority s.getDepths s.effectiveWeights s.paused s.deficits

def scheduleNext (handlers : Option (String → Bool)) : WeightedFairQueue τ :=
  match s.selection with
  | (none, deficits) => { s with deficits }
  | (some p, deficits) => { s with deficits }.dequeue p handlers

def hasHandler (job : ℕ) (handlers : Option (String → Bool)) : Bool :=
  handlers.all fun registered => s.jobs[job]?.any fun j => registered j.2.name

def hand (call : ℕ) (p : PriorityClass) (job : ℕ) (handlers : Option (String → Bool)) : WeightedFairQueue τ :=
  if s.hasHandler job handlers then
    let handed := Function.update s.handed p (s.handed p ++ [job])
    if handlers.isSome then { s.proceed call (.handling p job) with handed } else { s.finish call with handed }
  else s.finish call

def settle (call : ℕ) (outcome : Outcome) (now : ℤ) : Option (WeightedFairQueue τ) :=
  match s.calls[call]?, outcome with
  | none, _ => none
  | some (.pausing p request), .done _ =>
    some { s.proceed call (.checked request) with paused := Function.update s.paused p true }
  | some (.pausing _ _), .failed => some (s.finish call)
  | some (.checked request), _ => some (s.add call request now)
  | some (.persisting request enqueuedAt), .done id => some (s.push call request enqueuedAt id)
  | some (.persisting _ _), .failed => some (s.finish call)
  | some (.removing p job handlers), .done _ => some (s.proceed call (.dequeued p job handlers))
  | some (.removing ..), .failed => some (s.finish call)
  | some (.dequeued p job handlers), _ => some (s.hand call p job handlers)
  | some (.handling _ _), _ => some (s.finish call)

def step : Action τ → Option (WeightedFairQueue τ)
  | .enqueue request => some (s.enqueue request)
  | .scheduleNext handlers => some (s.scheduleNext handlers)
  | .dequeue p => some (s.dequeue p none)
  | .pause p => some (s.setQueue p { s.queues p with paused := true })
  | .resume p => some (s.setQueue p { s.queues p with paused := false })
  | .clearPaused => some { s with paused := fun _ => false }
  | .settle call outcome now => s.settle call outcome now

def new (weights : PriorityClass → ℚ) (maxSize : ℕ) (maxSizes : PriorityClass → ℕ) : WeightedFairQueue τ where
  queues p := ⟨[], false, maxSizes p⟩
  weights := weights
  maxSize := maxSize
  deficits := 0
  paused _ := false
  jobs := []
  calls := []
  handed _ := []

end WeightedFairQueue

end SubTrackr.FairQueue

namespace SubTrackr.FairQueue

open List Lib

variable {τ : Type}

structure Selection where
  active : PriorityClass → Bool
  weights : PriorityClass → ℚ
  best : PriorityClass

def Selection.round (c : Selection) : (PriorityClass → ℚ) × PriorityClass := (c.weights, c.best)

namespace WeightedFairQueue

variable {s s' : WeightedFairQueue τ}

def selected (s : WeightedFairQueue τ) : Action τ → Option Selection
  | .scheduleNext _ => s.selection.1.map fun best => ⟨isActive s.getDepths s.paused, s.effectiveWeights, best⟩
  | _ => none

inductive History : WeightedFairQueue τ → List Selection → WeightedFairQueue τ → Prop
  | nil (s : WeightedFairQueue τ) : History s [] s
  | quiet {s next s' : WeightedFairQueue τ} {action : Action τ} {rest : List Selection} :
    s.step action = some next → s.selected action = none → History next rest s' → History s rest s'
  | select {s next s' : WeightedFairQueue τ} {action : Action τ} {selection : Selection} {rest : List Selection} :
    s.step action = some next → s.selected action = some selection → History next rest s' →
    History s (selection :: rest) s'

@[simp] theorem dequeue_deficits (p : PriorityClass) (handlers : Option (String → Bool)) :
    (s.dequeue p handlers).deficits = s.deficits := by
  unfold dequeue
  split
  · rfl
  · split <;> rfl

@[simp] theorem dequeue_weights (p : PriorityClass) (handlers : Option (String → Bool)) :
    (s.dequeue p handlers).weights = s.weights := by
  unfold dequeue
  split
  · rfl
  · split <;> rfl

theorem scheduleNext_deficits (handlers : Option (String → Bool)) : (s.scheduleNext handlers).deficits = s.selection.2 := by
  unfold scheduleNext
  rcases s.selection with ⟨_ | p, deficits⟩
  · rfl
  · exact dequeue_deficits p handlers

theorem scheduleNext_weights (handlers : Option (String → Bool)) : (s.scheduleNext handlers).weights = s.weights := by
  unfold scheduleNext
  rcases s.selection with ⟨_ | p, deficits⟩
  · rfl
  · exact dequeue_weights p handlers

theorem settle_accounts {call : ℕ} {outcome : Outcome} {now : ℤ} (stepped : s.settle call outcome now = some s') :
    s'.deficits = s.deficits ∧ s'.weights = s.weights := by
  unfold settle at stepped
  split at stepped <;> cases stepped
  · exact ⟨rfl, rfl⟩
  · exact ⟨rfl, rfl⟩
  · unfold add
    split
    · exact ⟨rfl, rfl⟩
    · split <;> exact ⟨rfl, rfl⟩
  · exact ⟨rfl, rfl⟩
  · exact ⟨rfl, rfl⟩
  · exact ⟨rfl, rfl⟩
  · exact ⟨rfl, rfl⟩
  · unfold hand
    split
    · dsimp only
      split <;> exact ⟨rfl, rfl⟩
    · exact ⟨rfl, rfl⟩
  · exact ⟨rfl, rfl⟩

theorem step_accounts {action : Action τ} (stepped : s.step action = some s') :
    s'.weights = s.weights ∧ (s'.deficits = s.deficits ∨ ∃ handlers, action = .scheduleNext handlers ∧
      s'.deficits = s.selection.2) := by
  cases action with
  | enqueue request =>
    cases stepped
    unfold enqueue
    split <;> exact ⟨rfl, .inl rfl⟩
  | scheduleNext handlers =>
    cases stepped
    exact ⟨scheduleNext_weights handlers, .inr ⟨handlers, rfl, scheduleNext_deficits handlers⟩⟩
  | dequeue p =>
    cases stepped
    exact ⟨dequeue_weights p none, .inl (dequeue_deficits p none)⟩
  | pause | resume | clearPaused =>
    cases stepped
    exact ⟨rfl, .inl rfl⟩
  | settle call outcome now =>
    obtain ⟨deficits, weights⟩ := settle_accounts stepped
    exact ⟨weights, .inl deficits⟩

theorem effectiveWeights_spec (pos : ∀ p, 0 < s.weights p) {p : PriorityClass}
    (active : isActive s.getDepths s.paused p = true) :
    ∑ q, s.effectiveWeights q = ∑ q, s.weights q ∧
      (∀ q, isActive s.getDepths s.paused q = false → s.effectiveWeights q = 0) ∧
      ∀ q, isActive s.getDepths s.paused q = true → guaranteed s.weights q ≤ s.effectiveWeights q :=
  computeEffectiveWeights_spec pos active

theorem selection_cases (pos : ∀ p, 0 < s.weights p) : s.selection = (none, s.deficits) ∨
    ∃ best after, s.selection = (some best, after) ∧
      Round (∑ p, s.weights p) s.effectiveWeights best s.deficits after ∧
      ∀ p, isActive s.getDepths s.paused p = true → guaranteed s.weights p ≤ s.effectiveWeights p := by
  by_cases none : ∀ p, isActive s.getDepths s.paused p = false
  · exact .inl (selectNextPriority_none none)
  · right
    push Not at none
    obtain ⟨p, working⟩ := none
    have active := Bool.ne_false_iff.mp working
    obtain ⟨sum, idle, enough⟩ := effectiveWeights_spec pos active
    have nonneg (q : PriorityClass) : 0 ≤ s.effectiveWeights q := by
      cases working : isActive s.getDepths s.paused q with
      | false => rw [idle q working]
      | true => exact (guaranteed_pos pos q).le.trans (enough q working)
    have some : 0 < ∑ q, s.effectiveWeights q := by
      rw [sum]
      exact Finset.sum_pos (fun q _ => pos q) ⟨p, Finset.mem_univ p⟩
    obtain ⟨best, after, selected, round⟩ := selectNextPriority_round nonneg idle some active
    rw [sum] at round
    exact ⟨best, after, selected, round, enough⟩

structure Shares (weights : PriorityClass → ℚ) (c : Selection) : Prop where
  sum : ∑ p, c.weights p = ∑ p, weights p
  enough (p : PriorityClass) : c.active p = true → guaranteed weights p ≤ c.weights p
  computed : ∃ depths paused, c.active = isActive depths paused ∧ c.weights = computeEffectiveWeights weights depths paused

theorem Shares.congr {weights : PriorityClass → ℚ} {c d : Selection} (first : Shares weights c) (second : Shares weights d)
    (same : c.active = d.active) : c.weights = d.weights := by
  obtain ⟨_, _, active, computed⟩ := first.computed
  obtain ⟨_, _, active', computed'⟩ := second.computed
  rw [computed, computed', computeEffectiveWeights_congr (active.symm.trans (same.trans active'))]

theorem History.rounds {selections : List Selection} (history : History s selections s') (pos : ∀ p, 0 < s.weights p) :
    s'.weights = s.weights ∧ (∀ c ∈ selections, Shares s.weights c) ∧
      Rounds (∑ p, s.weights p) s.deficits (selections.map Selection.round) s'.deficits := by
  induction history with
  | nil s => exact ⟨rfl, nofun, .nil _⟩
  | @quiet s next s' action rest stepped quiet _ ih =>
    obtain ⟨weights, deficits⟩ := step_accounts stepped
    have same : next.deficits = s.deficits := by
      rcases deficits with same | ⟨handlers, rfl, selection⟩
      · exact same
      · rcases selection_cases pos with none | ⟨best, after, some, -⟩
        · rw [selection, none]
        · rw [selected, some] at quiet
          cases quiet
    rw [weights, same] at ih
    exact ih pos
  | @select s next s' action c rest stepped chosen _ ih =>
    obtain ⟨weights, deficits⟩ := step_accounts stepped
    cases action with
    | scheduleNext handlers =>
      rcases selection_cases pos with none | ⟨best, after, some, round, enough⟩
      · rw [selected, none] at chosen
        cases chosen
      · rw [selected, some] at chosen
        cases chosen
        have moved : next.deficits = after := by
          cases stepped
          rw [scheduleNext_deficits, some]
        rw [weights, moved] at ih
        obtain ⟨weights', others, rounds⟩ := ih pos
        refine ⟨weights', ?_, .cons round rounds⟩
        exact forall_mem_cons.mpr ⟨⟨round.sum, enough, _, _, rfl, rfl⟩, others⟩
    | _ => cases chosen

end WeightedFairQueue

open WeightedFairQueue

def patience (weights : PriorityClass → ℚ) (p : PriorityClass) : ℕ := ⌊3 * (∑ q, weights q) / guaranteed weights p⌋₊ + 1

section Sample

def DEFAULT_PRIORITY_WEIGHTS : PriorityClass → ℚ
  | .critical => 50
  | .high => 25
  | .normal => 15
  | .low => 10

def report : Request Unit := ⟨.low, "report", (), ⟨none, none⟩⟩

def fresh : WeightedFairQueue Unit := new DEFAULT_PRIORITY_WEIGHTS 10 fun _ => 10

def accepted : WeightedFairQueue Unit :=
  ((fresh.enqueue report).add 0 report 5).push 0 report 5 none

end Sample

end SubTrackr.FairQueue
