import Mathlib.Algebra.GroupWithZero.Nat
import Mathlib.Data.Finset.Card
import Mathlib.Data.List.Sort
import Mathlib.Data.Rat.Defs

namespace SubTrackr.JobQueue

inductive JobPriority
  | critical
  | high
  | medium
  | low
  deriving DecidableEq

inductive JobStatus
  | pending
  | processing
  | completed
  | failed
  | retrying
  deriving DecidableEq

structure Job (π : Type) where
  (id type : String)
  payload : π
  priority : JobPriority
  status : JobStatus
  attempts : ℕ
  (maxAttempts createdAt : ℤ)
  (startedAt completedAt : Option ℤ)
  error : Option String
  nextRetryAt : Option ℤ

structure QueueConfig where
  maxConcurrent : ℕ
  (maxRetries retryDelayMs : ℤ)

structure QueueMetrics where
  (totalProcessed totalFailed : ℕ)
  avgProcessingTimeMs : ℚ
  currentlyProcessing : ℕ

def PRIORITY_WEIGHTS : JobPriority → ℕ
  | .critical => 100
  | .high => 75
  | .medium => 50
  | .low => 25

def sortedPriorities : List JobPriority :=
  [.critical, .high, .medium, .low].insertionSort fun a b => PRIORITY_WEIGHTS b ≤ PRIORITY_WEIGHTS a

theorem sortedPriorities_eq : sortedPriorities = [.critical, .high, .medium, .low] := by decide

variable {π : Type}

/-- The queue, with every job that was enqueued (a job has the number of its arrival), the jobs whose handlers run, in the
    order they started, and the jobs of all handler calls so far. -/
structure PriorityQueue (π : Type) where
  config : QueueConfig
  jobs : List (Job π)
  queues : JobPriority → List ℕ
  handlers : List String
  processing : Finset String
  metrics : QueueMetrics
  (calls attempted : List ℕ)

inductive Action (π : Type)
  | registerHandler (type : String)
  | enqueue (type : String) (payload : π) (priority : JobPriority) (random : String) (now : ℤ)
  | processNext (now : ℤ)
  | settle (call : ℕ) (error : Option String) (now : ℤ)

namespace PriorityQueue

variable (s : PriorityQueue π)

def new (config : QueueConfig) : PriorityQueue π where
  config := config
  jobs := []
  queues _ := []
  handlers := []
  processing := ∅
  metrics := ⟨0, 0, 0, 0⟩
  calls := []
  attempted := []

def push (priority : JobPriority) (job : ℕ) : PriorityQueue π :=
  { s with queues := Function.update s.queues priority (s.queues priority ++ [job]) }

def modify (job : ℕ) (f : Job π → Job π) : PriorityQueue π := { s with jobs := s.jobs.modify job f }

def enqueue (type : String) (payload : π) (priority : JobPriority) (random : String) (now : ℤ) : PriorityQueue π :=
  let job : Job π :=
    { id := type ++ "-" ++ toString now ++ "-" ++ random
      type
      payload
      priority
      status := .pending
      attempts := 0
      maxAttempts := s.config.maxRetries
      createdAt := now
      startedAt := none
      completedAt := none
      error := none
      nextRetryAt := none }
  { s.push priority s.jobs.length with jobs := s.jobs ++ [job] }

def dequeue : Option (ℕ × PriorityQueue π) :=
  sortedPriorities.findSome? fun priority =>
    match s.queues priority with
    | [] => none
    | job :: rest => some (job, { s with queues := Function.update s.queues priority rest })

def countFailed : PriorityQueue π := { s with metrics.totalFailed := s.metrics.totalFailed + 1 }

def noHandler (j : Job π) : Job π :=
  { j with status := .failed, error := some ("No handler registered for job type: " ++ j.type) }

def begin (now : ℤ) (j : Job π) : Job π :=
  { j with status := .processing, startedAt := some now, attempts := j.attempts + 1 }

def retry (error : String) (nextRetryAt : ℤ) (j : Job π) : Job π :=
  { j with error := some error, status := .retrying, nextRetryAt := some nextRetryAt }

def start (job : ℕ) (j : Job π) (now : ℤ) : PriorityQueue π :=
  let processing := insert j.id s.processing
  { s.modify job (begin now) with
    processing
    metrics.currentlyProcessing := processing.card
    calls := s.calls ++ [job]
    attempted := s.attempted ++ [job] }

def processNext (now : ℤ) : PriorityQueue π :=
  if s.config.maxConcurrent ≤ s.processing.card then s
  else
    match s.dequeue with
    | none => s
    | some (job, s) =>
      match s.jobs[job]? with
      | none => s
      | some j => if j.type ∈ s.handlers then s.start job j now else (s.modify job noHandler).countFailed

def complete (job : ℕ) (j : Job π) (now : ℤ) : PriorityQueue π :=
  let totalProcessed := s.metrics.totalProcessed + 1
  let duration := now - j.startedAt.getD now
  { s.modify job fun j => { j with status := .completed, completedAt := some now } with
    metrics.totalProcessed := totalProcessed
    metrics.avgProcessingTimeMs := (s.metrics.avgProcessingTimeMs * (totalProcessed - 1) + duration) / totalProcessed }

def fail (job : ℕ) (j : Job π) (error : String) (now : ℤ) : PriorityQueue π :=
  if j.attempts < j.maxAttempts then
    (s.modify job (retry error (now + s.config.retryDelayMs * j.attempts))).push j.priority job
  else (s.modify job fun j => { j with error := some error, status := .failed }).countFailed

def release (call : ℕ) (j : Job π) : PriorityQueue π :=
  let processing := s.processing.erase j.id
  { s with processing, metrics.currentlyProcessing := processing.card, calls := s.calls.eraseIdx call }

def settle (call : ℕ) (error : Option String) (now : ℤ) : Option (PriorityQueue π) := do
  let job ← s.calls[call]?
  let j ← s.jobs[job]?
  match error with
  | none => some ((s.complete job j now).release call j)
  | some error => some ((s.fail job j error now).release call j)

def step : Action π → Option (PriorityQueue π)
  | .registerHandler type => some { s with handlers := type :: s.handlers }
  | .enqueue type payload priority random now => some (s.enqueue type payload priority random now)
  | .processNext now => some (s.processNext now)
  | .settle call error now => s.settle call error now

def getPendingCount : ℕ := ([.critical, .high, .medium, .low].map fun priority => (s.queues priority).length).sum

end PriorityQueue

end SubTrackr.JobQueue
