import Mathlib.Data.Rat.Floor
import SubTrackr.Lib.Rounding

namespace SubTrackr.RevenueJob

open Lib

structure RevenueScheduleEntry where
  (periodStart periodEnd : ℤ)
  recognisedAmount : ℚ
  isRecognised : Bool
  deriving DecidableEq

structure RevenueSchedule where
  (subscriptionId merchantId : String)
  totalAmount : ℚ
  entries : List RevenueScheduleEntry
  deriving DecidableEq

inductive RecognitionType where
  | scheduled | accelerated | partialPeriod
  deriving DecidableEq

structure RecognitionJournalEntry where
  (subscriptionId merchantId : String)
  (periodStart periodEnd : ℤ)
  (recognisedAmount deferredBefore deferredAfter : ℚ)
  createdAt : ℤ
  type : RecognitionType

structure RecognitionJobMetrics where
  schedulesProcessed : ℕ := 0
  entriesRecognised : ℕ := 0
  totalAmountRecognised : ℚ := 0
  errorCount : ℕ := 0

def RecognitionJobMetrics.failed (metrics : RecognitionJobMetrics) : RecognitionJobMetrics :=
  { metrics with errorCount := metrics.errorCount + 1 }

def computeEntryRecognition (entry : RevenueScheduleEntry) (now : ℤ) : ℚ × Option RecognitionType :=
  if entry.isRecognised then (0, none)
  else if entry.recognisedAmount = 0 then (0, none)
  else if now < entry.periodStart then (0, none)
  else if entry.periodEnd ≤ now then (entry.recognisedAmount, some .scheduled)
  else
    let elapsed := now - entry.periodStart
    let duration := entry.periodEnd - entry.periodStart
    (Rounding.halfUp 100 (entry.recognisedAmount * elapsed / duration), some .partialPeriod)

/-- A journal entry, with the number of the schedule and that of the entry in it that it was written for. -/
structure Row where
  place : ℕ × ℕ
  entry : RecognitionJournalEntry

structure Repository where
  schedules : List RevenueSchedule
  journal : List Row
  (recognised deferred : String → ℚ)

/-- The repository calls of a run that fail, by the numbers of the schedules and of their entries. -/
structure Failures where
  getPendingSchedules : Bool
  writeJournalEntry : ℕ → ℕ → Bool
  (updateMerchantBalances markEntriesRecognised : ℕ → Bool)

namespace Repository

def new (schedules : List RevenueSchedule) : Repository := ⟨schedules, [], fun _ => 0, fun _ => 0⟩

def getPendingSchedules (repo : Repository) : List (RevenueSchedule × ℕ) :=
  repo.schedules.zipIdx.filter fun s => s.1.entries.any (!·.isRecognised)

def updateMerchantBalances (repo : Repository) (merchantId : String) (recognisedDelta deferredDelta : ℚ) : Repository :=
  { repo with
    recognised := Function.update repo.recognised merchantId (repo.recognised merchantId + recognisedDelta)
    deferred := Function.update repo.deferred merchantId (repo.deferred merchantId + deferredDelta) }

def markEntry (entryPeriodStarts : List ℤ) (entry : RevenueScheduleEntry) : RevenueScheduleEntry :=
  if entry.periodStart ∈ entryPeriodStarts then { entry with isRecognised := true } else entry

def markEntriesRecognised (repo : Repository) (subscriptionId : String) (entryPeriodStarts : List ℤ) : Repository :=
  { repo with
    schedules := repo.schedules.map fun s =>
      if s.subscriptionId = subscriptionId then { s with entries := s.entries.map (markEntry entryPeriodStarts) } else s }

end Repository

structure Pass where
  rows : List Row
  recognisedPeriodStarts : List ℤ
  totalRecognisedForSchedule : ℚ
  metrics : RecognitionJobMetrics

section Run

variable (now : ℤ) (fails : Failures)

def entryRound (i : ℕ) (schedule : RevenueSchedule) (pass : Pass) (e : RevenueScheduleEntry × ℕ) : Pass :=
  match computeEntryRecognition e.1 now with
  | (_, none) => pass
  | (amount, some type) =>
    if amount ≤ 0 then pass
    else if fails.writeJournalEntry i e.2 then { pass with metrics := pass.metrics.failed }
    else
      let deferredBefore := schedule.totalAmount - pass.totalRecognisedForSchedule
      { rows := pass.rows ++ [⟨(i, e.2),
          { subscriptionId := schedule.subscriptionId
            merchantId := schedule.merchantId
            periodStart := e.1.periodStart
            periodEnd := e.1.periodEnd
            recognisedAmount := amount
            deferredBefore := deferredBefore
            deferredAfter := deferredBefore - amount
            createdAt := now
            type := type }⟩]
        recognisedPeriodStarts :=
          if type = .scheduled ∨ type = .accelerated then pass.recognisedPeriodStarts ++ [e.1.periodStart]
          else pass.recognisedPeriodStarts
        totalRecognisedForSchedule := pass.totalRecognisedForSchedule + amount
        metrics := { pass.metrics with
          entriesRecognised := pass.metrics.entriesRecognised + 1
          totalAmountRecognised := pass.metrics.totalAmountRecognised + amount } }

def passOf (metrics : RecognitionJobMetrics) (s : RevenueSchedule × ℕ) : Pass :=
  s.1.entries.zipIdx.foldl (entryRound now fails s.2 s.1) ⟨[], [], 0, metrics⟩

def scheduleRound (acc : RecognitionJobMetrics × Repository) (s : RevenueSchedule × ℕ) : RecognitionJobMetrics × Repository :=
  let pass := passOf now fails { acc.1 with schedulesProcessed := acc.1.schedulesProcessed + 1 } s
  let total := pass.totalRecognisedForSchedule
  let written := { acc.2 with journal := acc.2.journal ++ pass.rows }
  if 0 < total then
    if fails.updateMerchantBalances s.2 then (pass.metrics.failed, written)
    else
      let updated := written.updateMerchantBalances s.1.merchantId total (-total)
      if 0 < pass.recognisedPeriodStarts.length then
        if fails.markEntriesRecognised s.2 then (pass.metrics.failed, updated)
        else (pass.metrics, updated.markEntriesRecognised s.1.subscriptionId pass.recognisedPeriodStarts)
      else (pass.metrics, updated)
  else (pass.metrics, written)

def run (repo : Repository) : RecognitionJobMetrics × Repository :=
  if fails.getPendingSchedules then ({ errorCount := 1 }, repo)
  else repo.getPendingSchedules.foldl (scheduleRound now fails) ({}, repo)

end Run

end SubTrackr.RevenueJob
