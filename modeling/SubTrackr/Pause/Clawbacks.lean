import SubTrackr.Lib.First
import SubTrackr.Lib.Rounding
import Mathlib.Data.Rat.Floor
import SubTrackr.Lib.Runs

namespace SubTrackr.Pause

open List Lib

def MS_PER_DAY : ℚ := 1000 * 60 * 60 * 24

inductive BillingAdjustmentType
  | pause_credit
  | early_resume_clawback
  | resume_restart
  deriving DecidableEq

structure BillingAdjustment where
  (id subscriptionId : String)
  type : BillingAdjustmentType
  amount : ℚ
  currency : String
  (periodDays pauseDays : ℚ)
  createdAt : ℤ
  appliedAt : Option ℤ := none
  nextBillingDate : Option ℤ := none
  deriving DecidableEq

inductive PauseStatus
  | active
  | resumed
  deriving DecidableEq

structure PauseBillingRecord where
  (id subscriptionId : String)
  pauseDays : ℚ
  reason : Option String
  (pausedAt scheduledResumeAt : ℤ)
  resumedAt : Option ℤ := none
  earlyResume : Option Bool := none
  (creditAmount creditRemaining : ℚ)
  currency : String
  status : PauseStatus

structure AdjustmentPreview where
  (creditAmount periodDays pauseDays dailyRate : ℚ)
  currency : Option String

structure PauseBillingService where
  adjustments : List BillingAdjustment
  records : List PauseBillingRecord

def roundMoney (value : ℚ) : ℚ := Rounding.halfUp 100 value

def dateOf (ms : ℚ) : ℤ := if 0 ≤ ms then ⌊ms⌋ else ⌈ms⌉

structure PauseParams where
  subscriptionId : String
  (price billingCycleDays pauseDays : ℚ)
  currency : String
  reason : Option String := none
  applyImmediately : Option Bool := none

structure RestartParams where
  subscriptionId : String
  pauseDays : ℚ
  currentNextBillingDate : ℤ
  currency : String
  billingCycleDays : ℚ
  amount : Option ℚ := none
  early : Option Bool := none

structure Drawn where
  (id recordId : String)
  now : ℤ

def previewAdjustment (price billingCycleDays pauseDays : ℚ) (currency : Option String) : AdjustmentPreview :=
  let periodDays := max 1 billingCycleDays
  let days := max 0 pauseDays
  { creditAmount := roundMoney (days / periodDays * price)
    periodDays
    pauseDays := days
    dailyRate := roundMoney (price / periodDays)
    currency }

def PauseBillingRecord.activeFor (subscriptionId : String) (record : PauseBillingRecord) : Bool :=
  record.subscriptionId = subscriptionId && record.status = .active

namespace PauseBillingService

def new : PauseBillingService := ⟨[], []⟩

def getActivePause (service : PauseBillingService) (subscriptionId : String) : Option PauseBillingRecord :=
  service.records.find? (·.activeFor subscriptionId)

def createPauseAdjustment (service : PauseBillingService) (params : PauseParams) (drawn : Drawn) :
    PauseBillingService × BillingAdjustment :=
  let preview := previewAdjustment params.price params.billingCycleDays params.pauseDays (some params.currency)
  let adjustment : BillingAdjustment :=
    { id := drawn.id
      subscriptionId := params.subscriptionId
      type := .pause_credit
      amount := preview.creditAmount
      currency := params.currency
      periodDays := preview.periodDays
      pauseDays := preview.pauseDays
      createdAt := drawn.now
      appliedAt := if params.applyImmediately = some false then none else some drawn.now }
  let record : PauseBillingRecord :=
    { id := drawn.recordId
      subscriptionId := params.subscriptionId
      pauseDays := preview.pauseDays
      reason := params.reason
      pausedAt := drawn.now
      scheduledResumeAt := dateOf (drawn.now + preview.pauseDays * MS_PER_DAY)
      creditAmount := preview.creditAmount
      creditRemaining := preview.creditAmount
      currency := params.currency
      status := .active }
  (⟨service.adjustments ++ [adjustment], service.records ++ [record]⟩, adjustment)

def createEarlyResumeAdjustment (service : PauseBillingService) (originalAdjustment : BillingAdjustment) (daysUsed : ℚ)
    (drawn : Drawn) : PauseBillingService × BillingAdjustment :=
  let pauseDays := max 1 originalAdjustment.pauseDays
  let used := min (max 0 daysUsed) pauseDays
  let daysRemaining := pauseDays - used
  let remainingCredit := roundMoney (daysRemaining / pauseDays * originalAdjustment.amount)
  let clawback : BillingAdjustment :=
    { id := drawn.id
      subscriptionId := originalAdjustment.subscriptionId
      type := .early_resume_clawback
      amount := remainingCredit
      currency := originalAdjustment.currency
      periodDays := originalAdjustment.periodDays
      pauseDays := daysRemaining
      createdAt := drawn.now
      appliedAt := some drawn.now }
  let resume (record : PauseBillingRecord) : PauseBillingRecord :=
    { record with
      creditRemaining := remainingCredit
      resumedAt := some drawn.now
      earlyResume := some true
      status := .resumed
      pauseDays := used }
  (⟨service.adjustments ++ [clawback], modifyFirst (·.activeFor originalAdjustment.subscriptionId) resume service.records⟩,
    clawback)

def createResumeRestart (service : PauseBillingService) (params : RestartParams) (drawn : Drawn) :
    PauseBillingService × BillingAdjustment :=
  let shiftDays := max 0 params.pauseDays
  let adjustment : BillingAdjustment :=
    { id := drawn.id
      subscriptionId := params.subscriptionId
      type := .resume_restart
      amount := params.amount.getD 0
      currency := params.currency
      periodDays := max 1 params.billingCycleDays
      pauseDays := shiftDays
      createdAt := drawn.now
      appliedAt := some drawn.now
      nextBillingDate := some (dateOf (params.currentNextBillingDate + shiftDays * MS_PER_DAY)) }
  let resume (record : PauseBillingRecord) : PauseBillingRecord :=
    { record with
      resumedAt := some drawn.now
      earlyResume := some (params.early.getD false)
      status := .resumed
      creditRemaining := if params.early.getD false then record.creditRemaining else 0 }
  (⟨service.adjustments ++ [adjustment], modifyFirst (·.activeFor params.subscriptionId) resume service.records⟩, adjustment)

end PauseBillingService

/-- The service, and the early resumes so far: the credit each was called with, and the clawback it returned. -/
structure History where
  service : PauseBillingService
  clawbacks : List (BillingAdjustment × BillingAdjustment)

inductive Call
  | createPauseAdjustment (params : PauseParams) (drawn : Drawn)
  | createEarlyResumeAdjustment (originalAdjustment : BillingAdjustment) (daysUsed : ℚ) (drawn : Drawn)
  | createResumeRestart (params : RestartParams) (drawn : Drawn)

namespace History

def new : History := ⟨.new, []⟩

def perform (h : History) : Call → History
  | .createPauseAdjustment params drawn => { h with service := (h.service.createPauseAdjustment params drawn).1 }
  | .createEarlyResumeAdjustment originalAdjustment daysUsed drawn =>
    let (service, clawback) := h.service.createEarlyResumeAdjustment originalAdjustment daysUsed drawn
    ⟨service, (originalAdjustment, clawback) :: h.clawbacks⟩
  | .createResumeRestart params drawn => { h with service := (h.service.createResumeRestart params drawn).1 }

def clawedBack (h : History) (id : String) : ℚ := ((h.clawbacks.filter fun c => c.1.id = id).map fun c => c.2.amount).sum

structure Accounted (h : History) : Prop where
  credits : ∀ a ∈ h.service.adjustments, a.type = .pause_credit → h.clawedBack a.id ≤ a.amount
  remaining : ∀ r ∈ h.service.records, 0 ≤ r.creditRemaining ∧ r.creditRemaining ≤ r.creditAmount
  active : ∀ subscriptionId, h.service.records.countP (·.activeFor subscriptionId) ≤ 1

end History

def PauseParams.share (params : PauseParams) : ℚ := max 0 params.pauseDays / max 1 params.billingCycleDays * params.price

def unusedShare (originalAdjustment : BillingAdjustment) (daysUsed : ℚ) : ℚ :=
  let pauseDays := max 1 originalAdjustment.pauseDays
  (pauseDays - min (max 0 daysUsed) pauseDays) / pauseDays * originalAdjustment.amount

def halfCent : ℚ := 1 / (2 * 100)

/-- A pause needs a subscription without an active one and a credit that is not negative, an early resume a credit of which
enough is left, and an active pause whose credit covers it. -/
def Call.Fits (h : History) : Call → Prop
  | .createPauseAdjustment params drawn =>
    h.service.getActivePause params.subscriptionId = none ∧ 0 ≤ params.share + halfCent ∧
      h.clawedBack drawn.id ≤ params.share + halfCent
  | .createEarlyResumeAdjustment originalAdjustment daysUsed _ =>
    (∀ a ∈ h.service.adjustments, a.type = .pause_credit → a.id = originalAdjustment.id →
      unusedShare originalAdjustment daysUsed < a.amount - h.clawedBack a.id + halfCent) ∧
    ∀ r, h.service.getActivePause originalAdjustment.subscriptionId = some r →
      0 ≤ unusedShare originalAdjustment daysUsed + halfCent ∧
        unusedShare originalAdjustment daysUsed < r.creditAmount + halfCent
  | .createResumeRestart _ _ => True

structure InCents (h : History) : Prop where
  credits : ∀ a ∈ h.service.adjustments, a.type = .pause_credit → Rounding.OnGrid 100 a.amount
  records : ∀ r ∈ h.service.records, Rounding.OnGrid 100 r.creditAmount
  clawbacks : ∀ c ∈ h.clawbacks, Rounding.OnGrid 100 c.2.amount

section Steps

variable {h : History} {params : PauseParams} {restart : RestartParams} {original : BillingAdjustment} {daysUsed : ℚ}
  {drawn : Drawn} {id : String}

theorem InCents.clawedBack (cents : InCents h) : Rounding.OnGrid 100 (h.clawedBack id) := by
  apply Rounding.OnGrid.sum
  intro x mem
  obtain ⟨c, chosen, rfl⟩ := mem_map.mp mem
  exact cents.clawbacks c (mem_filter.mp chosen).1

theorem new_inCents : InCents .new := by
  constructor
  · intro a mem
    cases mem
  · intro r mem
    cases mem
  · intro c mem
    cases mem

theorem new_accounted : History.new.Accounted := by
  constructor
  · intro a mem
    cases mem
  · intro r mem
    cases mem
  · intro subId
    exact Nat.zero_le 1

theorem perform_inCents (h : History) (call : Call) (cents : InCents h) : InCents (h.perform call) := by
  have resumed (p : PauseBillingRecord → Bool) (f : PauseBillingRecord → PauseBillingRecord)
      (same : ∀ r, (f r).creditAmount = r.creditAmount) :
      ∀ r ∈ modifyFirst p f h.service.records, Rounding.OnGrid 100 r.creditAmount := by
    apply (forall_mem_modifyFirst cents.records).mpr
    intro r found
    rw [same]
    exact cents.records r (mem_of_find?_eq_some found)
  cases call with
  | createPauseAdjustment params drawn =>
    constructor
    · intro a mem type
      rcases mem_append.mp mem with old | added
      · exact cents.credits a old type
      · rw [mem_singleton.mp added]
        exact Rounding.halfUp_onGrid
    · intro r mem
      rcases mem_append.mp mem with old | added
      · exact cents.records r old
      · rw [mem_singleton.mp added]
        exact Rounding.halfUp_onGrid
    · exact cents.clawbacks
  | createEarlyResumeAdjustment original daysUsed drawn =>
    constructor
    · intro a mem type
      rcases mem_append.mp mem with old | added
      · exact cents.credits a old type
      · rw [mem_singleton.mp added] at type
        cases type
    · exact resumed _ _ fun _ => rfl
    · intro c mem
      rcases mem_cons.mp mem with rfl | old
      · exact Rounding.halfUp_onGrid
      · exact cents.clawbacks c old
  | createResumeRestart restart drawn =>
    constructor
    · intro a mem type
      rcases mem_append.mp mem with old | added
      · exact cents.credits a old type
      · rw [mem_singleton.mp added] at type
        cases type
    · exact resumed _ _ fun _ => rfl
    · exact cents.clawbacks

theorem countP_append_active (records : List PauseBillingRecord) (record : PauseBillingRecord) (subId : String) :
    (records ++ [record]).countP (·.activeFor subId) =
      records.countP (·.activeFor subId) + if record.activeFor subId then 1 else 0 := by
  rw [countP_append, countP_singleton]

theorem getActivePause_eq_none : h.service.getActivePause id = none ↔ h.service.records.countP (·.activeFor id) = 0 := by
  unfold PauseBillingService.getActivePause
  rw [find?_eq_none, countP_eq_zero]

theorem pause_accounted (cents : InCents h) (accounted : h.Accounted) :
    (h.perform (.createPauseAdjustment params drawn)).Accounted ↔ (Call.createPauseAdjustment params drawn).Fits h := by
  have pos : (0 : ℚ) < 100 := by norm_num
  have credit_nonneg : 0 ≤ roundMoney params.share ↔ 0 ≤ params.share + halfCent :=
    Rounding.le_halfUp_iff pos Rounding.OnGrid.zero
  have clawed_le : h.clawedBack drawn.id ≤ roundMoney params.share ↔ h.clawedBack drawn.id ≤ params.share + halfCent :=
    Rounding.le_halfUp_iff pos cents.clawedBack
  unfold Call.Fits
  dsimp only
  rw [getActivePause_eq_none, ← credit_nonneg, ← clawed_le]
  constructor
  · intro after
    have counted := after.active params.subscriptionId
    unfold History.perform PauseBillingService.createPauseAdjustment at counted
    dsimp only at counted
    rw [countP_append_active, if_pos (by simp [PauseBillingRecord.activeFor])] at counted
    constructor
    · omega
    · constructor
      · exact (after.remaining _ (mem_append.mpr (.inr (mem_singleton.mpr rfl)))).1
      · exact after.credits _ (mem_append.mpr (.inr (mem_singleton.mpr rfl))) rfl
  · intro ⟨unpaused, nonneg, fits⟩
    constructor
    · intro a mem type
      rcases mem_append.mp mem with old | added
      · exact accounted.credits a old type
      · rw [mem_singleton.mp added]
        exact fits
    · intro r mem
      rcases mem_append.mp mem with old | added
      · exact accounted.remaining r old
      · rw [mem_singleton.mp added]
        exact ⟨nonneg, le_refl _⟩
    · intro subId
      unfold History.perform PauseBillingService.createPauseAdjustment
      dsimp only
      rw [countP_append_active]
      by_cases own : params.subscriptionId = subId
      · rw [← own, unpaused]
        split <;> omega
      · rw [if_neg (by simp [PauseBillingRecord.activeFor, own])]
        exact accounted.active subId

theorem resumed_active (accounted : h.Accounted) (p : PauseBillingRecord → Bool) (f : PauseBillingRecord → PauseBillingRecord)
    (resumed : ∀ r, (f r).status = .resumed) (subId : String) :
    (modifyFirst p f h.service.records).countP (·.activeFor subId) ≤ 1 := by
  have fewer : (modifyFirst p f h.service.records).countP (·.activeFor subId) ≤
      h.service.records.countP (·.activeFor subId) := by
    apply countP_modifyFirst_le
    intro r active
    simp [PauseBillingRecord.activeFor, resumed] at active
  exact fewer.trans (accounted.active subId)

theorem clawedBack_early (id : String) :
    (h.perform (.createEarlyResumeAdjustment original daysUsed drawn)).clawedBack id =
      if original.id = id then roundMoney (unusedShare original daysUsed) + h.clawedBack id else h.clawedBack id := by
  unfold History.clawedBack History.perform PauseBillingService.createEarlyResumeAdjustment
  dsimp only
  by_cases own : original.id = id
  · rw [filter_cons_of_pos (by simpa using own), if_pos own, map_cons, sum_cons]
    rfl
  · rw [filter_cons_of_neg (by simpa using own), if_neg own]

theorem early_accounted (cents : InCents h) (accounted : h.Accounted) :
    (h.perform (.createEarlyResumeAdjustment original daysUsed drawn)).Accounted ↔
      (Call.createEarlyResumeAdjustment original daysUsed drawn).Fits h := by
  have pos : (0 : ℚ) < 100 := by norm_num
  have share_nonneg : 0 ≤ roundMoney (unusedShare original daysUsed) ↔ 0 ≤ unusedShare original daysUsed + halfCent :=
    Rounding.le_halfUp_iff pos Rounding.OnGrid.zero
  have share_le {y : ℚ} (grid : Rounding.OnGrid 100 y) :
      roundMoney (unusedShare original daysUsed) ≤ y ↔ unusedShare original daysUsed < y + halfCent :=
    Rounding.halfUp_le_iff pos grid
  have records := @forall_mem_modifyFirst _ (·.activeFor original.subscriptionId)
    (fun r => ({ r with
      creditRemaining := roundMoney (unusedShare original daysUsed)
      resumedAt := some drawn.now
      earlyResume := some true
      status := .resumed
      pauseDays := min (max 0 daysUsed) (max 1 original.pauseDays) } : PauseBillingRecord))
    h.service.records _ accounted.remaining
  constructor
  · intro after
    constructor
    · intro a held type same
      rw [← share_le ((cents.credits a held type).sub cents.clawedBack)]
      have credited := after.credits a (mem_append.mpr (.inl held)) type
      rw [clawedBack_early, if_pos same.symm] at credited
      linarith
    · intro r found
      have ended := records.mp after.remaining r found
      rw [← share_nonneg, ← share_le (cents.records r (mem_of_find?_eq_some found))]
      exact ended
  · intro ⟨left, covered⟩
    constructor
    · intro a mem type
      rw [clawedBack_early]
      rcases mem_append.mp mem with held | added
      · split
        · rename_i same
          have enough := left a held type same.symm
          rw [← share_le ((cents.credits a held type).sub cents.clawedBack)] at enough
          linarith
        · exact accounted.credits a held type
      · rw [mem_singleton.mp added] at type
        cases type
    · apply records.mpr
      intro r found
      have ended := covered r found
      rw [← share_nonneg, ← share_le (cents.records r (mem_of_find?_eq_some found))] at ended
      exact ended
    · exact resumed_active accounted _ _ fun _ => rfl

theorem restart_accounted (accounted : h.Accounted) : (h.perform (.createResumeRestart restart drawn)).Accounted := by
  constructor
  · intro a mem type
    rcases mem_append.mp mem with held | added
    · exact accounted.credits a held type
    · rw [mem_singleton.mp added] at type
      cases type
  · apply (forall_mem_modifyFirst accounted.remaining).mpr
    intro r found
    obtain ⟨nonneg, covered⟩ := accounted.remaining r (mem_of_find?_eq_some found)
    dsimp only
    split
    · exact ⟨nonneg, covered⟩
    · exact ⟨le_refl _, nonneg.trans covered⟩
  · exact resumed_active accounted _ _ fun _ => rfl

end Steps

end SubTrackr.Pause
