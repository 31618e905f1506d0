import SubTrackr.Lib.Sums
import SubTrackr.Sla.Contract

namespace SubTrackr.Sla

open Option List Lib Soroban

section Metrics

variable {now windowStart : Nat} {s : State}

def AvailabilitySample.clipped (now windowStart : Nat) (sample : AvailabilitySample) : Nat × Nat :=
  (max sample.timestamp windowStart, min sample.finish now)

theorem round_observed {metrics after : Metrics} {sample : AvailabilitySample}
    (done : metrics.round now windowStart sample = .ok after) : after.observedSeconds =
      metrics.observedSeconds + ((sample.clipped now windowStart).2 - (sample.clipped now windowStart).1) := by
  simp only [AvailabilitySample.clipped]
  unfold Metrics.round at done
  dsimp only at done
  split at done
  · cases done
    omega
  · split at done
    · cases done
      omega
    · simp only [bind_eq_ok, u64_eq_ok] at done
      obtain ⟨_, ⟨_, rfl⟩, _, _, _, _, _, _, done⟩ := done
      cases done
      rfl

theorem rounds_observed {samples : List AvailabilitySample} {metrics after : Metrics}
    (done : samples.foldlM (Metrics.round now windowStart) metrics = .ok after) : after.observedSeconds =
      metrics.observedSeconds + ((samples.map (·.clipped now windowStart)).map fun p => p.2 - p.1).sum := by
  induction samples generalizing metrics with
  | nil =>
    cases done
    simp
  | cons sample samples ih =>
    rw [foldlM_cons, bind_eq_ok] at done
    obtain ⟨middle, first, rest⟩ := done
    rw [ih rest, round_observed first, map_cons, map_cons, sum_cons, Nat.add_assoc]

variable {config : SLAConfig} {merchantId : Address} {metrics : Metrics}

theorem calculateMetrics_observed (done : calculateMetrics now s config merchantId = .ok metrics) :
    metrics.observedSeconds = (((merchantSamples s merchantId).map
      (·.clipped now (now - config.measurementInterval))).map fun p => p.2 - p.1).sum := by
  obtain ⟨summed, rounds, done⟩ := (bind_eq_ok ..).mp done
  cases done
  rw [show summed.observedSeconds = _ from rounds_observed rounds, Nat.zero_add]

/-- The samples of the merchant do not overlap inside the measurement window. -/
def Apart (now : Nat) (s : State) (config : SLAConfig) (merchantId : Address) : Prop :=
  ((merchantSamples s merchantId).map (·.clipped now (now - config.measurementInterval))).Pairwise
    fun p q => min p.2 q.2 ≤ max p.1 q.1

instance (now : Nat) (s : State) (config : SLAConfig) (merchantId : Address) : Decidable (Apart now s config merchantId) :=
  inferInstanceAs (Decidable (List.Pairwise _ _))

theorem calculateMetrics_bounded (apart : Apart now s config merchantId)
    (done : calculateMetrics now s config merchantId = .ok metrics) :
    metrics.observedSeconds ≤ config.measurementInterval := by
  have inside : ∀ p ∈ (merchantSamples s merchantId).map (·.clipped now (now - config.measurementInterval)),
      now - config.measurementInterval ≤ p.1 ∧ p.2 ≤ now := by
    intro p mem
    obtain ⟨sample, _, rfl⟩ := mem_map.mp mem
    exact ⟨le_max_right _ _, min_le_right _ _⟩
  have := sum_lengths_le inside apart
  have := calculateMetrics_observed done
  omega

theorem calculateMetrics_zero (done : calculateMetrics 0 s config merchantId = .ok metrics) : metrics.uptimeBps = 10000 := by
  have unobserved := calculateMetrics_observed done
  obtain ⟨summed, rounds, done⟩ := (bind_eq_ok ..).mp done
  cases done
  have zero : summed.observedSeconds = 0 := by
    rw [show summed.observedSeconds = _ from unobserved]
    refine sum_eq_zero fun n mem => ?_
    obtain ⟨p, clipped, rfl⟩ := mem_map.mp mem
    obtain ⟨sample, _, rfl⟩ := mem_map.mp clipped
    simp [AvailabilitySample.clipped]
  exact if_pos zero

theorem merchantSamples_congr {t : State} (count_same : t.sampleCount merchantId = s.sampleCount merchantId)
    (samples_same : ∀ i, t.sample (merchantId, i) = s.sample (merchantId, i)) :
    merchantSamples t merchantId = merchantSamples s merchantId := by
  simp only [merchantSamples, count_same, samples_same]

theorem calculateMetrics_congr {t : State} (same : merchantSamples t merchantId = merchantSamples s merchantId) :
    calculateMetrics now t config merchantId = calculateMetrics now s config merchantId := by
  simp only [calculateMetrics, same]

end Metrics

section Breaches

variable {s : State} {merchantId : Address}

def Unresolved (s : State) (merchantId : Address) (id : Nat) : Prop :=
  ∃ breach, s.breach id = some breach ∧ breach.merchantId = merchantId ∧ breach.resolvedAt = 0

def credits (s : State) (merchantId : Address) : Int := ((merchantBreaches s merchantId).map (·.creditAmount)).sum

def share (merchantId : Address) (entry : Option SLABreach) : Int :=
  entry.elim 0 fun breach => if breach.merchantId = merchantId then breach.creditAmount else 0

theorem credits_eq_sum (s : State) (merchantId : Address) :
    credits s merchantId = ((List.range' 1 (s.breachCount.getD 0)).map fun i => share merchantId (s.breach i)).sum := by
  unfold credits merchantBreaches
  induction List.range' 1 (s.breachCount.getD 0) with
  | nil => rfl
  | cons i ids ih =>
    cases held : s.breach i with
    | none => simp [held, share, ih]
    | some breach =>
      by_cases own : breach.merchantId = merchantId
      · simp [held, share, own, ih]
      · simp [held, share, own, ih]

theorem totalCredits_eq {breaches : List SLABreach} {total before : Int}
    (done : breaches.foldlM (fun total breach => i128 (total + breach.creditAmount)) before = .ok total) :
    total = before + (breaches.map (·.creditAmount)).sum := by
  induction breaches generalizing before with
  | nil =>
    cases done
    simp
  | cons breach breaches ih =>
    rw [foldlM_cons, bind_eq_ok] at done
    obtain ⟨middle, first, rest⟩ := done
    rw [ih rest, ← ((i128_eq_ok _ _).mp first).2, map_cons, sum_cons, Int.add_assoc]

structure Books (now : Nat) (s : State) : Prop where
  numbered (id : Nat) (breach : SLABreach) : s.breach id = some breach →
    1 ≤ id ∧ id ≤ s.breachCount.getD 0 ∧ breach.id = id
  dated (id : Nat) (breach : SLABreach) : s.breach id = some breach → 0 < breach.detectedAt ∧ breach.detectedAt ≤ now
  single (merchantId : Address) (i j : Nat) : Unresolved s merchantId i → Unresolved s merchantId j → i = j
  targets (merchantId : Address) (config : SLAConfig) : s.config merchantId = some config → config.uptimeTargetBps ≤ 10000

theorem Books.listed {now : Nat} (books : Books now s) {id : Nat} {breach : SLABreach} (held : s.breach id = some breach) :
    breach ∈ merchantBreaches s breach.merchantId := by
  obtain ⟨first, last, _⟩ := books.numbered id breach held
  refine mem_filter.mpr ⟨mem_filterMap.mpr ⟨id, ?_, held⟩, by simp⟩
  exact mem_range'_1.mpr (by omega)

theorem stored_of_mem {breach : SLABreach} (listed : breach ∈ merchantBreaches s merchantId) :
    (∃ id, s.breach id = some breach) ∧ breach.merchantId = merchantId := by
  obtain ⟨listed, own⟩ := mem_filter.mp listed
  obtain ⟨id, _, stored⟩ := mem_filterMap.mp listed
  exact ⟨⟨id, stored⟩, of_decide_eq_true own⟩

theorem Books.active_some {now : Nat} (books : Books now s) {breach : SLABreach}
    (found : activeBreach s merchantId = some breach) :
    s.breach breach.id = some breach ∧ breach.merchantId = merchantId ∧ breach.resolvedAt = 0 := by
  obtain ⟨⟨id, held⟩, own⟩ := stored_of_mem (mem_reverse.mp (mem_of_find?_eq_some found))
  have open_still := find?_some found
  refine ⟨?_, own, of_decide_eq_true open_still⟩
  rw [(books.numbered id breach held).2.2, held]

theorem Books.active_none {now : Nat} (books : Books now s) (none : activeBreach s merchantId = none) (id : Nat) :
    ¬ Unresolved s merchantId id := by
  rintro ⟨breach, held, rfl, unresolved⟩
  have := find?_eq_none.mp none breach (mem_reverse.mpr (books.listed held))
  simp [unresolved] at this

structure Faithful (s : State) (merchantId : Address) (status : SLAStatus) : Prop where
  active (id : Nat) : Unresolved s merchantId id ↔ id = status.activeBreachId ∧ id ≠ 0
  credit : status.creditBalance = credits s merchantId

end Breaches

section Upsert

variable {now before : Nat} {s s' : State} {merchantId : Address} {config : SLAConfig} {status : SLAStatus}

def Settled (now : Nat) (s s' : State) (config : SLAConfig) (merchantId : Address) : Prop :=
  ∃ metrics, calculateMetrics now s config merchantId = .ok metrics ∧
    (config.uptimeTargetBps ≤ metrics.uptimeBps ↔ ∀ id, ¬ Unresolved s' merchantId id)

structure Upserted (now : Nat) (merchantId : Address) (config : SLAConfig) (s s' : State) (status : SLAStatus) : Prop where
  updated : status.lastUpdatedAt = now
  measured : ∃ metrics, calculateMetrics now s config merchantId = .ok metrics ∧
    status.observedSeconds = metrics.observedSeconds ∧ status.measurementInterval = config.measurementInterval
  frame : ∃ events, s' = { s with breachCount := s'.breachCount, breach := s'.breach, events }
  books : Books now s'
  faithful : Faithful s' merchantId status
  settled : Settled now s s' config merchantId
  others (other : Address) : other ≠ merchantId →
    credits s' other = credits s other ∧ ∀ id, Unresolved s' other id ↔ Unresolved s other id
  resolved (id : Nat) (breach : SLABreach) : s.breach id = some breach → breach.resolvedAt ≠ 0 → s'.breach id = some breach
  settled_before : Settled now s s config merchantId → s' = s
  bounded (id : Nat) (breach : SLABreach) : s'.breach id = some breach →
    s.breach id = some { breach with resolvedAt := 0 } ∨ s.breach id = some breach ∨
      breach.observedSeconds = status.observedSeconds ∧ breach.measurementInterval = status.measurementInterval

theorem unresolved_iff_of_active (books : Books before s) {breach : SLABreach}
    (held : s.breach breach.id = some breach) (own : breach.merchantId = merchantId) (open_still : breach.resolvedAt = 0)
    (id : Nat) : Unresolved s merchantId id ↔ id = breach.id ∧ id ≠ 0 := by
  have pos := (books.numbered _ _ held).1
  have unresolved : Unresolved s merchantId breach.id := ⟨breach, held, own, open_still⟩
  constructor
  · intro other
    have same := books.single merchantId id breach.id other unresolved
    exact ⟨same, by omega⟩
  · rintro ⟨rfl, _⟩
    exact unresolved

theorem Books.later (books : Books before s) (later : before ≤ now) : Books now s where
  numbered := books.numbered
  dated id breach stored := ⟨(books.dated id breach stored).1, (books.dated id breach stored).2.trans later⟩
  single := books.single
  targets := books.targets

def closed (now : Nat) (s : State) (breach : SLABreach) : State :=
  { s with breach := put s.breach breach.id { breach with resolvedAt := now } }

theorem closed_unresolved {breach : SLABreach} (pos : now ≠ 0) (other : Address) (id : Nat) : Unresolved (closed now s breach) other id ↔ Unresolved s other id ∧ id ≠ breach.id := by
  simp only [Unresolved, closed, put_eq_some]
  constructor
  · rintro ⟨found, ⟨rfl, rfl⟩ | ⟨apart, found_at⟩, own, open_still⟩
    · exact absurd open_still pos
    · exact ⟨⟨found, found_at, own, open_still⟩, apart⟩
  · rintro ⟨⟨found, found_at, own, open_still⟩, apart⟩
    exact ⟨found, .inr ⟨apart, found_at⟩, own, open_still⟩

theorem closed_credits {breach : SLABreach} (held : s.breach breach.id = some breach) (other : Address) :
    credits (closed now s breach) other = credits s other := by
  rw [credits_eq_sum, credits_eq_sum]
  congr 1
  refine map_congr_left fun i _ => ?_
  simp only [closed, put_apply]
  split
  · rename_i here
    rw [here, held]
    rfl
  · rfl

def opened (s : State) (breach : SLABreach) (event : Address × Nat × Nat × Int) : State :=
  { s with
    breachCount := some breach.id
    breach := put s.breach breach.id breach
    events := s.events ++ [event] }

theorem Books.fresh (books : Books before s) {id : Nat} (beyond : s.breachCount.getD 0 < id) : s.breach id = none := by
  cases held : s.breach id with
  | none => rfl
  | some breach =>
    have := (books.numbered id breach held).2.1
    omega

theorem opened_credits {breach : SLABreach} (next : breach.id = s.breachCount.getD 0 + 1)
    (event : Address × Nat × Nat × Int) (other : Address) : credits (opened s breach event) other =
      credits s other + if breach.merchantId = other then breach.creditAmount else 0 := by
  rw [credits_eq_sum, credits_eq_sum]
  simp only [opened, getD_some, next, range'_1_concat, map_append, map_cons, map_nil,
    sum_append, sum_singleton]
  congr 1
  · congr 1
    refine map_congr_left fun i mem => ?_
    have := (mem_range'_1.mp mem).2
    rw [put_of_ne _ _ (by omega)]
  · rw [Nat.add_comm 1, put_self]
    rfl

theorem opened_unresolved (books : Books before s) {breach : SLABreach} (next : breach.id = s.breachCount.getD 0 + 1)
    (open_still : breach.resolvedAt = 0) (event : Address × Nat × Nat × Int) (other : Address) (id : Nat) :
    Unresolved (opened s breach event) other id ↔
      Unresolved s other id ∨ id = breach.id ∧ breach.merchantId = other := by
  simp only [Unresolved, opened, put_eq_some]
  constructor
  · rintro ⟨found, ⟨rfl, rfl⟩ | ⟨apart, found_at⟩, own, unresolved⟩
    · exact .inr ⟨rfl, own⟩
    · exact .inl ⟨found, found_at, own, unresolved⟩
  · rintro (⟨found, found_at, own, unresolved⟩ | ⟨rfl, own⟩)
    · refine ⟨found, .inr ⟨?_, found_at⟩, own, unresolved⟩
      rintro rfl
      rw [books.fresh (by omega)] at found_at
      cases found_at
    · exact ⟨breach, .inl ⟨rfl, rfl⟩, own, open_still⟩

section Cases

variable {metrics : Metrics} {creditBalance : Int}

theorem upserted_same (books : Books now s) (measured : calculateMetrics now s config merchantId = .ok metrics)
    (agrees : config.uptimeTargetBps ≤ metrics.uptimeBps ↔ ∀ id, ¬ Unresolved s merchantId id)
    (total : creditBalance = credits s merchantId) : Upserted now merchantId config s s
      (statusOf now merchantId config metrics (merchantBreaches s merchantId) (activeBreach s merchantId) creditBalance) where
  updated := rfl
  measured := ⟨metrics, measured, rfl, rfl⟩
  frame := ⟨s.events, rfl⟩
  books := books
  faithful := by
    refine ⟨fun id => ?_, total⟩
    cases active : activeBreach s merchantId with
    | none =>
      have none_open := books.active_none active id
      simp [statusOf, none_open]
    | some breach =>
      obtain ⟨stored, own, open_still⟩ := books.active_some active
      exact unresolved_iff_of_active books stored own open_still id
  settled := ⟨metrics, measured, agrees⟩
  others _ _ := ⟨rfl, fun _ => Iff.rfl⟩
  resolved _ _ stored _ := stored
  settled_before _ := rfl
  bounded _ _ stored := .inr (.inl stored)

theorem upserted_closed (books : Books before s) (later : before ≤ now)
    (measured : calculateMetrics now s config merchantId = .ok metrics)
    (compliant : config.uptimeTargetBps ≤ metrics.uptimeBps) (total : creditBalance = credits s merchantId)
    {breach : SLABreach} (active : activeBreach s merchantId = some breach) :
    Upserted now merchantId config s (closed now s breach)
      { statusOf now merchantId config metrics (merchantBreaches s merchantId) (some breach) creditBalance with
        activeBreachId := 0 } := by
  obtain ⟨held, own, open_still⟩ := books.active_some active
  have dated := books.dated _ _ held
  have pos : now ≠ 0 := by omega
  have unresolved : ∀ other id, Unresolved (closed now s breach) other id ↔ Unresolved s other id ∧ id ≠ breach.id :=
    closed_unresolved pos
  have none_open : ∀ id, ¬ Unresolved (closed now s breach) merchantId id := by
    intro id still
    rw [unresolved, unresolved_iff_of_active books held own open_still] at still
    exact still.2 still.1.1
  have numbered : ∀ id found, (closed now s breach).breach id = some found → ∃ old, s.breach id = some old ∧
      found.id = old.id ∧ found.detectedAt = old.detectedAt := by
    intro id found found_at
    simp only [closed, put_eq_some] at found_at
    obtain ⟨rfl, rfl⟩ | ⟨_, found_at⟩ := found_at
    · exact ⟨breach, held, rfl, rfl⟩
    · exact ⟨found, found_at, rfl, rfl⟩
  constructor
  case updated => rfl
  case measured => exact ⟨metrics, measured, rfl, rfl⟩
  case frame => exact ⟨s.events, rfl⟩
  case books =>
    refine ⟨fun id found found_at => ?_, fun id found found_at => ?_, fun m i j first second => ?_, books.targets⟩
    · obtain ⟨old, old_at, same, _⟩ := numbered id found found_at
      rw [same]
      exact books.numbered id old old_at
    · obtain ⟨old, old_at, _, same⟩ := numbered id found found_at
      rw [same]
      exact (books.later later).dated id old old_at
    · exact books.single m i j ((unresolved m i).mp first).1 ((unresolved m j).mp second).1
  case faithful =>
    refine ⟨fun id => ?_, ?_⟩
    · simp only [none_open, false_iff]
      omega
    · rw [closed_credits held]
      exact total
  case settled => exact ⟨metrics, measured, ⟨fun _ => none_open, fun _ => compliant⟩⟩
  case others =>
    intro other apart
    refine ⟨closed_credits held other, fun id => ?_⟩
    rw [unresolved, and_iff_left_iff_imp]
    rintro ⟨found, found_at, elsewhere, _⟩ rfl
    rw [held] at found_at
    cases found_at
    exact apart (elsewhere.symm.trans own)
  case resolved =>
    intro id found found_at done
    have apart : id ≠ breach.id := by
      rintro rfl
      rw [held] at found_at
      cases found_at
      exact done open_still
    simp only [closed, put_of_ne _ _ apart, found_at]
  case settled_before =>
    rintro ⟨again, same, agrees⟩
    obtain rfl := Except.ok.inj (measured.symm.trans same)
    exact absurd ⟨breach, held, own, open_still⟩ (agrees.mp compliant breach.id)
  case bounded =>
    intro id found found_at
    simp only [closed, put_eq_some] at found_at
    obtain ⟨rfl, rfl⟩ | ⟨_, found_at⟩ := found_at
    · refine .inl (held.trans (congrArg some ?_))
      rw [← open_still]
    · exact .inr (.inl found_at)

theorem upserted_opened (books : Books now s) (pos : now ≠ 0)
    (measured : calculateMetrics now s config merchantId = .ok metrics)
    (violated : ¬ config.uptimeTargetBps ≤ metrics.uptimeBps) (none_active : activeBreach s merchantId = none)
    {breach : SLABreach} (next : breach.id = s.breachCount.getD 0 + 1) (own : breach.merchantId = merchantId)
    (open_still : breach.resolvedAt = 0) (dated : breach.detectedAt = now) (event : Address × Nat × Nat × Int)
    {status : SLAStatus} (updated : status.lastUpdatedAt = now)
    (observed : status.observedSeconds = metrics.observedSeconds ∧ status.measurementInterval = config.measurementInterval)
    (copied : breach.observedSeconds = status.observedSeconds ∧ breach.measurementInterval = status.measurementInterval)
    (active : status.activeBreachId = breach.id)
    (credit : status.creditBalance = credits s merchantId + breach.creditAmount) :
    Upserted now merchantId config s (opened s breach event) status := by
  have none_open := books.active_none none_active
  have unresolved := opened_unresolved books next open_still event
  constructor
  case updated => exact updated
  case measured => exact ⟨metrics, measured, observed⟩
  case frame => exact ⟨_, rfl⟩
  case books =>
    refine ⟨fun id found found_at => ?_, fun id found found_at => ?_, fun m i j first second => ?_, books.targets⟩
    · simp only [opened, put_eq_some, getD_some] at found_at ⊢
      obtain ⟨rfl, rfl⟩ | ⟨_, found_at⟩ := found_at
      · omega
      · have := books.numbered id found found_at
        omega
    · simp only [opened, put_eq_some] at found_at
      obtain ⟨rfl, rfl⟩ | ⟨_, found_at⟩ := found_at
      · omega
      · exact books.dated id found found_at
    · rw [unresolved, own] at first second
      obtain first | ⟨rfl, rfl⟩ := first
      · obtain second | ⟨_, rfl⟩ := second
        · exact books.single m i j first second
        · exact absurd first (none_open i)
      · obtain second | ⟨rfl, _⟩ := second
        · exact absurd second (none_open j)
        · rfl
  case faithful =>
    refine ⟨fun id => ?_, ?_⟩
    · rw [unresolved, active]
      simp only [none_open, false_or, own, and_true]
      omega
    · rw [opened_credits next, if_pos own, credit]
  case settled =>
    refine ⟨metrics, measured, ⟨fun fine => absurd fine violated, fun closed => ?_⟩⟩
    exact absurd ((unresolved merchantId _).mpr (.inr ⟨rfl, own⟩)) (closed _)
  case others =>
    intro other apart
    have elsewhere : breach.merchantId ≠ other := by
      rintro rfl
      exact apart own
    refine ⟨?_, fun id => ?_⟩
    · rw [opened_credits next, if_neg elsewhere, Int.add_zero]
    · rw [unresolved, or_iff_left]
      exact fun here => elsewhere here.2
  case resolved =>
    intro id found found_at _
    have apart : id ≠ breach.id := by
      rintro rfl
      rw [books.fresh (by omega)] at found_at
      cases found_at
    simp only [opened, put_of_ne _ _ apart, found_at]
  case settled_before =>
    rintro ⟨again, same, agrees⟩
    obtain rfl := Except.ok.inj (measured.symm.trans same)
    exact absurd (agrees.mpr none_open) violated
  case bounded =>
    intro id found found_at
    simp only [opened, put_eq_some] at found_at
    obtain ⟨_, rfl⟩ | ⟨_, found_at⟩ := found_at
    · exact .inr (.inr copied)
    · exact .inr (.inl found_at)

end Cases

theorem upsertStatus_upserted (books : Books before s) (later : before ≤ now) (target : config.uptimeTargetBps ≤ 10000)
    {breach : Option SLABreach} (done : upsertStatus now merchantId config s = .ok (s', status, breach)) :
    Upserted now merchantId config s s' status := by
  obtain ⟨metrics, measured, done⟩ := (bind_eq_ok ..).mp done
  obtain ⟨creditBalance, summed, done⟩ := (bind_eq_ok ..).mp done
  have total : creditBalance = credits s merchantId := (totalCredits_eq summed).trans (Int.zero_add _)
  have books_now := books.later later
  by_cases compliant : config.uptimeTargetBps ≤ metrics.uptimeBps
  · cases active : activeBreach s merchantId with
    | none =>
      simp only [statusOf, compliant, decide_true, if_true, active] at done
      cases done
      have same := upserted_same books_now measured ⟨fun _ => books.active_none active, fun _ => compliant⟩ total
      simpa only [statusOf, active, compliant, decide_true] using same
    | some breach =>
      simp only [statusOf, compliant, decide_true, if_true, active] at done
      cases done
      have closes := upserted_closed books later measured compliant total active
      simpa only [closed, statusOf, compliant, decide_true] using closes
  · cases active : activeBreach s merchantId with
    | none =>
      simp only [statusOf, compliant, decide_false, Bool.false_eq_true, if_false, active, isSome_none] at done
      simp only [bind_eq_ok, u64_eq_ok, i128_eq_ok] at done
      obtain ⟨_, ⟨_, rfl⟩, creditAmount, _, breachCount, _, _, ⟨_, rfl⟩, done⟩ := done
      cases done
      have positive : now ≠ 0 := by
        rintro rfl
        exact compliant (calculateMetrics_zero measured ▸ target)
      let begun := statusOf now merchantId config metrics (merchantBreaches s merchantId) none creditBalance
      change Upserted now merchantId config s (opened s (breachOf now (s.breachCount.getD 0 + 1) begun creditAmount)
        (merchantId, s.breachCount.getD 0 + 1, metrics.uptimeBps, creditAmount)) _
      refine upserted_opened books_now positive measured compliant active rfl rfl rfl rfl _ rfl ⟨rfl, rfl⟩ ⟨rfl, rfl⟩ rfl ?_
      rw [← total]
      rfl
    | some breach =>
      simp only [statusOf, compliant, decide_false, Bool.false_eq_true, if_false, active, isSome_some, if_true] at done
      cases done
      obtain ⟨stored, own, open_still⟩ := books.active_some active
      have same := upserted_same books_now measured ⟨fun fine => absurd fine compliant, fun closed =>
        absurd ⟨breach, stored, own, open_still⟩ (closed breach.id)⟩ total
      simpa only [statusOf, active, compliant, decide_false] using same

end Upsert

section Runs

structure World where
  state : State
  now : Nat

def World.deployed : World := ⟨.empty, 0⟩

structure Tx where
  host : Host
  call : Call

def perform (w : World) (tx : Tx) : World where
  state := match exec tx.host w.state tx.call with
    | .ok s => s
    | .error _ => w.state
  now := tx.host.timestamp

def InOrder (w : World) (tx : Tx) : Prop := w.now ≤ tx.host.timestamp

instance (w : World) (tx : Tx) : Decidable (InOrder w tx) := inferInstanceAs (Decidable (_ ≤ _))

def Separate (w : World) (tx : Tx) : Prop :=
  match tx.call with
  | .initializeSla _ => True
  | .configureSla merchantId config => Apart tx.host.timestamp w.state config.normalized merchantId
  | .recordServiceAvailability merchantId _ _ _ => Apart tx.host.timestamp w.state (configOf w.state merchantId) merchantId
  | .detectSlaBreach merchantId => Apart tx.host.timestamp w.state (configOf w.state merchantId) merchantId
  | .getSlaStatus merchantId => Apart tx.host.timestamp w.state (configOf w.state merchantId) merchantId

instance (w : World) (tx : Tx) : Decidable (Separate w tx) :=
  match tx with
  | ⟨_, .initializeSla _⟩ => isTrue trivial
  | ⟨_, .configureSla ..⟩ => inferInstanceAs (Decidable (Apart ..))
  | ⟨_, .recordServiceAvailability ..⟩ => inferInstanceAs (Decidable (Apart ..))
  | ⟨_, .detectSlaBreach _⟩ => inferInstanceAs (Decidable (Apart ..))
  | ⟨_, .getSlaStatus _⟩ => inferInstanceAs (Decidable (Apart ..))

/-- The state that a call hands to `upsert_status`: it differs in the configuration and the samples of one merchant. -/
structure Prepared (s t : State) (merchantId : Address) : Prop where
  breach : t.breach = s.breach
  breachCount : t.breachCount = s.breachCount
  status : t.status = s.status
  targets : (∀ m config, s.config m = some config → config.uptimeTargetBps ≤ 10000) →
    ∀ m config, t.config m = some config → config.uptimeTargetBps ≤ 10000
  others (other : Address) : other ≠ merchantId →
    configOf t other = configOf s other ∧ merchantSamples t other = merchantSamples s other

theorem Prepared.refl (s : State) (merchantId : Address) : Prepared s s merchantId :=
  ⟨rfl, rfl, rfl, fun targets => targets, fun _ _ => ⟨rfl, rfl⟩⟩

structure Refreshes (w : World) (tx : Tx) (s' : State) (merchantId : Address) (t : State) (status : SLAStatus) : Prop where
  prepared : Prepared w.state t merchantId
  refreshed : refreshStatus tx.host merchantId (configOf t merchantId) t = .ok (s', status)
  read : ∀ m, tx.call = .getSlaStatus m → m = merchantId ∧ t = w.state
  apart : Separate w tx → Apart tx.host.timestamp t (configOf t merchantId) merchantId

theorem merchantSamples_storeSample (s : State) {sample : AvailabilitySample}
    (next : sample.id = (s.sampleCount sample.merchantId).getD 0 + 1) :
    merchantSamples (storeSample s sample) sample.merchantId = merchantSamples s sample.merchantId ++ [sample] := by
  simp only [merchantSamples, storeSample, put_self, getD_some, next, range'_1_concat, filterMap_append]
  congr 1
  · refine filterMap_congr fun i mem => ?_
    have := (mem_range'_1.mp mem).2
    exact put_of_ne _ _ fun same => by
      have := congrArg Prod.snd same
      omega
  · rw [Nat.add_comm 1]
    simp [put_self]

theorem merchantSamples_storeSample_of_ne (s : State) (sample : AvailabilitySample) {other : Address}
    (apart : other ≠ sample.merchantId) : merchantSamples (storeSample s sample) other = merchantSamples s other := by
  refine merchantSamples_congr (put_of_ne _ _ apart) fun i => ?_
  exact put_of_ne _ _ fun same => apart (congrArg Prod.fst same)

theorem exec_refreshes {w : World} {tx : Tx} {s' : State} (run : exec tx.host w.state tx.call = .ok s') :
    (∃ admin, tx.call = .initializeSla admin ∧ s' = { w.state with admin := some admin }) ∨
      ∃ merchantId t status, Refreshes w tx s' merchantId t status := by
  obtain ⟨host, call⟩ := tx
  cases call with
  | initializeSla admin =>
    obtain ⟨_, _, run⟩ := (bind_eq_ok ..).mp run
    cases run
    exact .inl ⟨admin, rfl, rfl⟩
  | configureSla merchantId config =>
    obtain ⟨admin, _, run⟩ := (bind_eq_ok ..).mp run
    obtain ⟨_, _, run⟩ := (bind_eq_ok ..).mp run
    obtain ⟨⟨s', status⟩, refreshed, run⟩ := (bind_eq_ok ..).mp run
    cases run
    let t := { w.state with config := put w.state.config merchantId config.normalized }
    have here : configOf t merchantId = config.normalized := by simp [t, configOf]
    refine .inr ⟨merchantId, t, status, ⟨rfl, rfl, rfl, fun targets m found found_at => ?_, fun other apart => ?_⟩,
      here ▸ refreshed, (fun _ reads => by cases reads), fun apart => ?_⟩
    · simp only [t, put_eq_some] at found_at
      obtain ⟨_, rfl⟩ | ⟨_, found_at⟩ := found_at
      · simp only [SLAConfig.normalized]
        omega
      · exact targets m found found_at
    · exact ⟨by simp only [t, configOf, put_of_ne _ _ apart], rfl⟩
    · rw [here]
      exact apart
  | recordServiceAvailability merchantId durationSecs state note =>
    obtain ⟨nextId, counted, run⟩ := (bind_eq_ok ..).mp run
    obtain ⟨_, rfl⟩ := (u64_eq_ok _ _).mp counted
    obtain ⟨⟨s', status⟩, refreshed, run⟩ := (bind_eq_ok ..).mp run
    cases run
    refine .inr ⟨merchantId, storeSample w.state _, status, ⟨rfl, rfl, rfl, fun targets => targets, fun other apart => ?_⟩,
      refreshed, (fun _ reads => by cases reads), fun apart => ?_⟩
    · exact ⟨rfl, merchantSamples_storeSample_of_ne w.state _ apart⟩
    · rw [Apart, merchantSamples_storeSample w.state rfl, map_append, pairwise_append]
      refine ⟨apart, pairwise_singleton _ _, ?_⟩
      -- the new sample starts where the window ends
      intro p _ q last
      rw [map_singleton, mem_singleton] at last
      subst last
      simp only [AvailabilitySample.clipped]
      omega
  | detectSlaBreach merchantId =>
    obtain ⟨⟨s', status⟩, refreshed, run⟩ := (bind_eq_ok ..).mp run
    cases run
    exact .inr ⟨merchantId, _, status, .refl _ _, refreshed, (fun _ reads => by cases reads), fun apart => apart⟩
  | getSlaStatus merchantId =>
    obtain ⟨⟨s', status⟩, refreshed, run⟩ := (bind_eq_ok ..).mp run
    cases run
    refine .inr ⟨merchantId, _, status, .refl _ _, refreshed, fun m reads => ?_, fun apart => apart⟩
    cases reads
    exact ⟨rfl, rfl⟩

structure Kept (w : World) : Prop where
  books : Books w.now w.state
  statuses (merchantId : Address) (status : SLAStatus) : w.state.status merchantId = some status →
    Faithful w.state merchantId status ∧ status.lastUpdatedAt ≤ w.now ∧
      (status.lastUpdatedAt = w.now → Settled w.now w.state w.state (configOf w.state merchantId) merchantId)

theorem kept_deployed : Kept .deployed where
  books := ⟨nofun, nofun, (fun _ _ _ ⟨_, stored, _⟩ => nomatch stored), nofun⟩
  statuses _ _ stored := nomatch stored

variable {w : World} {tx : Tx} {s' t : State} {merchantId : Address} {status : SLAStatus}

theorem configOf_target {now : Nat} {s : State} (books : Books now s) (merchantId : Address) :
    (configOf s merchantId).uptimeTargetBps ≤ 10000 := by
  unfold configOf
  cases held : s.config merchantId with
  | none => decide
  | some config => exact books.targets merchantId config held

section

variable {s : State} (prepared : Prepared s t merchantId)

include prepared

theorem Prepared.unresolved (other : Address) (id : Nat) :
    Unresolved t other id ↔ Unresolved s other id := by
  simp only [Unresolved, prepared.breach]

theorem Prepared.credits (other : Address) :
    credits t other = credits s other := by
  rw [credits_eq_sum, credits_eq_sum, prepared.breach, prepared.breachCount]

theorem Prepared.books {now : Nat} (books : Books now s) : Books now t where
  numbered := by
    rw [prepared.breach, prepared.breachCount]
    exact books.numbered
  dated := by
    rw [prepared.breach]
    exact books.dated
  single m i j first second :=
    books.single m i j ((prepared.unresolved m i).mp first) ((prepared.unresolved m j).mp second)
  targets := prepared.targets books.targets

end

theorem Refreshes.upserted (refreshes : Refreshes w tx s' merchantId t status) (kept : Kept w) (ordered : InOrder w tx) :
    ∃ middle, Upserted tx.host.timestamp merchantId (configOf t merchantId) t middle status ∧
      s' = { middle with status := put middle.status merchantId status } := by
  obtain ⟨⟨middle, status', breach⟩, upserts, run⟩ := (bind_eq_ok ..).mp refreshes.refreshed
  cases run
  have books := refreshes.prepared.books kept.books
  exact ⟨middle, upsertStatus_upserted books ordered (configOf_target books merchantId) upserts, rfl⟩

theorem perform_ok (run : exec tx.host w.state tx.call = .ok s') : perform w tx = ⟨s', tx.host.timestamp⟩ := by
  rw [perform, run]

theorem perform_error {panic : Panic} (run : exec tx.host w.state tx.call = .error panic) :
    perform w tx = ⟨w.state, tx.host.timestamp⟩ := by
  rw [perform, run]

theorem Kept.later {now : Nat} (kept : Kept w) (later : w.now ≤ now) : Kept ⟨w.state, now⟩ where
  books := kept.books.later later
  statuses m status stored := by
    obtain ⟨faithful, updated, settled⟩ := kept.statuses m status stored
    refine ⟨faithful, updated.trans later, fun same => ?_⟩
    -- no time has passed since the status was updated
    obtain rfl : now = w.now := by
      change status.lastUpdatedAt = now at same
      omega
    exact settled same

theorem Kept.perform (kept : Kept w) (ordered : InOrder w tx) : Kept (perform w tx) := by
  cases run : exec tx.host w.state tx.call with
  | error panic =>
    rw [perform_error run]
    exact kept.later ordered
  | ok s' =>
    rw [perform_ok run]
    obtain ⟨admin, _, rfl⟩ | ⟨merchantId, t, status, refreshes⟩ := exec_refreshes run
    · obtain ⟨⟨numbered, dated, single, targets⟩, statuses⟩ := kept.later ordered
      refine ⟨⟨numbered, dated, single, targets⟩, fun m status held => ?_⟩
      obtain ⟨faithful, updated, settled⟩ := statuses m status held
      exact ⟨⟨faithful.active, faithful.credit⟩, updated, settled⟩
    · obtain ⟨middle, upserted, rfl⟩ := refreshes.upserted kept ordered
      obtain ⟨events, frame⟩ := upserted.frame
      have prepared := refreshes.prepared
      have config_same : middle.config = t.config := by rw [frame]
      have samples_same (m : Address) : merchantSamples middle m = merchantSamples t m := by rw [frame]; rfl
      have status_same : middle.status = w.state.status := by rw [frame]; exact prepared.status
      have metrics_same (m : Address) (config : SLAConfig) (now : Nat) :
          calculateMetrics now middle config m = calculateMetrics now t config m :=
        calculateMetrics_congr (samples_same m)
      have same_config (m : Address) : configOf middle m = configOf t m := by simp only [configOf, config_same]
      refine ⟨⟨upserted.books.numbered, upserted.books.dated, upserted.books.single, upserted.books.targets⟩, ?_⟩
      intro m held stored_at
      rw [put_eq_some] at stored_at
      obtain ⟨rfl, rfl⟩ | ⟨apart, stored_at⟩ := stored_at
      · refine ⟨⟨upserted.faithful.active, upserted.faithful.credit⟩, upserted.updated.le, fun _ => ?_⟩
        obtain ⟨metrics, measured, agrees⟩ := upserted.settled
        exact ⟨metrics, ((metrics_same m (configOf middle m) _).trans (same_config m ▸ measured)),
          (same_config m).symm ▸ agrees⟩
      · rw [status_same] at stored_at
        obtain ⟨faithful, updated, settled⟩ := (kept.later ordered).statuses m held stored_at
        obtain ⟨credits_same, unresolved_same⟩ := upserted.others m apart
        have unresolved (id : Nat) : Unresolved middle m id ↔ Unresolved w.state m id :=
          (unresolved_same id).trans (prepared.unresolved m id)
        refine ⟨⟨fun id => (unresolved id).trans (faithful.active id), ?_⟩, updated, fun same => ?_⟩
        · exact faithful.credit.trans ((prepared.credits m).symm.trans credits_same.symm)
        · obtain ⟨metrics, measured, agrees⟩ := settled same
          obtain ⟨other_config, other_samples⟩ := prepared.others m apart
          have config_eq : configOf middle m = configOf w.state m := (same_config m).trans other_config
          refine ⟨metrics, ?_, ?_⟩
          · change calculateMetrics _ middle (configOf middle m) m = _
            rw [config_eq, metrics_same, calculateMetrics_congr other_samples]
            exact measured
          · change (configOf middle m).uptimeTargetBps ≤ _ ↔ ∀ id, ¬ Unresolved middle m id
            rw [config_eq]
            simp only [unresolved]
            exact agrees

/-- At most one open breach for each merchant, and the stored status names it and adds up all credits. -/
structure Accounted (s : State) : Prop where
  single (merchantId : Address) (i j : Nat) : Unresolved s merchantId i → Unresolved s merchantId j → i = j
  listed (id : Nat) (breach : SLABreach) : s.breach id = some breach →
    breach.id = id ∧ breach ∈ merchantBreaches s breach.merchantId
  statuses (merchantId : Address) (status : SLAStatus) : s.status merchantId = some status → Faithful s merchantId status

structure Bounded (s : State) : Prop where
  statuses (merchantId : Address) (status : SLAStatus) : s.status merchantId = some status →
    status.observedSeconds ≤ status.measurementInterval
  breaches (id : Nat) (breach : SLABreach) : s.breach id = some breach →
    breach.observedSeconds ≤ breach.measurementInterval

structure Unmoved (s s' : State) : Prop where
  breach : s'.breach = s.breach
  breachCount : s'.breachCount = s.breachCount
  credits (merchantId : Address) :
    (s'.status merchantId).map (·.creditBalance) = (s.status merchantId).map (·.creditBalance)

def Lasting (w : World) (tx : Tx) : Prop :=
  ∀ id breach, w.state.breach id = some breach → breach.resolvedAt ≠ 0 → (perform w tx).state.breach id = some breach

theorem Kept.accounts (kept : Kept w) : Accounted w.state where
  single := kept.books.single
  listed id breach stored := ⟨(kept.books.numbered id breach stored).2.2, kept.books.listed stored⟩
  statuses m status stored := (kept.statuses m status stored).1

theorem Kept.lasting (kept : Kept w) (ordered : InOrder w tx) : Lasting w tx := by
  intro id breach held resolved
  cases run : exec tx.host w.state tx.call with
  | error panic => rw [perform_error run, held]
  | ok s' =>
    rw [perform_ok run]
    obtain ⟨admin, _, rfl⟩ | ⟨merchantId, t, status, refreshes⟩ := exec_refreshes run
    · exact held
    · obtain ⟨middle, upserted, rfl⟩ := refreshes.upserted kept ordered
      exact upserted.resolved id breach (refreshes.prepared.breach ▸ held) resolved

theorem Kept.unmoved (kept : Kept w) (ordered : InOrder w tx) (reads : tx.call = .getSlaStatus merchantId)
    (held : w.state.status merchantId = some status) (again : status.lastUpdatedAt = tx.host.timestamp) :
    Unmoved w.state (Sla.perform w tx).state := by
  cases run : exec tx.host w.state tx.call with
  | error panic =>
    rw [perform_error run]
    exact ⟨rfl, rfl, fun _ => rfl⟩
  | ok s' =>
    rw [perform_ok run]
    obtain ⟨admin, other, _⟩ | ⟨m, t, after, refreshes⟩ := exec_refreshes run
    · rw [reads] at other
      cases other
    · obtain ⟨rfl, rfl⟩ := refreshes.read merchantId reads
      obtain ⟨middle, upserted, rfl⟩ := refreshes.upserted kept ordered
      obtain ⟨faithful, updated, settled⟩ := kept.statuses merchantId status held
      have instant : w.now = tx.host.timestamp := by
        have : w.now ≤ tx.host.timestamp := ordered
        omega
      obtain rfl := upserted.settled_before (instant ▸ settled (again.trans instant.symm))
      refine ⟨rfl, rfl, fun other => ?_⟩
      by_cases here : other = merchantId
      · simp only [here, put_self, held, map_some, upserted.faithful.credit, faithful.credit]
      · simp only [put_of_ne _ _ here]

theorem Bounded.perform (bounded : Bounded w.state) (kept : Kept w) (ordered : InOrder w tx) (separate : Separate w tx) :
    Bounded (perform w tx).state := by
  cases run : exec tx.host w.state tx.call with
  | error panic =>
    rw [perform_error run]
    exact bounded
  | ok s' =>
    rw [perform_ok run]
    obtain ⟨admin, _, rfl⟩ | ⟨merchantId, t, status, refreshes⟩ := exec_refreshes run
    · exact ⟨bounded.statuses, bounded.breaches⟩
    · obtain ⟨middle, upserted, rfl⟩ := refreshes.upserted kept ordered
      obtain ⟨metrics, measured, observed, interval⟩ := upserted.measured
      have within := calculateMetrics_bounded (refreshes.apart separate) measured
      rw [← observed, ← interval] at within
      obtain ⟨events, frame⟩ := upserted.frame
      refine ⟨fun m found found_at => ?_, fun id found found_at => ?_⟩
      · simp only [put_eq_some] at found_at
        obtain ⟨_, rfl⟩ | ⟨_, found_at⟩ := found_at
        · exact within
        · rw [frame] at found_at
          exact bounded.statuses m found (refreshes.prepared.status ▸ found_at)
      · obtain old | old | ⟨observed, interval⟩ := upserted.bounded id found found_at
        · exact bounded.breaches id { found with resolvedAt := 0 } (refreshes.prepared.breach ▸ old)
        · exact bounded.breaches id found (refreshes.prepared.breach ▸ old)
        · omega

def UpdatedAt (now : Nat) (merchantId : Address) (w : World) : Prop :=
  ∃ status, w.state.status merchantId = some status ∧ status.lastUpdatedAt = now

theorem updatedAt_read (kept : Kept w) (ordered : InOrder w tx) (reads : tx.call = .getSlaStatus merchantId)
    (run : exec tx.host w.state tx.call = .ok s') : UpdatedAt tx.host.timestamp merchantId (perform w tx) := by
  rw [perform_ok run]
  obtain ⟨admin, other, _⟩ | ⟨m, t, status, refreshes⟩ := exec_refreshes run
  · rw [reads] at other
    cases other
  · obtain ⟨rfl, _⟩ := refreshes.read merchantId reads
    obtain ⟨middle, upserted, rfl⟩ := refreshes.upserted kept ordered
    exact ⟨status, put_self .., upserted.updated⟩

theorem updatedAt_perform (kept : Kept w) (ordered : InOrder w tx) (updated : UpdatedAt tx.host.timestamp merchantId w) :
    UpdatedAt tx.host.timestamp merchantId (perform w tx) := by
  obtain ⟨status, held, instant⟩ := updated
  cases run : exec tx.host w.state tx.call with
  | error panic =>
    rw [perform_error run]
    exact ⟨status, held, instant⟩
  | ok s' =>
    rw [perform_ok run]
    obtain ⟨admin, _, rfl⟩ | ⟨m, t, after, refreshes⟩ := exec_refreshes run
    · exact ⟨status, held, instant⟩
    · obtain ⟨middle, upserted, rfl⟩ := refreshes.upserted kept ordered
      obtain ⟨events, frame⟩ := upserted.frame
      by_cases here : merchantId = m
      · exact ⟨after, by rw [here]; exact put_self .., upserted.updated⟩
      · refine ⟨status, ?_, instant⟩
        rw [frame]
        simp only [put_of_ne _ _ here, refreshes.prepared.status, held]

theorem kept_of_inOrder {txs : List Tx} (ordered : Throughout perform .deployed InOrder txs) :
    Kept (txs.foldl perform .deployed) :=
  ordered.keeps Kept kept_deployed fun _ _ kept ordered => kept.perform ordered

theorem bounded_of_separate {txs : List Tx} (ordered : Throughout perform .deployed InOrder txs)
    (separate : Throughout perform .deployed Separate txs) : Bounded (txs.foldl perform .deployed).state := by
  have both : Kept (txs.foldl perform .deployed) ∧ Bounded (txs.foldl perform .deployed).state :=
    (ordered.and separate).keeps (fun w => Kept w ∧ Bounded w.state) ⟨kept_deployed, ⟨nofun, nofun⟩⟩
      fun _ _ ⟨kept, bounded⟩ ⟨ordered, separate⟩ => ⟨kept.perform ordered, bounded.perform kept ordered separate⟩
  exact both.2

theorem unmoved_of_read {txs earlier between : List Tx} {first again : Tx}
    (ordered : Throughout perform .deployed InOrder txs)
    (split : txs = (earlier ++ first :: between) ++ [again]) (reads : first.call = .getSlaStatus merchantId)
    (rereads : again.call = .getSlaStatus merchantId)
    (instant : ∀ tx ∈ between ++ [again], tx.host.timestamp = first.host.timestamp)
    (run : exec first.host (earlier.foldl perform .deployed).state first.call = .ok s') :
    Unmoved ((earlier ++ first :: between).foldl perform .deployed).state (txs.foldl perform .deployed).state := by
  have updated : UpdatedAt first.host.timestamp merchantId ((earlier ++ first :: between).foldl perform .deployed) := by
    have ordered := ordered.before split
    clear split
    replace instant : ∀ tx ∈ between, tx.host.timestamp = first.host.timestamp :=
      fun tx mem => instant tx (mem_append_left _ mem)
    induction between using List.reverseRecOn with
    | nil =>
      rw [foldl_append]
      exact updatedAt_read (kept_of_inOrder ordered.init) ordered.last reads run
    | append_singleton between tx ih =>
      rw [← cons_append, ← append_assoc] at ordered ⊢
      rw [foldl_append]
      have at_instant := instant tx (mem_append_right _ mem_cons_self)
      rw [← at_instant]
      refine updatedAt_perform (kept_of_inOrder ordered.init) ordered.last ?_
      rw [at_instant]
      exact ih ordered.init fun other mem => instant other (mem_append_left _ mem)
  subst split
  obtain ⟨status, held, same⟩ := updated
  have last : (earlier ++ first :: between ++ [again]).foldl perform .deployed =
    perform ((earlier ++ first :: between).foldl perform .deployed) again := foldl_append
  rw [last]
  have at_instant := instant again (mem_append_right _ mem_cons_self)
  exact (kept_of_inOrder ordered.init).unmoved ordered.last rereads held (same.trans at_instant.symm)

/-- In every run in order the breaches are accounted once, resolved breaches stay and rereading changes nothing; where
    the samples that a call measures do not overlap, nobody has been observed for longer than the interval. -/
theorem accounted (txs : List Tx) (ordered : Throughout perform .deployed InOrder txs) :
    Accounted (txs.foldl perform .deployed).state ∧ Throughout perform .deployed Lasting txs ∧
      (∀ merchantId earlier first between again s', txs = (earlier ++ first :: between) ++ [again] →
        first.call = .getSlaStatus merchantId → again.call = .getSlaStatus merchantId →
          (∀ tx ∈ between ++ [again], tx.host.timestamp = first.host.timestamp) →
            exec first.host (earlier.foldl perform .deployed).state first.call = .ok s' →
              Unmoved ((earlier ++ first :: between).foldl perform .deployed).state (txs.foldl perform .deployed).state) ∧
        (Throughout perform .deployed Separate txs → Bounded (txs.foldl perform .deployed).state) := by
  refine ⟨(kept_of_inOrder ordered).accounts, fun earlier tx later split => ?_, ?_, bounded_of_separate ordered⟩
  · exact (kept_of_inOrder (ordered.before split)).lasting (ordered earlier tx later split)
  · intro merchantId earlier first between again s' split reads rereads instant run
    exact unmoved_of_read ordered split reads rereads instant run

end Runs

def hostAt (timestamp : Nat) : Host := ⟨timestamp, fun _ => true⟩

def breachedRun : List Tx :=
  [⟨hostAt 1000, .recordServiceAvailability ⟨1⟩ 600 .fullOutage "outage"⟩, ⟨hostAt 2000, .detectSlaBreach ⟨1⟩⟩,
    ⟨hostAt 2000, .getSlaStatus ⟨1⟩⟩, ⟨hostAt 2000, .getSlaStatus ⟨1⟩⟩]

theorem accounted_breachedRun : Accounted (breachedRun.foldl perform .deployed).state ∧
    Bounded (breachedRun.foldl perform .deployed).state := by
  have ordered : Throughout perform .deployed InOrder breachedRun :=
    .cons (by decide) (.cons (by decide) (.cons (by decide) (.cons (by decide) .nil)))
  obtain ⟨accounts, _, _, bounded⟩ := accounted breachedRun ordered
  exact ⟨accounts, bounded (.cons (by decide +kernel) (.cons (by decide +kernel) (.cons (by decide +kernel)
    (.cons (by decide +kernel) .nil))))⟩

def overlappingRun : List Tx :=
  [⟨hostAt 1, .recordServiceAvailability ⟨1⟩ 604800 .healthy "probe"⟩,
    ⟨hostAt 1, .recordServiceAvailability ⟨1⟩ 604800 .healthy "probe"⟩, ⟨hostAt 604801, .getSlaStatus ⟨1⟩⟩]

theorem not_bounded : Throughout perform .deployed InOrder overlappingRun ∧
    ¬ Bounded (overlappingRun.foldl perform .deployed).state := by
  refine ⟨.cons (by decide) (.cons (by decide) (.cons (by decide) .nil)), fun bounded => ?_⟩
  exact absurd (bounded.statuses ⟨1⟩ _ rfl) (by decide +kernel)

end SubTrackr.Sla
