import SubTrackr.Lib.Histories
import SubTrackr.Lib.Sums
import SubTrackr.RevenueJob.Job

namespace SubTrackr.RevenueJob

open List Lib

abbrev Row.amount (row : Row) : ℚ := row.entry.recognisedAmount

def Repository.journaled (repo : Repository) (i : ℕ) : List Row := repo.journal.filter (·.place.1 = i)

def Repository.amountFor (repo : Repository) (i j : ℕ) : ℚ := fiber (·.place.2) Row.amount (repo.journaled i) j

structure Run where
  now : ℤ
  failures : Failures

namespace Run

def perform (repo : Repository) (r : Run) : Repository := (run r.now r.failures repo).2

structure Clean (r : Run) : Prop where
  getPendingSchedules : r.failures.getPendingSchedules = false
  writeJournalEntry : ∀ i j, r.failures.writeJournalEntry i j = false
  updateMerchantBalances : ∀ i, r.failures.updateMerchantBalances i = false
  markEntriesRecognised : ∀ i, r.failures.markEntriesRecognised i = false

def Writes (r : Run) (i : ℕ) (e : RevenueScheduleEntry × ℕ) : Prop :=
  0 < (computeEntryRecognition e.1 r.now).1 ∧ r.failures.writeJournalEntry i e.2 = false

instance (r : Run) (i : ℕ) (e : RevenueScheduleEntry × ℕ) : Decidable (r.Writes i e) := inferInstanceAs (Decidable (_ ∧ _))

def Completes (r : Run) (i : ℕ) (e : RevenueScheduleEntry × ℕ) : Prop := r.Writes i e ∧ e.1.periodEnd ≤ r.now

structure Careful (repo : Repository) (r : Run) : Prop where
  fresh : ∀ s ∈ repo.getPendingSchedules, (∃ e ∈ s.1.entries.zipIdx, r.Writes s.2 e) → repo.journaled s.2 = []
  balanced : ∀ s ∈ repo.getPendingSchedules, (∃ e ∈ s.1.entries.zipIdx, r.Writes s.2 e) →
    r.failures.updateMerchantBalances s.2 = false
  marked : ∀ s ∈ repo.getPendingSchedules, r.failures.markEntriesRecognised s.2 = false →
    ∀ e ∈ s.1.entries.zipIdx, r.Completes s.2 e →
      ∀ s' ∈ repo.schedules.zipIdx, s'.1.subscriptionId = s.1.subscriptionId →
        ∀ e' ∈ s'.1.entries.zipIdx, e'.1.periodStart = e.1.periodStart → e'.1.isRecognised = false →
          e'.1.recognisedAmount ≠ 0 → repo.amountFor s'.2 e'.2 = e'.1.recognisedAmount ∨ r.Completes s'.2 e'

end Run

structure Exact (schedules : List RevenueSchedule) (runs : List Run) (repo : Repository) : Prop where
  bounded : ∀ i s j e, schedules[i]? = some s → s.entries[j]? = some e → repo.amountFor i j ≤ e.recognisedAmount
  whole : ∀ i s j e, schedules[i]? = some s → s.entries[j]? = some e → e.isRecognised = false →
    (∃ r ∈ runs, r.Clean ∧ e.periodEnd ≤ r.now) → repo.amountFor i j = e.recognisedAmount
  recognised : ∀ m, repo.recognised m = fiber (·.entry.merchantId) Row.amount repo.journal m
  deferred : ∀ m, repo.deferred m = -fiber (·.entry.merchantId) Row.amount repo.journal m
  deferredBefore : ∀ i s, schedules[i]? = some s → ∀ before row after, repo.journaled i = before ++ row :: after →
    row.entry.deferredBefore = s.totalAmount - (before.map Row.amount).sum

def RevenueSchedule.WellFormed (s : RevenueSchedule) : Prop :=
  ∀ e ∈ s.entries, e.periodStart < e.periodEnd ∧ ∃ cents : ℕ, e.recognisedAmount = cents / 100

section Amounts

variable {now : ℤ} {e : RevenueScheduleEntry} {cents : ℕ}

theorem compute_of_recognised (recognised : e.isRecognised = true) : computeEntryRecognition e now = (0, none) := by
  simp [computeEntryRecognition, recognised]

theorem compute_none {a : ℚ} (computed : computeEntryRecognition e now = (a, none)) : a = 0 := by
  unfold computeEntryRecognition at computed
  grind

theorem compute_of_ended (ordered : e.periodStart < e.periodEnd) (ended : e.periodEnd ≤ now)
    (unrecognised : e.isRecognised = false) : (computeEntryRecognition e now).1 = e.recognisedAmount := by
  have started : ¬ now < e.periodStart := by omega
  by_cases free : e.recognisedAmount = 0
  · simp [computeEntryRecognition, unrecognised, free]
  · simp [computeEntryRecognition, unrecognised, free, started, ended]

theorem compute_le (now : ℤ) (ordered : e.periodStart < e.periodEnd) (amount : e.recognisedAmount = cents / 100) :
    (computeEntryRecognition e now).1 ≤ e.recognisedAmount := by
  have nonneg : 0 ≤ e.recognisedAmount := by
    rw [amount]
    positivity
  unfold computeEntryRecognition
  split
  · exact nonneg
  split
  · exact nonneg
  split
  · exact nonneg
  split
  · exact le_rfl
  · rename_i started running
    have elapsed : ((now - e.periodStart : ℤ) : ℚ) ≤ (e.periodEnd - e.periodStart : ℤ) := by
      exact_mod_cast (by omega : now - e.periodStart ≤ e.periodEnd - e.periodStart)
    have duration : (0 : ℚ) < (e.periodEnd - e.periodStart : ℤ) := by
      exact_mod_cast (by omega : 0 < e.periodEnd - e.periodStart)
    have grid : Rounding.OnGrid 100 e.recognisedAmount := ⟨cents, by simpa using amount⟩
    have share := (div_le_iff₀ duration).mpr (mul_le_mul_of_nonneg_left elapsed nonneg)
    rw [Rounding.halfUp_le_iff (by norm_num) grid]
    linarith

theorem compute_scheduled {type : RecognitionType} {a : ℚ} (computed : computeEntryRecognition e now = (a, some type)) :
    (type = .scheduled ∨ type = .accelerated) ↔ e.periodEnd ≤ now := by
  unfold computeEntryRecognition at computed
  grind

end Amounts

section Passes

variable {r : Run} {i : ℕ} {schedule : RevenueSchedule} {pass : Pass} {entries : List (RevenueScheduleEntry × ℕ)}

def Run.recorded (r : Run) (i : ℕ) (e : RevenueScheduleEntry × ℕ) : ℚ :=
  if r.Writes i e then (computeEntryRecognition e.1 r.now).1 else 0

structure Pass.Covers (pass : Pass) (r : Run) (i : ℕ) (schedule : RevenueSchedule)
    (entries : List (RevenueScheduleEntry × ℕ)) : Prop where
  total : pass.totalRecognisedForSchedule = (pass.rows.map Row.amount).sum
  amounts : ∀ j, fiber (·.place.2) Row.amount pass.rows j = fiber Prod.snd (r.recorded i) entries j
  starts : ∀ t ∈ pass.recognisedPeriodStarts, ∃ e ∈ entries, r.Completes i e ∧ e.1.periodStart = t
  own : ∀ row ∈ pass.rows, row.place.1 = i ∧ row.entry.merchantId = schedule.merchantId ∧ 0 < row.amount
  written : pass.rows ≠ [] → ∃ e ∈ entries, r.Writes i e
  deferredBefore : ∀ before row after, pass.rows = before ++ row :: after →
    row.entry.deferredBefore = schedule.totalAmount - (before.map Row.amount).sum

theorem Pass.Covers.nil (metrics : RecognitionJobMetrics) : Pass.Covers ⟨[], [], 0, metrics⟩ r i schedule [] where
  total := rfl
  amounts _ := rfl
  starts := by simp
  own := by simp
  written := by simp
  deferredBefore := by simp

theorem entryRound_of_writes {e : RevenueScheduleEntry × ℕ} (schedule : RevenueSchedule) (pass : Pass) (writes : r.Writes i e) :
    ∃ row metrics, entryRound r.now r.failures i schedule pass e =
        ⟨pass.rows ++ [row], if e.1.periodEnd ≤ r.now then pass.recognisedPeriodStarts ++ [e.1.periodStart]
          else pass.recognisedPeriodStarts, pass.totalRecognisedForSchedule + row.amount, metrics⟩ ∧
      row.place = (i, e.2) ∧ row.entry.merchantId = schedule.merchantId ∧
      row.amount = (computeEntryRecognition e.1 r.now).1 ∧
      row.entry.deferredBefore = schedule.totalAmount - pass.totalRecognisedForSchedule := by
  obtain ⟨due, fine⟩ := writes
  cases computed : computeEntryRecognition e.1 r.now with
  | mk a type =>
    rw [computed] at due
    cases type with
    | none => exact absurd (compute_none computed) due.ne'
    | some type =>
      have scheduled := compute_scheduled computed
      simp only [entryRound, computed, if_neg due.not_ge, fine, Bool.false_eq_true, if_false]
      by_cases ended : e.1.periodEnd ≤ r.now
      · simp only [if_pos (scheduled.mpr ended), if_pos ended]
        exact ⟨_, _, rfl, rfl, rfl, rfl, rfl⟩
      · simp only [if_neg (mt scheduled.mp ended), if_neg ended]
        exact ⟨_, _, rfl, rfl, rfl, rfl, rfl⟩

theorem entryRound_of_not_writes {e : RevenueScheduleEntry × ℕ} (schedule : RevenueSchedule) (pass : Pass) (silent : ¬ r.Writes i e) :
    ∃ metrics, entryRound r.now r.failures i schedule pass e = { pass with metrics := metrics } := by
  cases computed : computeEntryRecognition e.1 r.now with
  | mk a type =>
    cases type with
    | none => exact ⟨pass.metrics, by simp only [entryRound, computed]⟩
    | some type =>
      simp only [entryRound, computed]
      split
      · exact ⟨pass.metrics, rfl⟩
      · rename_i due
        have failed : r.failures.writeJournalEntry i e.2 = true := by
          by_contra fine
          rw [Bool.not_eq_true] at fine
          exact silent ⟨by rw [computed]; exact not_le.mp due, fine⟩
        exact ⟨_, by rw [if_pos failed]⟩

theorem Pass.Covers.entryRound {e : RevenueScheduleEntry × ℕ} (covers : pass.Covers r i schedule entries) :
    (entryRound r.now r.failures i schedule pass e).Covers r i schedule (entries ++ [e]) := by
  by_cases writes : r.Writes i e
  · obtain ⟨row, metrics, same, place, merchant, amount, before⟩ := entryRound_of_writes schedule pass writes
    rw [same]
    have recorded : r.recorded i e = row.amount := by rw [Run.recorded, if_pos writes, amount]
    exact
      { total := by rw [map_append, sum_append, ← covers.total]; simp
        amounts := by
          intro j
          rw [fiber_concat, fiber_concat, covers.amounts, place, recorded]
        starts := by
          intro t mem
          have grown : t ∈ pass.recognisedPeriodStarts ∨ e.1.periodEnd ≤ r.now ∧ e.1.periodStart = t := by
            split at mem
            · rename_i ended
              rcases mem_append.mp mem with old | new
              · exact .inl old
              · exact .inr ⟨ended, (mem_singleton.mp new).symm⟩
            · exact .inl mem
          rcases grown with old | ⟨ended, start⟩
          · obtain ⟨e', member, rest⟩ := covers.starts t old
            exact ⟨e', mem_append_left _ member, rest⟩
          · exact ⟨e, by simp, ⟨writes, ended⟩, start⟩
        own := by
          intro row' mem
          rcases mem_append.mp mem with old | new
          · exact covers.own row' old
          · obtain rfl := mem_singleton.mp new
            exact ⟨by rw [place], merchant, amount ▸ writes.1⟩
        written := fun _ => ⟨e, by simp, writes⟩
        deferredBefore := by
          intro earlier row' later split
          rcases eq_nil_or_concat later with rfl | ⟨later, last, rfl⟩
          · obtain ⟨rfl, rfl⟩ := append_singleton_inj.mp split
            rw [before, covers.total]
          · rw [concat_eq_append, ← cons_append, ← append_assoc, append_singleton_inj] at split
            exact covers.deferredBefore earlier row' later split.1 }
  · obtain ⟨metrics, same⟩ := entryRound_of_not_writes schedule pass writes
    rw [same]
    exact
      { total := covers.total
        amounts := by
          intro j
          rw [fiber_concat, ← covers.amounts, Run.recorded, if_neg writes, ite_self, add_zero]
        starts := by
          intro t mem
          obtain ⟨e', member, rest⟩ := covers.starts t mem
          exact ⟨e', mem_append_left _ member, rest⟩
        own := covers.own
        written := by
          intro rows
          obtain ⟨e', member, rest⟩ := covers.written rows
          exact ⟨e', mem_append_left _ member, rest⟩
        deferredBefore := covers.deferredBefore }

theorem covers_passOf (metrics : RecognitionJobMetrics) (s : RevenueSchedule × ℕ) :
    (passOf r.now r.failures metrics s).Covers r s.2 s.1 s.1.entries.zipIdx := by
  unfold passOf
  induction s.1.entries.zipIdx using List.reverseRecOn with
  | nil => exact .nil metrics
  | append_singleton entries e ih =>
    rw [foldl_append, foldl_cons, foldl_nil]
    exact ih.entryRound

theorem Pass.Covers.rows_eq_nil (covers : pass.Covers r i schedule entries) (zero : ¬ 0 < pass.totalRecognisedForSchedule) :
    pass.rows = [] := by
  by_contra some_row
  apply zero
  rw [covers.total]
  apply sum_pos
  · intro x mem
    obtain ⟨row, member, rfl⟩ := mem_map.mp mem
    exact (covers.own row member).2.2
  · simpa using some_row

end Passes

section Rounds

namespace RevenueSchedule

def raise (p : String → ℤ → Bool) (s : RevenueSchedule) : RevenueSchedule :=
  { s with entries := s.entries.map fun e => if p s.subscriptionId e.periodStart then { e with isRecognised := true } else e }

theorem raise_none (s : RevenueSchedule) : s.raise (fun _ _ => false) = s := by simp [raise]

theorem raise_raise (p q : String → ℤ → Bool) (s : RevenueSchedule) :
    (s.raise p).raise q = s.raise fun sub start => p sub start || q sub start := by
  simp only [raise, map_map, mk.injEq, true_and]
  apply map_congr_left
  intro e _
  by_cases first : p s.subscriptionId e.periodStart = true
  · simp [first]
  · simp [first]

end RevenueSchedule

def Repository.Balanced (repo : Repository) : Prop :=
  ∀ m, repo.recognised m = fiber (·.entry.merchantId) Row.amount repo.journal m ∧
    repo.deferred m = -fiber (·.entry.merchantId) Row.amount repo.journal m

theorem Repository.markEntriesRecognised_schedules (repo : Repository) (subId : String) (starts : List ℤ) :
    (repo.markEntriesRecognised subId starts).schedules =
      repo.schedules.map (·.raise fun id start => id = subId ∧ start ∈ starts) := by
  apply map_congr_left
  intro s _
  by_cases here : s.subscriptionId = subId
  · simp [RevenueSchedule.raise, here, Repository.markEntry]
  · simp [RevenueSchedule.raise, here]

variable {r : Run} {repo repo' : Repository} {done : List (RevenueSchedule × ℕ)} {s : RevenueSchedule × ℕ}

def Run.Marks (r : Run) (s : RevenueSchedule × ℕ) (subscriptionId : String) (start : ℤ) : Prop :=
  r.failures.markEntriesRecognised s.2 = false ∧ s.1.subscriptionId = subscriptionId ∧
    ∃ e ∈ s.1.entries.zipIdx, r.Completes s.2 e ∧ e.1.periodStart = start

structure Covered (r : Run) (done : List (RevenueSchedule × ℕ)) (repo repo' : Repository) : Prop where
  flags : ∃ p, repo'.schedules = repo.schedules.map (·.raise p) ∧
    ∀ subscription start, p subscription start = true → ∃ s ∈ done, r.Marks s subscription start
  others : ∀ i, (∀ s ∈ done, s.2 ≠ i) → repo'.journaled i = repo.journaled i
  rows : ∀ s ∈ done, ∃ pass : Pass, pass.Covers r s.2 s.1 s.1.entries.zipIdx ∧
    repo'.journaled s.2 = repo.journaled s.2 ++ pass.rows
  balanced : repo.Balanced → repo'.Balanced

theorem Covered.nil : Covered r [] repo repo where
  flags := ⟨fun _ _ => false, by simp [RevenueSchedule.raise_none], by simp⟩
  others _ _ := rfl
  rows := by simp
  balanced := id

structure Adds (r : Run) (s : RevenueSchedule × ℕ) (pass : Pass) (repo repo' : Repository) : Prop where
  flags : ∃ p, repo'.schedules = repo.schedules.map (·.raise p) ∧
    ∀ subscription start, p subscription start = true → r.Marks s subscription start
  journal : repo'.journal = repo.journal ++ pass.rows
  balanced : repo.Balanced → repo'.Balanced

theorem Pass.Covers.balanced {pass : Pass} (covers : pass.Covers r s.2 s.1 s.1.entries.zipIdx) (balanced : repo.Balanced) :
    ({ repo with journal := repo.journal ++ pass.rows }.updateMerchantBalances s.1.merchantId
      pass.totalRecognisedForSchedule (-pass.totalRecognisedForSchedule)).Balanced := by
  intro m
  have same := fiber_of_same (·.entry.merchantId) Row.amount (fun row mem => (covers.own row mem).2.1) m
  rw [← covers.total] at same
  simp only [Repository.updateMerchantBalances, fiber_append, same]
  by_cases here : s.1.merchantId = m
  · subst here
    rw [Function.update_self, Function.update_self, (balanced _).1, (balanced _).2, if_pos rfl, neg_add]
    exact ⟨rfl, rfl⟩
  · rw [Function.update_of_ne (Ne.symm here), Function.update_of_ne (Ne.symm here), (balanced _).1, (balanced _).2,
      if_neg here, add_zero]
    exact ⟨rfl, rfl⟩

theorem adds_scheduleRound (metrics : RecognitionJobMetrics)
    (updated : (∃ e ∈ s.1.entries.zipIdx, r.Writes s.2 e) → r.failures.updateMerchantBalances s.2 = false) :
    ∃ pass : Pass, pass.Covers r s.2 s.1 s.1.entries.zipIdx ∧
      Adds r s pass repo (scheduleRound r.now r.failures (metrics, repo) s).2 := by
  refine ⟨_, covers_passOf { metrics with schedulesProcessed := metrics.schedulesProcessed + 1 } s, ?_⟩
  have covers := covers_passOf (r := r) { metrics with schedulesProcessed := metrics.schedulesProcessed + 1 } s
  simp only [scheduleRound]
  generalize passOf r.now r.failures { metrics with schedulesProcessed := metrics.schedulesProcessed + 1 } s = pass at covers ⊢
  have unraised : ∃ p, repo.schedules = repo.schedules.map (·.raise p) ∧
      ∀ sub start, p sub start = true → r.Marks s sub start :=
    ⟨fun _ _ => false, by simp [RevenueSchedule.raise_none], by simp⟩
  split
  · rename_i pos
    have written : pass.rows ≠ [] := by
      rintro none_written
      rw [covers.total, none_written] at pos
      exact lt_irrefl _ pos
    rw [updated (covers.written written)]
    simp only [Bool.false_eq_true, if_false]
    split
    · split
      · exact ⟨unraised, rfl, covers.balanced⟩
      · rename_i marked
        refine ⟨⟨_, Repository.markEntriesRecognised_schedules .., ?_⟩, rfl, covers.balanced⟩
        intro sub start raised
        obtain ⟨rfl, mem⟩ := of_decide_eq_true raised
        exact ⟨Bool.not_eq_true _ ▸ marked, rfl, covers.starts start mem⟩
    · exact ⟨unraised, rfl, covers.balanced⟩
  · rename_i zero
    have unwritten := covers.rows_eq_nil zero
    refine ⟨unraised, rfl, fun balanced => ?_⟩
    rw [unwritten, append_nil]
    exact balanced

theorem Covered.next {pass : Pass} {repo'' : Repository} (covered : Covered r done repo repo')
    (covers : pass.Covers r s.2 s.1 s.1.entries.zipIdx) (adds : Adds r s pass repo' repo'') (fresh : ∀ s' ∈ done, s'.2 ≠ s.2) :
    Covered r (done ++ [s]) repo repo'' := by
  have mine : repo''.journaled s.2 = repo'.journaled s.2 ++ pass.rows := by
    have all : pass.rows.filter (·.place.1 = s.2) = pass.rows :=
      filter_eq_self.mpr fun row mem => by simpa using (covers.own row mem).1
    rw [Repository.journaled, adds.journal, filter_append, all, Repository.journaled]
  have theirs : ∀ i, s.2 ≠ i → repo''.journaled i = repo'.journaled i := by
    intro i other
    have no_rows : pass.rows.filter (·.place.1 = i) = [] :=
      filter_eq_nil_iff.mpr fun row mem => by simpa [(covers.own row mem).1] using other
    rw [Repository.journaled, adds.journal, filter_append, no_rows, append_nil, Repository.journaled]
  obtain ⟨p, schedules, origin⟩ := covered.flags
  obtain ⟨q, schedules', origin'⟩ := adds.flags
  exact
    { flags := by
        refine ⟨fun sub start => p sub start || q sub start, ?_, ?_⟩
        · rw [schedules', schedules, map_map]
          apply map_congr_left
          intro s' _
          exact s'.raise_raise p q
        · intro sub start raised
          rcases (Bool.or_eq_true _ _).mp raised with old | new
          · obtain ⟨s', member, marks⟩ := origin sub start old
            exact ⟨s', mem_append_left _ member, marks⟩
          · exact ⟨s, by simp, origin' sub start new⟩
      others := by
        intro i absent
        rw [theirs i (absent s (by simp)), covered.others i fun s' member => absent s' (mem_append_left _ member)]
      rows := by
        intro s' mem
        rcases mem_append.mp mem with old | new
        · obtain ⟨pass', covers', same⟩ := covered.rows s' old
          exact ⟨pass', covers', by rw [theirs s'.2 (fresh s' old).symm, same]⟩
        · obtain rfl := mem_singleton.mp new
          exact ⟨pass, covers, by rw [mine, covered.others s'.2 fresh]⟩
      balanced := fun balanced => adds.balanced (covered.balanced balanced) }

theorem covered_foldl (metrics : RecognitionJobMetrics) (nodup : (done.map Prod.snd).Nodup)
    (updated : ∀ s ∈ done, (∃ e ∈ s.1.entries.zipIdx, r.Writes s.2 e) → r.failures.updateMerchantBalances s.2 = false) :
    Covered r done repo (done.foldl (scheduleRound r.now r.failures) (metrics, repo)).2 := by
  induction done using List.reverseRecOn with
  | nil => exact .nil
  | append_singleton done s ih =>
    rw [map_append, nodup_append] at nodup
    have covered := ih nodup.1 fun s' mem => updated s' (mem_append_left _ mem)
    have fresh : ∀ s' ∈ done, s'.2 ≠ s.2 := fun s' mem => nodup.2.2 _ (mem_map_of_mem mem) _ (by simp)
    rw [foldl_append, foldl_cons, foldl_nil]
    obtain ⟨pass, covers, adds⟩ := adds_scheduleRound _ (updated s (by simp))
    exact covered.next covers adds fresh

end Rounds

section Step

variable {r : Run} {repo : Repository} {schedules : List RevenueSchedule} {runs : List Run} {i j : ℕ}
  {s : RevenueSchedule}
  {e : RevenueScheduleEntry}

theorem fiber_zipIdx {f : RevenueScheduleEntry × ℕ → ℚ} {entries : List RevenueScheduleEntry} (found : entries[j]? = some e) :
    fiber Prod.snd f entries.zipIdx j = f (e, j) := by
  induction entries using List.reverseRecOn with
  | nil => simp at found
  | append_singleton entries last ih =>
    rw [zipIdx_append, zipIdx_cons, zipIdx_nil, fiber_concat]
    rcases lt_trichotomy j entries.length with inside | rfl | beyond
    · rw [getElem?_append_left inside] at found
      simp [ih found, inside.ne']
    · obtain rfl : last = e := by simpa using found
      have absent : fiber Prod.snd f entries.zipIdx entries.length = 0 := by
        apply fiber_of_absent
        rintro ⟨e', k⟩ mem
        exact (snd_lt_of_mem_zipIdx mem).ne
      simp [absent]
    · simp [getElem?_append_right beyond.le, Nat.sub_eq_zero_iff_le, beyond] at found

theorem mem_getPendingSchedules :
    (s, i) ∈ repo.getPendingSchedules ↔ repo.schedules[i]? = some s ∧ ∃ e ∈ s.entries, e.isRecognised = false := by
  simp [Repository.getPendingSchedules, mk_mem_zipIdx_iff_getElem?]

theorem other_of_not_pending (held : repo.schedules[i]? = some s) (absent : (s, i) ∉ repo.getPendingSchedules) :
    ∀ s' ∈ repo.getPendingSchedules, s'.2 ≠ i := by
  rintro ⟨s', i'⟩ mem rfl
  have same := (mem_getPendingSchedules.mp mem).1
  rw [held] at same
  cases same
  exact absent mem

theorem covered_perform (loaded : r.failures.getPendingSchedules = false) (careful : r.Careful repo) :
    Covered r repo.getPendingSchedules repo (r.perform repo) := by
  have nodup : (repo.getPendingSchedules.map Prod.snd).Nodup := by
    apply List.Sublist.nodup (filter_sublist.map Prod.snd)
    rw [zipIdx_map_snd]
    exact nodup_range'
  rw [Run.perform, run, loaded]
  exact covered_foldl {} nodup careful.balanced

theorem Run.Writes.unrecognised (writes : r.Writes i (e, j)) : e.isRecognised = false := by
  by_contra recognised
  rw [Bool.not_eq_false] at recognised
  have due := writes.1
  rw [compute_of_recognised recognised] at due
  exact lt_irrefl _ due

theorem Run.Careful.amountFor_eq_zero (careful : r.Careful repo) (held : repo.schedules[i]? = some s)
    (entry : s.entries[j]? = some e) (writes : r.Writes i (e, j)) : repo.amountFor i j = 0 := by
  have pending := mem_getPendingSchedules.mpr ⟨held, e, mem_of_getElem? entry, writes.unrecognised⟩
  rw [Repository.amountFor, careful.fresh _ pending ⟨(e, j), mk_mem_zipIdx_iff_getElem?.mpr entry, writes⟩]
  rfl

theorem amountFor_perform (loaded : r.failures.getPendingSchedules = false) (careful : r.Careful repo)
    (held : repo.schedules[i]? = some s) (entry : s.entries[j]? = some e) :
    (r.perform repo).amountFor i j = repo.amountFor i j + r.recorded i (e, j) := by
  have covered := covered_perform loaded careful
  by_cases pending : (s, i) ∈ repo.getPendingSchedules
  · obtain ⟨pass, covers, rows⟩ := covered.rows _ pending
    rw [Repository.amountFor, rows, fiber_append, covers.amounts, fiber_zipIdx entry, Repository.amountFor]
  · have others := other_of_not_pending held pending
    have silent : ¬ r.Writes i (e, j) := by
      intro writes
      exact pending (mem_getPendingSchedules.mpr ⟨held, e, mem_of_getElem? entry, writes.unrecognised⟩)
    rw [Repository.amountFor, covered.others i others, Run.recorded, if_neg silent, add_zero, Repository.amountFor]

structure Kept (schedules : List RevenueSchedule) (runs : List Run) (repo : Repository) : Prop where
  flags : ∃ p, repo.schedules = schedules.map (·.raise p) ∧
    ∀ i s j e, schedules[i]? = some s → s.entries[j]? = some e → p s.subscriptionId e.periodStart = true →
      e.isRecognised = true ∨ repo.amountFor i j = e.recognisedAmount
  nonneg : ∀ i s j e, schedules[i]? = some s → s.entries[j]? = some e → 0 ≤ repo.amountFor i j
  sums : Exact schedules runs repo

theorem Kept.new (wellFormed : ∀ s ∈ schedules, s.WellFormed) : Kept schedules [] (.new schedules) where
  flags := ⟨fun _ _ => false, by simp [Repository.new, RevenueSchedule.raise_none], by simp⟩
  nonneg _ _ _ _ _ _ := le_rfl
  sums :=
    { bounded := by
        intro i s j e held entry
        obtain ⟨-, cents, amount⟩ := wellFormed s (mem_of_getElem? held) e (mem_of_getElem? entry)
        rw [amount]
        exact div_nonneg (Nat.cast_nonneg _) (by norm_num)
      whole := by simp
      recognised _ := rfl
      deferred _ := neg_zero.symm
      deferredBefore := by simp [Repository.journaled, Repository.new] }

structure Advances (r : Run) (repo : Repository) (i j : ℕ) (e : RevenueScheduleEntry) : Prop where
  steady : repo.amountFor i j = e.recognisedAmount → (r.perform repo).amountFor i j = e.recognisedAmount
  bounded : (r.perform repo).amountFor i j ≤ e.recognisedAmount
  nonneg : 0 ≤ (r.perform repo).amountFor i j
  completes : r.Completes i (e, j) → (r.perform repo).amountFor i j = e.recognisedAmount

theorem Run.Careful.advances (loaded : r.failures.getPendingSchedules = false) (careful : r.Careful repo)
    (held : repo.schedules[i]? = some s) (entry : s.entries[j]? = some e) {cents : ℕ}
    (ordered : e.periodStart < e.periodEnd) (amount : e.recognisedAmount = cents / 100)
    (bounded : repo.amountFor i j ≤ e.recognisedAmount) (nonneg : 0 ≤ repo.amountFor i j) : Advances r repo i j e := by
  have added := amountFor_perform loaded careful held entry
  by_cases writes : r.Writes i (e, j)
  · have none_before := careful.amountFor_eq_zero held entry writes
    have most := compute_le r.now ordered amount
    rw [none_before, zero_add, Run.recorded, if_pos writes] at added
    refine ⟨?_, added ▸ most, added ▸ writes.1.le, ?_⟩
    · intro whole
      have due := writes.1
      rw [none_before] at whole
      linarith
    · intro completes
      rw [added]
      exact compute_of_ended ordered completes.2 writes.unrecognised
  · rw [Run.recorded, if_neg writes, add_zero] at added
    exact ⟨fun whole => added ▸ whole, added ▸ bounded, added ▸ nonneg, fun completes => absurd completes.1 writes⟩

theorem RevenueSchedule.getElem?_raise (p : String → ℤ → Bool) (entry : s.entries[j]? = some e) :
    (s.raise p).entries[j]? = some { e with isRecognised := e.isRecognised || p s.subscriptionId e.periodStart } := by
  rw [RevenueSchedule.raise, getElem?_map, entry, Option.map_some]
  by_cases raised : p s.subscriptionId e.periodStart = true
  · simp [raised]
  · simp [raised]

section

variable {p : String → ℤ → Bool} (wellFormed : ∀ s ∈ schedules, s.WellFormed) (kept : Kept schedules runs repo)
  (loaded : r.failures.getPendingSchedules = false) (careful : r.Careful repo)
  (flagged : repo.schedules = schedules.map (·.raise p))
include flagged

section

variable (known : schedules[i]? = some s)

include known

theorem stored_raise : repo.schedules[i]? = some (s.raise p) := by
  rw [flagged, getElem?_map, known, Option.map_some]

include wellFormed kept loaded careful

theorem Kept.advances (entry : s.entries[j]? = some e) :
    Advances r repo i j { e with isRecognised := e.isRecognised || p s.subscriptionId e.periodStart } := by
  obtain ⟨ordered, cents, amount⟩ := wellFormed s (mem_of_getElem? known) e (mem_of_getElem? entry)
  exact careful.advances loaded (stored_raise flagged known) (s.getElem?_raise p entry) ordered amount
    (kept.sums.bounded i s j e known entry) (kept.nonneg i s j e known entry)

theorem Kept.whole_of_marks {marking : RevenueSchedule × ℕ} (entry : s.entries[j]? = some e)
    (pending : marking ∈ repo.getPendingSchedules) (marks : r.Marks marking s.subscriptionId e.periodStart)
    (unrecognised : e.isRecognised = false) (unflagged : p s.subscriptionId e.periodStart = false) :
    (r.perform repo).amountFor i j = e.recognisedAmount := by
  have forward := kept.advances wellFormed loaded careful flagged known entry
  obtain ⟨fine, same, e', mem, completes, start⟩ := marks
  by_cases free : e.recognisedAmount = 0
  · exact forward.bounded.antisymm (le_of_eq_of_le free forward.nonneg)
  · have here := s.getElem?_raise p entry
    have full := careful.marked _ pending fine _ mem completes (s.raise p, i)
      (mk_mem_zipIdx_iff_getElem?.mpr (stored_raise flagged known)) same.symm (_, j)
      (mk_mem_zipIdx_iff_getElem?.mpr here) start.symm (by simp [unrecognised, unflagged]) free
    exact full.elim forward.steady forward.completes

theorem Kept.whole_of_clean (entry : s.entries[j]? = some e) (clean : r.Clean)
    (ended : e.periodEnd ≤ r.now) (unrecognised : e.isRecognised = false)
    (unflagged : p s.subscriptionId e.periodStart = false) : (r.perform repo).amountFor i j = e.recognisedAmount := by
  have forward := kept.advances wellFormed loaded careful flagged known entry
  obtain ⟨ordered, -⟩ := wellFormed s (mem_of_getElem? known) e (mem_of_getElem? entry)
  rw [unrecognised, unflagged] at forward
  have computed := compute_of_ended (e := { e with isRecognised := false || false }) ordered ended rfl
  by_cases pos : 0 < e.recognisedAmount
  · exact forward.completes ⟨⟨computed.symm ▸ pos, clean.writeJournalEntry i j⟩, ended⟩
  · exact forward.bounded.antisymm ((not_lt.mp pos).trans forward.nonneg)

omit wellFormed in
theorem Kept.deferredBefore_perform {before after : List Row} {row : Row}
    (split : (r.perform repo).journaled i = before ++ row :: after) :
    row.entry.deferredBefore = s.totalAmount - (before.map Row.amount).sum := by
  have covered := covered_perform loaded careful
  have old := kept.sums.deferredBefore i s known before row after
  by_cases pending : (s.raise p, i) ∈ repo.getPendingSchedules
  · obtain ⟨pass, covers, rows⟩ := covered.rows _ pending
    by_cases silent : pass.rows = []
    · rw [rows, silent, append_nil] at split
      exact old split
    · rw [rows, careful.fresh _ pending (covers.written silent), nil_append] at split
      exact covers.deferredBefore before row after split
  · rw [covered.others i (other_of_not_pending (stored_raise flagged known) pending)] at split
    exact old split

end

end

theorem Kept.perform (wellFormed : ∀ s ∈ schedules, s.WellFormed) (kept : Kept schedules runs repo)
    (loaded : r.failures.getPendingSchedules = false) (careful : r.Careful repo) :
    Kept schedules (runs ++ [r]) (r.perform repo) := by
  obtain ⟨p, flagged, origin⟩ := kept.flags
  have covered := covered_perform loaded careful
  refine ⟨?_, ?_, ?_, ?_, ?_, ?_, ?_⟩
  · obtain ⟨q, raised, marked⟩ := covered.flags
    refine ⟨fun sub start => p sub start || q sub start, ?_, ?_⟩
    · rw [raised, flagged, map_map]
      apply map_congr_left
      intro s _
      exact s.raise_raise p q
    · intro i s j e known entry flag
      cases unflagged : p s.subscriptionId e.periodStart with
      | true =>
        have forward := kept.advances wellFormed loaded careful flagged known entry
        exact (origin i s j e known entry unflagged).imp id forward.steady
      | false =>
        obtain ⟨marking, pending, marks⟩ := marked _ _ (by simpa [unflagged] using flag)
        cases unrecognised : e.isRecognised with
        | true => exact .inl rfl
        | false => exact .inr (kept.whole_of_marks wellFormed loaded careful flagged known entry pending marks unrecognised unflagged)
  · exact fun i s j e known entry => (kept.advances wellFormed loaded careful flagged known entry).nonneg
  · exact fun i s j e known entry => (kept.advances wellFormed loaded careful flagged known entry).bounded
  · intro i s j e known entry unrecognised due
    have forward := kept.advances wellFormed loaded careful flagged known entry
    cases flag : p s.subscriptionId e.periodStart with
    | true => exact forward.steady ((origin i s j e known entry flag).resolve_left (by simp [unrecognised]))
    | false =>
      obtain ⟨r', mem, clean, ended⟩ := due
      rcases mem_append.mp mem with old | new
      · exact forward.steady (kept.sums.whole i s j e known entry unrecognised ⟨r', old, clean, ended⟩)
      · obtain rfl := mem_singleton.mp new
        exact kept.whole_of_clean wellFormed loaded careful flagged known entry clean ended unrecognised flag
  · exact fun m => (covered.balanced (fun m => ⟨kept.sums.recognised m, kept.sums.deferred m⟩) m).1
  · exact fun m => (covered.balanced (fun m => ⟨kept.sums.recognised m, kept.sums.deferred m⟩) m).2
  · intro i s known before row after split
    exact kept.deferredBefore_perform loaded careful flagged known split

theorem Kept.unloaded (kept : Kept schedules runs repo) (failed : r.failures.getPendingSchedules = true) :
    Kept schedules (runs ++ [r]) (r.perform repo) := by
  have same : r.perform repo = repo := by rw [Run.perform, run, failed, if_pos rfl]
  rw [same]
  refine ⟨kept.flags, kept.nonneg, kept.sums.bounded, ?_, kept.sums.recognised, kept.sums.deferred, kept.sums.deferredBefore⟩
  intro i s j e known entry unrecognised due
  obtain ⟨r', mem, clean, ended⟩ := due
  rcases mem_append.mp mem with old | new
  · exact kept.sums.whole i s j e known entry unrecognised ⟨r', old, clean, ended⟩
  · obtain rfl := mem_singleton.mp new
    exact absurd clean.getPendingSchedules (by simp [failed])

end Step

section Exactness

variable {schedules : List RevenueSchedule} {runs : List Run}

theorem exact_of_careful (wellFormed : ∀ s ∈ schedules, s.WellFormed)
    (careful : Throughout Run.perform (.new schedules)
      (fun repo r => r.failures.getPendingSchedules = false → r.Careful repo) runs) :
    Exact schedules runs (runs.foldl Run.perform (.new schedules)) := by
  have kept : Kept schedules runs (runs.foldl Run.perform (.new schedules)) := by
    induction runs using List.reverseRecOn with
    | nil => exact .new wellFormed
    | append_singleton runs r ih =>
      rw [foldl_append, foldl_cons, foldl_nil]
      cases loaded : r.failures.getPendingSchedules with
      | false => exact (ih careful.init).perform wellFormed loaded (careful.last loaded)
      | true => exact (ih careful.init).unloaded loaded
  exact kept.sums

def Failures.never : Failures := ⟨false, fun _ _ => false, fun _ => false, fun _ => false⟩

def exampleEntry : RevenueScheduleEntry := ⟨0, 100, 100, false⟩

def exampleSchedule : RevenueSchedule := ⟨"sub", "merchant", 100, [exampleEntry]⟩

theorem exampleSchedule_wellFormed : ∀ s ∈ [exampleSchedule], s.WellFormed := by
  intro s mem e member
  obtain rfl := mem_singleton.mp mem
  obtain rfl := mem_singleton.mp member
  exact ⟨by decide, 10000, by norm_num [exampleEntry]⟩

theorem exact_exampleRuns :
    Exact [exampleSchedule] [⟨100, .never⟩] ([⟨100, .never⟩].foldl Run.perform (.new [exampleSchedule])) := by
  apply exact_of_careful exampleSchedule_wellFormed
  refine .cons (fun _ => ⟨fun _ _ _ => rfl, fun _ _ _ => rfl, ?_⟩) .nil
  intro s pending _ e member completes s' listed _ e' member' _ _ _
  obtain rfl : s' = (exampleSchedule, 0) := mem_singleton.mp listed
  obtain rfl : e' = (exampleEntry, 0) := mem_singleton.mp member'
  exact .inr ⟨by decide +kernel, by decide⟩

theorem not_always_exact : ¬ ∀ (schedules : List RevenueSchedule) (runs : List Run), (∀ s ∈ schedules, s.WellFormed) →
    (runs.map Run.now).Pairwise (· ≤ ·) → Exact schedules runs (runs.foldl Run.perform (.new schedules)) := by
  intro exactly
  have sums := exactly [exampleSchedule] [⟨50, .never⟩, ⟨100, .never⟩] exampleSchedule_wellFormed (by decide)
  have twice : ¬ ([⟨50, .never⟩, ⟨100, .never⟩].foldl Run.perform (.new [exampleSchedule])).amountFor 0 0 ≤ 100 := by decide +kernel
  exact twice (sums.bounded 0 exampleSchedule 0 exampleEntry rfl rfl)

end Exactness

end SubTrackr.RevenueJob
