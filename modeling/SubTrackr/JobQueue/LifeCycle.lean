import SubTrackr.JobQueue.Service
import SubTrackr.Lib.Runs

namespace SubTrackr.JobQueue

open Option List Lib

variable {π : Type}

def JobStatus.waiting : JobStatus → Bool
  | .pending | .retrying => true
  | _ => false

structure Job.Sound (j : Job π) : Prop where
  limited : (j.attempts : ℤ) ≤ max 1 j.maxAttempts
  again : j.status.waiting = true → j.attempts = 0 ∨ (j.attempts : ℤ) < j.maxAttempts
  punctual : j.status = .processing → ∀ t ∈ j.nextRetryAt, ∃ started ∈ j.startedAt, t ≤ started

namespace PriorityQueue

variable {s s' : PriorityQueue π} {i k : ℕ} {j : Job π} {now : ℤ}

def waiting (s : PriorityQueue π) : List ℕ := sortedPriorities.flatMap s.queues

def runningIds (s : PriorityQueue π) : List String := s.calls.filterMap fun job => s.jobs[job]?.map Job.id

/-- The job taken has an id that no running job has, and is not taken before its retry time. -/
def patient (s : PriorityQueue π) : Action π → Bool
  | .processNext now =>
    s.config.maxConcurrent ≤ s.processing.card ||
      (s.waiting.head?.bind fun job => s.jobs[job]?).all fun j =>
        j.type ∉ s.handlers || (j.id ∉ s.processing && j.nextRetryAt.all fun t => t ≤ now)
  | _ => true

structure Placed (s : PriorityQueue π) (i : ℕ) (j : Job π) : Prop where
  waits : s.waiting.count i = if j.status.waiting then 1 else 0
  runs : s.calls.count i = if j.status = .processing then 1 else 0
  tried : s.attempted.count i = j.attempts

structure Unknown (s : PriorityQueue π) (i : ℕ) : Prop where
  waits : s.waiting.count i = 0
  runs : s.calls.count i = 0
  tried : s.attempted.count i = 0

structure Sound (s : PriorityQueue π) : Prop where
  placed (i : ℕ) (j : Job π) : s.jobs[i]? = some j → s.Placed i j ∧ j.Sound
  unknown (i : ℕ) : s.jobs.length ≤ i → s.Unknown i
  distinct : s.runningIds.Nodup
  running : s.processing = s.runningIds.toFinset
  room : s.calls.length ≤ s.config.maxConcurrent
  total : s.metrics.totalProcessed + s.metrics.totalFailed + s.waiting.length + s.calls.length = s.jobs.length

theorem waiting_eq (s : PriorityQueue π) : s.waiting =
    s.queues .critical ++ (s.queues .high ++ (s.queues .medium ++ s.queues .low)) := by
  rw [waiting, sortedPriorities_eq]
  simp

theorem getPendingCount_eq (s : PriorityQueue π) : s.getPendingCount = s.waiting.length := by
  rw [waiting_eq]
  simp [getPendingCount]

theorem push_waiting (s : PriorityQueue π) (priority : JobPriority) (i : ℕ) :
    (s.push priority i).waiting.Perm (i :: s.waiting) := by
  rw [perm_iff_count]
  intro k
  rw [waiting_eq, waiting_eq]
  cases priority <;> simp [push, count_append, count_cons] <;> omega

theorem dequeue_cases (s : PriorityQueue π) : (s.dequeue = none ∧ s.waiting = []) ∨
    ∃ i queues, s.dequeue = some (i, { s with queues }) ∧ s.waiting = i :: { s with queues }.waiting := by
  simp only [dequeue, waiting_eq, sortedPriorities_eq, findSome?_cons]
  cases critical : s.queues .critical with
  | cons i rest => exact .inr ⟨i, _, rfl, by simp⟩
  | nil =>
    cases high : s.queues .high with
    | cons i rest => exact .inr ⟨i, _, rfl, by simp [critical]⟩
    | nil =>
      cases medium : s.queues .medium with
      | cons i rest => exact .inr ⟨i, _, rfl, by simp [critical, high]⟩
      | nil =>
        cases low : s.queues .low with
        | cons i rest => exact .inr ⟨i, _, rfl, by simp [critical, high, medium]⟩
        | nil => exact .inl ⟨rfl, rfl⟩

structure Touches (s s' : PriorityQueue π) (i : ℕ) (f : Job π → Job π) : Prop where
  jobs : s'.jobs = s.jobs.modify i f
  waits (k : ℕ) : k ≠ i → s'.waiting.count k = s.waiting.count k
  runs (k : ℕ) : k ≠ i → s'.calls.count k = s.calls.count k
  tried (k : ℕ) : k ≠ i → s'.attempted.count k = s.attempted.count k

variable {f : Job π → Job π}

theorem Touches.length (touches : s.Touches s' i f) : s'.jobs.length = s.jobs.length := by
  rw [touches.jobs, length_modify]

theorem Touches.placed (touches : s.Touches s' i f) (sound : s.Sound) (known : s.jobs[i]? = some j)
    (fine : s'.Placed i (f j) ∧ (f j).Sound) (k : ℕ) (job : Job π) (found : s'.jobs[k]? = some job) :
    s'.Placed k job ∧ job.Sound := by
  rw [touches.jobs] at found
  rcases eq_or_ne k i with rfl | other
  · rw [getElem?_modify_eq, known] at found
    cases found
    exact fine
  · rw [getElem?_modify_ne _ _ other.symm] at found
    obtain ⟨placed, within⟩ := sound.placed k job found
    refine ⟨⟨?_, ?_, ?_⟩, within⟩
    · rw [touches.waits k other, placed.waits]
    · rw [touches.runs k other, placed.runs]
    · rw [touches.tried k other, placed.tried]

theorem Touches.unknown (touches : s.Touches s' i f) (sound : s.Sound) (known : s.jobs[i]? = some j) (k : ℕ)
    (large : s'.jobs.length ≤ k) : s'.Unknown k := by
  rw [touches.length] at large
  obtain ⟨short, -⟩ := List.getElem?_eq_some_iff.mp known
  have other : k ≠ i := by omega
  have unknown := sound.unknown k large
  refine ⟨?_, ?_, ?_⟩
  · rw [touches.waits k other, unknown.waits]
  · rw [touches.runs k other, unknown.runs]
  · rw [touches.tried k other, unknown.tried]

theorem modify_id (jobs : List (Job π)) (f : Job π → Job π) (kept : ∀ j, (f j).id = j.id) (k : ℕ) :
    (jobs.modify i f)[k]?.map Job.id = jobs[k]?.map Job.id := by
  rw [getElem?_modify]
  cases jobs[k]? with
  | none => rfl
  | some j =>
    split
    · exact congrArg some (kept j)
    · rfl

theorem head_waits (sound : s.Sound) {rest : List ℕ} (head : s.waiting = i :: rest) (known : s.jobs[i]? = some j) :
    j.status.waiting = true ∧ rest.count i = 0 ∧ ∀ k, k ≠ i → rest.count k = s.waiting.count k := by
  have waits := (sound.placed i j known).1.waits
  rw [head, count_cons_self] at waits
  split at waits
  · rename_i waiting
    refine ⟨waiting, by omega, fun k other => ?_⟩
    rw [head, count_cons_of_ne other.symm]
  · omega

theorem head_known (sound : s.Sound) {rest : List ℕ} (head : s.waiting = i :: rest) : ∃ j, s.jobs[i]? = some j := by
  rcases Nat.lt_or_ge i s.jobs.length with short | large
  · exact ⟨_, getElem?_eq_getElem short⟩
  · have none := (sound.unknown i large).waits
    rw [head, count_cons_self] at none
    omega

theorem new_sound (config : QueueConfig) : (new config : PriorityQueue π).Sound where
  placed _ _ known := nomatch known
  unknown i _ := ⟨by rw [waiting_eq]; rfl, rfl, rfl⟩
  distinct := nodup_nil
  running := rfl
  room := Nat.zero_le _
  total := by rw [waiting_eq]; rfl

theorem enqueue_sound (sound : s.Sound) (type : String) (payload : π) (priority : JobPriority) (random : String) (now : ℤ) :
    (s.enqueue type payload priority random now).Sound := by
  have pushed : (s.enqueue type payload priority random now).waiting.Perm (s.jobs.length :: s.waiting) :=
    push_waiting s priority s.jobs.length
  have last := sound.unknown s.jobs.length le_rfl
  have known (k : ℕ) (mem : k ∈ s.calls) : k < s.jobs.length := by
    by_contra large
    have none := (sound.unknown k (by omega)).runs
    exact count_eq_zero.mp none mem
  have ids : (s.enqueue type payload priority random now).runningIds = s.runningIds := by
    refine filterMap_congr fun k mem => ?_
    rw [enqueue, getElem?_append_left (known k mem)]
  constructor
  · intro k job found
    rw [enqueue] at found
    dsimp only at found
    rcases Nat.lt_trichotomy k s.jobs.length with short | rfl | large
    · rw [getElem?_append_left short] at found
      obtain ⟨placed, fine⟩ := sound.placed k job found
      refine ⟨⟨?_, placed.runs, placed.tried⟩, fine⟩
      rw [pushed.count_eq, count_cons_of_ne (by omega), placed.waits]
    · rw [getElem?_concat_length] at found
      cases found
      refine ⟨⟨?_, last.runs, last.tried⟩, ⟨by simp, fun _ => .inl rfl, nofun⟩⟩
      rw [pushed.count_eq, count_cons_self, last.waits]
      rfl
    · rw [getElem?_eq_none (by simp; omega)] at found
      cases found
  · intro k large
    rw [enqueue] at large
    simp only [length_append, length_singleton] at large
    have unknown := sound.unknown k (by omega)
    refine ⟨?_, unknown.runs, unknown.tried⟩
    rw [pushed.count_eq, count_cons_of_ne (by omega), unknown.waits]
  · rw [ids]
    exact sound.distinct
  · rw [ids]
    exact sound.running
  · exact sound.room
  · have total := sound.total
    rw [pushed.length_eq, length_cons]
    simp only [enqueue, push, length_append, length_singleton]
    omega

theorem calls_known (sound : s.Sound) (mem : k ∈ s.calls) : ∃ j, s.jobs[k]? = some j := by
  rcases Nat.lt_or_ge k s.jobs.length with short | large
  · exact ⟨_, getElem?_eq_getElem short⟩
  · exact absurd mem (count_eq_zero.mp (sound.unknown k large).runs)

theorem processing_card (sound : s.Sound) : s.processing.card = s.calls.length := by
  rw [sound.running, toFinset_card_of_nodup sound.distinct]
  refine filterMap_length_eq_length.mpr fun k mem => ?_
  obtain ⟨j, known⟩ := calls_known sound mem
  rw [known]
  rfl

theorem start_sound (sound : s.Sound) {queues : JobPriority → List ℕ}
    (head : s.waiting = i :: { s with queues }.waiting) (known : s.jobs[i]? = some j) (free : j.id ∉ s.processing)
    (due : ∀ t ∈ j.nextRetryAt, t ≤ now) (below : s.processing.card < s.config.maxConcurrent) :
    ({ s with queues }.start i j now).Sound := by
  obtain ⟨waits, gone, others⟩ := head_waits sound head known
  obtain ⟨placed, fine⟩ := sound.placed i j known
  have idle : s.calls.count i = 0 := by
    rw [placed.runs, if_neg]
    intro processing
    rw [processing] at waits
    cases waits
  have touches : s.Touches ({ s with queues }.start i j now) i (begin now) := by
    refine ⟨rfl, others, fun k other => ?_, fun k other => ?_⟩
    · simp [start, count_append, other.symm]
    · simp [start, count_append, other.symm]
  have ids : ({ s with queues }.start i j now).runningIds = s.runningIds ++ [j.id] := by
    have same (k : ℕ) : (s.jobs.modify i (begin now))[k]?.map Job.id = s.jobs[k]?.map Job.id :=
      modify_id s.jobs (begin now) (fun _ => rfl) k
    simp only [runningIds, start, modify, same, filterMap_append, filterMap_cons, known, map_some,
      filterMap_nil]
  have new : j.id ∉ s.runningIds := by
    rw [sound.running, List.mem_toFinset] at free
    exact free
  constructor
  · refine touches.placed sound known ⟨⟨gone, ?_, ?_⟩, ⟨?_, nofun, ?_⟩⟩
    · simp [start, begin, count_append, idle]
    · simp [start, begin, count_append, placed.tried]
    · have again := fine.again waits
      change ((j.attempts + 1 : ℕ) : ℤ) ≤ max 1 j.maxAttempts
      omega
    · intro _ t retry
      exact ⟨now, rfl, due t retry⟩
  · exact touches.unknown sound known
  · rw [ids]
    exact nodup_append.mpr ⟨sound.distinct, nodup_singleton _, by
      rintro id running _ mem rfl
      rw [mem_singleton.mp mem] at running
      exact new running⟩
  · rw [ids, toFinset_append, ← sound.running]
    ext id
    simp [start]
  · have card := processing_card sound
    simp only [start, modify, length_append, length_singleton]
    omega
  · have total := sound.total
    rw [head, length_cons] at total
    simp only [start, modify, length_append, length_singleton, length_modify]
    change s.metrics.totalProcessed + s.metrics.totalFailed + { s with queues }.waiting.length + (s.calls.length + 1) = _
    omega

theorem noHandler_sound (sound : s.Sound) {queues : JobPriority → List ℕ}
    (head : s.waiting = i :: { s with queues }.waiting) (known : s.jobs[i]? = some j) :
    ({ s with queues }.modify i noHandler).countFailed.Sound := by
  obtain ⟨waits, gone, others⟩ := head_waits sound head known
  obtain ⟨placed, fine⟩ := sound.placed i j known
  have touches : s.Touches ({ s with queues }.modify i noHandler).countFailed i noHandler :=
    ⟨rfl, others, fun _ _ => rfl, fun _ _ => rfl⟩
  have ids : ({ s with queues }.modify i noHandler).countFailed.runningIds = s.runningIds := by
    have same (k : ℕ) : (s.jobs.modify i noHandler)[k]?.map Job.id = s.jobs[k]?.map Job.id :=
      modify_id s.jobs noHandler (fun _ => rfl) k
    simp only [runningIds, countFailed, modify, same]
  constructor
  · refine touches.placed sound known ⟨⟨gone, ?_, placed.tried⟩, ⟨fine.limited, nofun, nofun⟩⟩
    refine placed.runs.trans (if_neg ?_)
    intro processing
    rw [processing] at waits
    cases waits
  · exact touches.unknown sound known
  · rw [ids]
    exact sound.distinct
  · rw [ids]
    exact sound.running
  · exact sound.room
  · have total := sound.total
    rw [head, length_cons] at total
    rw [touches.length]
    change s.metrics.totalProcessed + (s.metrics.totalFailed + 1) + { s with queues }.waiting.length + s.calls.length = _
    omega

theorem processNext_sound (sound : s.Sound) (patient : s.patient (.processNext now) = true) : (s.processNext now).Sound := by
  unfold processNext
  split
  · exact sound
  · rename_i below
    rcases dequeue_cases s with ⟨empty, -⟩ | ⟨i, queues, taken, head⟩
    · rw [empty]
      exact sound
    · obtain ⟨j, known⟩ := head_known sound head
      rw [taken]
      simp only [known]
      split
      · rename_i registered
        have allowed : (s.config.maxConcurrent ≤ s.processing.card) ∨ j.type ∉ s.handlers ∨
            j.id ∉ s.processing ∧ ∀ t ∈ j.nextRetryAt, t ≤ now := by
          simpa [PriorityQueue.patient, head, known, Option.all_eq_true] using patient
        rcases allowed with full | missing | ⟨free, due⟩
        · exact absurd full below
        · exact absurd registered missing
        · exact start_sound sound head known free due (Nat.lt_of_not_le below)
      · exact noHandler_sound sound head known

variable {call : ℕ}

theorem calls_perm (found : s.calls[call]? = some i) : s.calls.Perm (i :: s.calls.eraseIdx call) := by
  obtain ⟨short, rfl⟩ := List.getElem?_eq_some_iff.mp found
  exact (List.getElem_cons_eraseIdx_perm short).symm

section

variable (sound : s.Sound) (found : s.calls[call]? = some i) (known : s.jobs[i]? = some j)

include sound found known

theorem release_sound
    {ended : PriorityQueue π} (jobs : ended.jobs = s.jobs.modify i f) (calls : ended.calls = s.calls)
    (processing : ended.processing = s.processing) (attempted : ended.attempted = s.attempted)
    (config : ended.config = s.config) (ids : ∀ j, (f j).id = j.id) (attempts : (f j).attempts = j.attempts)
    (stopped : (f j).status ≠ .processing) (fine : (f j).Sound)
    (waits : ended.waiting.Perm ((if (f j).status.waiting then [i] else []) ++ s.waiting))
    (total : ended.metrics.totalProcessed + ended.metrics.totalFailed + ended.waiting.length =
      s.metrics.totalProcessed + s.metrics.totalFailed + s.waiting.length + 1) : (ended.release call j).Sound := by
  have moved := calls_perm found
  obtain ⟨placed, -⟩ := sound.placed i j known
  have running : j.status = .processing := by
    have once := placed.runs
    rw [moved.count_eq, count_cons_self] at once
    split at once
    · assumption
    · omega
  have idle : (s.calls.eraseIdx call).count i = 0 := by
    have once := placed.runs
    rw [moved.count_eq, count_cons_self, if_pos running] at once
    omega
  have alone : s.waiting.count i = 0 := by
    rw [placed.waits, running]
    rfl
  have touches : s.Touches (ended.release call j) i f := by
    refine ⟨jobs, fun k other => ?_, fun k other => ?_, fun k _ => ?_⟩
    · change ended.waiting.count k = _
      rw [waits.count_eq, count_append]
      split
      · rw [count_cons_of_ne other.symm, count_nil, Nat.zero_add]
      · rw [count_nil, Nat.zero_add]
    · rw [moved.count_eq, count_cons_of_ne other.symm, release, calls]
    · rw [release, attempted]
  have kept : s.runningIds.Perm (j.id :: (ended.release call j).runningIds) := by
    have mapped := moved.filterMap fun job => s.jobs[job]?.map Job.id
    rw [filterMap_cons, known] at mapped
    have same (k : ℕ) : (s.jobs.modify i f)[k]?.map Job.id = s.jobs[k]?.map Job.id := modify_id s.jobs f ids k
    simp only [runningIds, release, jobs, calls, same]
    exact mapped
  have nodup := kept.nodup_iff.mp sound.distinct
  constructor
  · refine touches.placed sound known ⟨⟨?_, ?_, ?_⟩, fine⟩
    · change ended.waiting.count i = _
      rw [waits.count_eq, count_append, alone]
      split
      · rw [count_cons_self, count_nil]
      · rw [count_nil]
    · rw [if_neg stopped, release, calls]
      exact idle
    · rw [release, attempted, attempts, placed.tried]
  · exact touches.unknown sound known
  · exact (nodup_cons.mp nodup).2
  · rw [release, processing, sound.running, toFinset_eq_of_perm _ _ kept, toFinset_cons]
    refine Finset.erase_insert ?_
    rw [List.mem_toFinset]
    exact (nodup_cons.mp nodup).1
  · have room := sound.room
    rw [moved.length_eq, length_cons] at room
    rw [release, calls, config]
    exact (Nat.le_succ _).trans room
  · have all := sound.total
    rw [moved.length_eq, length_cons] at all
    rw [touches.length, ← all]
    change ended.metrics.totalProcessed + ended.metrics.totalFailed + ended.waiting.length +
      (ended.calls.eraseIdx call).length = _
    rw [calls]
    omega

theorem complete_sound (now : ℤ) : ((s.complete i j now).release call j).Sound := by
  obtain ⟨-, fine⟩ := sound.placed i j known
  refine release_sound sound found known rfl rfl rfl rfl rfl (fun _ => rfl) rfl nofun ⟨fine.limited, nofun, nofun⟩ (.refl _) ?_
  change s.metrics.totalProcessed + 1 + s.metrics.totalFailed + s.waiting.length = _
  omega

theorem fail_sound (error : String)
    (now : ℤ) : ((s.fail i j error now).release call j).Sound := by
  obtain ⟨-, fine⟩ := sound.placed i j known
  unfold fail
  split
  · rename_i left
    have pushed := push_waiting (s.modify i (retry error (now + s.config.retryDelayMs * j.attempts))) j.priority i
    refine release_sound sound found known rfl rfl rfl rfl rfl (fun _ => rfl) rfl nofun
      ⟨fine.limited, fun _ => .inr left, nofun⟩ pushed ?_
    rw [pushed.length_eq]
    exact (Nat.add_assoc ..).symm
  · refine release_sound sound found known rfl rfl rfl rfl rfl (fun _ => rfl) rfl nofun
      ⟨fine.limited, nofun, nofun⟩ (.refl _) ?_
    change s.metrics.totalProcessed + (s.metrics.totalFailed + 1) + s.waiting.length = _
    omega

end

theorem step_sound {action : Action π} (sound : s.Sound) (patient : s.patient action = true)
    (stepped : s.step action = some s') : s'.Sound := by
  cases action with
  | registerHandler type =>
    cases stepped
    exact ⟨fun i j known => ⟨⟨(sound.placed i j known).1.waits, (sound.placed i j known).1.runs,
      (sound.placed i j known).1.tried⟩, (sound.placed i j known).2⟩, fun i large => ⟨(sound.unknown i large).waits,
      (sound.unknown i large).runs, (sound.unknown i large).tried⟩, sound.distinct, sound.running, sound.room, sound.total⟩
  | enqueue type payload priority random now =>
    cases stepped
    exact enqueue_sound sound type payload priority random now
  | processNext now =>
    cases stepped
    exact processNext_sound sound patient
  | settle call error now =>
    obtain ⟨i, found, stepped⟩ := bind_eq_some_iff.mp stepped
    obtain ⟨j, known, stepped⟩ := bind_eq_some_iff.mp stepped
    cases error with
    | none =>
      cases stepped
      exact complete_sound sound found known now
    | some error =>
      cases stepped
      exact fail_sound sound found known error now

theorem step_config {action : Action π} (stepped : s.step action = some s') : s'.config = s.config := by
  cases action with
  | registerHandler | enqueue =>
    cases stepped
    rfl
  | processNext now =>
    cases stepped
    unfold processNext
    split
    · rfl
    · rcases dequeue_cases s with ⟨empty, -⟩ | ⟨i, queues, taken, -⟩
      · rw [empty]
      · rw [taken]
        dsimp only
        split
        · rfl
        · split <;> rfl
  | settle call error now =>
    obtain ⟨i, found, stepped⟩ := bind_eq_some_iff.mp stepped
    obtain ⟨j, known, stepped⟩ := bind_eq_some_iff.mp stepped
    cases error with
    | none =>
      cases stepped
      rfl
    | some error =>
      cases stepped
      unfold fail
      split <;> rfl

end PriorityQueue

open PriorityQueue

/-- In a run that takes no job before its retry time, and none whose id a running job has, every job is in one place and
    attempted as often as it may be, and no attempt starts before the retry time set by the one before. -/
theorem life_cycle {config : QueueConfig} {s : PriorityQueue π}
    (run : Runs PriorityQueue.step (fun s action => s.patient action = true) (new config) s) :
    (∀ i j, s.jobs[i]? = some j →
      s.waiting.count i + s.calls.count i + (if j.status = .completed then 1 else 0) +
        (if j.status = .failed then 1 else 0) = 1 ∧
      (s.attempted.count i : ℤ) ≤ max 1 j.maxAttempts ∧
      (j.status = .processing → ∀ t ∈ j.nextRetryAt, ∃ started ∈ j.startedAt, t ≤ started)) ∧
    s.processing.card = s.calls.length ∧ s.processing.card ≤ config.maxConcurrent ∧
    s.metrics.totalProcessed + s.metrics.totalFailed + s.getPendingCount + s.processing.card = s.jobs.length := by
  have sound : s.Sound :=
    run.keeps Sound (new_sound config) fun _ _ _ sound patient stepped => step_sound sound patient stepped
  have kept : s.config = config :=
    run.keeps (·.config = config) rfl fun _ _ _ kept _ stepped => (step_config stepped).trans kept
  have card := processing_card sound
  refine ⟨fun i j known => ?_, card, ?_, ?_⟩
  · obtain ⟨placed, fine⟩ := sound.placed i j known
    refine ⟨?_, ?_, fine.punctual⟩
    · rw [placed.waits, placed.runs]
      cases j.status <;> decide
    · rw [placed.tried]
      exact fine.limited
  · rw [card, ← kept]
    exact sound.room
  · rw [card, getPendingCount_eq]
    exact sound.total

section Sample

def small : PriorityQueue Unit := new ⟨2, 3, 1000⟩

def mail (random : String) : Action Unit := .enqueue "mail" () .medium random 0

theorem life_cycle_retried : ∃ s : PriorityQueue Unit, s.metrics.totalProcessed = 1 ∧
    (s.attempted.count 0 : ℤ) ≤ max 1 3 := by
  obtain ⟨s, run, done, found⟩ : ∃ s, Runs step (fun s action => s.patient action = true) small s ∧
      s.metrics.totalProcessed = 1 ∧ s.jobs[0]?.map (·.maxAttempts) = some 3 :=
    Runs.exists_of_foldlM [.registerHandler "mail", mail "x", .processNext 5, .settle 0 (some "timeout") 10,
      .processNext 1010, .settle 0 none 1020] (by decide +kernel)
  obtain ⟨j, known, max⟩ := map_eq_some_iff.mp found
  refine ⟨s, done, ?_⟩
  rw [← max]
  exact ((life_cycle run).1 0 j known).2.1

/-- A job that failed is attempted 10 ms later, though its retry time is 1000 ms away; and two running jobs with one id count
    as one. -/
theorem not_life_cycle :
    (∃ s, Runs step anyAction small s ∧ s.jobs[0]?.map (fun j => (j.status, j.startedAt, j.nextRetryAt)) =
      some (.processing, some 20, some 1010)) ∧
    ∃ s, Runs step anyAction small s ∧ s.config.maxConcurrent < s.calls.length := by
  constructor
  · exact Runs.exists_of_foldlM [.registerHandler "mail", mail "x", .processNext 5, .settle 0 (some "timeout") 10,
      .processNext 20] (by decide +kernel)
  · exact Runs.exists_of_foldlM [.registerHandler "mail", mail "x", mail "x", mail "y", .processNext 5, .processNext 5,
      .processNext 5] (by decide +kernel)

end Sample

end SubTrackr.JobQueue
