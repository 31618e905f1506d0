import SubTrackr.Lib.Store
import Mathlib.Algebra.Order.Ring.Int

namespace SubTrackr.Indexer

open List Lib

structure Block where
  number : ℤ
  (hash parentHash : String)
  deriving DecidableEq

structure BlockEvent where
  blockNumber : ℤ
  transactionHash : String
  logIndex : ℕ
  data : String
  deriving DecidableEq

/-- What the key of an event joins; the numbers contain no colon, so keys are equal exactly when these are. -/
def BlockEvent.key (e : BlockEvent) : ℤ × String × ℕ := (e.blockNumber, e.transactionHash, e.logIndex)

structure IndexerCheckpoint where
  safeBlock : ℤ
  safeBlockHash : String
  deriving DecidableEq

structure WorkerResult where
  blockNumber : ℤ
  blockHash : String
  events : List BlockEvent
  error : Option String
  deriving DecidableEq

/-- An empty message counts as no error. -/
def WorkerResult.failed (r : WorkerResult) : Bool := r.error.any (· ≠ "")

structure IndexerConfig where
  (batchSize reorgSafeDepth maxRetries : ℕ)

/-- How an attempt at a block ends: `fetchBlock` returns null, it or `extractEvents` throws, or both return. -/
inductive Attempt
  | notFound
  | failed (message : String)
  | found (block : Block) (events : List BlockEvent)

/-- The answers of the outside during one poll: the head of the chain (or a failure), each attempt at each block,
    and whether the calls of `onEvents` succeed, by their number in the poll. -/
structure Answers where
  tip : Option ℤ
  attempt : ℤ → ℕ → Attempt
  accepts : ℕ → Bool

/-- A call of `onEvents` that succeeded, with the numbers of the blocks that the events are of. -/
structure Delivery where
  blocks : List ℤ
  events : List BlockEvent

structure BlockIndexer where
  nextBlock : ℤ
  indexedHashes : Store ℤ String
  delivered : List Delivery
  checkpoints : List IndexerCheckpoint
  reorgs : List ℤ
  calls : ℕ

abbrev Run := EStateM Unit BlockIndexer Unit

def process (blockNumber : ℤ) : Attempt → WorkerResult
  | .notFound => ⟨blockNumber, "", [], some "Block not found"⟩
  | .failed message => ⟨blockNumber, "", [], some message⟩
  | .found block events => ⟨block.number, block.hash, events, none⟩

def blockNumbers (first last : ℤ) : List ℤ := (List.range (last - first + 1).toNat).map fun i : ℕ => first + i

def processRange (answers : Answers) (first last : ℤ) : List WorkerResult :=
  (blockNumbers first last).map fun n => process n (answers.attempt n 0)

section Handling

variable (answers : Answers)

def onEvents (blocks : List ℤ) (events : List BlockEvent) : Run := fun s =>
  let called := { s with calls := s.calls + 1 }
  if answers.accepts s.calls then .ok () { called with delivered := s.delivered ++ [⟨blocks, events⟩] }
  else .error () called

def record (result : WorkerResult) : Run := fun s =>
  .ok () { s with indexedHashes := put s.indexedHashes result.blockNumber result.blockHash }

def retryBlock (blockNumber : ℤ) : (attempt remaining : ℕ) → Run
  | _, 0 => pure ()
  | attempt, remaining + 1 =>
    let result := process blockNumber (answers.attempt blockNumber attempt)
    if result.failed then retryBlock blockNumber (attempt + 1) remaining
    else do
      record result
      if result.events ≠ [] then onEvents answers [result.blockNumber] result.events

def unique (seen : List (ℤ × String × ℕ)) : List BlockEvent → List BlockEvent
  | [] => []
  | e :: es => if e.key ∈ seen then unique seen es else e :: unique (e.key :: seen) es

def handleResults (config : IndexerConfig) (results : List WorkerResult) : Run := do
  let good := results.filter fun result => !result.failed
  let retries := (results.filter (·.failed)).map (·.blockNumber)
  let allEvents := good.flatMap (·.events)
  good.forM record
  retries.forM fun blockNumber => retryBlock answers blockNumber 1 config.maxRetries
  if allEvents ≠ [] then onEvents answers (good.map (·.blockNumber)) (unique [] allEvents)

end Handling

def conflicts (s : BlockIndexer) (result : WorkerResult) : Bool :=
  !result.failed && result.blockHash ≠ "" &&
    (s.indexedHashes result.blockNumber).any fun known => known ≠ "" && known ≠ result.blockHash

/-- The first result whose hash is not the one recorded for its block; the parent hashes are not looked at. -/
def detectReorg (s : BlockIndexer) (results : List WorkerResult) : Option WorkerResult := results.find? (conflicts s)

inductive Outcome
  | idle
  | reorg (result : WorkerResult)
  | handled
  | failed

def batchTo (config : IndexerConfig) (answers : Answers) (s : BlockIndexer) : Option ℤ :=
  match answers.tip with
  | none => none
  | some tip =>
    let safeHead := tip - config.reorgSafeDepth
    if safeHead < s.nextBlock then none else some (min (s.nextBlock + config.batchSize - 1) safeHead)

def checkpoint (results : List WorkerResult) : List IndexerCheckpoint :=
  match results.getLast? with
  | some lastGood => if lastGood.failed then [] else [⟨lastGood.blockNumber, lastGood.blockHash⟩]
  | none => []

def poll (config : IndexerConfig) (answers : Answers) (s : BlockIndexer) : BlockIndexer × Outcome :=
  match batchTo config answers s with
  | none => (s, .idle)
  | some batchTo =>
    let results := processRange answers s.nextBlock batchTo
    match detectReorg s results with
    | some result =>
      ({ s with nextBlock := result.blockNumber, reorgs := s.reorgs ++ [result.blockNumber] }, .reorg result)
    | none =>
      match handleResults answers config results { s with calls := 0 } with
      | .error _ s' => (s', .failed)
      | .ok _ s' =>
        ({ s' with nextBlock := batchTo + 1, checkpoints := s'.checkpoints ++ checkpoint results }, .handled)

def start (config : IndexerConfig) (startBlock : ℤ) (checkpoint : Option IndexerCheckpoint) (cpBlock : Option Block) :
    BlockIndexer :=
  let fresh : BlockIndexer := ⟨startBlock, fun _ => none, [], [], [], 0⟩
  match checkpoint with
  | none => fresh
  | some checkpoint =>
    if cpBlock.any (·.hash = checkpoint.safeBlockHash) then { fresh with nextBlock := checkpoint.safeBlock + 1 }
    else
      let rollbackTo := max startBlock (checkpoint.safeBlock - config.reorgSafeDepth)
      { fresh with nextBlock := rollbackTo, reorgs := [rollbackTo] }

inductive Polled (config : IndexerConfig) (allowed : Answers → BlockIndexer → Prop) (s : BlockIndexer) :
    BlockIndexer → Prop
  | start : Polled config allowed s s
  | poll {t : BlockIndexer} (answers : Answers) (reached : Polled config allowed s t) (permitted : allowed answers t) :
      Polled config allowed s (poll config answers t).1

inductive Task
  | record (result : WorkerResult)
  | deliver (delivery : Delivery)

def firstGood (answers : Answers) (blockNumber : ℤ) : (attempt remaining : ℕ) → Option WorkerResult
  | _, 0 => none
  | attempt, remaining + 1 =>
    let result := process blockNumber (answers.attempt blockNumber attempt)
    if result.failed then firstGood answers blockNumber (attempt + 1) remaining else some result

def settle (result : WorkerResult) : List Task :=
  if result.events ≠ [] then [.record result, .deliver ⟨[result.blockNumber], result.events⟩] else [.record result]

def tasks (config : IndexerConfig) (answers : Answers) (results : List WorkerResult) : List Task :=
  let good := results.filter fun result => !result.failed
  let retries := (results.filter (·.failed)).map (·.blockNumber)
  let retried := retries.filterMap fun blockNumber => firstGood answers blockNumber 1 config.maxRetries
  let allEvents := good.flatMap (·.events)
  good.map .record ++ retried.flatMap settle ++
    if allEvents ≠ [] then [.deliver ⟨good.map (·.blockNumber), unique [] allEvents⟩] else []

def deliveries (ts : List Task) : List Delivery :=
  ts.filterMap fun
    | .record _ => none
    | .deliver delivery => some delivery

def recordAll (ts : List Task) (hashes : Store ℤ String) : Store ℤ String :=
  ts.foldl (fun hashes task => match task with
    | .record result => put hashes result.blockNumber result.blockHash
    | .deliver _ => hashes) hashes

section Perform

variable (answers : Answers)

def Task.perform : Task → Run
  | .record result => Indexer.record result
  | .deliver delivery => onEvents answers delivery.blocks delivery.events

theorem settle_forM (result : WorkerResult) : forM (settle result) (Task.perform answers) =
    (do record result; if result.events ≠ [] then onEvents answers [result.blockNumber] result.events) := by
  unfold settle
  split
  · simp [Task.perform]
  · simp [Task.perform]

theorem retryBlock_eq (blockNumber : ℤ) (attempt remaining : ℕ) : retryBlock answers blockNumber attempt remaining =
      forM ((firstGood answers blockNumber attempt remaining).toList.flatMap settle) (Task.perform answers) := by
  induction remaining generalizing attempt with
  | zero => rfl
  | succ remaining ih =>
    unfold retryBlock firstGood
    by_cases failed : (process blockNumber (answers.attempt blockNumber attempt)).failed
    · simp only [failed, if_true, ih]
    · simp only [failed, Bool.false_eq_true, if_false, Option.toList_some, flatMap_singleton, settle_forM]

theorem retries_forM (remaining : ℕ) (retries : List ℤ) :
    (forM retries fun blockNumber => retryBlock answers blockNumber 1 remaining) =
      forM ((retries.filterMap fun blockNumber => firstGood answers blockNumber 1 remaining).flatMap settle)
        (Task.perform answers) := by
  induction retries with
  | nil => rfl
  | cons blockNumber retries ih =>
    rw [forM_cons, ih, retryBlock_eq, filterMap_cons]
    cases firstGood answers blockNumber 1 remaining with
    | none => simp
    | some result => simp

theorem handleResults_eq (config : IndexerConfig) (results : List WorkerResult) :
    handleResults answers config results = forM (tasks config answers results) (Task.perform answers) := by
  unfold handleResults tasks
  simp only [forM_eq_forM, retries_forM]
  simp only [forM_append, forM_map, Task.perform, bind_assoc]
  split
  · simp [Task.perform]
  · simp

end Perform

section Effects

def after (ts : List Task) (s : BlockIndexer) : BlockIndexer :=
  { s with
    indexedHashes := recordAll ts s.indexedHashes
    delivered := s.delivered ++ deliveries ts
    calls := s.calls + (deliveries ts).length }

variable {answers : Answers} {ts : List Task} {s s' : BlockIndexer}

def Accepted (answers : Answers) (ts : List Task) (s : BlockIndexer) : Prop :=
  ∀ i < (deliveries ts).length, answers.accepts (s.calls + i) = true

theorem after_deliver (d : Delivery) (ts : List Task) (s : BlockIndexer) :
    after (.deliver d :: ts) s = after ts { s with calls := s.calls + 1, delivered := s.delivered ++ [d] } := by
  unfold after deliveries recordAll
  simp only [filterMap_cons, foldl_cons, append_assoc, singleton_append, length_cons]
  rw [Nat.add_right_comm, Nat.add_assoc s.calls]

theorem accepted_record {result : WorkerResult} {hashes : Store ℤ String}
    (accepted : Accepted answers ts { s with indexedHashes := hashes }) : Accepted answers (.record result :: ts) s :=
  accepted

theorem accepted_deliver {d : Delivery} {log : List Delivery} (first : answers.accepts s.calls = true)
    (accepted : Accepted answers ts { s with calls := s.calls + 1, delivered := log }) :
    Accepted answers (.deliver d :: ts) s := by
  intro i bounded
  cases i with
  | zero => exact first
  | succ i =>
    have rest := accepted i (Nat.lt_of_succ_lt_succ bounded)
    rwa [Nat.add_right_comm] at rest

theorem forM_accepted {d : Delivery} (first : answers.accepts s.calls = true) :
    forM (.deliver d :: ts) (Task.perform answers) s =
      forM ts (Task.perform answers) { s with calls := s.calls + 1, delivered := s.delivered ++ [d] } := by
  have call : onEvents answers d.blocks d.events s =
      .ok () { s with calls := s.calls + 1, delivered := s.delivered ++ [d] } := if_pos first
  rw [forM_cons]
  change EStateM.bind (onEvents answers d.blocks d.events) _ s = _
  rw [EStateM.bind, call]

theorem forM_rejected {d : Delivery} (first : ¬ answers.accepts s.calls = true) :
    forM (.deliver d :: ts) (Task.perform answers) s = .error () { s with calls := s.calls + 1 } := by
  have call : onEvents answers d.blocks d.events s = .error () { s with calls := s.calls + 1 } := if_neg first
  rw [forM_cons]
  change EStateM.bind (onEvents answers d.blocks d.events) _ s = _
  rw [EStateM.bind, call]

theorem perform_ok (done : forM ts (Task.perform answers) s = .ok () s') : s' = after ts s ∧ Accepted answers ts s := by
  induction ts generalizing s with
  | nil =>
    cases done
    exact ⟨by simp [after, deliveries, recordAll], fun i bounded => absurd bounded (Nat.not_lt_zero i)⟩
  | cons task ts ih =>
    cases task with
    | record result =>
      obtain ⟨state, accepted⟩ := ih (s := { s with indexedHashes := put s.indexedHashes _ _ }) done
      exact ⟨state, accepted_record accepted⟩
    | deliver d =>
      by_cases first : answers.accepts s.calls = true
      · rw [forM_accepted first] at done
        obtain ⟨state, accepted⟩ := ih done
        exact ⟨by rw [after_deliver, state], accepted_deliver first accepted⟩
      · rw [forM_rejected first] at done
        cases done

theorem perform_error (thrown : forM ts (Task.perform answers) s = .error () s') :
    ∃ done d rest, ts = done ++ .deliver d :: rest ∧ s' = { after done s with calls := s'.calls } ∧
      Accepted answers done s ∧ ¬ answers.accepts (s.calls + (deliveries done).length) = true := by
  induction ts generalizing s with
  | nil => cases thrown
  | cons task ts ih =>
    cases task with
    | record result =>
      obtain ⟨done, d, rest, split, state, accepted, rejected⟩ :=
        ih (s := { s with indexedHashes := put s.indexedHashes _ _ }) thrown
      exact ⟨.record result :: done, d, rest, by rw [split]; rfl, state, accepted_record accepted, rejected⟩
    | deliver d =>
      by_cases first : answers.accepts s.calls = true
      · rw [forM_accepted first] at thrown
        obtain ⟨done, d', rest, split, state, accepted, rejected⟩ := ih thrown
        refine ⟨.deliver d :: done, d', rest, by rw [split]; rfl, ?_, accepted_deliver first accepted, ?_⟩
        · rw [after_deliver]
          exact state
        · rwa [Nat.add_right_comm] at rejected
      · rw [forM_rejected first] at thrown
        cases thrown
        exact ⟨[], d, ts, rfl, by simp [after, deliveries, recordAll], fun i bounded => absurd bounded (Nat.not_lt_zero i),
          first⟩

theorem perform_cases (fresh : s.calls = 0)
    (allowed : (deliveries ts ≠ [] ∧ answers.accepts 0 = false) ∨ Accepted answers ts s) :
    (forM ts (Task.perform answers) s = .ok () (after ts s) ∧ Accepted answers ts s) ∨
      ∃ done calls, done <+: ts ∧ deliveries done = [] ∧
        forM ts (Task.perform answers) s = .error () { after done s with calls := calls } := by
  cases result : forM ts (Task.perform answers) s with
  | ok u s' =>
    obtain ⟨rfl, accepted⟩ := perform_ok result
    exact .inl ⟨rfl, accepted⟩
  | error u s' =>
    right
    obtain ⟨done, d, rest, rfl, state, accepted, rejected⟩ := perform_error result
    have none_done : deliveries done = [] := by
      rcases allowed with ⟨-, fails⟩ | accepts
      · by_contra some_done
        have first := accepted 0 (length_pos_iff.mpr some_done)
        rw [fresh, Nat.add_zero, fails] at first
        cases first
      · have counted : (deliveries done).length < (deliveries (done ++ .deliver d :: rest)).length := by
          simp [deliveries, filterMap_append]
        exact absurd (accepts _ counted) rejected
    exact ⟨done, s'.calls, prefix_append .., none_done, by rw [← state]⟩

end Effects

section Records

variable {ts : List Task} {hashes : Store ℤ String} {n : ℤ} {hash : String}

theorem recordAll_cons (result : WorkerResult) (ts : List Task) (hashes : Store ℤ String) :
    recordAll (.record result :: ts) hashes = recordAll ts (put hashes result.blockNumber result.blockHash) := rfl

theorem recordAll_eq_some (recorded : recordAll ts hashes n = some hash) :
    hashes n = some hash ∨ ∃ r, .record r ∈ ts ∧ r.blockNumber = n ∧ r.blockHash = hash := by
  induction ts generalizing hashes with
  | nil => exact .inl recorded
  | cons task ts ih =>
    cases task with
    | deliver d =>
      rcases ih recorded with before | ⟨r, mem, placed⟩
      · exact .inl before
      · exact .inr ⟨r, mem_cons_of_mem _ mem, placed⟩
    | record result =>
      rcases ih recorded with before | ⟨r, mem, placed⟩
      · rcases (put_eq_some ..).mp before with ⟨rfl, same⟩ | ⟨-, old⟩
        · exact .inr ⟨result, .head _, rfl, same⟩
        · exact .inl old
      · exact .inr ⟨r, mem_cons_of_mem _ mem, placed⟩

theorem recordAll_other (elsewhere : ∀ r, .record r ∈ ts → r.blockNumber ≠ n) : recordAll ts hashes n = hashes n := by
  induction ts generalizing hashes with
  | nil => rfl
  | cons task ts ih =>
    have rest : ∀ r, .record r ∈ ts → r.blockNumber ≠ n := fun r mem => elsewhere r (mem_cons_of_mem _ mem)
    cases task with
    | deliver d => exact ih rest
    | record result =>
      rw [recordAll_cons, ih rest]
      exact put_of_ne _ _ (elsewhere result (.head _)).symm

theorem recordAll_same (one : ∀ r, .record r ∈ ts → r.blockNumber = n → r.blockHash = hash)
    (given : hashes n = some hash ∨ ∃ r, .record r ∈ ts ∧ r.blockNumber = n) : recordAll ts hashes n = some hash := by
  induction ts generalizing hashes with
  | nil =>
    rcases given with before | ⟨r, mem, -⟩
    · exact before
    · cases mem
  | cons task ts ih =>
    have rest : ∀ r, .record r ∈ ts → r.blockNumber = n → r.blockHash = hash :=
      fun r mem => one r (mem_cons_of_mem _ mem)
    cases task with
    | deliver d =>
      apply ih rest
      rcases given with before | ⟨r, mem, placed⟩
      · exact .inl before
      · cases mem with
        | tail _ mem => exact .inr ⟨r, mem, placed⟩
    | record result =>
      rw [recordAll_cons]
      apply ih rest
      by_cases same : result.blockNumber = n
      · left
        rw [same, put_self, one result (.head _) same]
      · rcases given with before | ⟨r, mem, placed⟩
        · left
          rwa [put_of_ne _ _ (Ne.symm same)]
        · cases mem with
          | head => exact absurd placed same
          | tail _ mem => exact .inr ⟨r, mem, placed⟩

end Records

section Range

variable {config : IndexerConfig} {answers : Answers} {n first last : ℤ} {result : WorkerResult}

theorem mem_blockNumbers : n ∈ blockNumbers first last ↔ first ≤ n ∧ n ≤ last := by
  unfold blockNumbers
  rw [mem_map]
  constructor
  · rintro ⟨i, mem, rfl⟩
    have bounded := mem_range.mp mem
    omega
  · rintro ⟨above, below⟩
    exact ⟨(n - first).toNat, mem_range.mpr (by omega), by omega⟩

theorem blockNumbers_split {middle : ℤ} (above : first ≤ middle) (below : middle ≤ last + 1) :
    blockNumbers first last = blockNumbers first (middle - 1) ++ blockNumbers middle last := by
  unfold blockNumbers
  have lengths : (last - first + 1).toNat = (middle - 1 - first + 1).toNat + (last - middle + 1).toNat := by omega
  rw [lengths, range_add, map_append, map_map]
  congr 1
  apply map_congr_left
  intro i _
  simp only [Function.comp_apply]
  omega

theorem blockNumber_of_failed {a : Attempt} (failed : (process n a).failed = true) : (process n a).blockNumber = n := by
  cases a with
  | notFound => rfl
  | failed message => rfl
  | found block events => cases failed

def settled (config : IndexerConfig) (answers : Answers) (n : ℤ) : Option WorkerResult :=
  firstGood answers n 0 (config.maxRetries + 1)

theorem settled_good (good : (process n (answers.attempt n 0)).failed = false) :
    settled config answers n = some (process n (answers.attempt n 0)) := by
  unfold settled firstGood
  simp only [good, Bool.false_eq_true, if_false]

theorem settled_failed (failed : (process n (answers.attempt n 0)).failed = true) :
    settled config answers n = firstGood answers n 1 config.maxRetries := by
  rw [settled, firstGood]
  simp only [failed, if_true, Nat.zero_add]

def toRetry (answers : Answers) (first last : ℤ) : List ℤ :=
  (blockNumbers first last).filter fun n => (process n (answers.attempt n 0)).failed

def atOnce (answers : Answers) (first last : ℤ) : List ℤ :=
  (blockNumbers first last).filter fun n => !(process n (answers.attempt n 0)).failed

theorem retries_eq : ((processRange answers first last).filter (·.failed)).map (·.blockNumber) = toRetry answers first last := by
  unfold processRange toRetry
  rw [filter_map, map_map]
  change List.map _ (List.filter (fun n => (process n (answers.attempt n 0)).failed) _) = _
  rw [map_congr_left (g := id), map_id]
  intro n mem
  exact blockNumber_of_failed (mem_filter.mp mem).2

theorem good_eq : ((processRange answers first last).filter fun result => !result.failed) =
    (atOnce answers first last).filterMap (settled config answers) := by
  unfold processRange atOnce
  rw [filter_map, ← filterMap_eq_map]
  apply filterMap_congr
  intro n mem
  have good := (mem_filter.mp mem).2
  rw [Function.comp_apply, settled_good (by simpa using good)]

theorem retried_eq : (toRetry answers first last).filterMap (fun n => firstGood answers n 1 config.maxRetries) =
    (toRetry answers first last).filterMap (settled config answers) := by
  apply filterMap_congr
  intro n mem
  rw [settled_failed (mem_filter.mp mem).2]

end Range

section Tasks

variable (config : IndexerConfig) (answers : Answers) (first last : ℤ)

def goodResults : List WorkerResult := (atOnce answers first last).filterMap (settled config answers)

def retriedResults : List WorkerResult := (toRetry answers first last).filterMap (settled config answers)

theorem tasks_eq : tasks config answers (processRange answers first last) =
    (goodResults config answers first last).map .record ++ (retriedResults config answers first last).flatMap settle ++
      if (goodResults config answers first last).flatMap (·.events) ≠ [] then
        [.deliver ⟨(goodResults config answers first last).map (·.blockNumber),
          unique [] ((goodResults config answers first last).flatMap (·.events))⟩]
      else [] := by
  unfold tasks
  simp only [retries_eq, retried_eq, @good_eq config]
  rfl

theorem results_perm : (goodResults config answers first last ++ retriedResults config answers first last).Perm
    ((blockNumbers first last).filterMap (settled config answers)) := by
  unfold goodResults retriedResults
  rw [← filterMap_append]
  apply List.Perm.filterMap
  have split := filter_append_perm (fun n => (process n (answers.attempt n 0)).failed) (blockNumbers first last)
  exact perm_append_comm.trans split

variable {config answers first last} {result : WorkerResult}

theorem mem_results : result ∈ goodResults config answers first last ++ retriedResults config answers first last ↔
    ∃ n ∈ blockNumbers first last, settled config answers n = some result := by
  rw [(results_perm config answers first last).mem_iff, mem_filterMap]

theorem record_mem_settle {other : WorkerResult} : .record result ∈ settle other ↔ result = other := by
  unfold settle
  split <;> simp

theorem record_mem_tasks : .record result ∈ tasks config answers (processRange answers first last) ↔
    ∃ n ∈ blockNumbers first last, settled config answers n = some result := by
  rw [tasks_eq, ← mem_results]
  simp only [mem_append, mem_map, mem_flatMap, record_mem_settle, Task.record.injEq]
  constructor
  · rintro ((⟨r, mem, rfl⟩ | ⟨r, mem, rfl⟩) | last)
    · exact .inl mem
    · exact .inr mem
    · split at last <;> simp at last
  · rintro (mem | mem)
    · exact .inl (.inl ⟨result, mem, rfl⟩)
    · exact .inl (.inr ⟨result, mem, rfl⟩)

theorem deliveries_append (ts us : List Task) : deliveries (ts ++ us) = deliveries ts ++ deliveries us :=
  filterMap_append

theorem deliveries_records (results : List WorkerResult) : deliveries (results.map .record) = [] := by
  unfold deliveries
  rw [filterMap_map]
  exact filterMap_eq_nil_iff.mpr fun _ _ => rfl

theorem deliveries_settle (results : List WorkerResult) :
    (deliveries (results.flatMap settle)).flatMap (·.events) = results.flatMap (·.events) := by
  induction results with
  | nil => rfl
  | cons result results ih =>
    rw [flatMap_cons, deliveries_append, flatMap_append, ih, flatMap_cons]
    congr 1
    unfold settle deliveries
    split
    · simp
    · rename_i empty
      simp [not_not.mp empty]

theorem deliveries_events : (deliveries (tasks config answers (processRange answers first last))).flatMap (·.events) =
    (retriedResults config answers first last).flatMap (·.events) ++
      unique [] ((goodResults config answers first last).flatMap (·.events)) := by
  rw [tasks_eq, deliveries_append, deliveries_append, deliveries_records, nil_append, flatMap_append,
    deliveries_settle]
  congr 1
  unfold deliveries
  split
  · simp
  · rename_i empty
    rw [not_not.mp empty]
    rfl

end Tasks

section Poll

variable {config : IndexerConfig} {answers : Answers} {s : BlockIndexer}

theorem batchTo_ge {last : ℤ} (far : batchTo config answers s = some last) : s.nextBlock ≤ last + 1 := by
  unfold batchTo at far
  cases head : answers.tip with
  | none =>
    rw [head] at far
    cases far
  | some tip =>
    simp only [head] at far
    split at far
    · cases far
    · cases far
      omega

theorem poll_cases (config : IndexerConfig) (answers : Answers) (s : BlockIndexer) :
    (batchTo config answers s = none ∧ poll config answers s = (s, .idle)) ∨
      ∃ last, batchTo config answers s = some last ∧
        ((∃ result, detectReorg s (processRange answers s.nextBlock last) = some result ∧
          poll config answers s =
            ({ s with nextBlock := result.blockNumber, reorgs := s.reorgs ++ [result.blockNumber] }, .reorg result)) ∨
        detectReorg s (processRange answers s.nextBlock last) = none ∧
          ((∃ s', forM (tasks config answers (processRange answers s.nextBlock last)) (Task.perform answers)
              { s with calls := 0 } = .ok () s' ∧
            poll config answers s =
              ({ s' with
                nextBlock := last + 1
                checkpoints := s'.checkpoints ++ checkpoint (processRange answers s.nextBlock last) }, .handled)) ∨
          ∃ s', forM (tasks config answers (processRange answers s.nextBlock last)) (Task.perform answers)
              { s with calls := 0 } = .error () s' ∧ poll config answers s = (s', .failed))) := by
  unfold poll
  cases far : batchTo config answers s with
  | none => exact .inl ⟨rfl, rfl⟩
  | some last =>
    refine .inr ⟨last, rfl, ?_⟩
    cases detected : detectReorg s (processRange answers s.nextBlock last) with
    | some result => exact .inl ⟨result, rfl, by simp only [detected]⟩
    | none =>
      refine .inr ⟨rfl, ?_⟩
      cases run : forM (tasks config answers (processRange answers s.nextBlock last)) (Task.perform answers)
          { s with calls := 0 } with
      | ok u s' => exact .inl ⟨s', rfl, by simp only [detected, handleResults_eq, run]⟩
      | error u s' => exact .inr ⟨s', rfl, by simp only [detected, handleResults_eq, run]⟩

theorem checkpoint_of_mem {results : List WorkerResult} {cp : IndexerCheckpoint} (saved : cp ∈ checkpoint results) :
    ∃ result ∈ results, cp.safeBlock = result.blockNumber := by
  unfold checkpoint at saved
  cases end_of : results.getLast? with
  | none =>
    rw [end_of] at saved
    cases saved
  | some lastGood =>
    simp only [end_of] at saved
    split at saved
    · cases saved
    · rw [mem_singleton.mp saved]
      exact ⟨lastGood, mem_of_getLast? end_of, rfl⟩

end Poll

end SubTrackr.Indexer
