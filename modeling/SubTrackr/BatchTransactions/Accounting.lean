import SubTrackr.BatchTransactions.BatchTransactionService
import SubTrackr.Lib.Runs

namespace SubTrackr.BatchTransactions

open List Lib

def count (status : PerItemStatus) (items : List PerItemResult) : ℤ := (items.countP fun item => item.status = status : ℕ)

variable {p : Progress} {entry : ℚ × BatchItemPlan} {entries : List (ℚ × BatchItemPlan)}
  {items results : List PerItemResult}
  {item : PerItemResult} {status : PerItemStatus}

section Count

theorem count_append (status : PerItemStatus) (items items' : List PerItemResult) :
    count status (items ++ items') = count status items + count status items' := by
  simp [count, countP_append]

theorem count_cons (status : PerItemStatus) (item : PerItemResult) (items : List PerItemResult) :
    count status (item :: items) = (if item.status = status then 1 else 0) + count status items := by
  rw [← singleton_append, count_append]
  simp [count, countP_cons]

@[simp] theorem count_nil (status : PerItemStatus) : count status [] = 0 := rfl

theorem count_singleton (status : PerItemStatus) (item : PerItemResult) :
    count status [item] = if item.status = status then 1 else 0 := by
  rw [count_cons, count_nil, Int.add_zero]

theorem count_eq_zero : count status items = 0 ↔ ∀ item ∈ items, item.status ≠ status := by
  simp [count, countP_eq_zero]

theorem length_filter_status (status : PerItemStatus) (items : List PerItemResult) :
    ((items.filter fun item => item.status = status).length : ℤ) = count status items := by
  rw [count, countP_eq_length_filter]

def Settled (item : PerItemResult) : Prop := item.status = .success ∨ item.status = .failed ∨ item.status = .skipped

theorem count_settled (settled : ∀ item ∈ items, Settled item) :
    count .success items + count .failed items + count .skipped items = items.length := by
  induction items with
  | nil => rfl
  | cons item items ih =>
    rw [forall_mem_cons] at settled
    have rest := ih settled.2
    rw [count_cons, count_cons, count_cons, length_cons]
    rcases settled.1 with status | status | status
    all_goals
      simp only [status, reduceCtorEq, if_true, if_false]
      omega

end Count

section Queue

variable {size offset : ℚ} {plans : List BatchItemPlan} {rounds : ℕ}

theorem one_le_clampChunkSize (size : ℚ) : 1 ≤ clampChunkSize size := by
  unfold clampChunkSize
  rw [le_min_iff]
  constructor
  · norm_num [MAX_CHUNK_SIZE]
  · exact le_max_left 1 size

theorem floor_add_one_le (nonneg : 0 ≤ offset) (large : 1 ≤ size) : ⌊offset⌋₊ + 1 ≤ ⌊offset + size⌋₊ := by
  rw [← Nat.floor_add_one nonneg]
  exact Nat.floor_le_floor (by linarith)

theorem slice_append_drop (nonneg : 0 ≤ offset) (large : 1 ≤ size) (plans : List BatchItemPlan) :
    slice plans offset (offset + size) ++ plans.drop ⌊offset + size⌋₊ = plans.drop ⌊offset⌋₊ := by
  have order : ⌊offset⌋₊ ≤ ⌊offset + size⌋₊ := by
    have next := floor_add_one_le nonneg large
    omega
  rw [slice, drop_take]
  conv_rhs => rw [← take_append_drop (⌊offset + size⌋₊ - ⌊offset⌋₊) (plans.drop ⌊offset⌋₊)]
  rw [drop_drop, Nat.add_sub_cancel' order]

theorem mapIdx_plans (offset : ℚ) (chunk : List BatchItemPlan) :
    (chunk.mapIdx fun j plan => (offset + (j : ℚ), plan)).map Prod.snd = chunk := by
  apply ext_getElem?
  intro i
  simp [Function.comp_def]

theorem mapIdx_indices (offset : ℚ) (chunk : List BatchItemPlan) :
    (chunk.mapIdx fun j plan => (offset + (j : ℚ), plan)).map Prod.fst =
      (List.range chunk.length).map fun j : ℕ => offset + (j : ℚ) := by
  apply ext_getElem?
  intro i
  by_cases inside : i < chunk.length
  · simp [inside]
  · simp [inside]

theorem queue_plans (nonneg : 0 ≤ offset) (large : 1 ≤ size) (enough : plans.length ≤ ⌊offset⌋₊ + rounds) :
    (queue size plans rounds offset).map Prod.snd = plans.drop ⌊offset⌋₊ := by
  induction rounds generalizing offset with
  | zero => exact (drop_eq_nil_of_le enough).symm
  | succ rounds ih =>
    unfold queue
    split
    · have next := floor_add_one_le nonneg large
      rw [map_append, ih (by linarith) (by omega), ← slice_append_drop nonneg large]
      rw [mapIdx_plans]
    · rename_i past
      exact (drop_eq_nil_of_le (Nat.le_floor (not_lt.mp past))).symm

theorem length_slice_le (offset size : ℚ) (plans : List BatchItemPlan) :
    (slice plans offset (offset + size)).length ≤ ⌊offset + size⌋₊ - ⌊offset⌋₊ := by
  rw [slice, drop_take]
  exact length_take_le ..

theorem index_lt (nonneg : 0 ≤ offset) (large : 1 ≤ size) {j : ℕ} (inside : j < (slice plans offset (offset + size)).length) :
    offset + j < offset + size := by
  have short := length_slice_le offset size plans
  have order := floor_add_one_le nonneg large
  have room : ⌊offset⌋₊ + (j + 1) ≤ ⌊offset + size⌋₊ := by omega
  have room' : (⌊offset⌋₊ : ℚ) + (j + 1) ≤ ⌊offset + size⌋₊ := by exact_mod_cast room
  have floor := Nat.floor_le (show 0 ≤ offset + size by linarith)
  have next := Nat.lt_floor_add_one offset
  linarith

theorem queue_indices (nonneg : 0 ≤ offset) (large : 1 ≤ size) :
    (∀ index ∈ (queue size plans rounds offset).map Prod.fst, offset ≤ index) ∧
      ((queue size plans rounds offset).map Prod.fst).Pairwise (· < ·) := by
  induction rounds generalizing offset with
  | zero => exact ⟨fun index mem => absurd mem not_mem_nil, .nil⟩
  | succ rounds ih =>
    unfold queue
    split
    · have next : 0 ≤ offset + size := by linarith
      obtain ⟨later, sorted⟩ := ih next
      rw [map_append, mapIdx_indices]
      constructor
      · intro index mem
        rcases mem_append.mp mem with here | after
        · obtain ⟨j, -, rfl⟩ := mem_map.mp here
          have pos : (0 : ℚ) ≤ j := j.cast_nonneg
          linarith
        · have bound := later index after
          linarith
      · rw [pairwise_append]
        refine ⟨?_, sorted, ?_⟩
        · rw [pairwise_map]
          exact pairwise_lt_range.imp fun less => by simpa using less
        · intro index here index' after
          obtain ⟨j, inside, rfl⟩ := mem_map.mp here
          exact (index_lt nonneg large (mem_range.mp inside)).trans_le (later index' after)
    · exact ⟨fun index mem => absurd mem not_mem_nil, .nil⟩

theorem queue_nil (past : plans.length ≤ offset) : queue size plans rounds offset = [] := by
  cases rounds with
  | zero => rfl
  | succ rounds => exact if_neg (not_lt.mpr past)

theorem queue_whole {n m : ℕ} : (queue n plans rounds m).map Prod.fst =
    (List.range' m (queue n plans rounds m).length).map fun i : ℕ => (i : ℚ) := by
  induction rounds generalizing m with
  | zero => rfl
  | succ rounds ih =>
    unfold queue
    split
    · rename_i more
      have first : (slice plans m (m + n)).length = min (m + n) plans.length - m := by
        rw [slice, ← Nat.cast_add, Nat.floor_natCast, Nat.floor_natCast, length_drop, length_take]
      rw [map_append, mapIdx_indices, length_append, length_mapIdx, ← range'_append_1, map_append]
      congr 1
      · apply ext_getElem <;> simp
      · by_cases rest : m + n < plans.length
        · rw [first, Nat.min_eq_left rest.le, Nat.add_sub_cancel_left]
          have same := ih (m := m + n)
          rw [Nat.cast_add] at same
          exact same
        · rw [queue_nil (by exact_mod_cast not_lt.mp rest)]
          rfl
    · rfl

end Queue

inductive RunsItem (x : Batch) (p : Progress) (entry : ℚ × BatchItemPlan) : Progress → Prop where
  | skips (item : PerItemResult) (index : item.index = entry.1) (status : item.status = .skipped)
    (reason : p.aborted = true ∨
      x.config.idempotent = true ∧ idempotencyKey x.operationType entry.2.subscriptionId ∈ p.appliedItems) :
    RunsItem x p entry { p with results := p.results ++ [item], skippedItems := p.skippedItems + 1 }
  | succeeds (item : PerItemResult) (index : item.index = entry.1) (status : item.status = .success)
    (named : item.subscriptionId = orElse (x.apply entry.1 entry.2).result.id entry.2.subscriptionId)
    (fresh : x.config.idempotent = true → idempotencyKey x.operationType entry.2.subscriptionId ∉ p.appliedItems)
    (going : p.aborted = false) (success : (x.apply entry.1 entry.2).result.success = true) :
    RunsItem x p entry
      { p with
        appliedItems :=
          if x.config.idempotent then insert (idempotencyKey x.operationType entry.2.subscriptionId) p.appliedItems
          else p.appliedItems
        results := p.results ++ [item]
        successfulItems := p.successfulItems + 1
        effects := p.effects ++ [.done (idempotencyKey x.operationType entry.2.subscriptionId)] }
  | fails (item : PerItemResult) (index : item.index = entry.1) (status : item.status = .failed)
    (fresh : x.config.idempotent = true → idempotencyKey x.operationType entry.2.subscriptionId ∉ p.appliedItems)
    (going : p.aborted = false) (failure : (x.apply entry.1 entry.2).result.success = false) :
    RunsItem x p entry
      { p with results := p.results ++ [item], failedItems := p.failedItems + 1, aborted := x.atomic }

theorem runItem_cases (x : Batch) (p : Progress) (entry : ℚ × BatchItemPlan) : RunsItem x p entry (runItem x p entry) := by
  unfold runItem
  dsimp only
  split
  · rename_i aborted
    exact .skips _ rfl rfl (.inl aborted)
  · rename_i going
    have going : p.aborted = false := by simpa using going
    split
    · rename_i known
      exact .skips _ rfl rfl (.inr known)
    · rename_i unknown
      have fresh (idempotent : x.config.idempotent = true) :
          idempotencyKey x.operationType entry.2.subscriptionId ∉ p.appliedItems := fun known => unknown ⟨idempotent, known⟩
      split
      · rename_i success
        refine .succeeds _ rfl ?_ rfl fresh going success
        simp only [appliedItem, success, if_true]
      · rename_i failure
        have failure : (x.apply entry.1 entry.2).result.success = false := by simpa using failure
        refine .fails _ rfl ?_ fresh going failure
        simp only [appliedItem, failure, Bool.false_eq_true, if_false]

structure Booked (p : Progress) : Prop where
  successful : p.successfulItems = count .success p.results
  failed : p.failedItems = count .failed p.results
  skipped : p.skippedItems = count .skipped p.results
  settled : ∀ item ∈ p.results, Settled item

theorem settled_append (before : ∀ item ∈ items, Settled item) (last : Settled item) :
    ∀ other ∈ items ++ [item], Settled other := by
  intro other mem
  rcases mem_append.mp mem with old | new
  · exact before other old
  · rw [mem_singleton.mp new]
    exact last

theorem Booked.runsItem {x : Batch} {p' : Progress} (booked : Booked p) (runs : RunsItem x p entry p') :
    Booked p' ∧ p'.results.map (·.index) = p.results.map (·.index) ++ [entry.1] := by
  obtain ⟨successful, failed, skipped, settled⟩ := booked
  cases runs with
  | skips item index status | succeeds item index status | fails item index status =>
    have past : Settled item := by simp [Settled, status]
    constructor
    · constructor
      · simp [count_append, count_singleton, status, successful]
      · simp [count_append, count_singleton, status, failed]
      · simp [count_append, count_singleton, status, skipped]
      · exact settled_append settled past
    · simp [index]

theorem Booked.runsItems (booked : Booked p) (x : Batch) (entries : List (ℚ × BatchItemPlan)) :
    Booked (entries.foldl (runItem x) p) ∧
      (entries.foldl (runItem x) p).results.map (·.index) = p.results.map (·.index) ++ entries.map Prod.fst := by
  induction entries generalizing p with
  | nil => exact ⟨booked, by simp⟩
  | cons entry entries ih =>
    obtain ⟨first, indices⟩ := booked.runsItem (runItem_cases x p entry)
    obtain ⟨rest, more⟩ := ih first
    refine ⟨rest, ?_⟩
    rw [foldl_cons, more, indices, append_assoc, map_cons, singleton_append]

section

variable {change : PerItemResult → PerItemResult} {good : PerItemResult → Bool} (changed : ∀ item, item.status = .success → (change item).status = if good item then .skipped else .failed) (same : ∀ item, item.status ≠ .success → change item = item)

include changed same

theorem count_map (items : List PerItemResult) :
    count .success (items.map change) = 0 ∧
      count .failed (items.map change) =
        count .failed items + ((items.filter fun item => item.status = .success).filter fun item => !good item).length ∧
      count .skipped (items.map change) =
        count .skipped items + ((items.filter fun item => item.status = .success).filter good).length := by
  induction items with
  | nil => simp
  | cons item items ih =>
    obtain ⟨success, failed, skipped⟩ := ih
    simp only [map_cons, count_cons, success, failed, skipped]
    by_cases here : item.status = .success
    · rw [changed item here, filter_cons_of_pos (by simpa using here)]
      cases reverted : good item <;> simp [here, reverted] <;> omega
    · rw [same item here, filter_cons_of_neg (by simpa using here)]
      simp [here]
      omega

theorem settled_map (settled : ∀ item ∈ items, Settled item) :
    ∀ item ∈ items.map change, Settled item := by
  intro item' mem
  obtain ⟨item, before, rfl⟩ := mem_map.mp mem
  by_cases here : item.status = .success
  · rw [Settled, changed item here]
    cases good item <;> simp
  · rw [same item here]
    exact settled item before

end

theorem discardedItem_status (item : PerItemResult) (success : item.status = .success) :
    (discardedItem item).status = if (fun _ => true) item then .skipped else .failed := by
  simp [discardedItem, success]

theorem discardedItem_of_ne (item : PerItemResult) (other : item.status ≠ .success) : discardedItem item = item :=
  if_neg other

theorem Booked.forget (booked : Booked p) (x : Batch) : Booked (forget x p) := by
  obtain ⟨success, failed, skipped⟩ := count_map discardedItem_status discardedItem_of_ne p.results
  constructor
  · exact success.symm
  · rw [BatchTransactions.forget]
    dsimp only
    rw [failed, booked.failed]
    simp
  · rw [BatchTransactions.forget]
    dsimp only
    rw [skipped, booked.skipped]
    simp
  · exact settled_map discardedItem_status discardedItem_of_ne booked.settled

theorem forget_indices (x : Batch) (p : Progress) : (forget x p).results.map (·.index) = p.results.map (·.index) := by
  rw [forget, map_map]
  apply map_congr_left
  intro item _
  dsimp only [Function.comp_apply, discardedItem]
  split <;> rfl

section Results

structure Accounted (settings : Settings) (drift : ℤ) (r : BatchExecutionResult) : Prop where
  successful : r.successfulItems = count .success r.results + drift
  failed : r.failedItems = count .failed r.results
  skipped : r.skippedItems = count .skipped r.results
  settled : ∀ item ∈ r.results, Settled item
  length : r.results.length = r.totalItems
  distinct : (r.results.map (·.index)).Nodup
  numbered : ∀ n : ℕ, (settings.getOperationConfig r.operationType).chunkSize = n →
    r.results.map (·.index) = (List.range r.totalItems).map fun i : ℕ => (i : ℚ)
  completed : r.state = .completed → count .failed r.results = 0

structure Rejected (r : BatchExecutionResult) : Prop where
  results : r.results = []
  successful : r.successfulItems = 0
  failed : r.failedItems = 0
  skipped : r.skippedItems = 0
  state : r.state = .failed

def Fine (settings : Settings) (drift : ℤ) (r : BatchExecutionResult) : Prop :=
  if r.rejectionReason = none then Accounted settings drift r else Rejected r

variable {s : Service} {settings : Settings} {env : Env} {operationType : BatchOperationType} {plans : List BatchItemPlan}
  {apply : ℚ → BatchItemPlan → Reply} {options : RunOptions} {r r' : BatchExecutionResult} {drift : ℤ}

theorem progress_spec (x : Batch) (large : 1 ≤ x.config.chunkSize) (items : Finset String) (plans : List BatchItemPlan) :
    Booked (progress x items plans) ∧ (progress x items plans).results.length = plans.length ∧
      ((progress x items plans).results.map (·.index)).Nodup ∧
      ∀ n : ℕ, x.config.chunkSize = n →
        (progress x items plans).results.map (·.index) = (List.range plans.length).map fun i : ℕ => (i : ℚ) := by
  have start : Booked ⟨items, [], 0, 0, 0, false, []⟩ := ⟨rfl, rfl, rfl, fun item mem => absurd mem not_mem_nil⟩
  obtain ⟨booked, indices⟩ := start.runsItems x (queue x.config.chunkSize plans plans.length 0)
  rw [map_nil, nil_append] at indices
  have enough : plans.length ≤ ⌊(0 : ℚ)⌋₊ + plans.length := Nat.le_add_left ..
  have all := congrArg List.length (queue_plans (le_refl 0) large enough)
  rw [length_map, Nat.floor_zero, drop_zero] at all
  have length := congrArg List.length indices
  rw [length_map, length_map, all] at length
  refine ⟨booked, length, ?_, ?_⟩
  · rw [progress, indices]
    exact (queue_indices (le_refl 0) large).2.imp fun less => less.ne
  · intro n whole
    have counted : (queue n plans plans.length (0 : ℕ)).map Prod.fst = _ := queue_whole
    rw [Nat.cast_zero, ← whole, all, ← range_eq_range'] at counted
    rw [progress, indices, counted]

theorem afterLoops_failedItems (x : Batch) (p : Progress) : (afterLoops x p).failedItems = p.failedItems := by
  unfold afterLoops
  split <;> rfl

theorem Booked.afterLoops (booked : Booked p) (x : Batch) : Booked (afterLoops x p) := by
  unfold BatchTransactions.afterLoops
  split
  · exact booked.forget x
  · exact booked

theorem afterLoops_indices (x : Batch) (p : Progress) :
    (afterLoops x p).results.map (·.index) = p.results.map (·.index) := by
  unfold afterLoops
  split
  · exact forget_indices x p
  · rfl

theorem run_result (s : Service) (settings : Settings) (env : Env) (operationType : BatchOperationType)
    (plans : List BatchItemPlan) (apply : ℚ → BatchItemPlan → Reply) (options : RunOptions) :
    (s.run settings env operationType plans apply options).1.currentResult =
      some (s.run settings env operationType plans apply options).2.1 := by
  unfold Service.run
  dsimp only
  split <;> rfl

theorem run_fine (s : Service) (settings : Settings) (env : Env) (operationType : BatchOperationType)
    (plans : List BatchItemPlan) (apply : ℚ → BatchItemPlan → Reply) (options : RunOptions) :
    Fine settings 0 (s.run settings env operationType plans apply options).2.1 := by
  unfold Service.run
  dsimp only
  split
  · exact ⟨rfl, rfl, rfl, rfl, rfl⟩
  · generalize shape : Batch.mk (settings.getOperationConfig operationType) operationType
      (options.atomic.getD (settings.getOperationConfig operationType).atomicDefault) apply = x
    have config : x.config = settings.getOperationConfig operationType := by rw [← shape]
    have large : 1 ≤ x.config.chunkSize := by
      rw [config]
      exact one_le_clampChunkSize _
    obtain ⟨booked, length, nodup, numbered⟩ := progress_spec x large s.appliedItems plans
    have indices := afterLoops_indices x (progress x s.appliedItems plans)
    have length' := congrArg List.length indices
    rw [length_map, length_map] at length'
    obtain ⟨successful, failed, skipped, settled⟩ := booked.afterLoops x
    constructor
    · exact successful.trans (Int.add_zero _).symm
    · exact failed
    · exact skipped
    · exact settled
    · exact length'.trans length
    · dsimp only
      rw [indices]
      exact nodup
    · intro n whole
      dsimp only
      rw [indices]
      exact numbered n (config ▸ whole)
    · intro completed
      dsimp only at completed ⊢
      rw [← failed, afterLoops_failedItems]
      split at completed
      · cases completed
      · split at completed
        · assumption
        · cases completed

open Service

inductive RetriesItem (x : Retrying) (p : Progress) (item : PerItemResult) : Progress → Prop where
  | keeps (item' : PerItemResult) (index : item'.index = item.index) (status : item'.status = item.status) :
    RetriesItem x p item { p with results := p.results ++ [item'] }
  | succeeds (item' : PerItemResult) (index : item'.index = item.index) (status : item'.status = .success)
    (was : item.status = .failed) (left : (item.retryCount : ℤ) < x.maxRetries)
    (success : (x.retryFn item).result.success = true) :
    RetriesItem x p item
      { p with
        appliedItems :=
          if x.idempotent then insert (idempotencyKey x.operationType item.subscriptionId) p.appliedItems
          else p.appliedItems
        results := p.results ++ [item']
        successfulItems := p.successfulItems + 1
        failedItems := p.failedItems - 1
        effects := p.effects ++ [.done (idempotencyKey x.operationType item.subscriptionId)] }

theorem retryItem_cases (x : Retrying) (p : Progress) (item : PerItemResult) : RetriesItem x p item (retryItem x p item) := by
  unfold retryItem
  split
  · exact .keeps _ rfl rfl
  · rename_i tried
    push Not at tried
    dsimp only
    split
    · rename_i success
      exact .succeeds _ rfl rfl tried.1 tried.2 success
    · exact .keeps _ rfl rfl

structure Retried (drift skipped : ℤ) (indices : List ℚ) (p : Progress) (rest : List PerItemResult) : Prop where
  successful : p.successfulItems = count .success p.results + count .success rest + drift
  failed : p.failedItems = count .failed p.results + count .failed rest
  skipped : skipped = count .skipped p.results + count .skipped rest
  settled : ∀ item ∈ p.results, Settled item
  indices : p.results.map (·.index) ++ rest.map (·.index) = indices

theorem Retried.retriesItem {x : Retrying} {skipped : ℤ} {indices : List ℚ} {p' : Progress} {rest : List PerItemResult}
    (retried : Retried drift skipped indices p (item :: rest)) (past : Settled item) (retries : RetriesItem x p item p') :
    Retried drift skipped indices p' rest := by
  obtain ⟨successful, failed, skipped, settled, indices⟩ := retried
  rw [count_cons] at successful failed skipped
  rw [map_cons, append_cons] at indices
  cases retries with
  | keeps item' index status =>
    have past' : Settled item' := by rwa [Settled, status]
    constructor
    · simp only [count_append, count_singleton, status, successful]
      omega
    · simp only [count_append, count_singleton, status, failed]
      omega
    · simp only [count_append, count_singleton, status, skipped]
      omega
    · exact settled_append settled past'
    · simpa [index] using indices
  | succeeds item' index status was left success =>
    have past' : Settled item' := .inl status
    constructor
    · simp only [count_append, count_singleton, status, was, successful]
      simp
      omega
    · simp only [count_append, count_singleton, status, was, failed]
      simp
      omega
    · simp only [count_append, count_singleton, status, was, skipped]
      simp
    · exact settled_append settled past'
    · simpa [index] using indices

theorem Retried.retriesItems {x : Retrying} {skipped : ℤ} {indices : List ℚ} {rest : List PerItemResult}
    (retried : Retried drift skipped indices p rest) (past : ∀ item ∈ rest, Settled item) :
    Retried drift skipped indices (rest.foldl (retryItem x) p) [] := by
  induction rest generalizing p with
  | nil => exact retried
  | cons item rest ih =>
    rw [forall_mem_cons] at past
    exact ih (retried.retriesItem past.1 (retryItem_cases x p item)) past.2

theorem retry_result {retryFn : PerItemResult → Reply} (returned : (s.retryFailedItems settings env retryFn).2.1 = some r') :
    (s.retryFailedItems settings env retryFn).1.currentResult = some r' := by
  unfold Service.retryFailedItems at *
  split at returned
  · cases returned
  · rename_i r current
    dsimp only at returned ⊢
    split at returned
    · cases returned
      rwa [if_pos ‹_›]
    · cases returned
      rw [if_neg ‹_›]

theorem Accounted.retriedResult (accounted : Accounted settings drift r) (env : Env) (x : Retrying) (items : Finset String) :
    Accounted settings drift (retriedResult env r (retryAll x items r)) := by
  have start : Retried drift r.skippedItems (r.results.map (·.index))
      ⟨items, [], r.successfulItems, r.failedItems, r.skippedItems, false, []⟩ r.results := by
    constructor
    · simp [accounted.successful]
    · simp [accounted.failed]
    · simp [accounted.skipped]
    · exact fun item mem => absurd mem not_mem_nil
    · rfl
  obtain ⟨successful, failed, skipped, settled, indices⟩ := start.retriesItems (x := x) accounted.settled
  rw [count_nil, Int.add_zero] at successful failed skipped
  rw [map_nil, append_nil] at indices
  have length := congrArg List.length indices
  rw [length_map, length_map] at length
  unfold Service.retriedResult retryAll
  constructor
  · exact successful
  · exact failed
  · exact skipped
  · exact settled
  · exact length.trans accounted.length
  · dsimp only
    rw [indices]
    exact accounted.distinct
  · intro n whole
    dsimp only
    rw [indices]
    exact accounted.numbered n whole
  · intro completed
    dsimp only at completed ⊢
    split at completed
    · rename_i none_failed
      exact failed.symm.trans none_failed
    · cases completed

theorem retry_fine {retryFn : PerItemResult → Reply} (current : s.currentResult = some r) (fine : Fine settings drift r)
    (returned : (s.retryFailedItems settings env retryFn).2.1 = some r') : Fine settings drift r' := by
  unfold Service.retryFailedItems at returned
  rw [current] at returned
  dsimp only at returned
  split at returned
  · cases returned
    exact fine
  · rename_i some_failed
    cases returned
    unfold Fine at *
    by_cases accepted : r.rejectionReason = none
    · rw [if_pos accepted] at fine
      rw [if_pos (show (Service.retriedResult env r _).rejectionReason = none from accepted)]
      exact fine.retriedResult env _ _
    · rw [if_neg accepted] at fine
      rw [fine.results] at some_failed
      exact absurd rfl some_failed

theorem mergeByIndex_eq {change : PerItemResult → PerItemResult} (nodup : (results.map (·.index)).Nodup)
    (same : ∀ item, (change item).index = item.index) :
    mergeByIndex results ((results.filter fun item => item.status = .success).map change) =
      results.map fun item => if item.status = .success then change item else item := by
  unfold mergeByIndex
  apply map_congr_left
  intro r mem
  have only (item : PerItemResult) (member : item ∈ results) (here : item.index = r.index) : item = r :=
    inj_on_of_nodup_map nodup member mem here
  by_cases success : r.status = .success
  · rw [if_pos success]
    have there : change r ∈ ((results.filter fun item => item.status = .success).map change).reverse := by
      rw [mem_reverse]
      exact mem_map_of_mem (mem_filter.mpr ⟨mem, by simpa using success⟩)
    cases found : ((results.filter fun item => item.status = .success).map change).reverse.find? fun item =>
        item.index = r.index with
    | none =>
      have apart := find?_eq_none.mp found _ there
      simp [same] at apart
    | some other =>
      have here := find?_some found
      obtain ⟨item, chosen, rfl⟩ := mem_map.mp (mem_reverse.mp (mem_of_find?_eq_some found))
      rw [decide_eq_true_eq, same] at here
      rw [Option.getD_some, only item (mem_filter.mp chosen).1 here]
  · rw [if_neg success, find?_eq_none.mpr, Option.getD_none]
    intro other member
    obtain ⟨item, chosen, rfl⟩ := mem_map.mp (mem_reverse.mp member)
    obtain ⟨mem', status⟩ := mem_filter.mp chosen
    rw [decide_eq_true_eq, same]
    intro here
    rw [only item mem' here] at status
    exact success (of_decide_eq_true status)

variable {rollbackFn : PerItemResult → Reply}

theorem rolledItem_index (rollbackFn : PerItemResult → Reply) (item : PerItemResult) :
    (rolledItem rollbackFn item).index = item.index := by
  unfold rolledItem
  dsimp only
  split <;> rfl

theorem rolledItem_status (rollbackFn : PerItemResult → Reply) (item : PerItemResult) (success : item.status = .success) :
    (if item.status = .success then rolledItem rollbackFn item else item).status =
      if reverts rollbackFn item then .skipped else .failed := by
  rw [if_pos success]
  unfold rolledItem reverts
  dsimp only
  split <;> rfl

theorem Accounted.rolledBackResult (accounted : Accounted settings drift r) (env : Env) (rollbackFn : PerItemResult → Reply) :
    Accounted settings (drift + ((committed r).filter fun item => !reverts rollbackFn item).length)
      (rolledBackResult env r rollbackFn) := by
  have merged : (Service.rolledBackResult env r rollbackFn).results =
      r.results.map fun item => if item.status = .success then rolledItem rollbackFn item else item :=
    mergeByIndex_eq accounted.distinct (rolledItem_index rollbackFn)
  have same (item : PerItemResult) (other : item.status ≠ .success) :
      (if item.status = .success then rolledItem rollbackFn item else item) = item := if_neg other
  obtain ⟨success, failed, skipped⟩ := count_map (rolledItem_status rollbackFn) same r.results
  have indices : (Service.rolledBackResult env r rollbackFn).results.map (·.index) = r.results.map (·.index) := by
    rw [merged, map_map]
    apply map_congr_left
    intro item _
    dsimp only [Function.comp_apply]
    split
    · exact rolledItem_index rollbackFn item
    · rfl
  have halves : ((committed r).filter (reverts rollbackFn)).length +
      ((committed r).filter fun item => !reverts rollbackFn item).length = (committed r).length :=
    length_eq_length_filter_add _ |>.symm
  have all : ((committed r).length : ℤ) = count .success r.results := length_filter_status .success r.results
  have length := congrArg List.length indices
  rw [length_map, length_map] at length
  constructor
  · rw [merged, success]
    unfold Service.rolledBackResult
    dsimp only
    rw [accounted.successful, ← all]
    omega
  · rw [merged, failed, ← accounted.failed]
    rfl
  · rw [merged, skipped, ← accounted.skipped]
    rfl
  · rw [merged]
    exact settled_map (rolledItem_status rollbackFn) same accounted.settled
  · exact length.trans accounted.length
  · rw [indices]
    exact accounted.distinct
  · intro n whole
    rw [indices]
    exact accounted.numbered n whole
  · intro completed
    unfold Service.rolledBackResult at completed
    dsimp only at completed
    split at completed <;> cases completed

theorem Rejected.not_canRollback (rejected : Rejected r) (current : s.currentResult = some r) :
    s.canRollback settings = false := by
  unfold Service.canRollback
  rw [current]
  simp [rejected.successful]

theorem rollback_fine (current : s.currentResult = some r) (fine : Fine settings drift r) (env : Env)
    (rollbackFn : PerItemResult → Reply) :
    (s.rollbackBatch settings env rollbackFn).1 = s ∨
      ∃ r', (s.rollbackBatch settings env rollbackFn).1.currentResult = some r' ∧
        Fine settings (drift + ((committed r).filter fun item => !reverts rollbackFn item).length) r' := by
  unfold Service.rollbackBatch
  rw [current]
  dsimp only
  split
  · exact .inl rfl
  · rename_i allowed
    refine .inr ⟨_, rfl, ?_⟩
    unfold Fine at *
    by_cases accepted : r.rejectionReason = none
    · rw [if_pos accepted] at fine
      rw [if_pos (show (Service.rolledBackResult env r rollbackFn).rejectionReason = none from accepted)]
      exact fine.rolledBackResult env rollbackFn
    · rw [if_neg accepted] at fine
      rw [fine.not_canRollback current] at allowed
      exact absurd rfl allowed

end Results

section Runs

open Service

variable {settings : Settings} {s t : Service} {r : BatchExecutionResult} {action : Env × Call}

def step (settings : Settings) (s : Service) (action : Env × Call) : Option Service :=
  some (s.perform settings action.1 action.2).1

def Shown (settings : Settings) (s : Service) (r : BatchExecutionResult) : Prop :=
  s.currentResult = some r ∨ ∃ env call, (s.perform settings env call).2.1 = some r

def Reverting (s : Service) (action : Env × Call) : Prop :=
  match action.2 with
  | .rollbackBatch rollbackFn =>
    ∀ r, s.currentResult = some r → ∀ item ∈ r.results, item.status = .success → reverts rollbackFn item = true
  | _ => True

def Kept (settings : Settings) (drifts : Set ℤ) (s : Service) : Prop :=
  ∀ r, s.currentResult = some r → ∃ drift ∈ drifts, Fine settings drift r

theorem kept_new (settings : Settings) (drifts : Set ℤ) : Kept settings drifts .new := by
  intro r current
  cases current

theorem perform_result {env : Env} {call : Call} (returned : (s.perform settings env call).2.1 = some r) :
    (s.perform settings env call).1.currentResult = some r := by
  cases call with
  | run operationType plans apply options =>
    exact (run_result s settings env operationType plans apply options).trans returned
  | retryFailedItems retryFn => exact retry_result returned
  | rollbackBatch rollbackFn => cases returned

theorem kept_step {drifts : Set ℤ} (kept : Kept settings drifts s) (zero : 0 ∈ drifts)
    (more : ∀ rollbackFn, action.2 = .rollbackBatch rollbackFn → ∀ r, s.currentResult = some r → ∀ drift ∈ drifts,
      drift + ((committed r).filter fun item => !reverts rollbackFn item).length ∈ drifts)
    (stepped : step settings s action = some t) : Kept settings drifts t := by
  cases stepped
  obtain ⟨env, call⟩ := action
  intro r' current'
  cases call with
  | run operationType plans apply options =>
    have result := run_result s settings env operationType plans apply options
    have same : (s.run settings env operationType plans apply options).2.1 = r' :=
      Option.some.inj (result.symm.trans current')
    exact ⟨0, zero, same ▸ run_fine s settings env operationType plans apply options⟩
  | retryFailedItems retryFn =>
    cases before : s.currentResult with
    | none =>
      have unchanged : (s.retryFailedItems settings env retryFn).1 = s := by
        unfold Service.retryFailedItems
        rw [before]
      have nothing : s.currentResult = some r' := unchanged ▸ current'
      rw [before] at nothing
      cases nothing
    | some r =>
      obtain ⟨drift, possible, fine⟩ := kept r before
      have returned : (s.retryFailedItems settings env retryFn).2.1 = some r' := by
        cases result : (s.retryFailedItems settings env retryFn).2.1 with
        | none =>
          unfold Service.retryFailedItems at result
          rw [before] at result
          dsimp only at result
          split at result <;> cases result
        | some r'' => exact (retry_result result).symm.trans current'
      exact ⟨drift, possible, retry_fine before fine returned⟩
  | rollbackBatch rollbackFn =>
    cases before : s.currentResult with
    | none =>
      have unchanged : (s.rollbackBatch settings env rollbackFn).1 = s := by
        unfold Service.rollbackBatch
        rw [before]
      have nothing : s.currentResult = some r' := unchanged ▸ current'
      rw [before] at nothing
      cases nothing
    | some r =>
      obtain ⟨drift, possible, fine⟩ := kept r before
      rcases rollback_fine before fine env rollbackFn with unchanged | ⟨r'', after, fine'⟩
      · have same : s.currentResult = some r' := unchanged ▸ current'
        exact kept r' same
      · have same : r'' = r' := Option.some.inj (after.symm.trans current')
        exact ⟨_, more rollbackFn rfl r before drift possible, same ▸ fine'⟩

theorem kept_of_run (run : Runs (step settings) anyAction .new s) : Kept settings Set.univ s := by
  apply run.keeps (Kept settings Set.univ) (kept_new settings _)
  intro s t action kept _ stepped
  exact kept_step kept trivial (fun _ _ _ _ _ _ => trivial) stepped

theorem kept_of_reverting (run : Runs (step settings) Reverting .new s) : Kept settings {0} s := by
  apply run.keeps (Kept settings {0}) (kept_new settings _)
  intro s t action kept reverting stepped
  apply kept_step kept rfl _ stepped
  intro rollbackFn is r current drift zero
  rw [Reverting, is] at reverting
  have none_failed : (committed r).filter (fun item => !reverts rollbackFn item) = [] := by
    rw [filter_eq_nil_iff]
    intro item mem
    obtain ⟨member, success⟩ := mem_filter.mp mem
    simp [reverting r current item member (of_decide_eq_true success)]
  rw [Set.mem_singleton_iff.mp zero, none_failed]
  rfl

theorem Shown.reached {allowed : Service → Env × Call → Prop} (shown : Shown settings s r)
    (run : Runs (step settings) allowed .new s) (weak : ∀ s action, Reverting s action → allowed s action) :
    ∃ t, Runs (step settings) allowed .new t ∧ t.currentResult = some r := by
  rcases shown with current | ⟨env, call, returned⟩
  · exact ⟨s, run, current⟩
  · have reverting : Reverting s (env, call) := by
      cases call with
      | run | retryFailedItems => trivial
      | rollbackBatch rollbackFn => cases returned
    exact ⟨_, run.next (env, call) (weak s _ reverting) rfl, perform_result returned⟩

structure Exact (r : BatchExecutionResult) : Prop where
  successful : r.successfulItems = count .success r.results
  failed : r.failedItems = count .failed r.results
  skipped : r.skippedItems = count .skipped r.results
  total : r.successfulItems + r.failedItems + r.skippedItems = r.totalItems
  indices : (r.results.map (·.index)).Perm ((List.range r.totalItems).map fun i : ℕ => (i : ℚ))
  completed : r.state = .completed → ∀ item ∈ r.results, item.status ≠ .failed

structure Consistent (settings : Settings) (r : BatchExecutionResult) : Prop where
  failed : r.failedItems = count .failed r.results
  skipped : r.skippedItems = count .skipped r.results
  indices : ∀ n : ℕ, (settings.getOperationConfig r.operationType).chunkSize = n →
    (r.results.map (·.index)).Perm ((List.range r.totalItems).map fun i : ℕ => (i : ℚ))
  completed : r.state = .completed → ∀ item ∈ r.results, item.status ≠ .failed

theorem Accounted.consistent {drift : ℤ} (accounted : Accounted settings drift r) : Consistent settings r where
  failed := accounted.failed
  skipped := accounted.skipped
  indices n whole := by rw [accounted.numbered n whole]
  completed state := count_eq_zero.mp (accounted.completed state)

theorem Accounted.total (accounted : Accounted settings 0 r) :
    r.successfulItems + r.failedItems + r.skippedItems = r.totalItems := by
  rw [accounted.successful, accounted.failed, accounted.skipped, Int.add_zero, count_settled accounted.settled,
    accounted.length]

/-- Every result of a batch that was not refused is consistent, and its counters add up where all rollbacks succeed. -/
theorem consistent_of_shown (settings : Settings) : (∀ s r, Runs (step settings) anyAction .new s → Shown settings s r →
      if r.rejectionReason = none then Consistent settings r else Rejected r) ∧
    ∀ s r, Runs (step settings) Reverting .new s → Shown settings s r → r.rejectionReason = none →
      r.successfulItems = count .success r.results ∧
        r.successfulItems + r.failedItems + r.skippedItems = r.totalItems := by
  constructor
  · intro s r run shown
    obtain ⟨t, run, current⟩ := shown.reached run fun _ _ _ => trivial
    obtain ⟨drift, -, fine⟩ := kept_of_run run r current
    unfold Fine at fine
    split
    · rename_i accepted
      rw [if_pos accepted] at fine
      exact fine.consistent
    · rename_i refused
      rw [if_neg refused] at fine
      exact fine
  · intro s r run shown accepted
    obtain ⟨t, run, current⟩ := shown.reached run fun _ _ reverting => reverting
    obtain ⟨drift, zero, fine⟩ := kept_of_reverting run r current
    rw [Fine, if_pos accepted, Set.mem_singleton_iff.mp zero] at fine
    exact ⟨fine.successful.trans (Int.add_zero _), fine.total⟩

def exampleReply : Reply := ⟨.ok { success := true }, 0, 0⟩

def exampleCharge (items : ℕ) : Call :=
  executeBatchCharge (fun _ => "") (List.replicate items ("sub_1", 10)) (fun _ _ _ => exampleReply) none

theorem not_exact : ¬ ∀ (settings : Settings) (s : Service) (r : BatchExecutionResult),
    Runs (step settings) anyAction .new s → Shown settings s r → Exact r := by
  intro all
  have exact := all {} .new _ (.refl _) (.inr ⟨⟨0, 0, ""⟩, exampleCharge 51, rfl⟩)
  exact absurd exact.total (by decide +kernel)

end Runs

end SubTrackr.BatchTransactions
