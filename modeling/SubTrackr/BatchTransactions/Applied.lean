import SubTrackr.BatchTransactions.Accounting

namespace SubTrackr.BatchTransactions

open List Lib Service

abbrev Traced : Type := Service × List (Effect String)

def tracedStep (settings : Settings) (s : Traced) (action : Env × Call) : Option Traced :=
  let (service, _, effects) := s.1.perform settings action.1 action.2
  some (service, s.2 ++ effects)

def keysOf (operationType : BatchOperationType) : Set String := Set.range (idempotencyKey operationType)

/-- Where the first item fails, none of those applied before it stands in the ledger under the id that it is recorded
    with. -/
def Harmless (x : Batch) : (known : Finset String) → (recorded : List String) → List (ℚ × BatchItemPlan) → Prop
  | _, _, [] => True
  | known, recorded, (index, plan) :: rest =>
    let key := idempotencyKey x.operationType plan.subscriptionId
    let outcome := (x.apply index plan).result
    if key ∈ known then Harmless x known recorded rest
    else if outcome.success then
      Harmless x (insert key known)
        (recorded ++ [idempotencyKey x.operationType (orElse outcome.id plan.subscriptionId)]) rest
    else ∀ k ∈ recorded, k ∉ known

def retriedItems (maxRetries : ℤ) (retryFn : PerItemResult → Reply) (items : List PerItemResult) : List PerItemResult :=
  items.filter fun item =>
    item.status = .failed ∧ (item.retryCount : ℤ) < maxRetries ∧ (retryFn item).result.success = true

/-- An atomic batch of the operation loses no item that stands, and a retry of the operation succeeds for no item that
    stands, nor for two items with one id. -/
def Careful (settings : Settings) (operationType : BatchOperationType) (s : Traced) (action : Env × Call) : Prop :=
  match action.2 with
  | .run operationType' plans apply options =>
    let config := settings.getOperationConfig operationType
    operationType' = operationType → options.atomic.getD config.atomicDefault = true →
      validateBatchSizeFor operationType plans.length config = none →
        Harmless ⟨config, operationType, true, apply⟩ s.1.appliedItems [] (queue config.chunkSize plans plans.length 0)
  | .retryFailedItems retryFn => ∀ r, s.1.currentResult = some r → r.operationType = operationType →
    let retried := retriedItems (settings.maxRetries operationType) retryFn r.results
    (retried.map (·.subscriptionId)).Nodup ∧
      ∀ item ∈ retried, idempotencyKey operationType item.subscriptionId ∉ s.1.appliedItems
  | .rollbackBatch _ => True

section Keys

variable {operationType : BatchOperationType} {known : Finset String} {log : List (Effect String)}

theorem idempotencyKey_inj {a b : BatchOperationType} {i j : String} (same : idempotencyKey a i = idempotencyKey b j) :
    a = b ∧ i = j := by
  have chars := congrArg String.toList same
  simp only [idempotencyKey, String.toList_append] at chars
  have ids : i.toList = j.toList → i = j := fun same => String.toList_inj.mp same
  cases a <;> cases b <;> simp_all [BatchOperationType.text]

theorem mem_keysOf {a : BatchOperationType} {id : String} : idempotencyKey a id ∈ keysOf operationType ↔ a = operationType := by
  constructor
  · rintro ⟨id', same⟩
    exact (idempotencyKey_inj same).1.symm
  · rintro rfl
    exact ⟨id, rfl⟩

section

variable (once : DoneOnce (keysOf operationType) known log)

include once

theorem doneOnce_apply {a : BatchOperationType} {id : String} {idempotent : Bool}
    (noted : a = operationType → idempotent = true) (fresh : a = operationType → idempotencyKey a id ∉ known) :
    DoneOnce (keysOf operationType) (if idempotent then insert (idempotencyKey a id) known else known)
      (log ++ [.done (idempotencyKey a id)]) := by
  by_cases here : a = operationType
  · rw [if_pos (noted here)]
    exact once.done fun _ => fresh here
  · have outside : idempotencyKey a id ∉ keysOf operationType := fun key => here (mem_keysOf.mp key)
    have other := once.done_other outside
    split
    · exact other.insert _
    · exact other

theorem doneOnce_undo (keys : List String) :
    DoneOnce (keysOf operationType) (keys.foldl (fun items key => items.erase key) known) (log ++ keys.map .undone) := by
  induction keys generalizing known log with
  | nil => simpa using once
  | cons key keys ih =>
    rw [map_cons, append_cons]
    exact ih (once.undone key)

theorem doneOnce_forget {keys : List String}
    (fresh : ∀ key ∈ keys, key ∈ keysOf operationType → key ∉ known) :
    DoneOnce (keysOf operationType) (keys.foldl (fun items key => items.erase key) known) log := by
  induction keys generalizing known with
  | nil => exact once
  | cons key keys ih =>
    rw [forall_mem_cons] at fresh
    apply ih (once.erase fresh.1)
    intro key' mem kind still
    exact fresh.2 key' mem kind (Finset.mem_of_mem_erase still)

end

end Keys

section Batches

variable {operationType : BatchOperationType} {x : Batch} {p p' : Progress} {log : List (Effect String)}
  {entry : ℚ × BatchItemPlan} {entries : List (ℚ × BatchItemPlan)}

theorem doneOnce_runItem (noted : x.operationType = operationType → x.config.idempotent = true)
    (once : DoneOnce (keysOf operationType) p.appliedItems (log ++ p.effects)) (runs : RunsItem x p entry p') :
    DoneOnce (keysOf operationType) p'.appliedItems (log ++ p'.effects) := by
  cases runs with
  | skips | fails => exact once
  | succeeds item index status named fresh going success =>
    dsimp only
    rw [← append_assoc]
    exact doneOnce_apply once noted fun here => fresh (noted here)

theorem doneOnce_runItems (noted : x.operationType = operationType → x.config.idempotent = true)
    (once : DoneOnce (keysOf operationType) p.appliedItems (log ++ p.effects)) :
    DoneOnce (keysOf operationType) (entries.foldl (runItem x) p).appliedItems
      (log ++ (entries.foldl (runItem x) p).effects) := by
  induction entries generalizing p with
  | nil => exact once
  | cons entry entries ih => exact ih (doneOnce_runItem noted once (runItem_cases x p entry))

def recordedKeys (x : Batch) (results : List PerItemResult) : List String :=
  (results.filter fun item => item.status = .success).map fun item => idempotencyKey x.operationType item.subscriptionId

theorem recordedKeys_append_of_ne {results : List PerItemResult} {item : PerItemResult} (other : item.status ≠ .success) :
    recordedKeys x (results ++ [item]) = recordedKeys x results := by
  simp [recordedKeys, other]

theorem recordedKeys_append_of_success {results : List PerItemResult} {item : PerItemResult} (success : item.status = .success) :
    recordedKeys x (results ++ [item]) =
      recordedKeys x results ++ [idempotencyKey x.operationType item.subscriptionId] := by
  simp [recordedKeys, success]

theorem runItems_aborted (x : Batch) (entries : List (ℚ × BatchItemPlan)) (aborted : p.aborted = true) :
    recordedKeys x (entries.foldl (runItem x) p).results = recordedKeys x p.results ∧
      (entries.foldl (runItem x) p).appliedItems = p.appliedItems := by
  induction entries generalizing p with
  | nil => exact ⟨rfl, rfl⟩
  | cons entry entries ih =>
    rw [foldl_cons]
    have runs := runItem_cases x p entry
    generalize runItem x p entry = p' at runs ⊢
    cases runs with
    | skips item index status reason =>
      constructor
      · apply (ih _).1.trans
        · exact recordedKeys_append_of_ne (by simp [status])
        · exact aborted
      · apply (ih _).2
        exact aborted
    | succeeds item index status named fresh going | fails item index status fresh going =>
      rw [aborted] at going
      cases going

theorem fresh_of_harmless (atomic : x.atomic = true) (idempotent : x.config.idempotent = true) (going : p.aborted = false)
    (clean : p.failedItems = 0) (harmless : Harmless x p.appliedItems (recordedKeys x p.results) entries)
    (failed : (entries.foldl (runItem x) p).failedItems > 0) :
    ∀ key ∈ recordedKeys x (entries.foldl (runItem x) p).results, key ∉ (entries.foldl (runItem x) p).appliedItems := by
  induction entries generalizing p with
  | nil =>
    rw [foldl_nil, clean] at failed
    exact absurd failed (lt_irrefl 0)
  | cons entry entries ih =>
    rw [foldl_cons] at failed ⊢
    rw [Harmless] at harmless
    have runs := runItem_cases x p entry
    generalize runItem x p entry = p' at runs failed ⊢
    cases runs with
    | skips item index status reason =>
      have known : idempotencyKey x.operationType entry.2.subscriptionId ∈ p.appliedItems := by
        rcases reason with aborted | known
        · rw [going] at aborted
          cases aborted
        · exact known.2
      rw [if_pos known] at harmless
      refine ih ?_ ?_ ?_ failed
      · exact going
      · exact clean
      · rw [recordedKeys_append_of_ne (by simp [status])]
        exact harmless
    | succeeds item index status named fresh _ success =>
      rw [if_neg (fresh idempotent), if_pos success] at harmless
      refine ih ?_ ?_ ?_ failed
      · exact going
      · exact clean
      · dsimp only
        rw [recordedKeys_append_of_success status, named, if_pos idempotent]
        exact harmless
    | fails item index status fresh _ failure =>
      rw [if_neg (fresh idempotent), if_neg (by simp [failure])] at harmless
      obtain ⟨recorded, applied⟩ := runItems_aborted x entries
        (p := { p with results := p.results ++ [item], failedItems := p.failedItems + 1, aborted := x.atomic }) atomic
      rw [recorded, applied]
      dsimp only
      rw [recordedKeys_append_of_ne (by simp [status])]
      exact harmless

theorem foldl_forget (x : Batch) (known : Finset String) (results : List PerItemResult) :
    (results.filter fun item => item.status = .success).foldl
        (fun items item => items.erase (idempotencyKey x.operationType item.subscriptionId)) known =
      (recordedKeys x results).foldl (fun items key => items.erase key) known := by
  rw [recordedKeys, foldl_map]

theorem doneOnce_afterLoops (known : Finset String) (plans : List BatchItemPlan)
    (noted : x.operationType = operationType → x.config.idempotent = true)
    (harmless : x.operationType = operationType → x.atomic = true →
      Harmless x known [] (queue x.config.chunkSize plans plans.length 0))
    (once : DoneOnce (keysOf operationType) known log) :
    DoneOnce (keysOf operationType) (afterLoops x (progress x known plans)).appliedItems
      (log ++ (afterLoops x (progress x known plans)).effects) := by
  have done : DoneOnce (keysOf operationType) (progress x known plans).appliedItems
      (log ++ (progress x known plans).effects) := by
    apply doneOnce_runItems noted
    simpa using once
  unfold afterLoops
  split
  · rename_i back
    simp only [rolledBack, Bool.and_eq_true, decide_eq_true_eq] at back
    unfold forget
    dsimp only
    rw [foldl_forget]
    apply doneOnce_forget done
    intro key mem kind
    by_cases here : x.operationType = operationType
    · exact fresh_of_harmless back.1 (noted here) rfl rfl (harmless here back.1) back.2 key mem
    · obtain ⟨item, -, rfl⟩ := mem_map.mp mem
      exact absurd (mem_keysOf.mp kind) here
  · exact done

end Batches

section Retries

variable {operationType : BatchOperationType} {x : Retrying} {p : Progress} {log : List (Effect String)}
  {items : List PerItemResult}

theorem doneOnce_retryItems (noted : x.operationType = operationType → x.idempotent = true)
    (nodup : x.operationType = operationType →
      ((retriedItems x.maxRetries x.retryFn items).map (·.subscriptionId)).Nodup)
    (fresh : x.operationType = operationType → ∀ item ∈ retriedItems x.maxRetries x.retryFn items,
      idempotencyKey x.operationType item.subscriptionId ∉ p.appliedItems)
    (once : DoneOnce (keysOf operationType) p.appliedItems (log ++ p.effects)) :
    DoneOnce (keysOf operationType) (items.foldl (retryItem x) p).appliedItems
      (log ++ (items.foldl (retryItem x) p).effects) := by
  induction items generalizing p with
  | nil => exact once
  | cons item items ih =>
    rw [foldl_cons]
    have part : (retriedItems x.maxRetries x.retryFn items).Sublist (retriedItems x.maxRetries x.retryFn (item :: items)) :=
      (sublist_cons_self item items).filter _
    have later (here : x.operationType = operationType) :
        ((retriedItems x.maxRetries x.retryFn items).map (·.subscriptionId)).Nodup :=
      List.Nodup.sublist (part.map _) (nodup here)
    have still (here : x.operationType = operationType) (item' : PerItemResult)
        (mem : item' ∈ retriedItems x.maxRetries x.retryFn items) :
        idempotencyKey x.operationType item'.subscriptionId ∉ p.appliedItems := fresh here item' (part.subset mem)
    have retries := retryItem_cases x p item
    generalize retryItem x p item = p' at retries ⊢
    cases retries with
    | keeps item' index status => exact ih later still once
    | succeeds item' index status was left success =>
      have first : retriedItems x.maxRetries x.retryFn (item :: items) =
          item :: retriedItems x.maxRetries x.retryFn items :=
        filter_cons_of_pos (by simp [was, left, success])
      rw [first] at nodup fresh
      refine ih later ?_ ?_
      · intro here other mem
        dsimp only
        rw [if_pos (noted here), Finset.mem_insert, not_or]
        refine ⟨fun same => ?_, still here other mem⟩
        apply (nodup_cons.mp (nodup here)).1
        exact mem_map.mpr ⟨other, mem, (idempotencyKey_inj same).2⟩
      · dsimp only
        rw [← append_assoc]
        exact doneOnce_apply once noted fun here => fresh here item mem_cons_self

end Retries

section Runs

variable {settings : Settings} {operationType : BatchOperationType} {s t : Traced} {action : Env × Call}

theorem doneOnce_step (idempotent : (settings.getOperationConfig operationType).idempotent = true)
    (once : DoneOnce (keysOf operationType) s.1.appliedItems s.2) (careful : Careful settings operationType s action)
    (stepped : tracedStep settings s action = some t) : DoneOnce (keysOf operationType) t.1.appliedItems t.2 := by
  cases stepped
  obtain ⟨⟨currentResult, known⟩, log⟩ := s
  obtain ⟨env, call⟩ := action
  cases call with
  | run operationType' plans apply opts =>
    dsimp only [Service.perform, Service.run]
    split
    · simpa using once
    · rename_i accepted
      apply doneOnce_afterLoops known plans _ _ once
      · rintro rfl
        exact idempotent
      · rintro rfl atomic
        have harmless := careful rfl atomic accepted
        dsimp only at atomic ⊢
        rw [atomic]
        exact harmless
  | retryFailedItems retryFn =>
    dsimp only [Service.perform, Service.retryFailedItems]
    split
    · simpa using once
    · rename_i r
      split
      · simpa using once
      · apply doneOnce_retryItems
        · rintro rfl
          exact idempotent
        · rintro rfl
          exact (careful r rfl rfl).1
        · rintro rfl
          exact (careful r rfl rfl).2
        · simpa using once
  | rollbackBatch rollbackFn =>
    dsimp only [Service.perform, Service.rollbackBatch]
    split
    · simpa using once
    · split
      · simpa using once
      · exact doneOnce_undo once _

/-- No subscription has the operation applied to it while it stands, at any moment of a run that is careful. -/
theorem doneOnce_of_careful (idempotent : (settings.getOperationConfig operationType).idempotent = true)
    (run : Runs (tracedStep settings) (Careful settings operationType) (.new, []) s) :
    ∀ id earlier, earlier <+: s.2 → net (idempotencyKey operationType id) earlier ≤ 1 := by
  have once := run.keeps (fun s => DoneOnce (keysOf operationType) s.1.appliedItems s.2) (.nil _ _)
    fun s t action once careful stepped => doneOnce_step idempotent once careful stepped
  intro id earlier before
  exact once.once _ ⟨id, rfl⟩ earlier before

def exampleCharges : Call :=
  executeBatchCharge (fun _ => "") [("sub_1", 10)] (fun _ _ _ => exampleReply) (some false)

def unatomic : Call → Bool
  | .run _ _ _ options => options.atomic = some false
  | _ => false

theorem doneOnce_exampleCharges : ∃ s : Traced, s.2 = [.done "charge:sub_1"] ∧
    ∀ id earlier, earlier <+: s.2 → net (idempotencyKey .charge id) earlier ≤ 1 := by
  have reached : ∃ s : Traced,
      Runs (tracedStep {}) (fun _ action => unatomic action.2 = true) (.new, []) s ∧ s.2 = [.done "charge:sub_1"] :=
    Runs.exists_of_foldlM [(⟨0, 0, ""⟩, exampleCharges), (⟨0, 0, ""⟩, exampleCharges)] (by decide +kernel)
  obtain ⟨s, run, log⟩ := reached
  refine ⟨s, log, doneOnce_of_careful (by decide) (run.mono ?_)⟩
  intro s action unatomic
  obtain ⟨env, call⟩ := action
  cases call with
  | run operationType plans apply options =>
    intro _ atomic
    rw [of_decide_eq_true unatomic] at atomic
    cases atomic
  | retryFailedItems | rollbackBatch => cases unatomic

theorem not_doneOnce : ¬ ∀ (settings : Settings) (operationType : BatchOperationType) (s : Traced),
    (settings.getOperationConfig operationType).idempotent = true →
    Runs (tracedStep settings) anyAction (.new, []) s →
    ∀ id earlier, earlier <+: s.2 → net (idempotencyKey operationType id) earlier ≤ 1 := by
  intro all
  have reached : ∃ s : Traced,
      Runs (tracedStep {}) anyAction (.new, []) s ∧ s.2 = [.done "charge:sub_1", .done "charge:sub_1"] :=
    Runs.exists_of_foldlM
      [(⟨0, 0, ""⟩, exampleCharges), (⟨0, 0, ""⟩, .rollbackBatch fun _ => ⟨.ok { success := false }, 0, 0⟩),
        (⟨0, 0, ""⟩, .retryFailedItems fun _ => exampleReply)] (by decide +kernel)
  obtain ⟨s, run, log⟩ := reached
  have once := all {} .charge s (by decide) run "sub_1" _ prefix_rfl
  rw [log] at once
  exact absurd once (by decide)

end Runs

end SubTrackr.BatchTransactions
