import SubTrackr.FairQueue.Fairness
import SubTrackr.Lib.Runs

namespace SubTrackr.FairQueue

open List Lib

variable {τ : Type}

def Call.taken (p : PriorityClass) : Call τ → Option ℕ
  | .removing q job _ => if q = p then some job else none
  | .dequeued q job _ => if q = p then some job else none
  | _ => none

namespace WeightedFairQueue

variable {s s' : WeightedFairQueue τ} {p : PriorityClass} {call : ℕ} {c next : Call τ}

def accepted (s : WeightedFairQueue τ) (p : PriorityClass) : List ℕ :=
  (s.jobs.zipIdx.filter fun entry => entry.1.1 = p).map Prod.snd

def transit (s : WeightedFairQueue τ) (p : PriorityClass) : List ℕ := s.calls.filterMap (Call.taken p)

/-- A persisted job finds room; a job taken from its queue is removed from the persistence layer, has a handler, and is
    handed out before those taken after it. -/
def keeps (s : WeightedFairQueue τ) : Action τ → Bool
  | .settle call outcome _ =>
    match s.calls[call]?, outcome with
    | some (.persisting request _), .done _ => s.getDepths request.priority < (s.queues request.priority).maxSize
    | some (.removing ..), .failed => false
    | some (.dequeued p job handlers), _ => s.hasHandler job handlers && ((s.calls.take call).filterMap (Call.taken p)).isEmpty
    | _, _ => true
  | _ => true

structure Conserved (s : WeightedFairQueue τ) : Prop where
  room (p : PriorityClass) : s.getDepths p ≤ (s.queues p).maxSize
  jobs (p : PriorityClass) : s.handed p ++ s.transit p ++ (s.queues p).pending = s.accepted p

theorem calls_split (found : s.calls[call]? = some c) : s.calls = s.calls.take call ++ c :: s.calls.drop (call + 1) := by
  obtain ⟨short, rfl⟩ := List.getElem?_eq_some_iff.mp found
  rw [List.cons_getElem_drop_succ, List.take_append_drop]

theorem transit_split (found : s.calls[call]? = some c) : s.transit p = (s.calls.take call).filterMap (Call.taken p) ++
      ((c.taken p).toList ++ (s.calls.drop (call + 1)).filterMap (Call.taken p)) := by
  rw [transit]
  nth_rewrite 1 [calls_split found]
  rw [List.filterMap_append, List.filterMap_cons]
  cases c.taken p <;> rfl

theorem finish_transit (s : WeightedFairQueue τ) (call : ℕ) (p : PriorityClass) :
    (s.finish call).transit p = (s.calls.take call).filterMap (Call.taken p) ++
      (s.calls.drop (call + 1)).filterMap (Call.taken p) := by
  rw [transit, finish, eraseIdx_eq_take_drop_succ, List.filterMap_append]

theorem proceed_transit (found : s.calls[call]? = some c) :
    (s.proceed call next).transit p = (s.calls.take call).filterMap (Call.taken p) ++
      ((next.taken p).toList ++ (s.calls.drop (call + 1)).filterMap (Call.taken p)) := by
  obtain ⟨short, -⟩ := List.getElem?_eq_some_iff.mp found
  rw [transit, proceed, List.set_eq_take_append_cons_drop, if_pos short, List.filterMap_append, List.filterMap_cons]
  cases next.taken p <;> rfl

theorem suspend_transit : (s.suspend next).transit p = s.transit p ++ (next.taken p).toList := by
  rw [transit, suspend, List.filterMap_append]
  cases taken : next.taken p <;> simp [transit, taken]

theorem finish_keeps (found : s.calls[call]? = some c) (empty : c.taken p = none) : (s.finish call).transit p = s.transit p := by
  rw [finish_transit, transit_split found, empty]
  rfl

theorem proceed_keeps (found : s.calls[call]? = some c) (same : next.taken p = c.taken p) :
    (s.proceed call next).transit p = s.transit p := by
  rw [proceed_transit found, transit_split found, same]

theorem accepted_append (request : Request τ) (job : QueueJob τ) (jobs : List (PriorityClass × QueueJob τ)) :
    ((jobs ++ [(request.priority, job)]).zipIdx.filter fun entry => entry.1.1 = p).map Prod.snd =
      ((jobs.zipIdx.filter fun entry => entry.1.1 = p).map Prod.snd) ++
        if request.priority = p then [jobs.length] else [] := by
  rw [zipIdx_append, filter_append, map_append, Nat.zero_add]
  by_cases same : request.priority = p
  · simp [same]
  · simp [same]

theorem accepted_nodup (s : WeightedFairQueue τ) (p : PriorityClass) : (s.accepted p).Nodup := by
  have numbers : (s.jobs.zipIdx.map Prod.snd).Nodup := by
    rw [zipIdx_map_snd]
    exact nodup_range'
  exact numbers.sublist (filter_sublist.map Prod.snd)

theorem new_conserved (weights : PriorityClass → ℚ) (maxSize : ℕ) (maxSizes : PriorityClass → ℕ) :
    (new weights maxSize maxSizes : WeightedFairQueue τ).Conserved := ⟨fun _ => Nat.zero_le _, fun _ => rfl⟩

theorem Conserved.congr (conserved : s.Conserved) (pending : ∀ p, (s'.queues p).pending = (s.queues p).pending)
    (maxSize : ∀ p, (s'.queues p).maxSize = (s.queues p).maxSize) (jobs : s'.jobs = s.jobs) (handed : s'.handed = s.handed)
    (transit : ∀ p, s'.transit p = s.transit p) : s'.Conserved := by
  constructor
  · intro p
    rw [getDepths, pending, maxSize]
    exact conserved.room p
  · intro p
    rw [handed, transit, pending, accepted, jobs]
    exact conserved.jobs p

theorem setPaused_queue (q : PriorityClass) (paused : Bool) (p : PriorityClass) :
    ((s.setQueue q { s.queues q with paused }).queues p).pending = (s.queues p).pending ∧
      ((s.setQueue q { s.queues q with paused }).queues p).maxSize = (s.queues p).maxSize := by
  rcases eq_or_ne p q with rfl | other
  · simp [setQueue]
  · simp [setQueue, Function.update_of_ne other]

section

variable (conserved : s.Conserved)

include conserved

theorem setPaused_conserved (q : PriorityClass) (paused : Bool) : (s.setQueue q { s.queues q with paused }).Conserved :=
  conserved.congr (fun p => (setPaused_queue q paused p).1) (fun p => (setPaused_queue q paused p).2) rfl rfl fun _ => rfl

theorem suspend_conserved (empty : ∀ p, next.taken p = none) : (s.suspend next).Conserved := by
  refine conserved.congr (fun _ => rfl) (fun _ => rfl) rfl rfl fun p => ?_
  rw [suspend_transit, empty, Option.toList_none, append_nil]

theorem finish_conserved (found : s.calls[call]? = some c) (empty : ∀ p, c.taken p = none) : (s.finish call).Conserved :=
  conserved.congr (fun _ => rfl) (fun _ => rfl) rfl rfl fun p => finish_keeps found (empty p)

theorem proceed_conserved (found : s.calls[call]? = some c)
    (same : ∀ p, next.taken p = c.taken p) : (s.proceed call next).Conserved :=
  conserved.congr (fun _ => rfl) (fun _ => rfl) rfl rfl fun p => proceed_keeps found (same p)

theorem enqueue_conserved (request : Request τ) : (s.enqueue request).Conserved := by
  unfold enqueue
  split
  · exact suspend_conserved (setPaused_conserved conserved _ _) fun _ => rfl
  · exact suspend_conserved conserved fun _ => rfl

theorem add_conserved {request : Request τ} (found : s.calls[call]? = some (.checked request))
    (now : ℤ) : (s.add call request now).Conserved := by
  unfold add
  split
  · exact finish_conserved conserved found fun _ => rfl
  · split
    · exact finish_conserved conserved found fun _ => rfl
    · exact proceed_conserved conserved found fun _ => rfl

theorem push_conserved {request : Request τ} {enqueuedAt : ℤ}
    (found : s.calls[call]? = some (.persisting request enqueuedAt))
    (fits : s.getDepths request.priority < (s.queues request.priority).maxSize) (id : Option String) :
    (s.push call request enqueuedAt id).Conserved := by
  have kept (p : PriorityClass) : (s.push call request enqueuedAt id).transit p = s.transit p :=
    finish_keeps found rfl
  have grown (p : PriorityClass) : (s.push call request enqueuedAt id).accepted p =
      s.accepted p ++ if request.priority = p then [s.jobs.length] else [] := accepted_append request _ s.jobs
  constructor
  · intro p
    rcases eq_or_ne p request.priority with rfl | other
    · simpa [push, setQueue, getDepths] using Nat.succ_le_of_lt fits
    · simpa [push, setQueue, getDepths, Function.update_of_ne other] using conserved.room p
  · intro p
    rw [kept, grown, ← conserved.jobs p]
    rcases eq_or_ne p request.priority with rfl | other
    · simp [push, setQueue]
    · simp [push, setQueue, Function.update_of_ne other, other.symm]

theorem dequeue_conserved (q : PriorityClass) (handlers : Option (String → Bool)) :
    (s.dequeue q handlers).Conserved := by
  unfold dequeue
  split
  · exact conserved
  · split
    · exact conserved
    · rename_i job rest pending
      have taken (p : PriorityClass) : (if s.persisted job then Call.removing q job handlers else
          .dequeued q job handlers : Call τ).taken p = if q = p then some job else none := by
        split <;> rfl
      constructor
      · intro p
        rcases eq_or_ne p q with rfl | other
        · have room := conserved.room p
          rw [getDepths, pending, length_cons] at room
          simpa [suspend, setQueue, getDepths] using (Nat.le_succ _).trans room
        · simpa [suspend, setQueue, getDepths, Function.update_of_ne other] using conserved.room p
      · intro p
        have all := conserved.jobs p
        rw [suspend_transit, taken]
        rcases eq_or_ne p q with rfl | other
        · rw [pending] at all
          simpa [suspend, setQueue, transit, accepted] using all
        · simpa [suspend, setQueue, transit, accepted, Function.update_of_ne other, other.symm] using all

theorem hand_conserved {q : PriorityClass} {job : ℕ} {handlers : Option (String → Bool)}
    (found : s.calls[call]? = some (.dequeued q job handlers)) (handled : s.hasHandler job handlers = true)
    (first : (s.calls.take call).filterMap (Call.taken q) = []) : (s.hand call q job handlers).Conserved := by
  have moved (p : PriorityClass) : (if q = p then [job] else []) ++ (s.hand call q job handlers).transit p = s.transit p := by
    have rest : (s.hand call q job handlers).transit p = (s.calls.take call).filterMap (Call.taken p) ++
        (s.calls.drop (call + 1)).filterMap (Call.taken p) := by
      rw [hand, if_pos handled]
      dsimp only
      split
      · exact proceed_transit found
      · exact finish_transit s call p
    rw [rest, transit_split found, Call.taken]
    rcases eq_or_ne q p with rfl | other
    · rw [first, if_pos rfl, if_pos rfl]
      rfl
    · rw [if_neg other, if_neg other]
      rfl
  have queues : (s.hand call q job handlers).queues = s.queues := by
    rw [hand, if_pos handled]
    dsimp only
    split <;> rfl
  have jobs : (s.hand call q job handlers).jobs = s.jobs := by
    rw [hand, if_pos handled]
    dsimp only
    split <;> rfl
  have handed : (s.hand call q job handlers).handed = Function.update s.handed q (s.handed q ++ [job]) := by
    rw [hand, if_pos handled]
    dsimp only
    split <;> rfl
  constructor
  · intro p
    rw [getDepths, queues]
    exact conserved.room p
  · intro p
    rw [handed, queues, accepted, jobs]
    refine Eq.trans ?_ (conserved.jobs p)
    rw [← moved p]
    rcases eq_or_ne p q with rfl | other
    · simp
    · simp [Function.update_of_ne other, other.symm]

theorem settle_conserved {outcome : Outcome} {now : ℤ}
    (kept : s.keeps (.settle call outcome now) = true) (stepped : s.settle call outcome now = some s') : s'.Conserved := by
  unfold settle at stepped
  unfold keeps at kept
  split at stepped <;> cases stepped <;> rename_i found <;> simp only [found] at kept
  · refine conserved.congr (fun _ => rfl) (fun _ => rfl) rfl rfl fun p => ?_
    exact @proceed_keeps _ s p _ _ (.checked _) found rfl
  · exact finish_conserved conserved found fun _ => rfl
  · exact add_conserved conserved found now
  · exact push_conserved conserved found (of_decide_eq_true kept) _
  · exact finish_conserved conserved found fun _ => rfl
  · exact proceed_conserved conserved found fun _ => rfl
  · cases kept
  · obtain ⟨handled, first⟩ := Bool.and_eq_true_iff.mp kept
    exact hand_conserved conserved found handled (isEmpty_iff.mp first)
  · exact finish_conserved conserved found fun _ => rfl

theorem step_conserved {action : Action τ} (kept : s.keeps action = true)
    (stepped : s.step action = some s') : s'.Conserved := by
  cases action with
  | enqueue request =>
    cases stepped
    exact enqueue_conserved conserved request
  | scheduleNext handlers =>
    cases stepped
    have spent (deficits : PriorityClass → ℚ) : { s with deficits }.Conserved :=
      conserved.congr (fun _ => rfl) (fun _ => rfl) rfl rfl fun _ => rfl
    unfold scheduleNext
    split
    · exact spent _
    · exact dequeue_conserved (spent _) _ handlers
  | dequeue p =>
    cases stepped
    exact dequeue_conserved conserved p none
  | pause p =>
    cases stepped
    exact setPaused_conserved conserved p true
  | resume p =>
    cases stepped
    exact setPaused_conserved conserved p false
  | clearPaused =>
    cases stepped
    exact conserved.congr (fun _ => rfl) (fun _ => rfl) rfl rfl fun _ => rfl
  | settle call outcome now => exact settle_conserved conserved kept stepped

end

end WeightedFairQueue

open WeightedFairQueue

/-- In a run whose steps all keep jobs no queue is over its size, and every accepted job of a class is once pending, in
    the hands of a call that took it, or handed out; those handed out are the first accepted, in that order. -/
theorem jobs_conserved {weights : PriorityClass → ℚ} {maxSize : ℕ} {maxSizes : PriorityClass → ℕ} {s : WeightedFairQueue τ}
    (run : Runs WeightedFairQueue.step (fun s action => s.keeps action = true) (new weights maxSize maxSizes) s)
    (p : PriorityClass) :
    s.getDepths p ≤ (s.queues p).maxSize ∧
      (∀ job ∈ s.accepted p, (s.queues p).pending.count job + (s.transit p).count job + (s.handed p).count job = 1) ∧
      s.handed p <+: s.accepted p := by
  have conserved : s.Conserved :=
    run.keeps Conserved (new_conserved weights maxSize maxSizes) fun _ _ _ conserved kept stepped =>
      step_conserved conserved kept stepped
  refine ⟨conserved.room p, fun job member => ?_, ?_⟩
  · have once := count_eq_one_of_mem (s.accepted_nodup p) member
    rw [← conserved.jobs p, count_append, count_append] at once
    omega
  · rw [← conserved.jobs p, append_assoc]
    exact prefix_append _ _

section Sample

def sync : Request Unit := ⟨.normal, "sync", (), ⟨none, none⟩⟩

def tight : WeightedFairQueue Unit := new (fun _ => 1) 1 fun _ => 1

def roomy : WeightedFairQueue Unit := new (fun _ => 1) 2 fun _ => 2

def wait : Action Unit := .settle 0 (.done none) 5

def persist : Action Unit := .settle 0 (.done (some "1")) 5

def accepting : List (Action Unit) := [.enqueue sync, wait, persist]

theorem jobs_conserved_processed : ∃ s : WeightedFairQueue Unit, s.handed .normal = [0] ∧
    s.handed .normal <+: s.accepted .normal := by
  obtain ⟨s, run, handed⟩ : ∃ s, Runs step (fun s action => s.keeps action = true) tight s ∧ s.handed .normal = [0] :=
    Runs.exists_of_foldlM (accepting ++ [.scheduleNext (some fun _ => true), wait, wait]) (by decide +kernel)
  exact ⟨s, handed, (jobs_conserved run .normal).2.2⟩

def Lost (s : WeightedFairQueue Unit) : Prop :=
  s.calls.length = 0 ∧ s.accepted .normal = [0] ∧ (s.queues .normal).pending = [] ∧ s.handed .normal = []

instance : DecidablePred Lost := fun s => by
  unfold Lost
  infer_instance

def Action.succeeds : Action Unit → Bool
  | .settle _ .failed _ => false
  | _ => true

def Action.processes : Action Unit → Bool
  | .scheduleNext _ => true
  | _ => false

/-- Two calls find room before either job takes it; a job is lost where it has no handler, and where it cannot be removed
    from the persistence layer; and of two jobs taken the second may be handed out first. -/
theorem not_jobs_conserved : (∃ s, Runs step anyAction tight s ∧ (s.queues .normal).maxSize < s.getDepths .normal) ∧
    (∃ s, Runs step (fun _ action => action.succeeds = true) tight s ∧ Lost s) ∧
    (∃ s, Runs step (fun _ action => action.processes = false) tight s ∧ Lost s) ∧
    ∃ s, Runs step anyAction roomy s ∧ s.accepted .normal = [0, 1] ∧ s.handed .normal = [1, 0] := by
  refine ⟨?_, ?_, ?_, ?_⟩
  · exact Runs.exists_of_foldlM [.enqueue sync, .enqueue sync, wait, .settle 1 (.done none) 5, persist, persist]
      (by decide +kernel)
  · exact Runs.exists_of_foldlM (accepting ++ [.scheduleNext (some fun _ => false), wait, wait]) (by decide +kernel)
  · exact Runs.exists_of_foldlM (accepting ++ [.dequeue .normal, .settle 0 .failed 6]) (by decide +kernel)
  · exact Runs.exists_of_foldlM (accepting ++ accepting ++ [.dequeue .normal, .dequeue .normal, wait,
      .settle 1 (.done none) 6, .settle 1 (.done none) 7, wait]) (by decide +kernel)

end Sample

end SubTrackr.FairQueue
