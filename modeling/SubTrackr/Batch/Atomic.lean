import SubTrackr.Batch.Execute

namespace SubTrackr.Batch

open List Lib Soroban

def change (kind : OperationType) (param : Int) (prior : Option SubRecord) : Option (Option SubRecord) :=
  match kind, prior with
  | .create, none => some (some { exists_ := true, status := .active, charged := 0 })
  | .create, some _ => none
  | .charge, some record =>
    if record.exists_ = true ∧ record.status ≠ .cancelled then
      some (some { record with charged := record.charged + param })
    else none
  | .charge, none => none
  | .update, some record => some (some record)
  | .update, none => none
  | .cancel, some record =>
    if record.exists_ = true then some (some { record with status := .cancelled }) else none
  | .cancel, none => none
  | .noop, prior => some prior

def effect (kind : OperationType) (param : Int) (prior : Option SubRecord) : Option SubRecord :=
  (change kind param prior).getD prior

def operationsFrom (operation : BatchOperation) (idx : Nat) : List Nat → List (Nat × Int)
  | [] => []
  | id :: ids => (id, operation.params[idx]?.getD 0) :: operationsFrom operation (idx + 1) ids

def operations (operation : BatchOperation) : List (Nat × Int) :=
  operationsFrom operation 0 operation.subscriptionIds

def AllApply (kind : OperationType) : List (Nat × Int) → Store Nat SubRecord → Prop
  | [], _ => True
  | (id, param) :: ops, m => change kind param (m id) ≠ none ∧ AllApply kind ops (assign m id (effect kind param (m id)))

section Loop

variable {operation : BatchOperation} {subs subs' m : Store Nat SubRecord} {kind : OperationType} {idx id : Nat}

theorem executeOperation_ok {opResult : OperationResult}
    (run : executeOperation operation subs idx id (subs id) = .ok (opResult, subs')) :
    (opResult.success = true ↔ change operation.operationType (operation.params[idx]?.getD 0) (subs id) ≠ none) ∧
      subs' = assign subs id (effect operation.operationType (operation.params[idx]?.getD 0) (subs id)) := by
  unfold executeOperation at run
  have same {prior : Option SubRecord} (held : subs id = prior) : subs = assign subs id prior := by
    rw [← held, assign_same]
  cases kind : operation.operationType with
  | create =>
    simp only [kind, ok_eq_ok] at run
    cases held : subs id with
    | none =>
      rw [held] at run
      cases run
      exact ⟨by simp [succeeded, change], rfl⟩
    | some record =>
      rw [held] at run
      cases run
      exact ⟨by simp [refusal, change], same held⟩
  | charge =>
    simp only [kind] at run
    cases held : subs id with
    | none =>
      rw [held] at run
      cases run
      exact ⟨by simp [refusal, change], same held⟩
    | some record =>
      rw [held] at run
      by_cases open_ : record.exists_ = true ∧ record.status ≠ .cancelled
      · simp only [executeCharge, if_pos open_, bind_eq_ok, pure_eq_ok, orPanic_eq_ok, i128_eq_ok] at run
        obtain ⟨_, ⟨_, rfl⟩, run⟩ := run
        cases run
        simp only [change, effect, if_pos open_]
        exact ⟨by simp [succeeded], rfl⟩
      · simp only [executeCharge, if_neg open_] at run
        cases run
        simp only [change, effect, if_neg open_]
        exact ⟨by simp [refusal], same held⟩
  | update =>
    simp only [kind, ok_eq_ok] at run
    cases held : subs id with
    | none =>
      rw [held] at run
      cases run
      exact ⟨by simp [refusal, change], same held⟩
    | some record =>
      rw [held] at run
      cases run
      exact ⟨by simp [succeeded, change], same held⟩
  | cancel =>
    simp only [kind, ok_eq_ok] at run
    cases held : subs id with
    | none =>
      rw [held] at run
      cases run
      exact ⟨by simp [refusal, change], same held⟩
    | some record =>
      rw [held] at run
      by_cases open_ : record.exists_ = true
      · simp only [executeCancel, if_pos open_] at run
        cases run
        simp only [change, effect, if_pos open_]
        exact ⟨by simp [succeeded], rfl⟩
      · simp only [executeCancel, if_neg open_] at run
        cases run
        simp only [change, effect, if_neg open_]
        exact ⟨by simp [refusal], same held⟩
  | noop =>
    simp only [kind, ok_eq_ok] at run
    cases run
    exact ⟨by simp [succeeded, change], (assign_same subs id).symm⟩

theorem allApply_append (kind : OperationType) (a b : List (Nat × Int)) (m : Store Nat SubRecord) :
    AllApply kind (a ++ b) m ↔ AllApply kind a m ∧ AllApply kind b (perform (effect kind) a m) := by
  induction a generalizing m with
  | nil => simp [AllApply, perform]
  | cons op a ih =>
    rw [cons_append, AllApply, AllApply, ih, and_assoc]
    rfl

inductive Outcomes (kind : OperationType) (ops : List (Nat × Int)) (p p' : Progress) : Prop where
  | completed (all : AllApply kind ops p.subs) (subs : p'.subs = perform (effect kind) ops p.subs)
      (saw : p'.sawFailure = false) (failed : p'.failed = p.failed)
  | refused (done : List (Nat × Int)) (op : Nat × Int) (rest : List (Nat × Int)) (split : ops = done ++ op :: rest)
      (all : AllApply kind done p.subs) (refused : change kind op.2 (perform (effect kind) done p.subs op.1) = none)
      (subs : p'.subs = perform (effect kind) done p.subs)
      (modified : p'.modified = p.modified ++ snapshots (effect kind) (done ++ [op]) p.subs)
      (saw : p'.sawFailure = true) (failed : p'.failed = p.failed + 1)

theorem executeLoop_ok {ids : List Nat} {p p' : Progress} (clean : p.sawFailure = false)
    (run : executeLoop operation true ids idx p = .ok p') :
    Outcomes operation.operationType (operationsFrom operation idx ids) p p' := by
  induction ids generalizing idx p with
  | nil =>
    cases run
    exact .completed trivial rfl clean rfl
  | cons id ids ih =>
    simp only [executeLoop, bind_eq_ok] at run
    obtain ⟨⟨opResult, subs⟩, ran, run⟩ := run
    obtain ⟨success, rfl⟩ := executeOperation_ok ran
    cases applied : opResult.success with
    | true =>
      simp only [Progress.note, applied, clean, Bool.false_and, Bool.false_eq_true, if_true, if_false] at run
      have applies := success.mp applied
      cases ih rfl run with
      | completed all subs saw failed => exact .completed ⟨applies, all⟩ subs saw failed
      | refused done op rest split all refused subs modified saw failed =>
        refine .refused ((id, _) :: done) op rest ?_ ⟨applies, all⟩ refused subs ?_ saw failed
        · rw [operationsFrom, split, cons_append]
        · rw [modified, append_assoc]
          rfl
    | false =>
      have refuses : change operation.operationType (operation.params[idx]?.getD 0) (p.subs id) = none := by
        by_contra applies
        rw [success.mpr applies] at applied
        cases applied
      simp only [Progress.note, applied, Bool.false_eq_true, if_false, Bool.true_and, if_true, pure_eq_ok] at run
      subst run
      refine .refused [] (id, _) _ rfl trivial refuses ?_ ?_ rfl rfl
      · show assign p.subs id (effect _ _ (p.subs id)) = p.subs
        rw [effect, refuses, Option.getD_none, assign_same]
      · rfl

end Loop

/-- The state that a batch is executed on, and the operations before the one, refuse it. -/
def Refused (kind : OperationType) (m : Store Nat SubRecord) (earlier : List Nat) (id : Nat) : Prop :=
  match kind with
  | .create => m id ≠ none ∨ id ∈ earlier
  | .charge => ¬ ∃ record, m id = some record ∧ record.exists_ = true ∧ record.status ≠ .cancelled
  | .update => m id = none
  | .cancel => ¬ ∃ record, m id = some record ∧ record.exists_ = true
  | .noop => False

def Unchanged (kind : OperationType) (m : Store Nat SubRecord) (earlier : List (Nat × Int)) (id : Nat) : Prop :=
  match kind with
  | .create => id ∉ earlier.map (·.1)
  | .charge => ((earlier.filter (·.1 = id)).map (·.2)).sum = 0
  | .cancel => id ∈ earlier.map (·.1) → ∃ record, m id = some record ∧ record.status = .cancelled
  | .update | .noop => True

/-- Up to the first operation that is refused, the operations on an id before the last one leave its record as it
    was. -/
def Undoable (kind : OperationType) (m : Store Nat SubRecord) (ops : List (Nat × Int)) : Prop :=
  ∀ done refused rest, ops = done ++ refused :: rest →
    (∀ a op b, done = a ++ op :: b → ¬ Refused kind m (a.map (·.1)) op.1) → Refused kind m (done.map (·.1)) refused.1 →
      ∀ a op b, done ++ [refused] = a ++ op :: b → op.1 ∉ b.map (·.1) → Unchanged kind m a op.1

section Records

variable {m : Store Nat SubRecord} {ops : List (Nat × Int)} {kind : OperationType} {id : Nat} {param : Int}
  {prior : Option SubRecord}

theorem first_applies (all : AllApply kind ops m) (mem : id ∈ ops.map (·.1)) :
    ∃ param, change kind param (m id) ≠ none := by
  induction ops generalizing m with
  | nil => exact absurd mem not_mem_nil
  | cons op ops ih =>
    obtain ⟨key, param⟩ := op
    obtain ⟨applies, rest⟩ := all
    by_cases here : id = key
    · exact ⟨param, here ▸ applies⟩
    · have later := ih rest ((mem_cons.mp mem).resolve_left here)
      rwa [assign_of_ne _ _ here] at later

theorem change_create : change .create param prior ≠ none ↔ prior = none := by
  cases prior <;> simp [change]

theorem change_charge : change .charge param prior ≠ none ↔
    ∃ record, prior = some record ∧ record.exists_ = true ∧ record.status ≠ .cancelled := by
  cases prior <;> simp [change]

theorem change_update : change .update param prior ≠ none ↔ prior ≠ none := by
  cases prior <;> simp [change]

theorem change_cancel : change .cancel param prior ≠ none ↔ ∃ record, prior = some record ∧ record.exists_ = true := by
  cases prior <;> simp [change]

theorem created (all : AllApply .create ops m) (listed : id ∈ ops.map (·.1)) :
    m id = none ∧ perform (effect .create) ops m id ≠ none := by
  obtain ⟨_, applies⟩ := first_applies all listed
  have fresh := change_create.mp applies
  refine ⟨fresh, ?_⟩
  have made (params : List Int) (stored : SubRecord) :
      params.foldl (fun o i => effect .create i o) (some stored) = some stored := by
    induction params with
    | nil => rfl
    | cons param params ih => exact ih
  obtain ⟨op, known, here⟩ := mem_map.mp listed
  have kept : op ∈ ops.filter (·.1 = id) := mem_filter.mpr ⟨known, decide_eq_true here⟩
  rw [perform_apply, fresh]
  cases same : (ops.filter (·.1 = id)).map (·.2) with
  | nil =>
    rw [map_eq_nil_iff.mp same] at kept
    cases kept
  | cons param params =>
    rw [foldl_cons]
    show params.foldl _ (some _) ≠ none
    rw [made]
    exact Option.some_ne_none _

theorem charged (all : AllApply .charge ops m) (id : Nat) : perform (effect .charge) ops m id = (m id).map fun record =>
      { record with charged := record.charged + ((ops.filter (·.1 = id)).map (·.2)).sum } := by
  induction ops generalizing m with
  | nil =>
    cases held : m id with
    | none => exact held
    | some record => simp [perform, held]
  | cons op ops ih =>
    obtain ⟨key, param⟩ := op
    obtain ⟨applies, rest⟩ := all
    rw [perform_cons, ih rest]
    by_cases here : key = id
    · subst here
      obtain ⟨record, held, open_⟩ := change_charge.mp applies
      simp [assign_self, held, effect, change, open_, add_assoc]
    · rw [assign_of_ne _ _ (Ne.symm here)]
      simp [here]

theorem cancelled (all : AllApply .cancel ops m) (id : Nat) : perform (effect .cancel) ops m id =
    (m id).map fun record => if id ∈ ops.map (·.1) then { record with status := .cancelled } else record := by
  induction ops generalizing m with
  | nil => simp [perform]
  | cons op ops ih =>
    obtain ⟨key, param⟩ := op
    obtain ⟨applies, rest⟩ := all
    rw [perform_cons, ih rest]
    by_cases here : key = id
    · subst here
      obtain ⟨record, held, open_⟩ := change_cancel.mp applies
      simp [assign_self, held, effect, change, open_]
    · have other : id ≠ key := Ne.symm here
      have same : id ∈ ops.map (·.1) ↔ id ∈ ((key, param) :: ops).map (·.1) := by
        rw [map_cons, mem_cons]
        exact ⟨.inr, fun either => either.resolve_left other⟩
      rw [assign_of_ne _ _ other]
      exact Option.map_congr fun record _ => if_congr same rfl rfl

theorem perform_idle (idle : ∀ param prior, effect kind param prior = prior) (ops : List (Nat × Int))
    (m : Store Nat SubRecord) : perform (effect kind) ops m = m := by
  induction ops generalizing m with
  | nil => rfl
  | cons op ops ih => rw [perform_cons, idle, assign_same, ih]

theorem update_idle (param : Int) (prior : Option SubRecord) : effect .update param prior = prior := by
  cases prior <;> rfl

theorem refused_iff (all : AllApply kind ops m) (id : Nat) (param : Int) :
    change kind param (perform (effect kind) ops m id) = none ↔ Refused kind m (ops.map (·.1)) id := by
  rw [← not_iff_not, ← ne_eq]
  cases kind with
  | create =>
    rw [change_create, Refused, not_or, not_not]
    constructor
    · intro fresh
      have new : id ∉ ops.map (·.1) := fun mem => (created all mem).2 fresh
      rw [perform_absent new] at fresh
      exact ⟨fresh, new⟩
    · intro known
      rw [perform_absent known.2]
      exact known.1
  | charge =>
    rw [change_charge, Refused, not_not, charged all]
    cases m id <;> simp
  | update =>
    rw [change_update, Refused, perform_idle update_idle]
  | cancel =>
    rw [change_cancel, Refused, not_not, cancelled all]
    cases held : m id with
    | none => simp
    | some record =>
      simp only [Option.map_some, Option.some.injEq, exists_eq_left']
      split <;> rfl
  | noop => simp [change, Refused]

theorem unchanged_iff (all : AllApply kind ops m) (id : Nat) :
    perform (effect kind) ops m id = m id ↔ Unchanged kind m ops id := by
  cases kind with
  | create =>
    constructor
    · intro same mem
      obtain ⟨fresh, some⟩ := created all mem
      exact some (same.trans fresh)
    · exact perform_absent
  | charge =>
    rw [charged all, Unchanged]
    cases held : m id with
    | none =>
      have absent : id ∉ ops.map (·.1) := by
        intro mem
        obtain ⟨_, applies⟩ := first_applies all mem
        obtain ⟨_, found, _⟩ := change_charge.mp applies
        rw [held] at found
        cases found
      have none : ops.filter (·.1 = id) = [] := by
        rw [filter_eq_nil_iff]
        exact fun op known here => absent (mem_map.mpr ⟨op, known, of_decide_eq_true here⟩)
      simp [none]
    | some record =>
      obtain ⟨exists_, status, amount⟩ := record
      simp
  | update => simp [Unchanged, perform_idle update_idle]
  | cancel =>
    rw [cancelled all, Unchanged]
    by_cases mem : id ∈ ops.map (·.1)
    · obtain ⟨_, applies⟩ := first_applies all mem
      obtain ⟨record, held, _⟩ := change_cancel.mp applies
      obtain ⟨exists_, status, amount⟩ := record
      simp only [held, mem, if_true, Option.map_some, Option.some.injEq, SubRecord.mk.injEq, true_and, and_true,
        exists_eq_left', forall_const]
      exact eq_comm
    · simp [mem]
  | noop =>
    have idle (param : Int) (prior : Option SubRecord) : effect .noop param prior = prior := rfl
    simp [Unchanged, perform_idle idle]

end Records

/-- What it is for an operation to take effect on a record, by its kind. A record has no place for the price that an
    update brings. -/
def Effective (kind : OperationType) (param : Int) (before after : Option SubRecord) : Prop :=
  match kind with
  | .create => before = none ∧ after = some { exists_ := true, status := .active, charged := 0 }
  | .charge => ∃ record, before = some record ∧ after = some { record with charged := record.charged + param }
  | .update => False
  | .cancel => ∃ record, before = some record ∧ after = some { record with status := .cancelled }
  | .noop => after = before

def TookEffect (kind : OperationType) : List (Nat × Int) → Store Nat SubRecord → Store Nat SubRecord → Prop
  | [], m, m' => m' = m
  | (id, param) :: ops, m, m' => ∃ after, Effective kind param (m id) after ∧ TookEffect kind ops (assign m id after) m'

def AllOrNothing (s s' : State) (operation : BatchOperation) (result : BatchResult) : Prop :=
  (result.state = .failed → s'.subscription = s.subscription) ∧
    (result.state = .completed →
      TookEffect operation.operationType (operations operation) s.subscription s'.subscription)

section Batches

variable {s s' : State} {batchId : Nat} {operation : BatchOperation} {created result : BatchResult}
  {kind : OperationType} {ops done : List (Nat × Int)} {m : Store Nat SubRecord}

theorem concat_eq_append_cons {α : Type} {l a b : List α} {x y : α} :
    l ++ [x] = a ++ y :: b ↔ (l = a ∧ x = y ∧ b = []) ∨ ∃ c, b = c ++ [x] ∧ l = a ++ y :: c := by
  constructor
  · intro same
    rcases eq_nil_or_concat b with rfl | ⟨c, z, rfl⟩
    · obtain ⟨rfl, last⟩ := append_inj' same rfl
      cases last
      exact .inl ⟨rfl, rfl, rfl⟩
    · have regrouped : l ++ [x] = (a ++ y :: c) ++ [z] := by
        rw [same, concat_eq_append, append_assoc, cons_append]
      obtain ⟨front, last⟩ := append_inj' regrouped rfl
      cases last
      exact .inr ⟨c, concat_eq_append, front⟩
  · rintro (⟨rfl, rfl, rfl⟩ | ⟨c, rfl, rfl⟩)
    · rfl
    · rw [append_assoc, cons_append]

theorem allApply_iff : AllApply kind ops m ↔
    ∀ a op b, ops = a ++ op :: b → ¬ Refused kind m (a.map (·.1)) op.1 := by
  induction ops using List.reverseRecOn with
  | nil => simp [AllApply]
  | append_singleton ops op ih =>
    rw [allApply_append]
    show _ ∧ (change kind op.2 (perform (effect kind) ops m op.1) ≠ none ∧ True) ↔ _
    rw [and_true]
    constructor
    · rintro ⟨all, applies⟩ a op' b same
      obtain ⟨rfl, rfl, _⟩ | ⟨c, _, same⟩ := concat_eq_append_cons.mp same
      · exact fun refused => applies ((refused_iff all _ _).mpr refused)
      · exact ih.mp all a op' c same
    · intro none
      have all := ih.mpr fun a op' b same => none a op' (b ++ [op]) (concat_eq_append_cons.mpr (.inr ⟨b, rfl, same⟩))
      refine ⟨all, fun refused => ?_⟩
      exact none ops op [] rfl ((refused_iff all _ _).mp refused)

theorem first_refusal {done' rest rest' : List (Nat × Int)} {op op' : Nat × Int}
    (same : done ++ op :: rest = done' ++ op' :: rest') (all : AllApply kind done m) (all' : AllApply kind done' m)
    (refused : change kind op.2 (perform (effect kind) done m op.1) = none)
    (refused' : change kind op'.2 (perform (effect kind) done' m op'.1) = none) : done = done' ∧ op = op' := by
  have longer {a b : List (Nat × Int)} {x : Nat × Int} (all : AllApply kind (a ++ x :: b) m)
      (refused : change kind x.2 (perform (effect kind) a m x.1) = none) : False :=
    ((allApply_append ..).mp all).2.1 refused
  obtain ⟨between, front, back⟩ | ⟨between, front, back⟩ := append_eq_append_iff.mp same
  · cases between with
    | nil =>
      cases back
      exact ⟨(front.trans (append_nil _)).symm, rfl⟩
    | cons x between =>
      cases back
      exact (longer (front ▸ all') refused).elim
  · cases between with
    | nil =>
      cases back
      exact ⟨front.trans (append_nil _), rfl⟩
    | cons x between =>
      cases back
      exact (longer (front ▸ all) refused').elim

theorem executeBatch_ok (held : s.batchOperation batchId = some operation)
    (noted : s.batchResult batchId = some created) (atomic : created.atomic = true)
    (run : executeBatch s batchId = .ok (result, s')) :
    (AllApply operation.operationType (operations operation) s.subscription ∧ result.state = .completed ∧
      s'.subscription = perform (effect operation.operationType) (operations operation) s.subscription) ∨
    ∃ done op rest, operations operation = done ++ op :: rest ∧
      AllApply operation.operationType done s.subscription ∧
      change operation.operationType op.2
        (perform (effect operation.operationType) done s.subscription op.1) = none ∧ result.state = .failed ∧
      s'.subscription = restore (snapshots (effect operation.operationType) (done ++ [op]) s.subscription)
        (perform (effect operation.operationType) done s.subscription) := by
  simp only [executeBatch, held, noted, bind_eq_ok, pure_eq_ok, present_eq_ok, Option.some.injEq] at run
  obtain ⟨_, _, _, _, _, _, _, rfl, _, rfl, p, loop, ⟨_, _⟩, ended, run⟩ := run
  rw [atomic] at loop
  cases run
  cases executeLoop_ok rfl loop with
  | completed all subs saw failed =>
    simp only [atomic, saw, Bool.and_false, Bool.false_eq_true, if_false, pure_eq_ok, Prod.mk.injEq] at ended
    obtain ⟨rfl, rfl⟩ := ended
    refine .inl ⟨all, ?_, subs⟩
    show (if p.failed = 0 then BatchState.completed else .partiallyCompleted) = .completed
    rw [failed]
    rfl
  | refused done op rest split all refused subs modified saw =>
    simp only [atomic, saw, Bool.and_true, if_true, bind_eq_ok, pure_eq_ok, Prod.mk.injEq] at ended
    obtain ⟨_, _, rfl, rfl⟩ := ended
    refine .inr ⟨done, op, rest, split, all, refused, rfl, ?_⟩
    show restore p.modified p.subs = _
    rw [modified, subs]
    rfl

theorem undoable_iff {op : Nat × Int} {rest : List (Nat × Int)} (split : ops = done ++ op :: rest)
    (all : AllApply kind done m) (refused : change kind op.2 (perform (effect kind) done m op.1) = none) :
    restore (snapshots (effect kind) (done ++ [op]) m) (perform (effect kind) done m) = m ↔ Undoable kind m ops := by
  have outside : ∀ k, k ∉ (done ++ [op]).map (·.1) → perform (effect kind) done m k = m k := by
    intro k absent
    apply perform_absent
    rw [map_append, mem_append, not_or] at absent
    exact absent.1
  have before {a : List (Nat × Int)} {x : Nat × Int} {b : List (Nat × Int)} (same : done ++ [op] = a ++ x :: b) :
      AllApply kind a m := by
    obtain ⟨rfl, _⟩ | ⟨c, _, front⟩ := concat_eq_append_cons.mp same
    · exact all
    · exact ((allApply_append ..).mp (front ▸ all)).1
  rw [restore_snapshots _ outside]
  constructor
  · intro unchanged done' op' rest' split' none refused' a x b same last
    have all' := allApply_iff.mpr none
    obtain ⟨rfl, rfl⟩ := first_refusal (split.symm.trans split') all all' refused ((refused_iff all' _ _).mpr refused')
    exact (unchanged_iff (before same) _).mp (unchanged a x b same last)
  · intro undoable a x b same last
    have known := undoable done op rest split (allApply_iff.mp all) ((refused_iff all _ _).mp refused) a x b same last
    exact (unchanged_iff (before same) _).mpr known

theorem took_effect (all : AllApply kind ops m) (other : kind ≠ .update) :
    TookEffect kind ops m (perform (effect kind) ops m) := by
  induction ops generalizing m with
  | nil => rfl
  | cons op ops ih =>
    obtain ⟨id, param⟩ := op
    obtain ⟨applies, rest⟩ := all
    refine ⟨effect kind param (m id), ?_, ih rest⟩
    cases kind with
    | create =>
      have fresh := change_create.mp applies
      rw [fresh]
      exact ⟨rfl, rfl⟩
    | charge =>
      obtain ⟨record, found, open_⟩ := change_charge.mp applies
      rw [found]
      exact ⟨record, rfl, by simp [effect, change, open_]⟩
    | update => exact absurd rfl other
    | cancel =>
      obtain ⟨record, found, open_⟩ := change_cancel.mp applies
      rw [found]
      exact ⟨record, rfl, by simp [effect, change, open_]⟩
    | noop => rfl

theorem operationsFrom_ids (operation : BatchOperation) (idx : Nat) (ids : List Nat) :
    (operationsFrom operation idx ids).map (·.1) = ids := by
  induction ids generalizing idx with
  | nil => rfl
  | cons id ids ih => rw [operationsFrom, map_cons, ih]

theorem updates_apply (all : AllApply .update ops m) : ∀ id ∈ ops.map (·.1), m id ≠ none := by
  intro id mem
  obtain ⟨_, applies⟩ := first_applies all mem
  exact change_update.mp applies

theorem undoable_of_nodup (nodup : (ops.map (·.1)).Nodup) (m : Store Nat SubRecord) : Undoable kind m ops := by
  intro done refused rest split _ _ a op b same _
  have absent : op.1 ∉ a.map (·.1) := by
    have whole : ops = a ++ op :: (b ++ rest) := by
      rw [split, ← cons_append, ← append_assoc, ← same, append_assoc]
      rfl
    rw [whole, map_append, map_cons] at nodup
    exact fun mem => (nodup_append.mp nodup).2.2 op.1 mem op.1 (.head _) rfl
  have none : a.filter (·.1 = op.1) = [] := by
    rw [filter_eq_nil_iff]
    exact fun x known here => absent (mem_map.mpr ⟨x, known, of_decide_eq_true here⟩)
  cases kind with
  | create => exact absent
  | charge => rw [Unchanged, none, map_nil, sum_nil]
  | cancel => exact fun mem => absurd mem absent
  | update => trivial
  | noop => trivial

/-- An atomic batch is all or nothing exactly when what its ids have gone through up to the first refusal can be undone
    in order, and it is no update of records that are all there. -/
theorem atomic_batch (stored : s.batchOperation batchId = some operation)
    (noted : s.batchResult batchId = some created) (atomic : created.atomic = true)
    (run : executeBatch s batchId = .ok (result, s')) : AllOrNothing s s' operation result ↔
      Undoable operation.operationType s.subscription (operations operation) ∧
        (operation.operationType = .update → operation.subscriptionIds = [] ∨
          ∃ id ∈ operation.subscriptionIds, s.subscription id = none) := by
  have ids := operationsFrom_ids operation 0 operation.subscriptionIds
  obtain ⟨all, completed, subs⟩ | ⟨done, op, rest, split, all, refused, failed, subs⟩ :=
    executeBatch_ok stored noted atomic run
  · have vacuous : Undoable operation.operationType s.subscription (operations operation) := by
      intro done op rest split _ refused
      exact absurd refused (allApply_iff.mp all done op rest split)
    constructor
    · intro holds
      refine ⟨vacuous, fun update => .inl ?_⟩
      have effects := holds.2 completed
      rw [← ids]
      cases same : operations operation with
      | nil => exact congrArg (List.map (·.1)) same
      | cons op ops =>
        rw [same, update] at effects
        obtain ⟨_, impossible, _⟩ := effects
        exact impossible.elim
    · rintro ⟨_, updates⟩
      refine ⟨fun failed => ?_, fun _ => ?_⟩
      · rw [completed] at failed
        cases failed
      · rw [subs]
        by_cases update : operation.operationType = .update
        · obtain none | ⟨id, listed, missing⟩ := updates update
          · have empty : operations operation = [] := by
              rw [operations, none]
              rfl
            rw [empty]
            rfl
          · rw [update] at all
            rw [← ids] at listed
            exact absurd missing (updates_apply all id listed)
        · exact took_effect all update
  · have undone := undoable_iff split all refused
    rw [← subs] at undone
    constructor
    · intro holds
      refine ⟨undone.mp (holds.1 failed), fun update => .inr ⟨op.1, ?_, ?_⟩⟩
      · rw [← ids]
        show op.1 ∈ (operations operation).map (·.1)
        rw [split]
        simp
      · have refused := (refused_iff all _ _).mp refused
        rw [update] at refused
        exact refused
    · rintro ⟨undoable, _⟩
      refine ⟨fun _ => undone.mpr undoable, fun completed => ?_⟩
      rw [failed] at completed
      cases completed

end Batches

def limits : Module where
  validateBatchOperation operation := decide (0 < operation.subscriptionIds.length ∧
    operation.subscriptionIds.length ≤ 100)
  estimateBatchGas operation := 50000 + 100000 * operation.subscriptionIds.length

def prepared (kind : OperationType) (ids : List Nat) : State :=
  let s := seedSubscription { State.empty with admin := some ⟨9⟩, nextBatchId := some 1, batchHistory := some [] } 1
  let operation : BatchOperation :=
    { subscriptionIds := ids, params := ids.map fun _ => 100, cancelReasons := [], operationType := kind }
  match createBatchOperation limits s operation true with
  | .ok (_, s) => s
  | .error _ => s

theorem atomic_batch_charge : ∃ result s', executeBatch (prepared .charge [1, 2]) 1 = .ok (result, s') ∧
    result.state = .failed ∧ AllOrNothing (prepared .charge [1, 2]) s' ⟨[1, 2], [100, 100], [], .charge⟩ result := by
  obtain ⟨⟨result, s'⟩, run⟩ := toBool_eq_true
    (by decide +kernel : (executeBatch (prepared .charge [1, 2]) 1).toBool = true)
  have failed : (executeBatch (prepared .charge [1, 2]) 1).toOption.map (·.1.state) = some .failed := by decide +kernel
  rw [run] at failed
  have stored : (prepared .charge [1, 2]).batchOperation 1 = some ⟨[1, 2], [100, 100], [], .charge⟩ := by
    decide +kernel
  have noted : (prepared .charge [1, 2]).batchResult 1 = some ⟨1, [], .pending, 2, 0, 0, 0, true, false, 250000⟩ := by
    decide +kernel
  have undoable : Undoable .charge (prepared .charge [1, 2]).subscription
      (operations ⟨[1, 2], [100, 100], [], .charge⟩) := undoable_of_nodup (by decide) _
  exact ⟨result, s', run, Option.some.inj failed, (atomic_batch stored noted rfl run).mpr ⟨undoable, by decide⟩⟩

/-- A subscription is charged twice and another is missing: the first charge stays. And a batch of updates completes
    without a write. -/
theorem atomic_batch_leaks :
    (∃ result s', executeBatch (prepared .charge [1, 1, 2]) 1 = .ok (result, s') ∧ result.state = .failed ∧
      (prepared .charge [1, 1, 2]).subscription 1 = some ⟨true, .active, 0⟩ ∧
      s'.subscription 1 = some ⟨true, .active, 100⟩) ∧
    ∃ result s', executeBatch (prepared .update [1]) 1 = .ok (result, s') ∧
      ¬ AllOrNothing (prepared .update [1]) s' ⟨[1], [100], [], .update⟩ result := by
  constructor
  · obtain ⟨⟨result, s'⟩, run⟩ := toBool_eq_true
      (by decide +kernel : (executeBatch (prepared .charge [1, 1, 2]) 1).toBool = true)
    have ended : (executeBatch (prepared .charge [1, 1, 2]) 1).toOption.map (fun r => (r.1.state, r.2.subscription 1)) =
        some (.failed, some ⟨true, .active, 100⟩) := by decide +kernel
    rw [run] at ended
    obtain ⟨failed, leaked⟩ := Prod.mk.inj (Option.some.inj ended)
    exact ⟨result, s', run, failed, by decide +kernel, leaked⟩
  · obtain ⟨⟨result, s'⟩, run⟩ := toBool_eq_true
      (by decide +kernel : (executeBatch (prepared .update [1]) 1).toBool = true)
    have ended : (executeBatch (prepared .update [1]) 1).toOption.map (·.1.state) = some .completed := by
      decide +kernel
    rw [run] at ended
    refine ⟨result, s', run, fun holds => ?_⟩
    obtain ⟨_, impossible, _⟩ := holds.2 (Option.some.inj ended)
    exact impossible

end SubTrackr.Batch
