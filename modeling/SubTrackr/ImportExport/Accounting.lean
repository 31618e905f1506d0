import SubTrackr.ImportExport.Process
import SubTrackr.Lib.Fallible
import SubTrackr.Lib.Upsert

namespace SubTrackr.ImportExport

open List Lib

variable {ν : Type} (P : ImportPlatform ν)

def accepted (s : SubscriptionInput ν) : Bool := named s && (priceMessage P s).isNone && !badDate P s

def complete (s : SubscriptionInput ν) : Bool := given s.category && given s.billingCycle

theorem checkRow_valid (rowNum : ℕ) (s : SubscriptionInput ν) : (checkRow P rowNum s).valid = accepted P s := by
  unfold checkRow accepted
  cases named s with
  | false => rfl
  | true =>
    cases priceMessage P s with
    | some message => rfl
    | none => cases badDate P s <;> rfl

theorem checkRow_rows (rowNum : ℕ) (s : SubscriptionInput ν) : ∀ e ∈ (checkRow P rowNum s).errors, e.row = rowNum := by
  have category : ∀ e ∈ categoryErrors rowNum s, e.row = rowNum := by
    unfold categoryErrors
    split <;> simp
  have cycle : ∀ e ∈ billingCycleErrors rowNum s, e.row = rowNum := by
    unfold billingCycleErrors
    split <;> simp
  intro e mem
  unfold checkRow at mem
  split at mem
  · rw [mem_singleton.mp mem]
  · split at mem
    · rcases mem_append.mp mem with first | last
      · exact category e first
      · rw [mem_singleton.mp last]
    · have both : e ∈ categoryErrors rowNum s ++ billingCycleErrors rowNum s → e.row = rowNum := fun mem =>
        (mem_append.mp mem).elim (category e) (cycle e)
      dsimp only at mem
      split at mem
      · rcases mem_append.mp mem with first | last
        · exact both first
        · rw [mem_singleton.mp last]
      · exact both mem

theorem checkRow_rejected (rowNum : ℕ) {s : SubscriptionInput ν} (rejected : accepted P s = false) :
    (checkRow P rowNum s).errors ≠ [] := by
  unfold checkRow
  unfold accepted at rejected
  cases name : named s with
  | false => simp
  | true =>
    cases price : priceMessage P s with
    | some message => simp
    | none =>
      cases bad : badDate P s with
      | true => simp
      | false => simp [name, price, bad] at rejected

theorem checkRow_accepted (rowNum : ℕ) {s : SubscriptionInput ν} (fine : accepted P s = true) :
    (checkRow P rowNum s).errors = [] ↔ complete s = true := by
  unfold accepted at fine
  simp only [Bool.and_eq_true, Option.isNone_iff_eq_none, Bool.not_eq_true'] at fine
  obtain ⟨⟨name, price⟩, date⟩ := fine
  unfold checkRow complete categoryErrors billingCycleErrors
  simp only [name, price, date, Bool.not_true, Bool.false_eq_true, if_false, append_eq_nil_iff, Bool.and_eq_true]
  cases given s.category <;> cases given s.billingCycle <;> simp

theorem validRows_eq (data : ImportData ν) : (validateImport P data).validRows = data.subscriptions.filter (accepted P) := by
  have step (subs : List (SubscriptionInput ν)) (i : ℕ) :
      (((subs.zipIdx i).map fun s => (s.1, checkRow P (s.2 + 1) s.1)).filter fun c => c.2.valid).map Prod.fst =
        subs.filter (accepted P) := by
    induction subs generalizing i with
    | nil => rfl
    | cons s subs ih =>
      rw [zipIdx_cons, map_cons, filter_cons, filter_cons, checkRow_valid]
      cases accepted P s <;> simp [ih]
  exact step data.subscriptions 0

structure Yield (ν : Type) where
  row : ℕ
  errors : List ImportError
  actions : List (ImportAction ν)

def yieldsFrom : ℕ → List (SubscriptionInput ν) → List (ImportError ⊕ ImportAction ν) → List (Yield ν)
  | _, [], _ => []
  | row, s :: rest, outcomes =>
    if accepted P s then
      ⟨row, (checkRow P row s).errors ++ (outcomes.head?.bind Sum.getLeft?).toList,
        (outcomes.head?.bind Sum.getRight?).toList⟩ :: yieldsFrom (row + 1) rest outcomes.tail
    else ⟨row, (checkRow P row s).errors, []⟩ :: yieldsFrom (row + 1) rest outcomes

def yields (data : ImportData ν) (outcomes : List (ImportError ⊕ ImportAction ν)) : List (Yield ν) :=
  yieldsFrom P 1 data.subscriptions outcomes

structure Yield.Fine (y : Yield ν) : Prop where
  one : y.actions.length = 1 ∧ y.errors = [] ∨ y.actions = [] ∧ y.errors ≠ []
  rows : ∀ e ∈ y.errors, e.row = y.row

theorem yieldsFrom_flatMap (row : ℕ) (subs : List (SubscriptionInput ν)) (outcomes : List (ImportError ⊕ ImportAction ν))
    (length : outcomes.length = subs.countP (accepted P)) :
    (yieldsFrom P row subs outcomes).flatMap Yield.actions = outcomes.filterMap Sum.getRight? ∧
      ((yieldsFrom P row subs outcomes).flatMap Yield.errors).Perm
        ((((subs.zipIdx row).map fun s => (s.1, checkRow P s.2 s.1)).flatMap fun c => c.2.errors) ++
          outcomes.filterMap Sum.getLeft?) := by
  induction subs generalizing row outcomes with
  | nil =>
    obtain rfl := length_eq_zero_iff.mp length
    exact ⟨rfl, .refl _⟩
  | cons s subs ih =>
    unfold yieldsFrom
    rw [zipIdx_cons, map_cons, flatMap_cons]
    split
    · rename_i fine
      rw [countP_cons_of_pos fine] at length
      cases outcomes with
      | nil => simp at length
      | cons outcome outcomes =>
        obtain ⟨actions, errors⟩ := ih (row + 1) outcomes (by simpa using length)
        rw [flatMap_cons, flatMap_cons, tail_cons, actions]
        refine ⟨by cases outcome <;> rfl, ?_⟩
        rw [append_assoc, append_assoc]
        refine .append_left _ ?_
        cases outcome with
        | inl error =>
          have moved := (errors.cons error).trans perm_middle.symm
          exact moved
        | inr action => exact errors
    · rename_i rejected
      rw [countP_cons_of_neg rejected] at length
      obtain ⟨actions, errors⟩ := ih (row + 1) outcomes length
      rw [flatMap_cons, flatMap_cons, actions, append_assoc]
      exact ⟨rfl, .append_left _ errors⟩

section Rows

variable (mode : ImportMode) (existing : Existing ν)

structure Placed (ν : Type) where
  (row index : ℕ)
  input : SubscriptionInput ν
  acts : Bool

/-- A row leads to an action: no earlier row has one of its keys, and it does not create what is there. -/
def acts (seen : Seen) (input : SubscriptionInput ν) : Bool :=
  (seen.duplicate P 0 input).isNone && !(mode = .create && (existing.matched P input).isSome)

def placedFrom : Seen → ℕ → ℕ → List (SubscriptionInput ν) → List (Placed ν)
  | _, _, _, [] => []
  | seen, row, index, s :: rest =>
    if accepted P s then
      ⟨row, index, s, acts P mode existing seen s⟩ :: placedFrom (seen.next P s) (row + 1) (index + 1) rest
    else placedFrom seen (row + 1) index rest

variable {P mode existing} {seen : Seen} {index : ℕ} {input : SubscriptionInput ν}

theorem duplicate_row {rowNum : ℕ} {e : ImportError} (found : seen.duplicate P rowNum input = some e) : e.row = rowNum := by
  unfold Seen.duplicate at found
  repeat' split at found
  all_goals cases found
  all_goals rfl

theorem duplicate_isSome (rowNum : ℕ) : (seen.duplicate P rowNum input).isSome = (seen.duplicate P 0 input).isSome := by
  unfold Seen.duplicate
  repeat' split
  all_goals rfl

theorem processRow_refuses (refused : acts P mode existing seen input = false) :
    ∃ e, processRow P mode existing seen index input = .ok (.inl e) ∧ e.row = index + 1 := by
  unfold processRow
  dsimp only
  cases dup : seen.duplicate P (index + 1) input with
  | some e => exact ⟨e, rfl, duplicate_row dup⟩
  | none =>
    have fresh : (seen.duplicate P 0 input).isSome = false := by rw [← duplicate_isSome (index + 1), dup, Option.isSome_none]
    unfold acts at refused
    rw [← Option.not_isSome, fresh] at refused
    cases found : existing.matched P input with
    | none => simp [found] at refused
    | some sub =>
      cases mode with
      | create => exact ⟨existing.conflict input (index + 1), rfl, rfl⟩
      | _ => simp at refused

def actionFor (existing : Existing ν) (index : ℕ) (input : SubscriptionInput ν) (sub : Subscription ν) : ImportAction ν where
  type := if (existing.matched P input).isSome then .update else .create
  row := index + 1
  subscription := sub
  existingId := (existing.matched P input).map Subscription.id

theorem processRow_acts (acting : acts P mode existing seen input = true) : processRow P mode existing seen index input =
      (buildSubscriptionFromInput P index input (existing.matched P input)).map
        fun sub => .inr (@actionFor _ P existing index input sub) := by
  unfold acts at acting
  simp only [Bool.and_eq_true, Option.isNone_iff_eq_none, Bool.not_eq_true', Bool.and_eq_false_iff] at acting
  have fresh : seen.duplicate P (index + 1) input = none := by
    rw [← Option.not_isSome_iff_eq_none, duplicate_isSome, acting.1]
    simp
  unfold processRow actionFor
  dsimp only
  rw [fresh]
  cases found : existing.matched P input with
  | none =>
    cases mode <;> dsimp only <;> cases buildSubscriptionFromInput P index input none <;> rfl
  | some sub =>
    cases mode with
    | create => simp [found] at acting
    | _ =>
      dsimp only
      cases buildSubscriptionFromInput P index input (some sub) <;> rfl

theorem build_complete (given : complete input = true) (existing : Option (Subscription ν)) :
    ∃ sub, buildSubscriptionFromInput P index input existing = .ok sub := by
  unfold complete ImportExport.given at given
  rw [Bool.and_eq_true] at given
  cases category : input.category with
  | none => simp [category] at given
  | some category' =>
    cases cycle : input.billingCycle with
    | none => simp [cycle] at given
    | some cycle' =>
      unfold buildSubscriptionFromInput
      rw [category, cycle]
      exact ⟨_, rfl⟩

theorem build_keeps {existing : Option (Subscription ν)} {sub : Subscription ν}
    (built : buildSubscriptionFromInput P index input existing = .ok sub) :
    sub.id = (existing.map Subscription.id).getD (input.id.getD (P.generateUniqueId index)) ∧
      sub.name = input.name.getD "" := by
  unfold buildSubscriptionFromInput at built
  obtain ⟨category, -, built⟩ := (bind_eq_ok ..).mp built
  obtain ⟨cycle, -, built⟩ := (bind_eq_ok ..).mp built
  cases built
  exact ⟨rfl, rfl⟩

theorem processRows_cons {rest : List (SubscriptionInput ν)} {outcomes : List (ImportError ⊕ ImportAction ν)} :
    processRows P mode existing seen index (input :: rest) = .ok outcomes ↔
      ∃ outcome more, processRow P mode existing seen index input = .ok outcome ∧
        processRows P mode existing (seen.next P input) (index + 1) rest = .ok more ∧ outcomes = outcome :: more := by
  rw [processRows, bind_eq_ok]
  apply exists_congr
  intro outcome
  rw [bind_eq_ok]
  constructor
  · rintro ⟨one, more, rest, same⟩
    exact ⟨more, one, rest, ((pure_eq_ok _ _).mp same).symm⟩
  · rintro ⟨more, one, rest, same⟩
    exact ⟨one, more, rest, (pure_eq_ok _ _).mpr same.symm⟩

theorem fine_rejected {row : ℕ} {s : SubscriptionInput ν} (rejected : accepted P s = false) :
    (⟨row, (checkRow P row s).errors, []⟩ : Yield ν).Fine :=
  ⟨.inr ⟨rfl, checkRow_rejected P row rejected⟩, checkRow_rows P row s⟩

theorem fine_error {row : ℕ} {s : SubscriptionInput ν} {e : ImportError} :
    (⟨row, (checkRow P row s).errors ++ [e], []⟩ : Yield ν).Fine ↔ e.row = row := by
  constructor
  · intro fine
    exact fine.rows e (by simp)
  · intro same
    refine ⟨.inr ⟨rfl, by simp⟩, fun e' mem => ?_⟩
    rcases mem_append.mp mem with checked | last
    · exact checkRow_rows P row s e' checked
    · rw [mem_singleton.mp last]
      exact same

theorem fine_action {row : ℕ} {s : SubscriptionInput ν} {a : ImportAction ν} (fine : accepted P s = true) :
    (⟨row, (checkRow P row s).errors ++ [], [a]⟩ : Yield ν).Fine ↔ complete s = true := by
  rw [append_nil, ← checkRow_accepted P row fine]
  constructor
  · intro fine
    rcases fine.one with ⟨-, none⟩ | ⟨some, -⟩
    · exact none
    · cases some
  · intro none
    exact ⟨.inl ⟨rfl, none⟩, checkRow_rows P row s⟩

theorem processRows_rows (subs : List (SubscriptionInput ν)) (seen : Seen) (row index : ℕ) :
    (∃ outcomes, processRows P mode existing seen index (subs.filter (accepted P)) = .ok outcomes ∧
      ∀ y ∈ yieldsFrom P row subs outcomes, y.Fine) ↔
      ∀ r ∈ placedFrom P mode existing seen row index subs,
        (r.acts = true → complete r.input = true) ∧ (r.acts = false → r.index + 1 = r.row) := by
  induction subs generalizing seen row index with
  | nil => simp [processRows, yieldsFrom, placedFrom, pure, Except.pure]
  | cons s subs ih =>
    cases fine : accepted P s with
    | false =>
      rw [filter_cons_of_neg (by simp [fine])]
      simp only [yieldsFrom, placedFrom, fine, Bool.false_eq_true, if_false, forall_mem_cons, fine_rejected fine, true_and]
      exact ih seen (row + 1) index
    | true =>
      rw [filter_cons_of_pos fine]
      simp only [yieldsFrom, placedFrom, fine, if_true, forall_mem_cons, ← ih]
      cases acting : acts P mode existing seen s with
      | false =>
        obtain ⟨e, refused, numbered⟩ := @processRow_refuses _ P mode existing seen index s acting
        have head : (⟨row, (checkRow P row s).errors ++ [e], []⟩ : Yield ν).Fine ↔ index + 1 = row := by
          rw [fine_error, numbered]
        constructor
        · rintro ⟨outcomes, done, fineAll⟩
          obtain ⟨outcome, rest, one, done', rfl⟩ := processRows_cons.mp done
          obtain rfl : .inl e = outcome := Except.ok.inj (refused.symm.trans one)
          exact ⟨⟨fun no => absurd no Bool.false_ne_true, fun _ => head.mp fineAll.1⟩, rest, done', fineAll.2⟩
        · rintro ⟨⟨-, same⟩, rest, done', others⟩
          exact ⟨.inl e :: rest, processRows_cons.mpr ⟨_, rest, refused, done', rfl⟩, head.mpr (same rfl), others⟩
      | true =>
        have row_acts := @processRow_acts _ P mode existing seen index s acting
        constructor
        · rintro ⟨outcomes, done, fineAll⟩
          obtain ⟨outcome, rest, one, done', rfl⟩ := processRows_cons.mp done
          rw [row_acts] at one
          cases built : buildSubscriptionFromInput P index s (existing.matched P s) with
          | error text =>
            rw [built] at one
            cases one
          | ok sub =>
            rw [built] at one
            cases one
            exact ⟨⟨fun _ => (fine_action fine).mp fineAll.1, fun no => absurd no (by simp)⟩, rest, done', fineAll.2⟩
        · rintro ⟨⟨whole, -⟩, rest, done', others⟩
          obtain ⟨sub, built⟩ := @build_complete _ P index s (whole rfl) (existing.matched P s)
          rw [built] at row_acts
          exact ⟨_, processRows_cons.mpr ⟨_, rest, row_acts, done', rfl⟩, (fine_action fine).mpr (whole rfl), others⟩

def ImportAction.change (a : ImportAction ν) : Upsert.Change String String :=
  ⟨a.subscription.id, a.subscription.name, a.type = .update⟩

def Placed.name (r : Placed ν) : String := r.input.name.getD ""

def Placed.id (P : ImportPlatform ν) (existing : Existing ν) (r : Placed ν) : String :=
  ((existing.matched P r.input).map Subscription.id).getD (r.input.id.getD (P.generateUniqueId r.index))

def Placed.change (P : ImportPlatform ν) (existing : Existing ν) (r : Placed ν) : Upsert.Change String String :=
  ⟨r.id P existing, r.name, (existing.matched P r.input).isSome⟩

theorem processRows_actions (subs : List (SubscriptionInput ν)) (seen : Seen) (row index : ℕ)
    {outcomes : List (ImportError ⊕ ImportAction ν)}
    (done : processRows P mode existing seen index (subs.filter (accepted P)) = .ok outcomes) :
    outcomes.length = subs.countP (accepted P) ∧
      (outcomes.filterMap Sum.getRight?).map (fun a => (a.change, a.existingId)) =
        ((placedFrom P mode existing seen row index subs).filter Placed.acts).map
          (fun r => (r.change P existing, (existing.matched P r.input).map Subscription.id)) := by
  induction subs generalizing seen row index outcomes with
  | nil =>
    obtain rfl := (pure_eq_ok _ _).mp done
    exact ⟨rfl, rfl⟩
  | cons s subs ih =>
    cases fine : accepted P s with
    | false =>
      rw [filter_cons_of_neg (by simp [fine])] at done
      rw [countP_cons_of_neg (by simp [fine])]
      simp only [placedFrom, fine, Bool.false_eq_true, if_false]
      exact ih seen (row + 1) index done
    | true =>
      rw [filter_cons_of_pos fine] at done
      rw [countP_cons_of_pos fine]
      obtain ⟨outcome, rest, one, done', rfl⟩ := processRows_cons.mp done
      obtain ⟨length, actions⟩ := ih (seen.next P s) (row + 1) (index + 1) done'
      simp only [placedFrom, fine, if_true]
      refine ⟨by simp [length], ?_⟩
      cases acting : acts P mode existing seen s with
      | false =>
        obtain ⟨e, refused, -⟩ := @processRow_refuses _ P mode existing seen index s acting
        obtain rfl : .inl e = outcome := Except.ok.inj (refused.symm.trans one)
        rw [filter_cons_of_neg (by simp)]
        exact actions
      | true =>
        rw [@processRow_acts _ P mode existing seen index s acting] at one
        cases built : buildSubscriptionFromInput P index s (existing.matched P s) with
        | error text =>
          rw [built] at one
          cases one
        | ok sub =>
          rw [built] at one
          cases one
          obtain ⟨id, name⟩ := build_keeps built
          have head : (@actionFor _ P existing index s sub).change = Placed.change P existing ⟨row, index, s, true⟩ := by
            unfold ImportAction.change Placed.change actionFor Placed.id Placed.name
            rw [id, name]
            cases existing.matched P s <;> rfl
          rw [filter_cons_of_pos rfl, map_cons, ← actions]
          have first : (Sum.inr (@actionFor _ P existing index s sub) :: rest).filterMap Sum.getRight? =
              @actionFor _ P existing index s sub :: rest.filterMap Sum.getRight? := rfl
          rw [first, map_cons, head]
          rfl

theorem applyActions_entries (subs : List (Subscription ν)) (actions : List (ImportAction ν))
    (own : ∀ a ∈ actions, a.type = .update → a.existingId = some a.subscription.id) :
    (applyActions subs actions).map (fun sub => (sub.id, sub.name)) =
      Upsert.applyAll (subs.map fun sub => (sub.id, sub.name)) (actions.map ImportAction.change) := by
  induction actions generalizing subs with
  | nil => rfl
  | cons a actions ih =>
    have step : (applyAction subs a).map (fun sub => (sub.id, sub.name)) =
        Upsert.apply (subs.map fun sub => (sub.id, sub.name)) a.change := by
      unfold applyAction Upsert.apply ImportAction.change
      cases type : a.type with
      | create => simp
      | update =>
        rw [own a mem_cons_self type]
        simp only [decide_true, if_true, map_map]
        apply map_congr_left
        intro sub _
        simp only [Function.comp_apply, Option.some.injEq]
        split <;> rfl
    rw [applyActions, foldl_cons, ← applyActions, ih _ fun b mem => own b (mem_cons_of_mem _ mem), step]
    rfl

theorem placedFrom_unseen (subs : List (SubscriptionInput ν)) (seen : Seen) (row index : ℕ) {r : Placed ν}
    (mem : r ∈ placedFrom P mode existing seen row index subs) (acting : r.acts = true) :
    normalized P r.name ∉ seen.names ∧ (given r.input.id = true → r.input.id.getD "" ∉ seen.ids) := by
  induction subs generalizing seen row index with
  | nil => cases mem
  | cons s subs ih =>
    unfold placedFrom at mem
    split at mem
    · rcases mem_cons.mp mem with rfl | mem
      · unfold acts at acting
        simp only [Bool.and_eq_true, Option.isNone_iff_eq_none] at acting
        have fresh := acting.1
        unfold Seen.duplicate at fresh
        split at fresh
        · cases fresh
        · rename_i name
          split at fresh
          · cases fresh
          · rename_i id
            exact ⟨by simpa [Placed.name] using name, fun given => by simpa [given] using id⟩
      · obtain ⟨name, id⟩ := ih (seen.next P s) (row + 1) (index + 1) mem
        unfold Seen.next Seen.add at name id
        split at name
        · exact ⟨name, fun given => by simpa [*] using id given⟩
        · rename_i fresh
          refine ⟨fun seen => name (mem_cons_of_mem _ seen), fun given seen => ?_⟩
          have unseen := id given
          rw [if_neg fresh] at unseen
          dsimp only at unseen
          split at unseen
          · exact unseen (mem_cons_of_mem _ seen)
          · exact unseen seen
    · exact ih seen (row + 1) index mem

theorem placedFrom_apart (subs : List (SubscriptionInput ν)) (seen : Seen) (row index : ℕ) :
    ((placedFrom P mode existing seen row index subs).filter Placed.acts).Pairwise fun r r' =>
      normalized P r.name ≠ normalized P r'.name ∧
        (given r.input.id = true → given r'.input.id = true → r.input.id.getD "" ≠ r'.input.id.getD "") := by
  induction subs generalizing seen row index with
  | nil => exact .nil
  | cons s subs ih =>
    unfold placedFrom
    split
    · cases acting : acts P mode existing seen s with
      | false =>
        rw [filter_cons_of_neg (by simp)]
        exact ih _ _ _
      | true =>
        rw [filter_cons_of_pos rfl]
        refine .cons (fun r member => ?_) (ih ..)
        obtain ⟨mem, acting'⟩ := mem_filter.mp member
        obtain ⟨name, id⟩ := placedFrom_unseen subs (seen.next P s) (row + 1) (index + 1) mem acting'
        have fresh : ¬(seen.duplicate P 0 s).isSome = true := by
          unfold acts at acting
          simp only [Bool.and_eq_true, Option.isNone_iff_eq_none] at acting
          simp [acting.1]
        unfold Seen.next at name id
        rw [if_neg fresh] at name id
        refine ⟨fun same => name (same ▸ mem_cons_self), fun given given' same => id given' ?_⟩
        unfold Seen.add
        rw [if_pos given, ← same]
        exact mem_cons_self
    · exact ih _ _ _

end Rows

end SubTrackr.ImportExport
