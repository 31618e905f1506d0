import SubTrackr.ImportExport.Accounting
import SubTrackr.ImportExport.RoundTrip

namespace SubTrackr.ImportExport

open List Lib

variable {ν : Type} {P : ImportPlatform ν} {data : ImportData ν} {subs : List (Subscription ν)}
  {input : SubscriptionInput ν}

section Lookups

theorem matched_mem {sub : Subscription ν} (found : (indexExisting P subs).matched P input = some sub) : sub ∈ subs := by
  have mem {entries : List (String × Subscription ν)} {k : String}
      (held : putAll (fun _ => none) entries k = some sub) : (k, sub) ∈ entries :=
    (mem_of_putAll held).elim id fun nothing => by cases nothing
  unfold Existing.matched at found
  rcases Option.or_eq_some_iff.mp found with first | ⟨-, name⟩
  · rcases Option.or_eq_some_iff.mp first with id | ⟨-, externalId⟩
    · unfold Existing.byIdMatch at id
      split at id
      · obtain ⟨s, member, same⟩ := mem_map.mp (mem id)
        rw [← (Prod.mk.inj same).2]
        exact (mem_filter.mp member).1
      · cases id
    · unfold Existing.byExternalIdMatch at externalId
      split at externalId
      · obtain ⟨s, member, same⟩ := mem_map.mp (mem externalId)
        rw [← (Prod.mk.inj same).2]
        exact (mem_filter.mp member).1
      · cases externalId
  · obtain ⟨s, member, same⟩ := mem_map.mp (mem name)
    rw [← (Prod.mk.inj same).2]
    exact member

theorem new_id (nodup : (subs.map Subscription.id).Nodup) (own : given input.id = true)
    (unmatched : (indexExisting P subs).matched P input = none) : input.id.getD "" ∉ subs.map Subscription.id := by
  intro member
  obtain ⟨sub, mem, same⟩ := mem_map.mp member
  have nonempty : input.id.getD "" ≠ "" := by
    cases id : input.id with
    | none => simp [given, id] at own
    | some id' => simpa [given, id] using own
  have entry : (sub.id, sub) ∈ (subs.filter fun sub => sub.id ≠ "").map fun sub => (sub.id, sub) :=
    mem_map_of_mem (mem_filter.mpr ⟨mem, by simpa [same] using nonempty⟩)
  have keys : (((subs.filter fun sub => sub.id ≠ "").map fun sub => (sub.id, sub)).map (·.1)).Nodup := by
    rw [map_map]
    exact nodup.sublist (filter_sublist.map _)
  have held : (indexExisting P subs).byId (input.id.getD "") = some sub := same ▸ putAll_mem keys entry _
  have found : (indexExisting P subs).byIdMatch input = some sub := by
    unfold Existing.byIdMatch
    rw [if_pos own, held]
  unfold Existing.matched at unmatched
  rw [found] at unmatched
  cases unmatched

end Lookups

variable (P data subs)

def acting : List (Placed ν) :=
  (placedFrom P data.mode (indexExisting P subs) ⟨[], [], []⟩ 1 0 data.subscriptions).filter Placed.acts

def target (r : Placed ν) : Option (Subscription ν) := (indexExisting P subs).matched P r.input

def refused : List (Placed ν) :=
  (placedFrom P data.mode (indexExisting P subs) ⟨[], [], []⟩ 1 0 data.subscriptions).filter fun r => !r.acts

structure KeepsApart (actions : List (ImportAction ν)) : Prop where
  updates : (actions.filterMap ImportAction.existingId).Nodup
  ids : ((applyActions subs actions).map Subscription.id).Nodup
  names : ((applyActions subs actions).map fun sub => normalized P sub.name).Nodup

def Accounts : Prop :=
  ∃ outcomes result, outcomesOf P data subs = .ok outcomes ∧ processImport P data subs = .ok result ∧
    result.actions = (yields P data outcomes).flatMap Yield.actions ∧
    result.errors.Perm ((yields P data outcomes).flatMap Yield.errors) ∧
    (∀ y ∈ yields P data outcomes, y.Fine) ∧ KeepsApart P subs result.actions

/-- The acting rows update different subscriptions, create new ones, and give names that no other subscription keeps. -/
structure Separate : Prop where
  apart : (acting P data subs).Pairwise fun r r' => ∀ sub, target P subs r = some sub → target P subs r' ≠ some sub
  fresh : ∀ r ∈ acting P data subs, target P subs r = none → given r.input.id = false →
    r.id P (indexExisting P subs) ∉ subs.map Subscription.id
  distinct : ((acting P data subs).filter fun r => (target P subs r).isNone).Pairwise fun r r' =>
    (given r.input.id && given r'.input.id) = false → r.id P (indexExisting P subs) ≠ r'.id P (indexExisting P subs)
  kept : ∀ sub ∈ subs, (∀ r ∈ acting P data subs, target P subs r ≠ some sub) →
    ∀ sub' ∈ subs, (∀ r ∈ acting P data subs, target P subs r ≠ some sub') →
      normalized P sub.name = normalized P sub'.name → sub = sub'
  renamed : ∀ r ∈ acting P data subs, ∀ sub ∈ subs, normalized P sub.name = normalized P r.name →
    ∃ r' ∈ acting P data subs, target P subs r' = some sub

/-- What the rows must be like: no acting row lacks a category or a billing cycle, and no refused one comes after a row that
    validation rejects. -/
structure Importable : Prop extends Separate P data subs where
  complete : ∀ r ∈ acting P data subs, complete r.input = true
  ordered : ∀ r ∈ refused P data subs, r.index + 1 = r.row

variable {P data subs} {r : Placed ν}

theorem target_id {sub : Subscription ν} (found : target P subs r = some sub) : r.id P (indexExisting P subs) = sub.id := by
  unfold target at found
  unfold Placed.id
  rw [found]
  rfl

theorem created_id (unmatched : target P subs r = none) (own : given r.input.id = true) :
    r.id P (indexExisting P subs) = r.input.id.getD "" := by
  unfold target at unmatched
  unfold Placed.id
  rw [unmatched]
  cases id : r.input.id with
  | none => simp [given, id] at own
  | some id => rfl

def Matches (P : ImportPlatform ν) (data : ImportData ν) (subs : List (Subscription ν)) (actions : List (ImportAction ν)) : Prop :=
  actions.map (fun a => (a.change, a.existingId)) =
    (acting P data subs).map fun r => (r.change P (indexExisting P subs), (target P subs r).map Subscription.id)

section Applied

variable {actions : List (ImportAction ν)} (same : Matches P data subs actions)

include same

theorem Matches.changes : actions.map ImportAction.change = (acting P data subs).map (Placed.change P (indexExisting P subs)) := by
  have firsts := congrArg (List.map Prod.fst) same
  simpa [map_map, Function.comp_def] using firsts

theorem Matches.updates : actions.filterMap ImportAction.existingId =
    (acting P data subs).filterMap fun r => (target P subs r).map Subscription.id := by
  have seconds := congrArg (List.filterMap Prod.snd) same
  simpa [filterMap_map, Function.comp_def] using seconds

theorem Matches.own {a : ImportAction ν} (member : a ∈ actions) (update : a.type = .update) :
    a.existingId = some a.subscription.id := by
  have mem := @List.mem_map_of_mem _ _ _ _ (fun a : ImportAction ν => (a.change, a.existingId)) member
  rw [same] at mem
  obtain ⟨r, -, entry⟩ := mem_map.mp mem
  obtain ⟨change, existingId⟩ := Prod.mk.inj entry
  have replaces := congrArg Upsert.Change.replaces change
  have key := congrArg Upsert.Change.key change
  cases found : target P subs r with
  | none =>
    unfold Placed.change ImportAction.change at replaces
    unfold target at found
    simp [found, update] at replaces
  | some sub =>
    rw [← existingId, found]
    exact congrArg some ((target_id found).symm.trans key)

theorem Matches.entries : (applyActions subs actions).map (fun sub => (sub.id, sub.name)) =
    Upsert.applyAll (subs.map fun sub => (sub.id, sub.name))
      ((acting P data subs).map (Placed.change P (indexExisting P subs))) := by
  rw [applyActions_entries subs actions fun a mem => same.own mem, same.changes]

theorem Matches.ids : (applyActions subs actions).map Subscription.id =
    subs.map Subscription.id ++
      ((acting P data subs).filter fun r => (target P subs r).isNone).map (Placed.id P (indexExisting P subs)) := by
  have keys := congrArg (List.map Prod.fst) same.entries
  rw [Upsert.applyAll_keys, map_map, map_map, filter_map, map_map] at keys
  have created : (fun c : Upsert.Change String String => !c.replaces) ∘ Placed.change P (indexExisting P subs) =
      fun r => (target P subs r).isNone := by
    funext r
    unfold Placed.change target
    simp
  rw [created] at keys
  exact keys

theorem Matches.names : (applyActions subs actions).map (fun sub => normalized P sub.name) =
    (Upsert.applyAll (subs.map fun sub => (sub.id, sub.name))
      ((acting P data subs).map (Placed.change P (indexExisting P subs)))).map fun e => normalized P e.2 := by
  rw [← same.entries, map_map]
  rfl

end Applied

section Conditions

variable (ids : (subs.map Subscription.id).Nodup)

theorem acting_apart : (acting P data subs).Pairwise fun r r' =>
    normalized P r.name ≠ normalized P r'.name ∧
      (given r.input.id = true → given r'.input.id = true → r.input.id.getD "" ≠ r'.input.id.getD "") :=
  placedFrom_apart _ _ _ _

include ids

theorem same_of_id {sub sub' : Subscription ν} (mem : sub ∈ subs) (mem' : sub' ∈ subs) (same : sub.id = sub'.id) :
    sub = sub' :=
  inj_on_of_nodup_map ids mem mem' same

theorem updates_nodup_iff : ((acting P data subs).filterMap fun r => (target P subs r).map Subscription.id).Nodup ↔
    (acting P data subs).Pairwise fun r r' => ∀ sub, target P subs r = some sub → target P subs r' ≠ some sub := by
  unfold List.Nodup
  rw [pairwise_filterMap]
  apply List.Pairwise.iff_of_mem
  intro r r' _ _
  constructor
  · intro apart sub found found'
    exact apart sub.id (by rw [found]; rfl) sub.id (by rw [found']; rfl) rfl
  · intro apart id found id' found' same
    obtain ⟨sub, target, rfl⟩ := Option.map_eq_some_iff.mp found
    obtain ⟨sub', target', rfl⟩ := Option.map_eq_some_iff.mp found'
    exact apart sub target (same_of_id ids (matched_mem target) (matched_mem target') same ▸ target')

theorem ids_nodup_iff : (subs.map Subscription.id ++
      ((acting P data subs).filter fun r => (target P subs r).isNone).map (Placed.id P (indexExisting P subs))).Nodup ↔
    (∀ r ∈ acting P data subs, target P subs r = none → given r.input.id = false →
      r.id P (indexExisting P subs) ∉ subs.map Subscription.id) ∧
    ((acting P data subs).filter fun r => (target P subs r).isNone).Pairwise fun r r' =>
      (given r.input.id && given r'.input.id) = false → r.id P (indexExisting P subs) ≠ r'.id P (indexExisting P subs) := by
  rw [nodup_append]
  have created {r : Placed ν} (mem : r ∈ (acting P data subs).filter fun r => (target P subs r).isNone) :
      target P subs r = none := by simpa using (mem_filter.mp mem).2
  constructor
  · rintro ⟨-, nodup, fresh⟩
    constructor
    · intro r mem unmatched _ old
      exact fresh _ old _ (mem_map_of_mem (mem_filter.mpr ⟨mem, by simp [unmatched]⟩)) rfl
    · apply (pairwise_map.mp nodup).imp
      intro r r' apart _
      exact apart
  · rintro ⟨fresh, nodup⟩
    refine ⟨ids, pairwise_map.mpr ?_, ?_⟩
    · refine ((acting_apart.filter _).and nodup).imp_of_mem ?_
      rintro r r' mem mem' ⟨⟨-, apart⟩, others⟩
      cases both : given r.input.id && given r'.input.id with
      | false => exact others both
      | true =>
        obtain ⟨own, own'⟩ := (Bool.and_eq_true _ _).mp both
        rw [created_id (created mem) own, created_id (created mem') own']
        exact apart own own'
    · rintro id old id' new rfl
      obtain ⟨r, mem, rfl⟩ := mem_map.mp new
      cases own : given r.input.id with
      | false => exact fresh r (mem_filter.mp mem).1 (created mem) own old
      | true =>
        rw [created_id (created mem) own] at old
        exact new_id ids own (created mem) old

theorem acting_proper
    (created : ((acting P data subs).filter fun r => (target P subs r).isNone).Pairwise fun r r' =>
      r.id P (indexExisting P subs) ≠ r'.id P (indexExisting P subs))
    (fresh : ∀ r ∈ acting P data subs, target P subs r = none → r.id P (indexExisting P subs) ∉ subs.map Subscription.id)
    (apart : (acting P data subs).Pairwise fun r r' => ∀ sub, target P subs r = some sub → target P subs r' ≠ some sub) :
    Upsert.Proper (subs.map fun sub => (sub.id, sub.name))
      ((acting P data subs).map (Placed.change P (indexExisting P subs))) := by
  have keys : (subs.map fun sub => (sub.id, sub.name)).map Prod.fst = subs.map Subscription.id := by
    rw [map_map]
    rfl
  refine ⟨?_, ?_, ?_⟩
  · rw [map_map, nodup_iff_pairwise_ne, pairwise_map]
    refine ((pairwise_filter.mp created).and apart).imp_of_mem ?_
    rintro r r' member mem' ⟨both, targets⟩ same
    change r.id P (indexExisting P subs) = r'.id P (indexExisting P subs) at same
    cases found : target P subs r with
    | none =>
      cases found' : target P subs r' with
      | none => exact both (by simp [found]) (by simp [found']) same
      | some sub' =>
        apply fresh r member found
        rw [same, target_id found']
        exact mem_map_of_mem (matched_mem found')
    | some sub =>
      cases found' : target P subs r' with
      | none =>
        apply fresh r' mem' found'
        rw [← same, target_id found]
        exact mem_map_of_mem (matched_mem found)
      | some sub' =>
        rw [target_id found, target_id found'] at same
        exact targets sub found (same_of_id ids (matched_mem found) (matched_mem found') same ▸ found')
  · intro c member replaces
    obtain ⟨r, -, rfl⟩ := mem_map.mp member
    obtain ⟨sub, found⟩ := Option.isSome_iff_exists.mp replaces
    rw [keys]
    change r.id P (indexExisting P subs) ∈ _
    rw [target_id found]
    exact mem_map_of_mem (matched_mem found)
  · intro c member adds
    obtain ⟨r, mem, rfl⟩ := mem_map.mp member
    rw [keys]
    exact fresh r mem (by simpa [target, Placed.change] using adds)

theorem changed_iff
    (fresh : ∀ r ∈ acting P data subs, target P subs r = none → r.id P (indexExisting P subs) ∉ subs.map Subscription.id)
    {sub : Subscription ν} (member : sub ∈ subs) :
    sub.id ∈ ((acting P data subs).map (Placed.change P (indexExisting P subs))).map Upsert.Change.key ↔
      ∃ r ∈ acting P data subs, target P subs r = some sub := by
  rw [map_map, mem_map]
  constructor
  · rintro ⟨r, mem, same⟩
    change r.id P (indexExisting P subs) = sub.id at same
    refine ⟨r, mem, ?_⟩
    cases found : target P subs r with
    | none => exact absurd (mem_map_of_mem member) (same ▸ fresh r mem found)
    | some sub' =>
      rw [target_id found] at same
      rw [same_of_id ids (matched_mem found) member same]
  · rintro ⟨r, mem, found⟩
    exact ⟨r, mem, target_id found⟩

theorem names_nodup_iff
    (proper : Upsert.Proper (subs.map fun sub => (sub.id, sub.name))
      ((acting P data subs).map (Placed.change P (indexExisting P subs))))
    (fresh : ∀ r ∈ acting P data subs, target P subs r = none → r.id P (indexExisting P subs) ∉ subs.map Subscription.id) :
    ((Upsert.applyAll (subs.map fun sub => (sub.id, sub.name))
        ((acting P data subs).map (Placed.change P (indexExisting P subs)))).map fun e => normalized P e.2).Nodup ↔
      (∀ sub ∈ subs, (∀ r ∈ acting P data subs, target P subs r ≠ some sub) →
        ∀ sub' ∈ subs, (∀ r ∈ acting P data subs, target P subs r ≠ some sub') →
          normalized P sub.name = normalized P sub'.name → sub = sub') ∧
      ∀ r ∈ acting P data subs, ∀ sub ∈ subs, normalized P sub.name = normalized P r.name →
        ∃ r' ∈ acting P data subs, target P subs r' = some sub := by
  have keys : ((subs.map fun sub => (sub.id, sub.name)).map Prod.fst).Nodup := by
    rw [map_map]
    exact ids
  have unchanged {sub : Subscription ν} (member : sub ∈ subs) :
      sub.id ∉ ((acting P data subs).map (Placed.change P (indexExisting P subs))).map Upsert.Change.key ↔
        ∀ r ∈ acting P data subs, target P subs r ≠ some sub := by
    rw [changed_iff ids fresh member]
    push Not
    rfl
  rw [Upsert.values_nodup_iff proper keys (normalized P)]
  · simp only [forall_mem_map]
    apply and_congr
    · constructor
      · intro kept sub member out sub' mem' out' same
        have one := kept sub member ((unchanged member).mpr out) sub' mem' ((unchanged mem').mpr out') same
        exact same_of_id ids member mem' (congrArg Prod.fst one)
      · intro kept sub member out sub' mem' out' same
        rw [kept sub member ((unchanged member).mp out) sub' mem' ((unchanged mem').mp out') same]
    · constructor
      · intro covered r mem sub member same
        exact (changed_iff ids fresh member).mp (covered r mem sub member same)
      · intro covered r mem sub member same
        exact (changed_iff ids fresh member).mpr (covered r mem sub member same)
  · simp only [forall_mem_map]
    intro r member r' mem' same
    have names : ((acting P data subs).map fun r => normalized P r.name).Nodup :=
      pairwise_map.mpr (acting_apart.imp And.left)
    rw [inj_on_of_nodup_map names member mem' same]

end Conditions

theorem keepsApart_iff {actions : List (ImportAction ν)} (ids : (subs.map Subscription.id).Nodup)
    (same : Matches P data subs actions) : KeepsApart P subs actions ↔ Separate P data subs := by
  have new (nodup : ((applyActions subs actions).map Subscription.id).Nodup) :
      ∀ r ∈ acting P data subs, target P subs r = none → r.id P (indexExisting P subs) ∉ subs.map Subscription.id := by
    rw [same.ids] at nodup
    intro r mem unmatched old
    exact (nodup_append.mp nodup).2.2 _ old _
      (mem_map_of_mem (mem_filter.mpr ⟨mem, by simp [unmatched]⟩)) rfl
  have proper (nodup : ((applyActions subs actions).map Subscription.id).Nodup)
      (apart : (acting P data subs).Pairwise fun r r' => ∀ sub, target P subs r = some sub → target P subs r' ≠ some sub) :
      Upsert.Proper (subs.map fun sub => (sub.id, sub.name))
        ((acting P data subs).map (Placed.change P (indexExisting P subs))) := by
    have fresh := new nodup
    rw [same.ids] at nodup
    exact acting_proper ids (pairwise_map.mp (nodup_append.mp nodup).2.1) fresh apart
  constructor
  · rintro ⟨updates, nodup, names⟩
    rw [same.updates] at updates
    have apart := (updates_nodup_iff ids).mp updates
    rw [same.names] at names
    obtain ⟨kept, renamed⟩ := (names_nodup_iff ids (proper nodup apart) (new nodup)).mp names
    rw [same.ids] at nodup
    obtain ⟨fresh, created⟩ := (ids_nodup_iff ids).mp nodup
    exact ⟨apart, fresh, created, kept, renamed⟩
  · rintro ⟨apart, fresh, created, kept, renamed⟩
    have nodup := (ids_nodup_iff ids).mpr ⟨fresh, created⟩
    rw [← same.ids] at nodup
    refine ⟨?_, nodup, ?_⟩
    · rw [same.updates]
      exact (updates_nodup_iff ids).mpr apart
    · rw [same.names]
      exact (names_nodup_iff ids (proper nodup apart) (new nodup)).mpr ⟨kept, renamed⟩

theorem processImport_ok {outcomes : List (ImportError ⊕ ImportAction ν)} (done : outcomesOf P data subs = .ok outcomes) :
    ∃ result, processImport P data subs = .ok result ∧ result.actions = outcomes.filterMap Sum.getRight? ∧
      result.errors = (validateImport P data).errors ++ outcomes.filterMap Sum.getLeft? := by
  unfold processImport buildImportActions
  rw [done]
  exact ⟨_, rfl, rfl, rfl⟩

theorem rows_iff : (∃ outcomes, outcomesOf P data subs = .ok outcomes ∧ ∀ y ∈ yields P data outcomes, y.Fine) ↔
    (∀ r ∈ acting P data subs, complete r.input = true) ∧ ∀ r ∈ refused P data subs, r.index + 1 = r.row := by
  unfold outcomesOf yields acting refused
  rw [validRows_eq, processRows_rows]
  simp only [mem_filter, Bool.not_eq_true', and_imp]
  constructor
  · intro rows
    exact ⟨fun r mem acts => (rows r mem).1 acts, fun r mem refused => (rows r mem).2 refused⟩
  · rintro ⟨complete, ordered⟩ r mem
    exact ⟨complete r mem, ordered r mem⟩

theorem outcomes_match {outcomes : List (ImportError ⊕ ImportAction ν)} (done : outcomesOf P data subs = .ok outcomes) :
    outcomes.length = data.subscriptions.countP (accepted P) ∧ Matches P data subs (outcomes.filterMap Sum.getRight?) := by
  unfold outcomesOf at done
  rw [validRows_eq] at done
  exact processRows_actions data.subscriptions ⟨[], [], []⟩ 1 0 done

/-- Every row is accounted for, and the subscriptions stay apart, exactly where the rows are like that. -/
theorem accounts_iff (ids : (subs.map Subscription.id).Nodup) : Accounts P data subs ↔ Importable P data subs := by
  constructor
  · rintro ⟨outcomes, result, done, processed, -, -, fine, apart⟩
    obtain ⟨complete, ordered⟩ := rows_iff.mp ⟨outcomes, done, fine⟩
    obtain ⟨result', processed', actions, -⟩ := processImport_ok done
    obtain rfl := Except.ok.inj (processed.symm.trans processed')
    rw [actions] at apart
    exact ⟨(keepsApart_iff ids (outcomes_match done).2).mp apart, complete, ordered⟩
  · rintro ⟨separate, complete, ordered⟩
    obtain ⟨outcomes, done, fine⟩ := rows_iff.mpr ⟨complete, ordered⟩
    obtain ⟨result, processed, actions, errors⟩ := processImport_ok done
    obtain ⟨length, same⟩ := outcomes_match done
    obtain ⟨allActions, allErrors⟩ := yieldsFrom_flatMap P 1 data.subscriptions outcomes length
    refine ⟨outcomes, result, done, processed, actions.trans allActions.symm, ?_, fine, ?_⟩
    · rw [errors]
      have shifted : (data.subscriptions.zipIdx 1).map (fun s => (s.1, checkRow P s.2 s.1)) =
          data.subscriptions.zipIdx.map fun s => (s.1, checkRow P (s.2 + 1) s.1) := by
        rw [zipIdx_succ, map_map]
        rfl
      rw [shifted] at allErrors
      exact allErrors.symm
    · rw [actions]
      exact (keepsApart_iff ids same).mpr separate

section Sample

def importer : ImportPlatform ℤ where
  toPlatform := wholeNumbers
  toUpperCase s := String.ofList (s.toList.map Char.toUpper)
  isNaN _ := false
  isNegative n := n < 0
  thousandTimes n := 1000 * n
  dateOfNumber n := ⟨some n⟩
  dateOfText _ := ⟨none⟩
  now := ⟨some 1777593600000⟩
  generateUniqueId index := String.ofList ("1777593600000-".toList ++ Nat.toDigits 10 index)

def rowFor (name : String) (category : Option String) : SubscriptionInput ℤ where
  id := none
  externalId := none
  externalSource := none
  name := some name
  description := none
  category
  price := some 5
  currency := some "usd"
  billingCycle := some "monthly"
  nextBillingDate := none
  isActive := none
  notificationsEnabled := none
  isCryptoEnabled := none
  cryptoToken := none
  cryptoAmount := none

deriving instance DecidableEq for Subscription, SubscriptionInput, Placed

theorem accounts_films : Accounts importer ⟨[rowFor " FILMS" (some "streaming"), rowFor "Music" (some "other")], .upsert⟩
    [subscriptionTo "Films" "all of them"] := by
  have rows : acting importer ⟨[rowFor " FILMS" (some "streaming"), rowFor "Music" (some "other")], .upsert⟩
      [subscriptionTo "Films" "all of them"] =
        [⟨1, 0, rowFor " FILMS" (some "streaming"), true⟩, ⟨2, 1, rowFor "Music" (some "other"), true⟩] := by decide +kernel
  have films : target importer [subscriptionTo "Films" "all of them"] ⟨1, 0, rowFor " FILMS" (some "streaming"), true⟩ =
      some (subscriptionTo "Films" "all of them") := by decide +kernel
  have music : target importer [subscriptionTo "Films" "all of them"] ⟨2, 1, rowFor "Music" (some "other"), true⟩ = none := by
    decide +kernel
  apply (accounts_iff (by decide)).mpr
  refine ⟨⟨?_, ?_, ?_, ?_, ?_⟩, ?_, ?_⟩
  · rw [rows]
    simp [music]
  · rw [rows]
    simp only [forall_mem_cons, films, music]
    decide +kernel
  · rw [rows]
    simp [films, music]
  · intro sub member out
    rw [mem_singleton.mp member, rows] at out
    exact absurd films (out _ mem_cons_self)
  · intro r _ sub member _
    rw [rows, mem_singleton.mp member]
    exact ⟨_, mem_cons_self, films⟩
  · rw [rows]
    decide +kernel
  · have none : refused importer ⟨[rowFor " FILMS" (some "streaming"), rowFor "Music" (some "other")], .upsert⟩
        [subscriptionTo "Films" "all of them"] = [] := by decide +kernel
    rw [none]
    exact forall_mem_nil _

theorem not_accounts : (([] : List (Subscription ℤ)).map Subscription.id).Nodup ∧
    (([] : List (Subscription ℤ)).map fun sub => normalized importer sub.name).Nodup ∧
    ¬Accounts importer ⟨[rowFor "Music" none], .create⟩ [] := by
  refine ⟨nodup_nil, nodup_nil, ?_⟩
  rintro ⟨-, result, -, processed, -⟩
  have throws : (processImport importer ⟨[rowFor "Music" none], .create⟩ []).toBool = false := by decide +kernel
  rw [processed] at throws
  cases throws

end Sample

end SubTrackr.ImportExport
