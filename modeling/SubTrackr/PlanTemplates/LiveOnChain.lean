import SubTrackr.Types
import SubTrackr.Lib.Store
import SubTrackr.Lib.Runs
import SubTrackr.Lib.Versions

namespace SubTrackr.PlanTemplates.OnChain

open Option List Lib Soroban

def MAX_TIERS : ℕ := 12

def MAX_FEATURES : ℕ := 32

structure PricingTier where
  upToUnits : Option ℕ
  unitPrice : ℤ

structure PlanTemplate where
  (id rootId version : ℕ)
  owner : Address
  (name description : String)
  basePrice : ℤ
  token : Address
  interval : Interval
  tiers : List PricingTier
  features : List String
  (shared active : Bool)
  createdAt : ℕ

structure TemplateAnalytics where
  (templateId views plansCreated subscriptionsStarted adoptionBps conversionBps lastUsedAt : ℕ)

def TemplateAnalytics.empty (templateId : ℕ) : TemplateAnalytics := ⟨templateId, 0, 0, 0, 0, 0, 0⟩

def ascending (previous : ℕ) : List PricingTier → Bool
  | [] => true
  | tier :: rest =>
    if tier.unitPrice < 0 then false
    else
      match tier.upToUnits with
      | none => rest.isEmpty && ascending previous rest
      | some bound => if bound = 0 ∨ bound ≤ previous then false else ascending bound rest

def validateTiers (tiers : List PricingTier) : Bool :=
  if tiers.length = 0 ∨ tiers.length > MAX_TIERS then false else ascending 0 tiers

def validateTemplate (basePrice : ℤ) (tiers : List PricingTier) (features : List String) : Bool :=
  if basePrice ≤ 0 then false
  else if features.length > MAX_FEATURES then false
  else tiers.isEmpty || validateTiers tiers

/-- What the storage contract holds under `StorageKey::PlanTemplate`, one field for each kind of key. -/
structure State where
  template : Store ℕ PlanTemplate
  count : Option ℕ
  byOwner : Store Address (List ℕ)
  shared : Option (List ℕ)
  versions : Store ℕ (List ℕ)
  analytics : Store ℕ TemplateAnalytics

namespace State

variable (s : State)

def empty : State := ⟨fun _ => none, none, fun _ => none, none, fun _ => none, fun _ => none⟩

def getTemplate (templateId : ℕ) : Option PlanTemplate := s.template templateId

def putTemplate (template : PlanTemplate) : State := { s with template := put s.template template.id template }

def getOwnerTemplates (owner : Address) : List ℕ := (s.byOwner owner).getD []

def getSharedTemplates : List ℕ := s.shared.getD []

def getTemplateVersions (rootId : ℕ) : List ℕ := (s.versions rootId).getD []

def getLatestVersion (rootId : ℕ) : Option PlanTemplate := (s.getTemplateVersions rootId).getLast?.bind s.getTemplate

def putAnalytics (analytics : TemplateAnalytics) : State :=
  { s with analytics := put s.analytics analytics.templateId analytics }

def nextTemplateId : Result (State × ℕ) := do
  let next ← u64 (s.count.getD 0 + 1)
  return ({ s with count := some next }, next)

def indexForOwner (owner : Address) (templateId : ℕ) : State :=
  { s with byOwner := put s.byOwner owner (s.getOwnerTemplates owner ++ [templateId]) }

def appendVersion (rootId templateId : ℕ) : State :=
  { s with versions := put s.versions rootId (s.getTemplateVersions rootId ++ [templateId]) }

def setSharedMembership (templateId : ℕ) (member : Bool) : State :=
  let current := s.getSharedTemplates
  let kept := current.filter fun id => id ≠ templateId || member
  { s with shared := some (if member && templateId ∉ current then kept ++ [templateId] else kept) }

end State

structure Draft where
  (name description : String)
  basePrice : ℤ
  tiers : List PricingTier
  features : List String

def createTemplate (now : ℕ) (s : State) (owner : Address) (draft : Draft) (token : Address) (interval : Interval) :
    Result (State × ℕ) := do
  ensure (validateTemplate draft.basePrice draft.tiers draft.features) "Invalid plan template"
  let (s, id) ← s.nextTemplateId
  let template : PlanTemplate :=
    { id := id
      rootId := id
      version := 1
      owner := owner
      name := draft.name
      description := draft.description
      basePrice := draft.basePrice
      token := token
      interval := interval
      tiers := draft.tiers
      features := draft.features
      shared := false
      active := true
      createdAt := now }
  let s := s.putTemplate template
  let s := s.indexForOwner owner id
  let s := s.appendVersion id id
  return (s.putAnalytics (.empty id), id)

def publishVersion (now : ℕ) (s : State) (caller : Address) (templateId : ℕ) (draft : Draft) : Result (State × ℕ) := do
  let previous ← expect (s.getTemplate templateId) "Template not found"
  ensure (previous.owner = caller) "Only the owner may publish"
  ensure (validateTemplate draft.basePrice draft.tiers draft.features) "Invalid plan template"
  let wasShared := previous.shared
  let (s, id) ← s.nextTemplateId
  let version ← u32 (previous.version + 1)
  let template : PlanTemplate :=
    { id := id
      rootId := previous.rootId
      version := version
      owner := previous.owner
      name := draft.name
      description := draft.description
      basePrice := draft.basePrice
      token := previous.token
      interval := previous.interval
      tiers := draft.tiers
      features := draft.features
      shared := wasShared
      active := true
      createdAt := now }
  let s := s.putTemplate { previous with active := false, shared := false }
  let s := s.putTemplate template
  let s := s.indexForOwner template.owner id
  let s := s.appendVersion template.rootId id
  let s := s.putAnalytics (.empty id)
  let s := if wasShared then (s.setSharedMembership templateId false).setSharedMembership id true else s
  return (s, id)

def setShared (s : State) (caller : Address) (templateId : ℕ) (shared : Bool) : Result State := do
  let template ← expect (s.getTemplate templateId) "Template not found"
  ensure (template.owner = caller) "Only the owner may share"
  if template.shared = shared then return s
  else return (s.putTemplate { template with shared := shared }).setSharedMembership templateId shared

inductive Call where
  | createTemplate (owner : Address) (draft : Draft) (token : Address) (interval : Interval)
  | publishVersion (caller : Address) (templateId : ℕ) (draft : Draft)
  | setShared (caller : Address) (templateId : ℕ) (shared : Bool)

def step (s : State) (call : ℕ × Call) : Option State :=
  match call.2 with
  | .createTemplate owner draft token interval =>
    (createTemplate call.1 s owner draft token interval).toOption.map Prod.fst
  | .publishVersion caller templateId draft => (publishVersion call.1 s caller templateId draft).toOption.map Prod.fst
  | .setShared caller templateId shared => (setShared s caller templateId shared).toOption

def PlanTemplate.toVersion (template : PlanTemplate) : Version := ⟨template.version, template.active, template.shared⟩

namespace State

variable (s : State)

def version (id : ℕ) : Option Version := (s.getTemplate id).map (·.toVersion)

def chain (rootId : ℕ) : List (ℕ × Version) := Version.chainOf s.version (s.getTemplateVersions rootId)

end State

structure Live (s : State) : Prop where
  complete : ∀ id template, s.getTemplate id = some template → (id, template.toVersion) ∈ s.chain template.rootId
  chains : ∀ rootId, Version.OneLive (s.chain rootId)
  latest : ∀ rootId, (s.getLatestVersion rootId).map (fun template => (template.id, template.toVersion)) =
    (s.chain rootId).getLast?
  library : ∀ id, id ∈ s.getSharedTemplates ↔ ∃ template, s.getTemplate id = some template ∧ template.shared = true

def careful (s : State) (call : ℕ × Call) : Prop :=
  match call.2 with
  | .createTemplate _ _ _ _ => True
  | .publishVersion _ templateId _ => ∀ template, s.getTemplate templateId = some template → template.active = true
  | .setShared _ templateId shared =>
    ∀ template, s.getTemplate templateId = some template → shared = true → template.active = true

instance (s : State) (call : ℕ × Call) : Decidable (careful s call) :=
  match call with
  | (_, .createTemplate ..) => isTrue trivial
  | (_, .publishVersion _ templateId _) =>
    decidable_of_iff ((s.getTemplate templateId).all (·.active) = true) (Option.all_eq_true _ _)
  | (_, .setShared _ templateId shared) =>
    decidable_of_iff ((s.getTemplate templateId).all (fun template => !shared || template.active) = true) (by
      rw [Option.all_eq_true]
      refine forall₂_congr fun template _ => ?_
      cases shared <;> simp)

structure WellFormed (s : State) : Prop where
  named : ∀ id template, s.getTemplate id = some template → template.id = id
  counted : ∀ id template, s.getTemplate id = some template → id ≤ s.count.getD 0 ∧ template.rootId ≤ s.count.getD 0
  listed : ∀ rootId id, id ∈ s.getTemplateVersions rootId ↔ ∃ template, s.getTemplate id = some template ∧ template.rootId = rootId
  headed : ∀ rootId, Version.Headed (s.chain rootId)
  library : ∀ id, id ∈ s.getSharedTemplates ↔ ∃ template, s.getTemplate id = some template ∧ template.shared = true

variable {s : State} {id rootId templateId : ℕ} {template : PlanTemplate}

theorem version_eq_some {v : Version} : s.version id = some v ↔ ∃ template, s.getTemplate id = some template ∧ template.toVersion = v :=
  map_eq_some_iff

theorem mem_getSharedTemplates {mem : Bool} : id ∈ (s.setSharedMembership templateId mem).getSharedTemplates ↔
      (id = templateId ∧ mem = true) ∨ (id ≠ templateId ∧ id ∈ s.getSharedTemplates) := by
  show id ∈ (if mem && templateId ∉ s.getSharedTemplates then _ else _) ↔ _
  by_cases here : id = templateId
  · subst here
    by_cases old : id ∈ s.getSharedTemplates <;> cases mem <;> simp [old]
  · by_cases old : id ∈ s.getSharedTemplates <;> cases mem <;> split <;> simp [here, old]

theorem WellFormed.member (wf : WellFormed s) (found : s.getTemplate id = some template) :
    (id, template.toVersion) ∈ s.chain template.rootId :=
  Version.mem_chainOf.mpr ⟨(wf.listed _ _).mpr ⟨template, found, rfl⟩, version_eq_some.mpr ⟨template, found, rfl⟩⟩

theorem WellFormed.keys (wf : WellFormed s) (rootId : ℕ) : (s.chain rootId).map Prod.fst = s.getTemplateVersions rootId := by
  refine Version.keys_chainOf fun id mem => ?_
  obtain ⟨template, found, -⟩ := (wf.listed rootId id).mp mem
  exact ⟨template.toVersion, version_eq_some.mpr ⟨template, found, rfl⟩⟩

theorem WellFormed.live (wf : WellFormed s) : Live s where
  complete _ _ found := wf.member found
  chains rootId := (wf.headed rootId).oneLive
  latest rootId := by
    have keys := wf.keys rootId
    cases last : (s.chain rootId).getLast? with
    | none =>
      have none : (s.getTemplateVersions rootId).getLast? = none := by rw [← keys, getLast?_map, last]; rfl
      rw [State.getLatestVersion, none]
      rfl
    | some e =>
      obtain ⟨key, v⟩ := e
      obtain ⟨template, found, rfl⟩ := version_eq_some.mp (Version.mem_chainOf.mp (mem_of_getLast? last)).2
      have here : (s.getTemplateVersions rootId).getLast? = some key := by rw [← keys, getLast?_map, last]; rfl
      rw [State.getLatestVersion, here, bind_some, found, map_some, wf.named key template found]
  library := wf.library

theorem wellFormed_empty : WellFormed .empty where
  named := nofun
  counted := nofun
  listed _ _ := ⟨nofun, nofun⟩
  headed _ := Version.headed_nil
  library _ := ⟨nofun, nofun⟩

structure Created (s s' : State) (id : ℕ) (template : PlanTemplate) : Prop where
  fresh : id = s.count.getD 0 + 1
  named : template.id = id
  rooted : template.rootId = id
  first : template.toVersion = ⟨1, true, false⟩
  templates : s'.template = put s.template id template
  count : s'.count = some id
  versions : s'.versions = put s.versions id (s.getTemplateVersions id ++ [id])
  shared : s'.shared = s.shared

theorem createTemplate_ok {now : ℕ} {s' : State} {owner token : Address} {draft : Draft} {interval : Interval}
    (run : createTemplate now s owner draft token interval = .ok (s', id)) : ∃ template, Created s s' id template := by
  simp only [createTemplate, State.nextTemplateId, bind_eq_ok, pure_eq_ok, u64_eq_ok, Prod.exists, Prod.mk.injEq] at run
  obtain ⟨_, _, _, _, ⟨_, ⟨_, rfl⟩, rfl, rfl⟩, rfl, rfl⟩ := run
  exact ⟨_, rfl, rfl, rfl, rfl, rfl, rfl, rfl, rfl⟩

structure Published (s s' : State) (templateId id : ℕ) (previous next : PlanTemplate) : Prop where
  found : s.getTemplate templateId = some previous
  fresh : id = s.count.getD 0 + 1
  named : next.id = id
  rooted : next.rootId = previous.rootId
  follows : next.toVersion = previous.toVersion.successor
  templates : s'.template = put (put s.template previous.id { previous with active := false, shared := false }) id next
  count : s'.count = some id
  versions : s'.versions = put s.versions previous.rootId (s.getTemplateVersions previous.rootId ++ [id])
  library : ∀ j, j ∈ s'.getSharedTemplates ↔ if previous.shared = true then
    j = id ∨ j ≠ id ∧ j ≠ templateId ∧ j ∈ s.getSharedTemplates else j ∈ s.getSharedTemplates

theorem publishVersion_ok {now : ℕ} {s' : State} {caller : Address} {draft : Draft}
    (run : publishVersion now s caller templateId draft = .ok (s', id)) :
    ∃ previous next, Published s s' templateId id previous next := by
  simp only [publishVersion, State.nextTemplateId, bind_eq_ok, pure_eq_ok, u64_eq_ok, u32_eq_ok, expect_eq_ok, Prod.exists,
    Prod.mk.injEq] at run
  obtain ⟨previous, found, _, _, _, _, _, _, ⟨_, ⟨_, rfl⟩, rfl, rfl⟩, _, ⟨_, rfl⟩, rfl, rfl⟩ := run
  by_cases shared : previous.shared = true
  · rw [if_pos shared]
    refine ⟨previous, _, found, rfl, ?_, ?_, ?_, rfl, rfl, rfl, fun j => ?_⟩
    · rfl
    · rfl
    · rfl
    · rw [if_pos shared, mem_getSharedTemplates, mem_getSharedTemplates]
      simp
      rfl
  · rw [if_neg shared]
    refine ⟨previous, _, found, rfl, ?_, ?_, ?_, rfl, rfl, rfl, fun j => ?_⟩
    · rfl
    · rfl
    · rfl
    · rw [if_neg shared]
      rfl

theorem setShared_ok {s' : State} {caller : Address} {shared : Bool} (run : setShared s caller templateId shared = .ok s') :
    ∃ template, s.getTemplate templateId = some template ∧
      ((template.shared = shared ∧ s' = s) ∨
        s' = (s.putTemplate { template with shared := shared }).setSharedMembership templateId shared) := by
  simp only [setShared, bind_eq_ok, pure_eq_ok, expect_eq_ok, ite_eq_ok] at run
  obtain ⟨template, found, _, _, ⟨same, rfl⟩ | ⟨_, rfl⟩⟩ := run
  · exact ⟨template, found, .inl ⟨same, rfl⟩⟩
  · exact ⟨template, found, .inr rfl⟩

section Steps

variable {s' : State} {previous next : PlanTemplate} {shared : Bool}

theorem WellFormed.stored (wf : WellFormed s) (mem : id ∈ s.getTemplateVersions rootId) : id ≤ s.count.getD 0 := by
  obtain ⟨template, found, -⟩ := (wf.listed rootId id).mp mem
  exact (wf.counted id template found).1

theorem WellFormed.unrooted (wf : WellFormed s) (rootId : ℕ) (fresh : s.count.getD 0 < rootId) :
    s.getTemplateVersions rootId = [] := by
  refine eq_nil_iff_forall_not_mem.mpr fun id mem => ?_
  obtain ⟨template, found, rooted⟩ := (wf.listed rootId id).mp mem
  have bound := (wf.counted id template found).2
  omega

theorem WellFormed.old (wf : WellFormed s) (fresh : s.count.getD 0 < id) {j : ℕ} {t : PlanTemplate}
    (found : s.getTemplate j = some t) : j ≠ id := by
  have bound := (wf.counted j t found).1
  omega

section

variable (created : Created s s' id template)

include created

theorem Created.getTemplate (j : ℕ) (t : PlanTemplate) :
    s'.getTemplate j = some t ↔ (j = id ∧ template = t) ∨ (j ≠ id ∧ s.getTemplate j = some t) := by
  rw [State.getTemplate, created.templates]
  exact put_eq_some ..

theorem Created.getTemplateVersions (rootId : ℕ) :
    s'.getTemplateVersions rootId = if rootId = id then s.getTemplateVersions id ++ [id] else s.getTemplateVersions rootId := by
  rw [State.getTemplateVersions, created.versions, put_apply]
  split
  · rfl
  · rfl

theorem Created.wellFormed (wf : WellFormed s) : WellFormed s' := by
  have fresh := created.fresh
  have none := wf.unrooted id (by omega)
  have old {j : ℕ} {t : PlanTemplate} (found : s.getTemplate j = some t) : j ≠ id := wf.old (by omega) found
  refine ⟨?_, ?_, ?_, ?_, ?_⟩
  · intro j t found
    rcases (created.getTemplate j t).mp found with ⟨rfl, rfl⟩ | ⟨-, found⟩
    · exact created.named
    · exact wf.named j t found
  · intro j t found
    rw [created.count]
    show j ≤ id ∧ t.rootId ≤ id
    rcases (created.getTemplate j t).mp found with ⟨rfl, rfl⟩ | ⟨-, found⟩
    · exact ⟨le_refl _, created.rooted.le⟩
    · have bounds := wf.counted j t found
      omega
  · intro rootId j
    rw [created.getTemplateVersions]
    split
    · rename_i here
      subst here
      rw [none, nil_append, mem_singleton]
      constructor
      · rintro rfl
        exact ⟨template, (created.getTemplate _ _).mpr (.inl ⟨rfl, rfl⟩), created.rooted⟩
      · rintro ⟨t, found, rooted⟩
        rcases (created.getTemplate j t).mp found with ⟨here, -⟩ | ⟨-, found⟩
        · exact here
        · have bound := (wf.counted j t found).2
          omega
    · rename_i elsewhere
      rw [wf.listed]
      constructor
      · rintro ⟨t, found, rooted⟩
        exact ⟨t, (created.getTemplate j t).mpr (.inr ⟨old found, found⟩), rooted⟩
      · rintro ⟨t, found, rooted⟩
        rcases (created.getTemplate j t).mp found with ⟨-, rfl⟩ | ⟨-, found⟩
        · exact absurd (rooted.symm.trans created.rooted) elsewhere
        · exact ⟨t, found, rooted⟩
  · intro rootId
    rw [State.chain, created.getTemplateVersions]
    have version (j : ℕ) (other : j ≠ id) : s'.version j = s.version j := by
      rw [State.version, State.getTemplate, created.templates, put_of_ne _ _ other]
      rfl
    split
    · have first : s'.version id = some ⟨1, true, false⟩ :=
        version_eq_some.mpr ⟨template, (created.getTemplate _ _).mpr (.inl ⟨rfl, rfl⟩), created.first⟩
      rw [none, Version.chainOf_concat first]
      exact Version.headed_first id
    · rw [Version.chainOf_congr fun j mem => version j (by have bound := wf.stored mem; omega)]
      exact wf.headed rootId
  · intro j
    rw [State.getSharedTemplates, created.shared]
    refine (wf.library j).trans ⟨?_, ?_⟩
    · rintro ⟨t, found, shared⟩
      exact ⟨t, (created.getTemplate j t).mpr (.inr ⟨old found, found⟩), shared⟩
    · rintro ⟨t, found, shared⟩
      rcases (created.getTemplate j t).mp found with ⟨-, rfl⟩ | ⟨-, found⟩
      · have unshared : template.shared = false := congrArg Version.shared created.first
        rw [unshared] at shared
        cases shared
      · exact ⟨t, found, shared⟩

end

section

variable (published : Published s s' templateId id previous next)

include published

theorem Published.getTemplate (wf : WellFormed s) (j : ℕ)
    (t : PlanTemplate) : s'.getTemplate j = some t ↔ (j = id ∧ next = t) ∨
      (j ≠ id ∧ j = templateId ∧ { previous with active := false, shared := false } = t) ∨
      (j ≠ id ∧ j ≠ templateId ∧ s.getTemplate j = some t) := by
  rw [State.getTemplate, published.templates, put_eq_some, put_eq_some, wf.named templateId previous published.found]
  refine or_congr_right ?_
  rw [and_or_left]
  rfl

theorem Published.getTemplateVersions (rootId : ℕ) : s'.getTemplateVersions rootId =
      if rootId = previous.rootId then s.getTemplateVersions rootId ++ [id] else s.getTemplateVersions rootId := by
  rw [State.getTemplateVersions, published.versions, put_apply]
  split
  · rename_i here
    rw [here]
    rfl
  · rfl

theorem Published.version_old (wf : WellFormed s) {j : ℕ}
    (old : j ≤ s.count.getD 0) (other : j ≠ templateId) : s'.version j = s.version j := by
  have fresh : j ≠ id := by
    have number := published.fresh
    omega
  rw [State.version, State.getTemplate, published.templates, wf.named templateId previous published.found,
    put_of_ne _ _ fresh, put_of_ne _ _ other]
  rfl

theorem Published.chain (wf : WellFormed s) :
    s'.chain previous.rootId = Version.publish (s.chain previous.rootId) templateId previous.toVersion id := by
  have number := published.fresh
  have bound := (wf.counted templateId previous published.found).1
  have newest : s'.version id = some previous.toVersion.successor :=
    version_eq_some.mpr ⟨next, (published.getTemplate wf _ _).mpr (.inl ⟨rfl, rfl⟩), published.follows⟩
  have retired : s'.version templateId = some previous.toVersion.retire := by
    refine version_eq_some.mpr ⟨{ previous with active := false, shared := false }, ?_, rfl⟩
    exact (published.getTemplate wf _ _).mpr (.inr (.inl ⟨by omega, rfl, rfl⟩))
  have found : s.version templateId = some previous.toVersion := version_eq_some.mpr ⟨previous, published.found, rfl⟩
  rw [State.chain, published.getTemplateVersions, if_pos rfl, Version.chainOf_concat newest,
    Version.chainOf_amend found retired fun j mem other => published.version_old wf (wf.stored mem) other]
  rfl

theorem Published.chain_other (wf : WellFormed s)
    (other : rootId ≠ previous.rootId) : s'.chain rootId = s.chain rootId := by
  rw [State.chain, published.getTemplateVersions, if_neg other]
  refine Version.chainOf_congr fun j mem => published.version_old wf (wf.stored mem) ?_
  rintro rfl
  obtain ⟨t, found, rooted⟩ := (wf.listed rootId j).mp mem
  rw [published.found] at found
  cases found
  exact other rooted.symm

theorem Published.next_count : s.count.getD 0 < id := by
  have number := published.fresh
  omega

theorem Published.listed (wf : WellFormed s) :
    ∀ rootId j, j ∈ s'.getTemplateVersions rootId ↔ ∃ t, s'.getTemplate j = some t ∧ t.rootId = rootId := by
  intro rootId j
  rw [published.getTemplateVersions]
  have kept : j ∈ s.getTemplateVersions rootId ↔ ∃ t, j ≠ id ∧ s'.getTemplate j = some t ∧ t.rootId = rootId := by
    rw [wf.listed]
    constructor
    · rintro ⟨t, found, rooted⟩
      by_cases here : j = templateId
      · subst here
        rw [published.found] at found
        cases found
        have fresh := wf.old published.next_count published.found
        exact ⟨_, fresh, (published.getTemplate wf _ _).mpr (.inr (.inl ⟨fresh, rfl, rfl⟩)), rooted⟩
      · have fresh := wf.old published.next_count found
        exact ⟨t, fresh, (published.getTemplate wf _ _).mpr (.inr (.inr ⟨fresh, here, found⟩)), rooted⟩
    · rintro ⟨t, other, found, rooted⟩
      rcases (published.getTemplate wf j t).mp found with ⟨here, -⟩ | ⟨-, rfl, rfl⟩ | ⟨-, -, found⟩
      · exact absurd here other
      · exact ⟨previous, published.found, rooted⟩
      · exact ⟨t, found, rooted⟩
  have newest : (∃ t, s'.getTemplate id = some t ∧ t.rootId = rootId) ↔ rootId = previous.rootId := by
    constructor
    · rintro ⟨t, found, rooted⟩
      rcases (published.getTemplate wf id t).mp found with ⟨-, rfl⟩ | ⟨other, -⟩ | ⟨other, -⟩
      · exact rooted.symm.trans published.rooted
      · exact absurd rfl other
      · exact absurd rfl other
    · intro here
      exact ⟨next, (published.getTemplate wf _ _).mpr (.inl ⟨rfl, rfl⟩), published.rooted.trans here.symm⟩
  by_cases here : j = id
  · subst here
    rw [newest]
    have absent : j ∉ s.getTemplateVersions rootId := by
      intro mem
      have bound := wf.stored mem
      have number := published.fresh
      omega
    split
    · rename_i root
      exact iff_of_true (mem_append_right _ (mem_singleton.mpr rfl)) root
    · rename_i root
      exact iff_of_false absent root
  · have same : j ∈ (if rootId = previous.rootId then s.getTemplateVersions rootId ++ [id]
        else s.getTemplateVersions rootId) ↔ j ∈ s.getTemplateVersions rootId := by
      split
      · simp [here]
      · rfl
    rw [same, kept]
    exact exists_congr fun t => and_iff_right here

theorem Published.library_iff (wf : WellFormed s) (j : ℕ) :
    j ∈ s'.getSharedTemplates ↔ ∃ t, s'.getTemplate j = some t ∧ t.shared = true := by
  have follows : next.shared = previous.shared := congrArg Version.shared published.follows
  have before := wf.library j
  have unborn : j ∈ s.getSharedTemplates → j ≠ id := by
    intro mem
    obtain ⟨t, found, -⟩ := before.mp mem
    exact wf.old published.next_count found
  have shared' : j ∈ s.getSharedTemplates → j = templateId → previous.shared = true := by
    rintro mem rfl
    obtain ⟨t, found, shared⟩ := before.mp mem
    rw [published.found] at found
    cases found
    exact shared
  rw [published.library]
  constructor
  · intro mem
    split at mem
    · rename_i wasShared
      rcases mem with rfl | ⟨fresh, other, mem⟩
      · exact ⟨next, (published.getTemplate wf _ _).mpr (.inl ⟨rfl, rfl⟩), follows.trans wasShared⟩
      · obtain ⟨t, found, shared⟩ := before.mp mem
        exact ⟨t, (published.getTemplate wf _ _).mpr (.inr (.inr ⟨fresh, other, found⟩)), shared⟩
    · rename_i unshared
      have other : j ≠ templateId := fun here => unshared (shared' mem here)
      obtain ⟨t, found, shared⟩ := before.mp mem
      exact ⟨t, (published.getTemplate wf _ _).mpr (.inr (.inr ⟨unborn mem, other, found⟩)), shared⟩
  · rintro ⟨t, found, shared⟩
    rcases (published.getTemplate wf j t).mp found with ⟨rfl, rfl⟩ | ⟨-, -, rfl⟩ | ⟨fresh, other, found⟩
    · rw [if_pos (follows.symm.trans shared)]
      exact .inl rfl
    · cases shared
    · have mem := before.mpr ⟨t, found, shared⟩
      split
      · exact .inr ⟨fresh, other, mem⟩
      · exact mem

theorem Published.wellFormed (wf : WellFormed s)
    (active : previous.active = true) : WellFormed s' := by
  have number := published.fresh
  have bounds := wf.counted templateId previous published.found
  refine ⟨?_, ?_, ?_, ?_, ?_⟩
  · intro j t found
    rcases (published.getTemplate wf j t).mp found with ⟨rfl, rfl⟩ | ⟨-, rfl, rfl⟩ | ⟨-, -, found⟩
    · exact published.named
    · exact wf.named j previous published.found
    · exact wf.named j t found
  · intro j t found
    rw [published.count]
    show j ≤ id ∧ t.rootId ≤ id
    rcases (published.getTemplate wf j t).mp found with ⟨rfl, rfl⟩ | ⟨-, rfl, rfl⟩ | ⟨-, -, found⟩
    · rw [published.rooted]
      omega
    · show j ≤ id ∧ previous.rootId ≤ id
      omega
    · have bounds := wf.counted j t found
      omega
  · exact published.listed wf
  · intro rootId
    by_cases root : rootId = previous.rootId
    · subst root
      rw [published.chain wf]
      refine (wf.headed _).publish (wf.member published.found) active ?_
      rw [wf.keys]
      intro mem
      have bound := wf.stored mem
      omega
    · rw [published.chain_other wf root]
      exact wf.headed rootId
  · exact published.library_iff wf

end

def State.withShared (s : State) (template : PlanTemplate) (templateId : ℕ) (shared : Bool) : State :=
  (s.putTemplate { template with shared := shared }).setSharedMembership templateId shared

section

variable (wf : WellFormed s) (found : s.getTemplate templateId = some template)

include wf found

theorem getTemplate_withShared (shared : Bool)
    (j : ℕ) (t : PlanTemplate) : (s.withShared template templateId shared).getTemplate j = some t ↔
      (j = templateId ∧ { template with shared := shared } = t) ∨ (j ≠ templateId ∧ s.getTemplate j = some t) := by
  obtain rfl : template.id = templateId := wf.named templateId template found
  exact put_eq_some ..

theorem chain_withShared : (s.withShared template templateId shared).chain template.rootId =
      Version.share (s.chain template.rootId) templateId template.toVersion shared := by
  have changed : (s.withShared template templateId shared).version templateId =
      some { template.toVersion with shared := shared } :=
    version_eq_some.mpr ⟨_, (getTemplate_withShared wf found ..).mpr (.inl ⟨rfl, rfl⟩), rfl⟩
  refine Version.chainOf_amend (version_eq_some.mpr ⟨template, found, rfl⟩) changed fun j _ other => ?_
  ext v
  rw [version_eq_some, version_eq_some]
  refine exists_congr fun t => and_congr_left fun _ => ?_
  rw [getTemplate_withShared wf found]
  simp [other]

theorem chain_withShared_other
    (other : rootId ≠ template.rootId) : (s.withShared template templateId shared).chain rootId = s.chain rootId := by
  refine Version.chainOf_congr fun j mem => ?_
  have elsewhere : j ≠ templateId := by
    rintro rfl
    obtain ⟨t, found', rooted⟩ := (wf.listed rootId j).mp mem
    rw [found] at found'
    cases found'
    exact other rooted.symm
  ext v
  rw [version_eq_some, version_eq_some]
  refine exists_congr fun t => and_congr_left fun _ => ?_
  rw [getTemplate_withShared wf found]
  simp [elsewhere]

theorem WellFormed.withShared
    (allowed : shared = true → template.active = true) : WellFormed (s.withShared template templateId shared) := by
  have lookup := getTemplate_withShared wf found shared
  refine ⟨?_, ?_, ?_, ?_, ?_⟩
  · intro j t found'
    rcases (lookup j t).mp found' with ⟨rfl, rfl⟩ | ⟨-, found'⟩
    · exact wf.named j template found
    · exact wf.named j t found'
  · intro j t found'
    rcases (lookup j t).mp found' with ⟨rfl, rfl⟩ | ⟨-, found'⟩
    · exact wf.counted j template found
    · exact wf.counted j t found'
  · intro rootId j
    refine (wf.listed rootId j).trans ⟨?_, ?_⟩
    · rintro ⟨t, found', rooted⟩
      by_cases here : j = templateId
      · subst here
        rw [found] at found'
        cases found'
        exact ⟨_, (lookup _ _).mpr (.inl ⟨rfl, rfl⟩), rooted⟩
      · exact ⟨t, (lookup _ _).mpr (.inr ⟨here, found'⟩), rooted⟩
    · rintro ⟨t, found', rooted⟩
      rcases (lookup j t).mp found' with ⟨rfl, rfl⟩ | ⟨-, found'⟩
      · exact ⟨template, found, rooted⟩
      · exact ⟨t, found', rooted⟩
  · intro rootId
    by_cases root : rootId = template.rootId
    · subst root
      rw [chain_withShared wf found]
      exact (wf.headed _).share (wf.member found) allowed
    · rw [chain_withShared_other wf found root]
      exact wf.headed rootId
  · intro j
    rw [State.withShared, mem_getSharedTemplates]
    constructor
    · rintro (⟨rfl, rfl⟩ | ⟨other, mem⟩)
      · exact ⟨_, (lookup _ _).mpr (.inl ⟨rfl, rfl⟩), rfl⟩
      · obtain ⟨t, found', flag⟩ := (wf.library j).mp mem
        exact ⟨t, (lookup _ _).mpr (.inr ⟨other, found'⟩), flag⟩
    · rintro ⟨t, found', flag⟩
      rcases (lookup j t).mp found' with ⟨rfl, rfl⟩ | ⟨other, found'⟩
      · exact .inl ⟨rfl, flag⟩
      · exact .inr ⟨other, (wf.library j).mpr ⟨t, found', flag⟩⟩

end

theorem WellFormed.step (wf : WellFormed s) {call : ℕ × Call} (fine : careful s call) (stepped : step s call = some s') :
    WellFormed s' := by
  obtain ⟨now, call⟩ := call
  cases call with
  | createTemplate owner draft token interval =>
    obtain ⟨⟨_, id⟩, run, rfl⟩ := map_eq_some_iff.mp stepped
    obtain ⟨template, created⟩ := createTemplate_ok ((toOption_eq_some _ _).mp run)
    exact created.wellFormed wf
  | publishVersion caller templateId draft =>
    obtain ⟨⟨_, id⟩, run, rfl⟩ := map_eq_some_iff.mp stepped
    obtain ⟨previous, next, published⟩ := publishVersion_ok ((toOption_eq_some _ _).mp run)
    exact published.wellFormed wf (fine previous published.found)
  | setShared caller templateId shared =>
    obtain ⟨template, found, ⟨-, rfl⟩ | rfl⟩ := setShared_ok ((toOption_eq_some _ _).mp stepped)
    · exact wf
    · exact wf.withShared found (fine template found)

theorem careful_of_live (wf : WellFormed s) {call : ℕ × Call} (stepped : OnChain.step s call = some s') (live : Live s') :
    careful s call := by
  obtain ⟨now, call⟩ := call
  cases call with
  | createTemplate owner draft token interval => trivial
  | publishVersion caller templateId draft =>
    obtain ⟨⟨_, id⟩, run, rfl⟩ := map_eq_some_iff.mp stepped
    obtain ⟨previous, next, published⟩ := publishVersion_ok ((toOption_eq_some _ _).mp run)
    have chain := live.chains previous.rootId
    rw [published.chain wf] at chain
    have active := Version.active_of_publish_numbered (wf.headed _) (wf.member published.found) chain.numbered
    intro t found
    rw [published.found] at found
    cases found
    exact active
  | setShared caller templateId shared =>
    obtain ⟨template, found, ⟨same, rfl⟩ | rfl⟩ := setShared_ok ((toOption_eq_some _ _).mp stepped)
    · intro t found' flag
      rw [found] at found'
      cases found'
      exact (wf.headed _).shared _ (wf.member found) (same.trans flag)
    · have chain := live.chains template.rootId
      rw [← State.withShared, chain_withShared wf found] at chain
      intro t found' flag
      rw [found] at found'
      cases found'
      exact (Version.share_iff (wf.headed _) (wf.member found)).mp chain flag

end Steps

theorem wellFormed_of_run (run : Runs step careful .empty s) : WellFormed s :=
  run.keeps WellFormed wellFormed_empty fun _ _ _ wf fine stepped => wf.step fine stepped

end SubTrackr.PlanTemplates.OnChain
