import SubTrackr.PlanTemplates.PlanTemplateService
import SubTrackr.PlanTemplates.LiveOnChain

namespace SubTrackr.PlanTemplates.Service

open List Lib PaymentMethods

def PlanTemplate.toVersion (template : PlanTemplate) : Version := ⟨template.version, template.active, template.shared⟩

def PlanTemplateService.chain (s : PlanTemplateService) (rootId : String) : List (String × Version) :=
  (s.templates.values.filter fun template => template.rootId = rootId).map fun template =>
    (template.id, template.toVersion)

structure Live (s : PlanTemplateService) : Prop where
  complete : ∀ id template, s.templates.get id = some template → (id, template.toVersion) ∈ s.chain template.rootId
  chains : ∀ rootId, Version.OneLive (s.chain rootId)
  latest : ∀ rootId, (s.getLatestVersion rootId).map (fun template => (template.id, template.toVersion)) =
    (s.chain rootId).getLast?

def careful (s : PlanTemplateService) (call : Env × Call) : Prop :=
  match call.2 with
  | .createTemplate _ _ => True
  | .publishVersion _ templateId _ => ∀ template, s.templates.get templateId = some template → template.active = true
  | .setShared _ _ _ => True

instance (s : PlanTemplateService) (call : Env × Call) : Decidable (careful s call) :=
  match call with
  | (_, .createTemplate _ _) => isTrue trivial
  | (_, .publishVersion _ templateId _) =>
    decidable_of_iff ((s.templates.get templateId).all (·.active) = true) (Option.all_eq_true _ _)
  | (_, .setShared ..) => isTrue trivial

def Numbered (s : PlanTemplateService) (id : String) : Prop := ∃ n random, n ≤ s.sequence ∧ id = idText ['t', 'p', 'l'] n random

structure WellFormed (s : PlanTemplateService) : Prop where
  named : ∀ id template, s.templates.get id = some template → template.id = id
  numbered : ∀ id template, s.templates.get id = some template → Numbered s id ∧ Numbered s template.rootId
  headed : ∀ rootId, Version.Headed (s.chain rootId)

variable {s s' : PlanTemplateService} {id rootId templateId : String} {template previous : PlanTemplate}

theorem WellFormed.member (wf : WellFormed s) (found : s.templates.get id = some template) :
    (id, template.toVersion) ∈ s.chain template.rootId := by
  rw [← wf.named id template found]
  have mem : template ∈ s.templates.values := InsertionMap.mem_values.mpr ⟨id, found⟩
  exact mem_map_of_mem (mem_filter.mpr ⟨mem, decide_eq_true rfl⟩)

theorem WellFormed.listVersions (wf : WellFormed s) (rootId : String) :
    s.listVersions rootId = s.templates.values.filter fun template => template.rootId = rootId := by
  refine List.Pairwise.insertionSort_eq ?_
  have numbers := (wf.headed rootId).numbered
  rw [PlanTemplateService.chain, map_map] at numbers
  have ordered : ((s.templates.values.filter fun template => template.rootId = rootId).map (·.version)).Pairwise (· ≤ ·) := by
    have same : (s.templates.values.filter fun template => template.rootId = rootId).map (·.version) = List.range' 1 _ := numbers
    rw [same]
    exact pairwise_le_range'
  exact pairwise_map.mp ordered

theorem WellFormed.live (wf : WellFormed s) : Live s where
  complete _ _ found := wf.member found
  chains rootId := (wf.headed rootId).oneLive
  latest rootId := by rw [PlanTemplateService.getLatestVersion, wf.listVersions, PlanTemplateService.chain, getLast?_map]

theorem wellFormed_new : WellFormed .new where
  named _ _ found := by cases found
  numbered _ _ found := by cases found
  headed _ := Version.headed_nil

theorem chain_save (template : PlanTemplate) (wf : WellFormed s) (found : s.templates.get template.id = some previous)
    (rooted : template.rootId = previous.rootId) (rootId : String) :
    (s.save template).chain rootId = Version.amend (s.chain rootId) template.id template.toVersion := by
  have entries : ∀ e ∈ s.templates.entries, e.2.id = e.1 ∧ (e.1 = template.id → e.2.rootId = template.rootId) := by
    rintro ⟨key, old⟩ mem
    have held := InsertionMap.get_eq_some.mpr mem
    refine ⟨wf.named key old held, ?_⟩
    rintro rfl
    rw [found] at held
    cases held
    exact rooted.symm
  rw [PlanTemplateService.chain, PlanTemplateService.save, InsertionMap.values_set_of_known found, PlanTemplateService.chain,
    InsertionMap.values]
  generalize s.templates.entries = list at entries
  induction list with
  | nil => rfl
  | cons e list ih =>
    obtain ⟨named, root⟩ := entries e mem_cons_self
    have rest := ih fun other member => entries other (mem_cons_of_mem _ member)
    unfold Version.amend at rest ⊢
    by_cases here : e.1 = template.id
    · rw [map_cons, map_cons, if_pos here]
      by_cases mine : template.rootId = rootId
      · simp [mine, root here, named, here, rest]
      · simp [mine, root here, rest]
    · rw [map_cons, map_cons, if_neg here]
      by_cases mine : e.2.rootId = rootId
      · simp [mine, named, here, rest]
      · simp [mine, rest]

theorem chain_save_fresh (fresh : s.templates.get template.id = none) (rootId : String) :
    (s.save template).chain rootId =
      s.chain rootId ++ if template.rootId = rootId then [(template.id, template.toVersion)] else [] := by
  rw [PlanTemplateService.chain, PlanTemplateService.save, InsertionMap.values_set_of_fresh fresh, PlanTemplateService.chain]
  by_cases mine : template.rootId = rootId
  · simp [mine]
  · simp [mine]

theorem Numbered.mono (numbered : Numbered s id) (later : s.sequence ≤ s'.sequence) : Numbered s' id := by
  obtain ⟨n, random, bound, text⟩ := numbered
  exact ⟨n, random, bound.trans later, text⟩

theorem Numbered.ne_next (numbered : Numbered s id) (random : List Char) : id ≠ idText ['t', 'p', 'l'] (s.sequence + 1) random := by
  obtain ⟨n, random', bound, rfl⟩ := numbered
  intro same
  have number := idText_inj same
  omega

theorem WellFormed.fresh (wf : WellFormed s) (random : List Char) :
    s.templates.get (idText ['t', 'p', 'l'] (s.sequence + 1) random) = none := by
  cases found : s.templates.get (idText ['t', 'p', 'l'] (s.sequence + 1) random) with
  | none => rfl
  | some template => exact absurd rfl ((wf.numbered _ template found).1.ne_next random)

structure Created (s s' : PlanTemplateService) (template : PlanTemplate) : Prop where
  named : ∃ random, template.id = idText ['t', 'p', 'l'] (s.sequence + 1) random
  rooted : template.rootId = template.id
  first : template.toVersion = ⟨1, true, false⟩
  templates : s'.templates = (s.save template).templates
  sequence : s'.sequence = s.sequence + 1

theorem createTemplate_ok {env : Env} {ownerId : String} {draft : PlanTemplateDraft}
    (run : s.createTemplate env ownerId draft = .ok (s', template)) : Created s s' template := by
  simp only [PlanTemplateService.createTemplate, PlanTemplateService.nextId, bind_eq_ok, pure_eq_ok, Prod.mk.injEq] at run
  obtain ⟨_, _, rfl, rfl⟩ := run
  exact ⟨⟨_, rfl⟩, rfl, rfl, rfl, rfl⟩

structure Published (s s' : PlanTemplateService) (templateId : String) (previous retired next : PlanTemplate) : Prop where
  found : s.templates.get templateId = some previous
  named : ∃ random, next.id = idText ['t', 'p', 'l'] (s.sequence + 1) random
  rooted : next.rootId = previous.rootId
  follows : next.toVersion = previous.toVersion.successor
  same : retired.id = previous.id ∧ retired.rootId = previous.rootId
  leaves : retired.toVersion = previous.toVersion.retire
  templates : s'.templates = ((s.save retired).save next).templates
  sequence : s'.sequence = s.sequence + 1

theorem requireTemplate_eq_ok : s.requireTemplate templateId = .ok template ↔ s.templates.get templateId = some template := by
  unfold PlanTemplateService.requireTemplate
  cases s.templates.get templateId with
  | none => exact ⟨nofun, nofun⟩
  | some found => simp

theorem publishVersion_ok {env : Env} {ownerId : String} {draft : PlanTemplateDraft} {next : PlanTemplate}
    (run : s.publishVersion env ownerId templateId draft = .ok (s', next)) :
    ∃ previous retired, Published s s' templateId previous retired next := by
  simp only [PlanTemplateService.publishVersion, PlanTemplateService.nextId, bind_eq_ok, pure_eq_ok, Prod.mk.injEq,
    requireTemplate_eq_ok] at run
  obtain ⟨previous, found, _, _, _, _, rfl, rfl⟩ := run
  exact ⟨previous, { previous with active := false, shared := false, updatedAt := env.now },
    found, ⟨_, rfl⟩, rfl, rfl, ⟨rfl, rfl⟩, rfl, rfl, rfl⟩

theorem setShared_ok {env : Env} {ownerId : String} {shared : Bool} {updated : PlanTemplate}
    (run : s.setShared env ownerId templateId shared = .ok (s', updated)) :
    ∃ template, s.templates.get templateId = some template ∧ (shared = true → template.active = true) ∧
      updated = { template with shared := shared, updatedAt := env.now } ∧ s' = s.save updated := by
  simp only [PlanTemplateService.setShared, bind_eq_ok, requireTemplate_eq_ok] at run
  obtain ⟨template, found, _, _, run⟩ := run
  split at run
  · cases run
  · rename_i allowed
    cases run
    refine ⟨template, found, ?_, rfl, rfl⟩
    intro flag
    by_contra inactive
    rw [Bool.not_eq_true] at inactive
    exact allowed (by rw [inactive, flag]; rfl)

theorem chain_of_templates {t : PlanTemplateService} (same : s'.templates = t.templates) (rootId : String) :
    s'.chain rootId = t.chain rootId := by
  rw [PlanTemplateService.chain, same]
  rfl

theorem WellFormed.unrooted (wf : WellFormed s) {random : List Char} (here : id = idText ['t', 'p', 'l'] (s.sequence + 1) random) :
    s.chain id = [] := by
  refine eq_nil_iff_forall_not_mem.mpr fun e member => ?_
  obtain ⟨template, kept, rfl⟩ := mem_map.mp member
  obtain ⟨mem, rooted⟩ := mem_filter.mp kept
  obtain ⟨key, found⟩ := InsertionMap.mem_values.mp mem
  have root : template.rootId = id := of_decide_eq_true rooted
  exact (wf.numbered key template found).2.ne_next random (root.trans here)

theorem Created.wellFormed (created : Created s s' template) (wf : WellFormed s) : WellFormed s' := by
  obtain ⟨random, text⟩ := created.named
  have later : s.sequence ≤ s'.sequence := by rw [created.sequence]; exact Nat.le_succ _
  have own : Numbered s' template.id := ⟨s.sequence + 1, random, created.sequence.ge, text⟩
  have lookup (id : String) (t : PlanTemplate) : s'.templates.get id = some t ↔
      (id = template.id ∧ template = t) ∨ (id ≠ template.id ∧ s.templates.get id = some t) := by
    rw [created.templates]
    exact InsertionMap.get_set_eq_some
  refine ⟨?_, ?_, ?_⟩
  · intro id t found
    rcases (lookup id t).mp found with ⟨rfl, rfl⟩ | ⟨-, found⟩
    · rfl
    · exact wf.named id t found
  · intro id t found
    rcases (lookup id t).mp found with ⟨rfl, rfl⟩ | ⟨-, found⟩
    · exact ⟨own, created.rooted ▸ own⟩
    · obtain ⟨first, second⟩ := wf.numbered id t found
      exact ⟨first.mono later, second.mono later⟩
  · intro rootId
    rw [chain_of_templates created.templates, chain_save_fresh (text ▸ wf.fresh random), created.rooted]
    split
    · rename_i here
      subst here
      rw [wf.unrooted text, created.first]
      exact Version.headed_first _
    · rw [append_nil]
      exact wf.headed rootId

section Published

variable {retired next : PlanTemplate}

section

variable (published : Published s s' templateId previous retired next) (wf : WellFormed s)

include published wf

theorem Published.retired_id :
    retired.id = templateId := published.same.1.trans (wf.named templateId previous published.found)

theorem Published.next_ne : next.id ≠ templateId := by
  obtain ⟨random, text⟩ := published.named
  exact fun same => (wf.numbered templateId previous published.found).1.ne_next random (same.symm.trans text)

theorem Published.fresh : (s.save retired).templates.get next.id = none := by
  obtain ⟨random, text⟩ := published.named
  have other : next.id ≠ retired.id := published.retired_id wf ▸ published.next_ne wf
  exact (InsertionMap.get_set_of_ne _ _ other).trans (text ▸ wf.fresh random)

theorem Published.chains (rootId : String) :
    s'.chain rootId = Version.amend (s.chain rootId) templateId previous.toVersion.retire ++
      if previous.rootId = rootId then [(next.id, previous.toVersion.successor)] else [] := by
  have id := published.retired_id wf
  rw [chain_of_templates published.templates, chain_save_fresh (published.fresh wf),
    chain_save _ wf (id ▸ published.found) published.same.2, id, published.leaves, published.rooted, published.follows]

theorem Published.chain :
    s'.chain previous.rootId = Version.publish (s.chain previous.rootId) templateId previous.toVersion next.id := by
  rw [published.chains wf, if_pos rfl]
  rfl

end

theorem WellFormed.absent (wf : WellFormed s) (found : s.templates.get templateId = some previous)
    (other : previous.rootId ≠ rootId) : templateId ∉ (s.chain rootId).map Prod.fst := by
  intro mem
  obtain ⟨e, member, same⟩ := mem_map.mp mem
  obtain ⟨template, kept, rfl⟩ := mem_map.mp member
  obtain ⟨held, rooted⟩ := mem_filter.mp kept
  obtain ⟨key, found'⟩ := InsertionMap.mem_values.mp held
  have here : key = templateId := (wf.named key template found').symm.trans same
  rw [here, found] at found'
  cases found'
  exact other (of_decide_eq_true rooted)

theorem Published.chain_other (published : Published s s' templateId previous retired next) (wf : WellFormed s)
    (other : previous.rootId ≠ rootId) : s'.chain rootId = s.chain rootId := by
  rw [published.chains wf, if_neg other, append_nil, Version.amend_absent (wf.absent published.found other)]

theorem WellFormed.unborn (wf : WellFormed s) {random : List Char} (named : id = idText ['t', 'p', 'l'] (s.sequence + 1) random) :
    id ∉ (s.chain rootId).map Prod.fst := by
  intro mem
  obtain ⟨e, member, same⟩ := mem_map.mp mem
  obtain ⟨template, kept, rfl⟩ := mem_map.mp member
  obtain ⟨key, found⟩ := InsertionMap.mem_values.mp (mem_filter.mp kept).1
  have here : key = id := (wf.named key template found).symm.trans same
  exact (wf.numbered key template found).1.ne_next random (here.trans named)

theorem Published.wellFormed (published : Published s s' templateId previous retired next) (wf : WellFormed s)
    (active : previous.active = true) : WellFormed s' := by
  obtain ⟨random, text⟩ := published.named
  have later : s.sequence ≤ s'.sequence := by rw [published.sequence]; exact Nat.le_succ _
  have own : Numbered s' next.id := ⟨s.sequence + 1, random, published.sequence.ge, text⟩
  obtain ⟨numbered, root⟩ := wf.numbered templateId previous published.found
  have id := published.retired_id wf
  have lookup {key : String} {t : PlanTemplate} (found : s'.templates.get key = some t) :
      (key = next.id ∧ next = t) ∨ (key = templateId ∧ retired = t) ∨ s.templates.get key = some t := by
    rw [published.templates] at found
    rcases InsertionMap.get_set_eq_some.mp found with newest | ⟨-, found⟩
    · exact .inl newest
    · rcases InsertionMap.get_set_eq_some.mp found with ⟨here, same⟩ | ⟨-, found⟩
      · exact .inr (.inl ⟨here.trans id, same⟩)
      · exact .inr (.inr found)
  refine ⟨?_, ?_, ?_⟩
  · intro key t found
    rcases lookup found with ⟨rfl, rfl⟩ | ⟨rfl, rfl⟩ | found
    · rfl
    · exact id
    · exact wf.named key t found
  · intro key t found
    rcases lookup found with ⟨rfl, rfl⟩ | ⟨rfl, rfl⟩ | found
    · exact ⟨own, published.rooted ▸ root.mono later⟩
    · exact ⟨numbered.mono later, published.same.2 ▸ root.mono later⟩
    · obtain ⟨first, second⟩ := wf.numbered key t found
      exact ⟨first.mono later, second.mono later⟩
  · intro rootId
    by_cases here : previous.rootId = rootId
    · subst here
      rw [published.chain wf]
      exact (wf.headed _).publish (wf.member published.found) active (wf.unborn text)
    · rw [published.chain_other wf here]
      exact wf.headed rootId

end Published

section Shared

variable {env : Env} {shared : Bool}

theorem WellFormed.withShared (wf : WellFormed s) (found : s.templates.get templateId = some template)
    (allowed : shared = true → template.active = true) :
    WellFormed (s.save { template with shared := shared, updatedAt := env.now }) := by
  have named := wf.named templateId template found
  subst named
  have lookup {key : String} {t : PlanTemplate}
      (found : (s.save { template with shared := shared, updatedAt := env.now }).templates.get key = some t) :
      (key = template.id ∧ { template with shared := shared, updatedAt := env.now } = t) ∨
        (key ≠ template.id ∧ s.templates.get key = some t) :=
    InsertionMap.get_set_eq_some.mp found
  refine ⟨?_, ?_, ?_⟩
  · intro key t found'
    rcases lookup found' with ⟨rfl, rfl⟩ | ⟨-, found'⟩
    · rfl
    · exact wf.named key t found'
  · intro key t found'
    rcases lookup found' with ⟨rfl, rfl⟩ | ⟨-, found'⟩
    · exact wf.numbered _ template found
    · exact wf.numbered key t found'
  · intro rootId
    have chain := chain_save { template with shared := shared, updatedAt := env.now } wf found rfl rootId
    rw [chain]
    by_cases here : template.rootId = rootId
    · subst here
      exact (wf.headed _).share (wf.member found) allowed
    · have absent := wf.absent found here
      rw [Version.amend_absent absent]
      exact wf.headed rootId

end Shared

theorem WellFormed.step (wf : WellFormed s) {call : Env × Call} (fine : careful s call) (stepped : step s call = some s') :
    WellFormed s' := by
  obtain ⟨env, call⟩ := call
  cases call with
  | createTemplate ownerId draft =>
    obtain ⟨⟨_, template⟩, run, rfl⟩ := Option.map_eq_some_iff.mp stepped
    exact (createTemplate_ok ((toOption_eq_some _ _).mp run)).wellFormed wf
  | publishVersion ownerId templateId draft =>
    obtain ⟨⟨_, next⟩, run, rfl⟩ := Option.map_eq_some_iff.mp stepped
    obtain ⟨previous, retired, published⟩ := publishVersion_ok ((toOption_eq_some _ _).mp run)
    exact published.wellFormed wf (fine previous published.found)
  | setShared ownerId templateId shared =>
    obtain ⟨⟨_, updated⟩, run, rfl⟩ := Option.map_eq_some_iff.mp stepped
    obtain ⟨template, found, allowed, rfl, rfl⟩ := setShared_ok ((toOption_eq_some _ _).mp run)
    exact wf.withShared found allowed

theorem careful_of_live (wf : WellFormed s) {call : Env × Call} (stepped : Service.step s call = some s') (live : Live s') :
    careful s call := by
  obtain ⟨env, call⟩ := call
  cases call with
  | createTemplate ownerId draft => trivial
  | publishVersion ownerId templateId draft =>
    obtain ⟨⟨_, next⟩, run, rfl⟩ := Option.map_eq_some_iff.mp stepped
    obtain ⟨previous, retired, published⟩ := publishVersion_ok ((toOption_eq_some _ _).mp run)
    have chain := live.chains previous.rootId
    rw [published.chain wf] at chain
    have active := Version.active_of_publish_numbered (wf.headed _) (wf.member published.found) chain.numbered
    intro t found
    rw [published.found] at found
    cases found
    exact active
  | setShared ownerId templateId shared => trivial

theorem wellFormed_of_run (run : Runs step careful .new s) : WellFormed s :=
  run.keeps WellFormed wellFormed_new fun _ _ _ wf fine stepped => wf.step fine stepped

end SubTrackr.PlanTemplates.Service

namespace SubTrackr.PlanTemplates

open Lib

/-- In the contract and in the service, each call that is made keeps one live version to a chain if it is aimed at it, and only
    then. -/
theorem live_of_careful {s : OnChain.State} {r : Service.PlanTemplateService}
    (run : Runs OnChain.step OnChain.careful .empty s) (run' : Runs Service.step Service.careful .new r) :
    (OnChain.Live s ∧ ∀ call s', OnChain.step s call = some s' → (OnChain.Live s' ↔ OnChain.careful s call)) ∧
    (Service.Live r ∧ ∀ call r', Service.step r call = some r' → (Service.Live r' ↔ Service.careful r call)) := by
  have wf := OnChain.wellFormed_of_run run
  have wf' := Service.wellFormed_of_run run'
  refine ⟨⟨wf.live, ?_⟩, wf'.live, ?_⟩
  · intro call s' stepped
    constructor
    · exact OnChain.careful_of_live wf stepped
    · exact fun fine => (wf.step fine stepped).live
  · intro call r' stepped
    constructor
    · exact Service.careful_of_live wf' stepped
    · exact fun fine => (wf'.step fine stepped).live

def exampleDraft : OnChain.Draft := ⟨"Pro", "", 10, [], []⟩

def exampleTemplateDraft : Service.PlanTemplateDraft :=
  ⟨"Pro", "", .software, .monthly, "USD", 10, .flat, [], [], []⟩

theorem live_of_careful_published : ∃ s r, OnChain.Live s ∧ (s.chain 1).length = 2 ∧
    Service.Live r ∧ (r.chain "tpl_1_").length = 2 := by
  obtain ⟨s, run, two⟩ : ∃ s, Runs OnChain.step OnChain.careful .empty s ∧ (s.chain 1).length = 2 :=
    Runs.exists_of_foldlM [(0, .createTemplate ⟨1⟩ exampleDraft ⟨2⟩ .monthly), (1, .publishVersion ⟨1⟩ 1 exampleDraft)]
      (by decide +kernel)
  obtain ⟨r, run', two'⟩ : ∃ r, Runs Service.step Service.careful .new r ∧ (r.chain "tpl_1_").length = 2 :=
    Runs.exists_of_foldlM [(⟨0, []⟩, .createTemplate "m" exampleTemplateDraft),
      (⟨1, []⟩, .publishVersion "m" "tpl_1_" exampleTemplateDraft)] (by decide +kernel)
  obtain ⟨⟨live, -⟩, live', -⟩ := live_of_careful run run'
  exact ⟨s, r, live, two, live', two'⟩

/-- A second publication from the first version leaves two live versions of one number. In the contract a superseded version
    can be shared too. -/
theorem not_live : (∃ s, Runs OnChain.step anyAction .empty s ∧ ¬ OnChain.Live s ∧ s.chain 1 =
      [(1, ⟨1, false, true⟩), (2, ⟨2, true, false⟩), (3, ⟨2, true, false⟩)]) ∧
    ∃ r, Runs Service.step anyAction .new r ∧ ¬ Service.Live r ∧ r.chain "tpl_1_" =
      [("tpl_1_", ⟨1, false, false⟩), ("tpl_2_", ⟨2, true, false⟩), ("tpl_3_", ⟨2, true, false⟩)] := by
  constructor
  · obtain ⟨s, run, chain⟩ : ∃ s, Runs OnChain.step anyAction .empty s ∧ s.chain 1 =
        [(1, ⟨1, false, true⟩), (2, ⟨2, true, false⟩), (3, ⟨2, true, false⟩)] :=
      Runs.exists_of_foldlM [(0, .createTemplate ⟨1⟩ exampleDraft ⟨2⟩ .monthly), (1, .publishVersion ⟨1⟩ 1 exampleDraft),
        (2, .publishVersion ⟨1⟩ 1 exampleDraft), (3, .setShared ⟨1⟩ 1 true)] (by decide +kernel)
    refine ⟨s, run, ?_, chain⟩
    intro live
    have numbered := (live.chains 1).numbered
    rw [chain] at numbered
    exact absurd numbered (by decide)
  · obtain ⟨r, run, chain⟩ : ∃ r, Runs Service.step anyAction .new r ∧ r.chain "tpl_1_" =
        [("tpl_1_", ⟨1, false, false⟩), ("tpl_2_", ⟨2, true, false⟩), ("tpl_3_", ⟨2, true, false⟩)] :=
      Runs.exists_of_foldlM [(⟨0, []⟩, .createTemplate "m" exampleTemplateDraft),
        (⟨1, []⟩, .publishVersion "m" "tpl_1_" exampleTemplateDraft),
        (⟨2, []⟩, .publishVersion "m" "tpl_1_" exampleTemplateDraft)] (by decide +kernel)
    refine ⟨r, run, ?_, chain⟩
    intro live
    have numbered := (live.chains "tpl_1_").numbered
    rw [chain] at numbered
    exact absurd numbered (by decide)

end SubTrackr.PlanTemplates
