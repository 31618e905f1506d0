import SubTrackr.ImportExport.Records
import SubTrackr.PaymentMethods.PaymentMethodRegistry

namespace SubTrackr.PlanTemplates.Service

open Lib PaymentMethods ImportExport

def MAX_TIERS : ℕ := 12

def MAX_FEATURES : ℕ := 32

structure PricingTier where
  upToUnits : Option ℚ
  unitPrice : ℚ

inductive TemplatePricingModel where
  | flat | tiered
  deriving DecidableEq

structure TemplateFeature where
  (key label : String)
  includedUnits : Option ℚ
  highlight : Option Bool

structure PlanTemplateDraft where
  (name description : String)
  category : SubscriptionCategory
  billingCycle : BillingCycle
  currency : String
  basePrice : ℚ
  pricingModel : TemplatePricingModel
  tiers : List PricingTier
  features : List TemplateFeature
  tags : List String

structure PlanTemplate extends PlanTemplateDraft where
  (id rootId : String)
  version : ℕ
  ownerId : String
  (shared active : Bool)
  (createdAt updatedAt : ℤ)

structure TemplateAnalytics where
  templateId : String
  views : ℚ
  plansCreated : ℚ
  (subscriptionsStarted revenue adoptionRate conversionRate averageRevenuePerSubscription : ℚ)
  lastUsedAt : Option ℤ

def emptyTemplateAnalytics (templateId : String) : TemplateAnalytics := ⟨templateId, 0, 0, 0, 0, 0, 0, 0, none⟩

def tierErrors (length : ℕ) (previous : ℚ) (index : ℕ) : List PricingTier → List String
  | [] => []
  | tier :: rest =>
    (if tier.unitPrice < 0 then [s!"Tier {index + 1} has a negative unit price."] else []) ++
      match tier.upToUnits with
      | none =>
        (if index + 1 ≠ length then ["Only the last tier may be unbounded."] else []) ++
          tierErrors length previous (index + 1) rest
      | some bound =>
        (if bound ≤ previous then [s!"Tier {index + 1} must exceed the previous tier's upper bound."] else []) ++
          tierErrors length bound (index + 1) rest

def validateTiers (tiers : List PricingTier) : List String :=
  if tiers.length = 0 then ["A tiered template needs at least one pricing tier."]
  else
    (if tiers.length > MAX_TIERS then [s!"A template supports at most {MAX_TIERS} pricing tiers."] else []) ++
      tierErrors tiers.length 0 0 tiers

def featureErrors (seen : List String) : List TemplateFeature → List String
  | [] => []
  | feature :: rest =>
    (if feature.key ∈ seen then ["Duplicate feature key \"" ++ feature.key ++ "\"."] else []) ++
      featureErrors (feature.key :: seen) rest

structure TemplateValidationResult where
  valid : Bool
  (errors warnings : List String)

def draftErrors (draft : PlanTemplateDraft) : List String :=
  (if hasText draft.name then [] else ["Template name is required."]) ++
    (if draft.basePrice ≤ 0 then ["Base price must be positive."] else []) ++
    (if hasText draft.currency then [] else ["Currency is required."]) ++
    (if draft.features.length > MAX_FEATURES then [s!"A template supports at most {MAX_FEATURES} features."] else []) ++
    featureErrors [] draft.features ++
    (if draft.pricingModel = .tiered then validateTiers draft.tiers else [])

def draftWarnings (draft : PlanTemplateDraft) : List String :=
  (if draft.pricingModel ≠ .tiered ∧ draft.tiers.length > 0 then ["Pricing tiers are ignored by a flat-priced template."]
    else []) ++
    (if hasText draft.description then [] else ["A description helps merchants pick the right template."]) ++
    (if draft.features.length = 0 then ["Templates without features are hard to compare."] else [])

def validateTemplateDraft (draft : PlanTemplateDraft) : TemplateValidationResult :=
  ⟨draftErrors draft = [], draftErrors draft, draftWarnings draft⟩

structure PlanTemplateService where
  templates : InsertionMap String PlanTemplate
  analytics : InsertionMap String TemplateAnalytics
  sequence : ℕ

structure Env where
  now : ℤ
  random : List Char

namespace PlanTemplateService

variable (s : PlanTemplateService)

def new : PlanTemplateService := ⟨∅, ∅, 0⟩

def save (template : PlanTemplate) : PlanTemplateService := { s with templates := s.templates.set template.id template }

def saveAnalytics (analytics : TemplateAnalytics) : PlanTemplateService :=
  { s with analytics := s.analytics.set analytics.templateId analytics }

def nextId (random : List Char) : PlanTemplateService × String :=
  ({ s with sequence := s.sequence + 1 }, idText ['t', 'p', 'l'] (s.sequence + 1) random)

def invalidPlan {α : Type} (message : String) (context : List (String × String)) : Except BillingError α :=
  .error ⟨.INVALID_PLAN, message, context⟩

def requireTemplate (templateId : String) : Except BillingError PlanTemplate :=
  match s.templates.get templateId with
  | none => invalidPlan s!"Plan template {templateId} not found." [("templateId", templateId)]
  | some template => .ok template

def requireOwner (template : PlanTemplate) (callerId action : String) : Except BillingError Unit :=
  if template.ownerId ≠ callerId then
    invalidPlan ("Only the owner of template " ++ template.id ++ " may " ++ action ++ " it.")
      [("templateId", template.id), ("callerId", callerId)]
  else .ok ()

def requireValid (draft : PlanTemplateDraft) (context : List (String × String)) : Except BillingError Unit :=
  let validation := validateTemplateDraft draft
  if !validation.valid then
    invalidPlan ("Invalid plan template: " ++ String.intercalate "; " validation.errors) context
  else .ok ()

def createTemplate (env : Env) (ownerId : String) (draft : PlanTemplateDraft) :
    Except BillingError (PlanTemplateService × PlanTemplate) := do
  requireValid draft [("ownerId", ownerId)]
  let (s, id) := s.nextId env.random
  let template : PlanTemplate :=
    { toPlanTemplateDraft := draft
      id := id
      rootId := id
      version := 1
      ownerId := ownerId
      shared := false
      active := true
      createdAt := env.now
      updatedAt := env.now }
  return ((s.save template).saveAnalytics (emptyTemplateAnalytics id), template)

def publishVersion (env : Env) (ownerId templateId : String) (draft : PlanTemplateDraft) :
    Except BillingError (PlanTemplateService × PlanTemplate) := do
  let previous ← s.requireTemplate templateId
  requireOwner previous ownerId "publish a new version of"
  requireValid draft [("templateId", templateId)]
  let (s, id) := s.nextId env.random
  let next : PlanTemplate :=
    { toPlanTemplateDraft := draft
      id := id
      rootId := previous.rootId
      version := previous.version + 1
      ownerId := previous.ownerId
      shared := previous.shared
      active := true
      createdAt := env.now
      updatedAt := env.now }
  let s := s.save { previous with active := false, shared := false, updatedAt := env.now }
  return ((s.save next).saveAnalytics (emptyTemplateAnalytics id), next)

def listVersions (rootId : String) : List PlanTemplate :=
  (s.templates.values.filter fun template => template.rootId = rootId).insertionSort fun a b => a.version ≤ b.version

def getLatestVersion (rootId : String) : Option PlanTemplate := (s.listVersions rootId).getLast?

def setShared (env : Env) (ownerId templateId : String) (shared : Bool) :
    Except BillingError (PlanTemplateService × PlanTemplate) := do
  let template ← s.requireTemplate templateId
  requireOwner template ownerId "share"
  if !template.active && shared then
    invalidPlan s!"Template {templateId} is superseded and cannot be shared." [("templateId", templateId)]
  else
    let updated := { template with shared := shared, updatedAt := env.now }
    return (s.save updated, updated)

end PlanTemplateService

inductive Call where
  | createTemplate (ownerId : String) (draft : PlanTemplateDraft)
  | publishVersion (ownerId templateId : String) (draft : PlanTemplateDraft)
  | setShared (ownerId templateId : String) (shared : Bool)

def step (s : PlanTemplateService) (call : Env × Call) : Option PlanTemplateService :=
  match call.2 with
  | .createTemplate ownerId draft => (s.createTemplate call.1 ownerId draft).toOption.map Prod.fst
  | .publishVersion ownerId templateId draft => (s.publishVersion call.1 ownerId templateId draft).toOption.map Prod.fst
  | .setShared ownerId templateId shared => (s.setShared call.1 ownerId templateId shared).toOption.map Prod.fst

end SubTrackr.PlanTemplates.Service
