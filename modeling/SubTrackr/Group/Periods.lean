import SubTrackr.Group.Allocation
import SubTrackr.Lib.Store

namespace SubTrackr.Group

open List Lib

inductive InvoiceStatus
  | draft
  | issued
  | paid
  | overdue
  deriving DecidableEq

structure GroupInvoice where
  (id groupId : String)
  (periodStart periodEnd : ℤ)
  lineItems : List GroupBillingLineItem
  (totalAmount taxAmount discountAmount finalAmount : ℚ)
  currency : String
  status : InvoiceStatus
  (issuedAt paidAt : Option ℤ)
  createdAt : ℤ

/-- Of a plan customization, only the owner's discount is read. -/
structure GroupBillingService where
  invoices : Store String (List GroupInvoice)
  ownerDiscounts : Store String ℚ

def DAY_MS : ℤ := 24 * 60 * 60 * 1000

def recentCharges (group : SubscriptionGroup) (periodDays now : ℤ) : List GroupChargeResult :=
  group.charges.filter fun c => now - periodDays * DAY_MS ≤ c.chargedAt

abbrev MemberCharges := List (String × ℚ)

def amountOf (charges : MemberCharges) (address : String) : ℚ :=
  ((charges.find? fun e => e.1 = address).map Prod.snd).getD 0

def setAmount (address : String) (amount : ℚ) : MemberCharges → MemberCharges
  | [] => [(address, amount)]
  | e :: rest => if e.1 = address then (address, amount) :: rest else e :: setAmount address amount rest

def memberCharges (members : List GroupMember) (recent : List GroupChargeResult) : MemberCharges :=
  (recent.flatMap GroupChargeResult.breakdown).foldl
    (fun charges item => setAmount item.memberAddress (amountOf charges item.memberAddress + item.amount) charges)
    (members.foldl (fun charges member => setAmount member.address 0 charges) [])

def aggregateCharges (group : SubscriptionGroup) (periodDays now : ℤ) : List GroupBillingLineItem :=
  (memberCharges group.members (recentCharges group periodDays now)).map fun e =>
    ⟨e.1, e.2, "Aggregated charges over last " ++ toString periodDays ++ " days"⟩

def periodDays (periodStart periodEnd : ℤ) : ℤ := ⌈((periodEnd - periodStart : ℤ) : ℚ) / DAY_MS⌉

namespace GroupBillingService

def invoicesOf (service : GroupBillingService) (groupId : String) : List GroupInvoice := (service.invoices groupId).getD []

def generateInvoice (service : GroupBillingService) (group : SubscriptionGroup) (periodStart periodEnd : ℤ) (currency : String)
    (id : String) (now : ℤ) : GroupBillingService × GroupInvoice :=
  let aggregated := aggregateCharges group (periodDays periodStart periodEnd) now
  let totalAmount := (aggregated.map GroupBillingLineItem.amount).sum
  let discountAmount := ((service.ownerDiscounts group.groupId).map fun discount => totalAmount * discount / 100).getD 0
  let taxAmount := 0
  let invoice : GroupInvoice :=
    { id
      groupId := group.groupId
      periodStart
      periodEnd
      lineItems := aggregated
      totalAmount
      taxAmount
      discountAmount
      finalAmount := totalAmount - discountAmount + taxAmount
      currency
      status := .draft
      issuedAt := none
      paidAt := none
      createdAt := now }
  ({ service with invoices := put service.invoices group.groupId (service.invoicesOf group.groupId ++ [invoice]) }, invoice)

def updateInvoice (service : GroupBillingService) (invoiceId groupId : String) (change : GroupInvoice → GroupInvoice) :
    GroupBillingService × Option GroupInvoice :=
  match (service.invoicesOf groupId).findIdx? fun inv => inv.id = invoiceId with
  | none => (service, none)
  | some idx =>
    ({ service with invoices := put service.invoices groupId ((service.invoicesOf groupId).modify idx change) },
      (service.invoicesOf groupId)[idx]?.map change)

def issueInvoice (service : GroupBillingService) (invoiceId groupId : String) (now : ℤ) :
    GroupBillingService × Option GroupInvoice :=
  service.updateInvoice invoiceId groupId fun inv => { inv with status := .issued, issuedAt := some now }

def markInvoicePaid (service : GroupBillingService) (invoiceId groupId : String) (now : ℤ) :
    GroupBillingService × Option GroupInvoice :=
  service.updateInvoice invoiceId groupId fun inv => { inv with status := .paid, paidAt := some now }

end GroupBillingService

structure Invoicing where
  (periodStart periodEnd now : ℤ)

namespace Invoicing

variable (a : Invoicing)

def covers (time : ℤ) : Bool := a.periodStart ≤ time && time < a.periodEnd

def days : ℤ := Group.periodDays a.periodStart a.periodEnd

def delay : ℤ := a.now - a.periodEnd

def slack : ℤ := a.days * DAY_MS - (a.periodEnd - a.periodStart)

def reads (time : ℤ) : Bool := a.periodStart + a.delay - a.slack ≤ time && time ≤ a.periodEnd + a.delay

end Invoicing

structure Consecutive (chain : List Invoicing) : Prop where
  follows : chain.IsChain fun a b => a.periodEnd = b.periodStart
  ordered : ∀ a ∈ chain, a.periodStart ≤ a.periodEnd
  late : ∀ a ∈ chain, a.periodEnd ≤ a.now

def SubscriptionGroup.at (group : SubscriptionGroup) (now : ℤ) : SubscriptionGroup :=
  { group with charges := group.charges.filter fun c => c.chargedAt ≤ now }

def inChain (chain : List Invoicing) (time : ℤ) : Bool := chain.any fun a => a.covers time

def Partitions (group : SubscriptionGroup) (chain : List Invoicing) : Prop :=
  ∀ a ∈ chain, ((recentCharges (group.at a.now) a.days a.now).filter fun c => inChain chain c.chargedAt) =
    group.charges.filter fun c => a.covers c.chargedAt

/-- No charge of the chain is dated in a window but not in its period, or in a period but not in its window. -/
def Aligned (group : SubscriptionGroup) (chain : List Invoicing) : Prop :=
  ∀ a ∈ chain, ∀ c ∈ group.charges, inChain chain c.chargedAt = true →
    (a.periodStart ≤ c.chargedAt → c.chargedAt < a.periodEnd → a.reads c.chargedAt = true) ∧
    (c.chargedAt < a.periodStart → a.reads c.chargedAt = false) ∧
    (a.periodEnd ≤ c.chargedAt → a.reads c.chargedAt = false)

theorem partitions_iff {group : SubscriptionGroup} {chain : List Invoicing} (consecutive : Consecutive chain) :
    Partitions group chain ↔ Aligned group chain := by
  apply forall_congr'
  intro a
  apply forall_congr'
  intro member
  have ordered := consecutive.ordered a member
  have late := consecutive.late a member
  have window : ((recentCharges (group.at a.now) a.days a.now).filter fun c => inChain chain c.chargedAt) =
      group.charges.filter fun c => inChain chain c.chargedAt && a.reads c.chargedAt := by
    unfold recentCharges SubscriptionGroup.at Invoicing.reads Invoicing.delay Invoicing.slack
    rw [filter_filter, filter_filter]
    apply filter_congr
    intro c _
    rw [Bool.and_assoc]
    congr 1
    rw [Bool.eq_iff_iff]
    simp only [Bool.and_eq_true, decide_eq_true_eq]
    omega
  have inside {time : ℤ} : a.covers time = true ↔ a.periodStart ≤ time ∧ time < a.periodEnd := by
    simp [Invoicing.covers]
  rw [window]
  constructor
  · intro same c mem dated
    have counted : c ∈ group.charges.filter (fun c => inChain chain c.chargedAt && a.reads c.chargedAt) ↔
        c ∈ group.charges.filter fun c => a.covers c.chargedAt := by rw [same]
    simp only [mem_filter, mem, dated, Bool.true_and, true_and, inside] at counted
    rw [← Bool.not_eq_true, counted]
    omega
  · intro aligned
    apply filter_congr
    intro c mem
    rw [Bool.eq_iff_iff, Bool.and_eq_true, inside]
    constructor
    · intro both
      obtain ⟨dated, counted⟩ := both
      obtain ⟨-, early, after⟩ := aligned c mem dated
      rw [counted] at early after
      simp only [Bool.true_eq_false, imp_false] at early after
      omega
    · intro covered
      have dated : inChain chain c.chargedAt = true := any_eq_true.mpr ⟨a, member, inside.mpr covered⟩
      exact ⟨dated, (aligned c mem dated).1 covered.1 covered.2⟩

inductive Operation
  | generateInvoice (group : SubscriptionGroup) (periodStart periodEnd : ℤ) (currency id : String) (now : ℤ)
  | issueInvoice (invoiceId groupId : String) (now : ℤ)
  | markInvoicePaid (invoiceId groupId : String) (now : ℤ)

def perform (service : GroupBillingService) : Operation → GroupBillingService
  | .generateInvoice group periodStart periodEnd currency id now =>
    (service.generateInvoice group periodStart periodEnd currency id now).1
  | .issueInvoice invoiceId groupId now => (service.issueInvoice invoiceId groupId now).1
  | .markInvoicePaid invoiceId groupId now => (service.markInvoicePaid invoiceId groupId now).1

def run (service : GroupBillingService) (operations : List Operation) : GroupBillingService := operations.foldl perform service

def PaidAt (service : GroupBillingService) (groupId : String) (i : ℕ) : Prop :=
  ∃ inv, (service.invoicesOf groupId)[i]? = some inv ∧ inv.status = .paid

def PaidStays (service : GroupBillingService) (operations : List Operation) : Prop :=
  ∀ earlier later, earlier ++ later <+: operations → ∀ groupId i,
    PaidAt (run service earlier) groupId i → PaidAt (run service (earlier ++ later)) groupId i

def named (service : GroupBillingService) (invoiceId groupId : String) : Option GroupInvoice :=
  (service.invoicesOf groupId).find? fun inv => inv.id = invoiceId

def Operation.Reissues (service : GroupBillingService) : Operation → Prop
  | .issueInvoice invoiceId groupId _ => ∃ inv, named service invoiceId groupId = some inv ∧ inv.status = .paid
  | _ => False

def NoReissue (service : GroupBillingService) : List Operation → Prop
  | [] => True
  | op :: rest => ¬op.Reissues service ∧ NoReissue (perform service op) rest

section Steps

variable {service : GroupBillingService} {groupId : String} {i : ℕ}

theorem updateInvoice_invoices (s : GroupBillingService) (invoiceId groupId other : String)
    (change : GroupInvoice → GroupInvoice) :
    (s.updateInvoice invoiceId groupId change).1.invoicesOf other =
      if other = groupId then
        (((s.invoicesOf groupId).findIdx? fun inv => inv.id = invoiceId).map
          fun idx => (s.invoicesOf other).modify idx change).getD (s.invoicesOf other)
      else s.invoicesOf other := by
  unfold GroupBillingService.updateInvoice
  cases found : (s.invoicesOf groupId).findIdx? fun inv => inv.id = invoiceId with
  | none => simp
  | some idx =>
    dsimp only [Option.map_some, Option.getD_some]
    by_cases same : other = groupId
    · rw [if_pos same, same]
      unfold GroupBillingService.invoicesOf
      dsimp only
      rw [put_self, Option.getD_some]
    · rw [if_neg same]
      unfold GroupBillingService.invoicesOf
      dsimp only
      rw [put_of_ne _ _ same]

theorem updateInvoice_at (s : GroupBillingService) (invoiceId groupId other : String) (change : GroupInvoice → GroupInvoice)
    {inv : GroupInvoice} (mem : (s.invoicesOf other)[i]? = some inv) :
    ((s.updateInvoice invoiceId groupId change).1.invoicesOf other)[i]? = some inv ∨
      (named s invoiceId groupId = some inv ∧
        ((s.updateInvoice invoiceId groupId change).1.invoicesOf other)[i]? = some (change inv)) := by
  rw [updateInvoice_invoices]
  cases found : (s.invoicesOf groupId).findIdx? fun inv => inv.id = invoiceId with
  | none =>
    rw [Option.map_none, Option.getD_none, ite_self]
    exact .inl mem
  | some idx =>
    rw [Option.map_some, Option.getD_some]
    by_cases same : other = groupId
    · subst same
      rw [if_pos rfl, getElem?_modify, mem]
      by_cases here : idx = i
      · subst here
        right
        obtain ⟨bound, matching, first⟩ := List.findIdx?_eq_some_iff_getElem.mp found
        obtain ⟨_, rfl⟩ := List.getElem?_eq_some_iff.mp mem
        refine ⟨?_, by simp⟩
        unfold named
        rw [List.find?_eq_some_iff_getElem]
        exact ⟨matching, idx, bound, rfl, fun j before => by simpa using first j before⟩
      · left
        simp [here]
    · rw [if_neg same]
      exact .inl mem

theorem perform_paid {op : Operation} (fine : ¬op.Reissues s) (paid : PaidAt s groupId i) :
    PaidAt (perform s op) groupId i := by
  obtain ⟨inv, mem, status⟩ := paid
  cases op with
  | generateInvoice group periodStart periodEnd currency id now =>
    refine ⟨inv, ?_, status⟩
    unfold perform GroupBillingService.generateInvoice GroupBillingService.invoicesOf
    dsimp only
    rw [put_apply]
    split
    · rename_i same
      subst same
      exact (List.getElem?_append_left (List.getElem?_eq_some_iff.mp mem).1).trans mem
    · exact mem
  | issueInvoice invoiceId group now =>
    rcases updateInvoice_at s invoiceId group groupId _ mem with kept | ⟨target, -⟩
    · exact ⟨inv, kept, status⟩
    · exact absurd ⟨inv, target, status⟩ fine
  | markInvoicePaid invoiceId group now =>
    rcases updateInvoice_at s invoiceId group groupId _ mem with kept | ⟨-, changed⟩
    · exact ⟨inv, kept, status⟩
    · exact ⟨_, changed, rfl⟩

theorem reissued {op : Operation} (reissues : op.Reissues s) :
    ∃ groupId i, PaidAt s groupId i ∧ ¬PaidAt (perform s op) groupId i := by
  cases op with
  | generateInvoice | markInvoicePaid => exact reissues.elim
  | issueInvoice invoiceId groupId now =>
    obtain ⟨inv, target, status⟩ := reissues
    unfold named at target
    obtain ⟨matching, idx, bound, at_idx, first⟩ := List.find?_eq_some_iff_getElem.mp target
    have found : (s.invoicesOf groupId).findIdx? (fun inv => inv.id = invoiceId) = some idx := by
      apply List.findIdx?_eq_some_iff_getElem.mpr
      refine ⟨bound, ?_, fun j before => ?_⟩
      · rw [at_idx]
        exact matching
      · simpa using first j before
    have mem : (s.invoicesOf groupId)[idx]? = some inv := by
      rw [getElem?_eq_getElem bound, at_idx]
    refine ⟨groupId, idx, ⟨inv, mem, status⟩, ?_⟩
    intro paid
    obtain ⟨inv', after, status'⟩ := paid
    unfold perform GroupBillingService.issueInvoice at after
    rw [updateInvoice_invoices, found, Option.map_some, Option.getD_some, if_pos rfl, getElem?_modify_eq, mem] at after
    cases after
    cases status'

theorem paidStays_iff (s : GroupBillingService) (operations : List Operation) :
    PaidStays s operations ↔ NoReissue s operations := by
  induction operations generalizing s with
  | nil =>
    constructor
    · intro _
      exact trivial
    · intro _ earlier later initial
      obtain ⟨rfl, rfl⟩ := append_eq_nil_iff.mp (prefix_nil.mp initial)
      exact fun _ _ paid => paid
  | cons op rest ih =>
    constructor
    · intro stays
      constructor
      · intro reissues
        obtain ⟨groupId, i, paid, unpaid⟩ := reissued reissues
        exact unpaid (stays [] [op] (prefix_append [op] rest) groupId i paid)
      · apply (ih (perform s op)).mp
        intro earlier later initial
        exact stays (op :: earlier) later ((prefix_cons_inj op).mpr initial)
    · intro fine earlier later initial groupId i paid
      have rest_stays := (ih (perform s op)).mpr fine.2
      cases earlier with
      | cons first earlier =>
        obtain ⟨rfl, tail⟩ := cons_prefix_cons.mp initial
        exact rest_stays earlier later tail groupId i paid
      | nil =>
        cases later with
        | nil => exact paid
        | cons first later =>
          rw [nil_append] at initial
          obtain ⟨rfl, tail⟩ := cons_prefix_cons.mp initial
          exact rest_stays [] later tail groupId i (perform_paid fine.1 paid)

end Steps

section Sample

def chargedAt (time : ℤ) : GroupChargeResult := ⟨[⟨"alice", 10, "Member share of consolidated subscription bill"⟩], time⟩

def household : SubscriptionGroup where
  groupId := "grp"
  owner := "owner"
  members := [⟨"owner", 0⟩, ⟨"alice", 0⟩]
  charges := [chargedAt (3 * DAY_MS), chargedAt (33 * DAY_MS)]

def days (periodStart periodEnd now : ℤ) : Invoicing := ⟨periodStart * DAY_MS, periodEnd * DAY_MS, now * DAY_MS⟩

def noInvoices : GroupBillingService := ⟨fun _ => none, fun _ => none⟩

theorem consecutive_two (first second : ℤ) (early : 30 ≤ first) (late : 60 ≤ second) :
    Consecutive [days 0 30 first, days 30 60 second] := by
  unfold days DAY_MS
  constructor
  · simp
  · simp
  · simp
    omega

instance (group : SubscriptionGroup) (chain : List Invoicing) : Decidable (Aligned group chain) := by
  unfold Aligned
  infer_instance

instance (group : SubscriptionGroup) (chain : List Invoicing) : Decidable (Partitions group chain) := by
  unfold Partitions
  infer_instance

end Sample

end SubTrackr.Group
