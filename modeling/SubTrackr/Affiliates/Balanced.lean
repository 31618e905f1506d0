import SubTrackr.Lib.Histories
import SubTrackr.Lib.Sums
import SubTrackr.Affiliates.AffiliateService
import Mathlib.Data.List.Zip

namespace SubTrackr.Affiliates

open List Lib

def Commission.outstanding (c : Commission) : ℤ := if c.status ≠ .paid ∧ c.isClawbacked = false then c.amount else 0

structure Balanced (s : State) : Prop where
  pending : ∀ (i : ℕ) (a : Affiliate), s.affiliates[i]? = some a → a.pendingPayout = fiber Commission.affiliateId Commission.outstanding s.commissions i
  earnings : ∀ (i : ℕ) (a : Affiliate), s.affiliates[i]? = some a → a.totalEarnings = (a.payoutHistory.map PayoutRecord.amount).sum
  clean : ∀ c ∈ s.commissions, c.isClawbacked = true → c.status ≠ .paid

def marked (s s' : State) : ℤ :=
  (((s.commissions.zip s'.commissions).filter fun p => p.1.status ≠ .paid ∧ p.2.status = .paid).map (·.1.amount)).sum

def State.balances (s : State) : List (ℤ × ℤ × List PayoutRecord) :=
  s.affiliates.map fun a => (a.pendingPayout, a.totalEarnings, a.payoutHistory)

def Lawful (s : State) : Action → Prop
  | .convertReferral call =>
    match s.convertReferral call with
    | .ok progress => progress.weights = [] ∨ progress.weights.sum = 1
    | .error (s', _) => s'.commissions = s.commissions ∧ s'.balances = s.balances
  | .requestPayout affiliateId =>
    match s.requestPayout affiliateId with
    | .ok (s', payout) => payout.amount = marked s s'
    | .error _ => True
  | _ => True

namespace State

variable (s : State) (call : Conversion)

def Active (attr : AttributionEvent) : Prop := ∃ a, s.affiliates[attr.affiliateId]? = some a ∧ a.status = .active

def Blocked (attr : AttributionEvent) : Prop :=
  ∃ a, s.affiliates[attr.affiliateId]? = some a ∧ a.status = .active ∧ a.blocks (s.fraudRiskInc call attr.affiliateId) = true

end State

/-- A conversion is taken for fraud at the first active affiliate or not at all, and its affiliates are all active or none is.
A clawback takes nothing from an affiliate that was paid before, and no more than what is pending. A payout is made to no
affiliate of whom an unpaid commission was clawed back. -/
def Careful (s : State) : Action → Prop
  | .convertReferral call =>
    (∀ earlier attr later, s.getAttributedAffiliates call = earlier ++ attr :: later → s.Blocked call attr →
      (∀ e ∈ earlier, ¬ s.Blocked call e) → ∀ e ∈ earlier, ¬ s.Active e) ∧
    ((∀ e ∈ s.getAttributedAffiliates call, ¬ s.Blocked call e) →
      (∀ e ∈ s.getAttributedAffiliates call, ¬ s.Active e) ∨ ∀ e ∈ s.getAttributedAffiliates call, s.Active e)
  | .processClawback subscriptionId => ∀ (i : ℕ) (a : Affiliate), s.affiliates[i]? = some a →
    let due := s.commissions.filter fun c => c.isDue subscriptionId ∧ c.affiliateId = i
    due ≠ [] → (∀ c ∈ due, c.amount = 0 ∨ 0 ≤ c.amount ∧ a.totalEarnings = 0) ∧ (due.map (·.amount)).sum ≤ a.pendingPayout
  | .requestPayout affiliateId => ∀ a, s.affiliates[affiliateId]? = some a → a.status = .active →
    a.paymentThreshold ≤ a.pendingPayout → ∀ c ∈ s.commissions, c.affiliateId = affiliateId → c.status = .pending →
    c.isClawbacked = false
  | _ => True

section Attribution

variable {s : State} {call : Conversion}

theorem nodup_eraseDups (xs : List ℕ) : xs.eraseDups.Nodup := by
  induction size : xs.length using Nat.strong_induction_on generalizing xs with
  | _ n ih =>
    cases xs with
    | nil => exact nodup_nil
    | cons x rest =>
      rw [eraseDups_cons, nodup_cons]
      constructor
      · intro twice
        simpa using mem_eraseDups.mp twice
      · have shorter := length_filter_le (fun y => !y == x) rest
        exact ih _ (by rw [← size, length_cons]; omega) _ rfl

theorem attributed (s : State) (call : Conversion) : ((s.getAttributedAffiliates call).map (·.affiliateId)).Nodup ∧
      (s.getAttributedAffiliates call = [] ∨ ((s.getAttributedAffiliates call).map (·.touchWeight)).sum = 1) := by
  unfold State.getAttributedAffiliates
  cases call.model with
  | firstTouch =>
    dsimp only
    cases (s.validClicks call).head? with
    | none => simp
    | some click => simp
  | lastTouch =>
    dsimp only
    cases (s.validClicks call).getLast? with
    | none => simp
    | some click => simp
  | linear =>
    have nodup := nodup_eraseDups ((s.validClicks call).map (·.affiliateId))
    generalize ((s.validClicks call).map (·.affiliateId)).eraseDups = unique at nodup ⊢
    constructor
    · rw [map_map]
      exact (map_id unique).symm ▸ nodup
    · cases unique with
      | nil => exact .inl rfl
      | cons i rest =>
        right
        have pos : ((i :: rest).length : ℚ) ≠ 0 := Nat.cast_ne_zero.mpr (Nat.succ_ne_zero _)
        simp only [map_map, Function.comp_def, map_const', sum_replicate, nsmul_eq_mul]
        field_simp

end Attribution

section Invariant

variable {s s' : State} {i j : ℕ} {a : Affiliate} {c : Commission}

structure Inv (s : State) : Prop where
  pending : ∀ (i : ℕ) (a : Affiliate), s.affiliates[i]? = some a →
    a.pendingPayout = fiber Commission.affiliateId Commission.outstanding s.commissions i
  earnings : ∀ (i : ℕ) (a : Affiliate), s.affiliates[i]? = some a → a.totalEarnings = (a.payoutHistory.map PayoutRecord.amount).sum
  earned : ∀ (i : ℕ) (a : Affiliate), s.affiliates[i]? = some a → 0 ≤ a.totalEarnings ∧ 0 ≤ a.paymentThreshold
  clean : ∀ c ∈ s.commissions, c.status = .pending ∨ c.status = .paid ∧ c.isClawbacked = false
  known : ∀ c ∈ s.commissions, c.affiliateId < s.affiliates.length

theorem inv_initial (programs : String → Option AffiliateProgram) : Inv { programs := programs } where
  pending := by simp
  earnings := by simp
  earned := by simp
  clean := by simp
  known := by simp

theorem Inv.balanced (inv : Inv s) : Balanced s where
  pending := inv.pending
  earnings := inv.earnings
  clean c mem clawed paid := by
    rcases inv.clean c mem with pending | ⟨-, kept⟩
    · rw [pending] at paid
      cases paid
    · rw [kept] at clawed
      cases clawed

structure Affiliate.SameBooks (a a' : Affiliate) : Prop where
  pending : a'.pendingPayout = a.pendingPayout
  earnings : a'.totalEarnings = a.totalEarnings
  history : a'.payoutHistory = a.payoutHistory
  threshold : a'.paymentThreshold = a.paymentThreshold

theorem sameBooks_flood (a : Affiliate) : a.SameBooks a.flood := by
  unfold Affiliate.flood
  dsimp only
  split
  · exact ⟨rfl, rfl, rfl, rfl⟩
  · split
    · exact ⟨rfl, rfl, rfl, rfl⟩
    · exact ⟨rfl, rfl, rfl, rfl⟩

theorem sameBooks_suspend (a : Affiliate) (inc : ℤ) : a.SameBooks (a.suspend inc) := ⟨rfl, rfl, rfl, rfl⟩

theorem sameBooks_suspect (a : Affiliate) (inc : ℤ) : a.SameBooks (a.suspect inc) := by
  unfold Affiliate.suspect
  split
  · exact ⟨rfl, rfl, rfl, rfl⟩
  · exact ⟨rfl, rfl, rfl, rfl⟩

theorem getElem?_modify_eq_some {f : Affiliate → Affiliate} {affiliates : List Affiliate}
    (found : (affiliates.modify i f)[j]? = some a) : ∃ b, affiliates[j]? = some b ∧ a = if i = j then f b else b := by
  rw [getElem?_modify] at found
  obtain ⟨b, here, rfl⟩ := Option.map_eq_some_iff.mp found
  refine ⟨b, here, ?_⟩
  split
  · rfl
  · rfl

theorem Inv.quiet (inv : Inv s) (commissions : s'.commissions = s.commissions)
    (count : s.affiliates.length ≤ s'.affiliates.length)
    (books : ∀ (i : ℕ) (a' : Affiliate), s'.affiliates[i]? = some a' → (∃ a, s.affiliates[i]? = some a ∧ a.SameBooks a') ∨
      s.affiliates.length ≤ i ∧ a'.pendingPayout = 0 ∧ a'.totalEarnings = 0 ∧ a'.payoutHistory = [] ∧ 0 ≤ a'.paymentThreshold) :
    Inv s' where
  pending i a' found := by
    rw [commissions]
    rcases books i a' found with ⟨a, here, same⟩ | ⟨fresh, none, -⟩
    · rw [same.pending, inv.pending i a here]
    · rw [none, fiber_of_absent]
      intro c listed same
      have known := inv.known c listed
      omega
  earnings i a' found := by
    rcases books i a' found with ⟨a, here, same⟩ | ⟨-, -, none, empty, -⟩
    · rw [same.earnings, same.history, inv.earnings i a here]
    · rw [none, empty]
      rfl
  earned i a' found := by
    rcases books i a' found with ⟨a, here, same⟩ | ⟨-, -, none, -, threshold⟩
    · rw [same.earnings, same.threshold]
      exact inv.earned i a here
    · exact ⟨none.ge, threshold⟩
  clean c listed := inv.clean c (commissions ▸ listed)
  known c listed := (inv.known c (commissions ▸ listed)).trans_le count

theorem Inv.modify (inv : Inv s) {f : Affiliate → Affiliate} (same : ∀ a : Affiliate, a.SameBooks (f a))
    (affiliates : s'.affiliates = s.affiliates.modify i f) (commissions : s'.commissions = s.commissions) : Inv s' := by
  refine inv.quiet commissions (by rw [affiliates, length_modify]) fun j a' found => ?_
  rw [affiliates] at found
  obtain ⟨b, here, rfl⟩ := getElem?_modify_eq_some found
  refine .inl ⟨b, here, ?_⟩
  split
  · exact same b
  · exact ⟨rfl, rfl, rfl, rfl⟩

theorem Inv.registerAffiliate (inv : Inv s) (address program : String) (random : ℕ) :
    Inv (s.registerAffiliate address program random) := by
  refine inv.quiet rfl (by simp [State.registerAffiliate]) fun j a' found => ?_
  rw [State.registerAffiliate, getElem?_append] at found
  split at found
  · exact .inl ⟨a', found, rfl, rfl, rfl, rfl⟩
  · rename_i beyond
    obtain ⟨-, rfl⟩ := List.getElem?_eq_some_iff.mp found
    exact .inr ⟨not_lt.mp beyond, by simp, by simp, by simp, by simp⟩

theorem Inv.trackClick (inv : Inv s) (code ip userAgent : String) (now : ℤ) :
    Inv (s.step (.trackClick code ip userAgent now)) := by
  simp only [State.step, State.trackClick]
  split
  · rename_i tracked
    split at tracked
    · cases tracked
    · split at tracked
      · cases tracked
        exact inv
      · split at tracked
        · cases tracked
        · cases tracked
          refine inv.modify (fun _ => ?_) rfl rfl
          exact ⟨rfl, rfl, rfl, rfl⟩
  · rename_i refused
    split at refused
    · cases refused
      exact inv
    · split at refused
      · cases refused
      · split at refused
        · cases refused
          exact inv.modify sameBooks_flood rfl rfl
        · cases refused

end Invariant

section Clawbacks

variable {s : State} {i : ℕ} {a : Affiliate} {subscriptionId : String}

theorem foldl_clawback (due : List Commission) (fine : ∀ c ∈ due, c.amount = 0 ∨ 0 ≤ c.amount ∧ a.totalEarnings = 0)
    (earned : 0 ≤ a.totalEarnings) (enough : due ≠ [] → (due.map Commission.amount).sum ≤ a.pendingPayout) :
    due.foldl (fun a c => a.clawback c.amount) a = { a with pendingPayout := a.pendingPayout - (due.map Commission.amount).sum } := by
  induction due generalizing a with
  | nil => simp
  | cons c rest ih =>
    have later : ∀ c ∈ rest, 0 ≤ c.amount := by
      intro c mem
      rcases fine c (mem_cons_of_mem _ mem) with zero | ⟨nonneg, -⟩
      · exact zero.ge
      · exact nonneg
    have rest_nonneg : 0 ≤ (rest.map Commission.amount).sum := sum_nonneg (by simpa using later)
    have total := enough (cons_ne_nil _ _)
    rw [map_cons, sum_cons] at total
    have earnings : max 0 (a.totalEarnings - c.amount) = a.totalEarnings := by
      rcases fine c mem_cons_self with zero | ⟨nonneg, none⟩
      · omega
      · omega
    have pending : max 0 (a.pendingPayout - c.amount) = a.pendingPayout - c.amount := by omega
    have first : a.clawback c.amount = { a with pendingPayout := a.pendingPayout - c.amount } := by
      rw [Affiliate.clawback, pending, earnings]
    rw [foldl_cons, first, ih]
    · simp only [map_cons, sum_cons]
      congr 1
      omega
    · exact fun c mem => fine c (mem_cons_of_mem _ mem)
    · exact earned
    · intro _
      show _ ≤ a.pendingPayout - c.amount
      omega

theorem getElem?_foldl_clawback (due : List Commission) (affiliates : List Affiliate) (i : ℕ) :
    (due.foldl (fun affiliates c => affiliates.modify c.affiliateId (·.clawback c.amount)) affiliates)[i]? =
      (affiliates[i]?).map fun a => (due.filter fun c => c.affiliateId = i).foldl (fun a c => a.clawback c.amount) a := by
  induction due generalizing affiliates with
  | nil => simp
  | cons c rest ih =>
    rw [foldl_cons, ih, getElem?_modify, Option.map_eq_map, Option.map_map]
    by_cases mine : c.affiliateId = i
    · simp [mine, Function.comp_def]
    · simp [mine, Function.comp_def]

theorem fiber_clawback (cs : List Commission) (i : ℕ) : fiber Commission.affiliateId Commission.outstanding
      (cs.map fun c => if c.isDue subscriptionId then { c with isClawbacked := true, status := .pending } else c) i =
    fiber Commission.affiliateId Commission.outstanding cs i -
      ((cs.filter fun c => c.isDue subscriptionId ∧ c.affiliateId = i).map Commission.amount).sum := by
  induction cs with
  | nil => simp [fiber_nil]
  | cons c rest ih =>
    rw [map_cons, fiber_cons, fiber_cons, ih, filter_cons]
    by_cases due : c.isDue subscriptionId = true
    · have unpaid : c.outstanding = c.amount := by
        obtain ⟨_, unpaid, kept⟩ := of_decide_eq_true due
        exact if_pos ⟨unpaid, kept⟩
      have taken : ∀ k, Commission.outstanding ⟨k, c.subscriptionId, c.amount, .pending, true⟩ = 0 := fun _ => rfl
      by_cases mine : c.affiliateId = i
      · simp only [due, mine, if_true, unpaid, taken, true_and, decide_true, map_cons, sum_cons]
        omega
      · simp [due, mine]
    · by_cases mine : c.affiliateId = i
      · simp [due, mine]
        omega
      · simp [due, mine]

theorem Inv.processClawback (inv : Inv s) (careful : Careful s (.processClawback subscriptionId)) :
    Inv (s.processClawback subscriptionId).1 := by
  have books : ∀ (i : ℕ) (a' : Affiliate), (s.processClawback subscriptionId).1.affiliates[i]? = some a' →
      ∃ a, s.affiliates[i]? = some a ∧ a' = { a with pendingPayout := a.pendingPayout -
        ((s.commissions.filter fun c => c.isDue subscriptionId ∧ c.affiliateId = i).map Commission.amount).sum } := by
    intro i a' found
    simp only [State.processClawback, getElem?_foldl_clawback, filter_filter] at found
    obtain ⟨a, here, rfl⟩ := Option.map_eq_some_iff.mp found
    refine ⟨a, here, ?_⟩
    have same : (s.commissions.filter fun c => decide (c.affiliateId = i) && c.isDue subscriptionId) =
        s.commissions.filter fun c => c.isDue subscriptionId ∧ c.affiliateId = i := by
      refine filter_congr fun c _ => ?_
      simp [Bool.and_comm]
    have fine := careful i a here
    dsimp only at fine
    rw [same]
    refine foldl_clawback _ (fun c mem => ?_) (inv.earned i a here).1 fun some_due => (fine some_due).2
    exact (fine (ne_nil_of_mem mem)).1 c mem
  refine ⟨fun i a' found => ?_, fun i a' found => ?_, fun i a' found => ?_, fun c mem => ?_, fun c mem => ?_⟩
  · obtain ⟨a, here, rfl⟩ := books i a' found
    rw [State.processClawback, fiber_clawback, ← inv.pending i a here]
  · obtain ⟨a, here, rfl⟩ := books i a' found
    exact inv.earnings i a here
  · obtain ⟨a, here, rfl⟩ := books i a' found
    exact inv.earned i a here
  · obtain ⟨c, old, rfl⟩ := mem_map.mp mem
    split
    · exact .inl rfl
    · exact inv.clean c old
  · obtain ⟨c, old, rfl⟩ := mem_map.mp mem
    have count : (s.processClawback subscriptionId).1.affiliates.length = s.affiliates.length := by
      rw [State.processClawback]
      generalize s.commissions.filter _ = due
      induction due using List.reverseRecOn with
      | nil => rfl
      | append_singleton due c ih => rw [foldl_append, foldl_cons, foldl_nil, length_modify, ih]
    rw [count]
    split
    · exact inv.known c old
    · exact inv.known c old

end Clawbacks

section Payouts

variable {s s' : State} {i : ℕ} {a : Affiliate} {payout : PayoutRecord}

def payAll (i : ℕ) (c : Commission) : Commission :=
  if c.affiliateId = i ∧ c.status = .pending then { c with status := .paid } else c

theorem requestPayout_eq_ok (paid : s.requestPayout i = .ok (s', payout)) : ∃ a, s.affiliates[i]? = some a ∧
    a.status = .active ∧ a.paymentThreshold ≤ a.pendingPayout ∧ payout = ⟨a.pendingPayout⟩ ∧
    s' = { s with affiliates := s.affiliates.modify i Affiliate.pay, commissions := s.commissions.map (payAll i) } := by
  unfold State.requestPayout at paid
  split at paid
  · cases paid
  · rename_i a found
    split at paid
    · cases paid
    · rename_i active
      split at paid
      · cases paid
      · rename_i enough
        cases paid
        exact ⟨a, found, not_not.mp active, not_lt.mp enough, rfl, rfl⟩

theorem affiliateId_payAll (i : ℕ) (c : Commission) : (payAll i c).affiliateId = c.affiliateId := by
  unfold payAll
  split
  · rfl
  · rfl

theorem fiber_payAll (cs : List Commission) (clean : ∀ c ∈ cs, c.status = .pending ∨ c.status = .paid ∧ c.isClawbacked = false)
    (j : ℕ) : fiber Commission.affiliateId Commission.outstanding (cs.map (payAll i)) j =
      if i = j then 0 else fiber Commission.affiliateId Commission.outstanding cs j := by
  induction cs with
  | nil => simp [fiber_nil]
  | cons c rest ih =>
    rw [map_cons, fiber_cons, fiber_cons, ih fun c mem => clean c (mem_cons_of_mem _ mem), affiliateId_payAll]
    by_cases mine : c.affiliateId = i
    · have none : (payAll i c).outstanding = 0 := by
        unfold payAll
        split
        · rfl
        · rename_i kept
          rcases clean c mem_cons_self with pending | ⟨paid, -⟩
          · exact absurd ⟨mine, pending⟩ kept
          · simp [Commission.outstanding, paid]
      by_cases here : i = j
      · subst here
        simp [mine, none]
      · simp [mine, here]
    · have kept : payAll i c = c := if_neg fun both => mine both.1
      rw [kept]
      by_cases here : i = j
      · subst here
        simp [mine]
      · simp [here]

theorem marked_payAll (cs : List Commission) (fine : ∀ c ∈ cs, c.affiliateId = i → c.status = .pending → c.isClawbacked = false)
    (clean : ∀ c ∈ cs, c.status = .pending ∨ c.status = .paid ∧ c.isClawbacked = false) :
    (((cs.zip (cs.map (payAll i))).filter fun p => p.1.status ≠ .paid ∧ p.2.status = .paid).map (·.1.amount)).sum =
      fiber Commission.affiliateId Commission.outstanding cs i := by
  induction cs with
  | nil => rfl
  | cons c rest ih =>
    rw [map_cons, zip_cons_cons, fiber_cons, ← ih (fun c mem => fine c (mem_cons_of_mem _ mem))
      fun c mem => clean c (mem_cons_of_mem _ mem), filter_cons]
    rcases clean c mem_cons_self with pending | ⟨paid, -⟩
    · by_cases mine : c.affiliateId = i
      · have counted : c.outstanding = c.amount := if_pos ⟨by simp [pending], fine c mem_cons_self mine pending⟩
        simp [payAll, mine, pending, counted]
      · simp [payAll, mine, pending]
    · simp [payAll, paid, Commission.outstanding]

section

variable (inv : Inv s) (careful : Careful s (.requestPayout i)) (paid : s.requestPayout i = .ok (s', payout))

include inv careful paid

theorem Inv.requestPayout : Inv s' := by
  obtain ⟨a, found, active, enough, -, rfl⟩ := requestPayout_eq_ok paid
  have books : ∀ (j : ℕ) (a' : Affiliate), (s.affiliates.modify i Affiliate.pay)[j]? = some a' →
      ∃ b, s.affiliates[j]? = some b ∧ a' = if i = j then b.pay else b :=
    fun j a' there => getElem?_modify_eq_some there
  refine ⟨fun j a' there => ?_, fun j a' there => ?_, fun j a' there => ?_, fun c mem => ?_, fun c mem => ?_⟩
  · obtain ⟨b, here, rfl⟩ := books j a' there
    rw [fiber_payAll _ inv.clean, ← inv.pending j b here]
    split
    · rfl
    · rfl
  · obtain ⟨b, here, rfl⟩ := books j a' there
    split
    · simp [Affiliate.pay, inv.earnings j b here]
    · exact inv.earnings j b here
  · obtain ⟨b, here, rfl⟩ := books j a' there
    have earned := inv.earned j b here
    split
    · rename_i same
      subst same
      rw [found, Option.some.injEq] at here
      subst here
      have more : 0 ≤ a.totalEarnings + a.pendingPayout := by omega
      exact ⟨more, earned.2⟩
    · exact earned
  · obtain ⟨c, old, rfl⟩ := mem_map.mp mem
    rcases inv.clean c old with pending | paid
    · unfold payAll
      split
      · rename_i both
        exact .inr ⟨rfl, careful a found active enough c old both.1 both.2⟩
      · exact .inl pending
    · have kept : payAll i c = c := if_neg fun both => by simp [paid.1] at both
      rw [kept]
      exact .inr paid
  · obtain ⟨c, old, rfl⟩ := mem_map.mp mem
    rw [affiliateId_payAll, length_modify]
    exact inv.known c old

theorem payout_eq_marked : payout.amount = marked s s' := by
  obtain ⟨a, found, active, enough, rfl, rfl⟩ := requestPayout_eq_ok paid
  rw [marked, marked_payAll _ (careful a found active enough) inv.clean]
  exact inv.pending i a found

end

end Payouts

section Conversions

variable {s : State} {call : Conversion} {p p' : Progress} {attr : AttributionEvent} {refused : State × String}

theorem attribute_cases (call : Conversion) (p : Progress) (attr : AttributionEvent) :
    (¬ p.state.Active attr ∧ p.attribute call attr = .ok p) ∨
    (p.state.Blocked call attr ∧ ∃ inc message, p.attribute call attr =
      .error ({ p.state with affiliates := p.state.affiliates.modify attr.affiliateId (·.suspend inc) }, message)) ∨
    (p.state.Active attr ∧ ¬ p.state.Blocked call attr ∧ ∃ inc commission, commission.affiliateId = attr.affiliateId ∧
      commission.status = .pending ∧ commission.isClawbacked = false ∧ (∃ a, p.state.affiliates[attr.affiliateId]? = some a) ∧
      p.attribute call attr = .ok {
        state := { p.state with
          commissions := p.state.commissions ++ [commission]
          affiliates := p.state.affiliates.modify attr.affiliateId fun a => (a.suspect inc).earn commission.amount }
        createdCommissions := p.createdCommissions ++ [commission]
        weights := p.weights ++ [attr.touchWeight] }) := by
  cases found : p.state.affiliates[attr.affiliateId]? with
  | none =>
    refine .inl ⟨?_, ?_⟩
    · rintro ⟨a, there, -⟩
      rw [found] at there
      cases there
    · simp only [Progress.attribute, found]
  | some a =>
    by_cases active : a.status = .active
    · cases blocks : a.blocks (p.state.fraudRiskInc call attr.affiliateId) with
      | true =>
        refine .inr (.inl ⟨⟨a, found, active, blocks⟩, p.state.fraudRiskInc call attr.affiliateId,
          "Transaction blocked due to potential self-referral fraud.", ?_⟩)
        simp only [Progress.attribute, found, active, ne_eq, not_true_eq_false, if_false, blocks, if_true]
      | false =>
        refine .inr (.inr ⟨⟨a, found, active⟩, ?_, ?_⟩)
        · rintro ⟨b, there, -, blocked⟩
          rw [found, Option.some.injEq] at there
          rw [← there, blocks] at blocked
          cases blocked
        · refine ⟨p.state.fraudRiskInc call attr.affiliateId, ⟨attr.affiliateId, call.subscriptionId, State.weightedCommission
            (p.state.programs a.programId) call.subscriptionAmount attr.touchWeight, .pending, false⟩, rfl, rfl, rfl, ⟨a, rfl⟩, ?_⟩
          simp only [Progress.attribute, found, active, ne_eq, not_true_eq_false, if_false, blocks, Bool.false_eq_true]
    · refine .inl ⟨?_, ?_⟩
      · rintro ⟨b, there, also⟩
        rw [found, Option.some.injEq] at there
        exact active (there ▸ also)
      · simp only [Progress.attribute, found, ne_eq, active, not_false_eq_true, if_true]

theorem Inv.append (inv : Inv s) {c : Commission} (inc : ℤ) (unpaid : c.status = .pending) (kept : c.isClawbacked = false)
    (known : ∃ a, s.affiliates[c.affiliateId]? = some a) : Inv { s with
      commissions := s.commissions ++ [c]
      affiliates := s.affiliates.modify c.affiliateId fun a => (a.suspect inc).earn c.amount } := by
  have counted : c.outstanding = c.amount := if_pos ⟨by simp [unpaid], kept⟩
  have books : ∀ (j : ℕ) (a' : Affiliate),
      (s.affiliates.modify c.affiliateId fun a => (a.suspect inc).earn c.amount)[j]? = some a' →
      ∃ b, s.affiliates[j]? = some b ∧ a' = if c.affiliateId = j then (b.suspect inc).earn c.amount else b :=
    fun j a' there => getElem?_modify_eq_some there
  refine ⟨fun j a' there => ?_, fun j a' there => ?_, fun j a' there => ?_, fun d mem => ?_, fun d mem => ?_⟩
  · obtain ⟨b, here, rfl⟩ := books j a' there
    rw [fiber_concat, ← inv.pending j b here, counted]
    split
    · simp only [Affiliate.earn, (sameBooks_suspect b inc).pending]
    · exact (add_zero _).symm
  · obtain ⟨b, here, rfl⟩ := books j a' there
    split
    · simp only [Affiliate.earn, (sameBooks_suspect b inc).earnings, (sameBooks_suspect b inc).history, inv.earnings j b here]
    · exact inv.earnings j b here
  · obtain ⟨b, here, rfl⟩ := books j a' there
    split
    · simp only [Affiliate.earn, (sameBooks_suspect b inc).earnings, (sameBooks_suspect b inc).threshold]
      exact inv.earned j b here
    · exact inv.earned j b here
  · rcases mem_append.mp mem with old | new
    · exact inv.clean d old
    · rw [List.mem_singleton.mp new]
      exact .inl unpaid
  · rw [length_modify]
    rcases mem_append.mp mem with old | new
    · exact inv.known d old
    · rw [List.mem_singleton.mp new]
      obtain ⟨a, found⟩ := known
      exact (List.getElem?_eq_some_iff.mp found).1

theorem Inv.attribute_ok (inv : Inv p.state) (done : p.attribute call attr = .ok p') : Inv p'.state := by
  rcases attribute_cases call p attr with ⟨-, same⟩ | ⟨-, inc, message, thrown⟩ |
    ⟨-, -, inc, c, own, unpaid, kept, known, earned⟩
  · rw [same] at done
    cases done
    exact inv
  · rw [thrown] at done
    cases done
  · rw [earned] at done
    cases done
    rw [← own] at known ⊢
    exact inv.append inc unpaid kept known

theorem Inv.attribute_error (inv : Inv p.state) (thrown : p.attribute call attr = .error refused) : Inv refused.1 := by
  rcases attribute_cases call p attr with ⟨-, same⟩ | ⟨-, inc, message, refuses⟩ | ⟨-, -, inc, c, -, -, -, -, earned⟩
  · rw [same] at thrown
    cases thrown
  · rw [refuses] at thrown
    cases thrown
    exact inv.modify (fun a => sameBooks_suspend a inc) rfl rfl
  · rw [earned] at thrown
    cases thrown

theorem Inv.convertReferral (inv : Inv s) (call : Conversion) : Inv (s.step (.convertReferral call)) := by
  have loop : ∀ (attrs : List AttributionEvent) (p : Progress), Inv p.state →
      (∀ p', attrs.foldlM (Progress.attribute call) p = .ok p' → Inv p'.state) ∧
        ∀ refused, attrs.foldlM (Progress.attribute call) p = .error refused → Inv refused.1 := by
    intro attrs
    induction attrs with
    | nil =>
      intro p inv
      refine ⟨fun p' done => ?_, fun refused thrown => by cases thrown⟩
      cases done
      exact inv
    | cons attr rest ih =>
      intro p inv
      rw [foldlM_cons]
      cases first : p.attribute call attr with
      | ok middle => exact ih middle (inv.attribute_ok first)
      | error refused =>
        refine ⟨fun p' done => (by cases done), fun refused' thrown => ?_⟩
        cases thrown
        exact inv.attribute_error first
  have run := loop (s.getAttributedAffiliates call) { state := s } inv
  simp only [State.step]
  split
  · rename_i done
    exact run.1 _ done
  · rename_i thrown
    exact run.2 _ thrown

theorem attribute_other (done : p.attribute call attr = .ok p') {other : AttributionEvent}
    (different : attr.affiliateId ≠ other.affiliateId) :
    (p'.state.Active other ↔ p.state.Active other) ∧ (p'.state.Blocked call other ↔ p.state.Blocked call other) := by
  have same : p'.state.affiliates[other.affiliateId]? = p.state.affiliates[other.affiliateId]? ∧ p'.state.clicks = p.state.clicks := by
    rcases attribute_cases call p attr with ⟨-, same⟩ | ⟨-, inc, message, thrown⟩ | ⟨-, -, inc, c, -, -, -, -, earned⟩
    · rw [same] at done
      cases done
      exact ⟨rfl, rfl⟩
    · rw [thrown] at done
      cases done
    · rw [earned] at done
      cases done
      exact ⟨by simp [different], rfl⟩
  simp only [State.Active, State.Blocked, State.fraudRiskInc, same.1, same.2, and_self]

theorem balances_suspend (s : State) (i : ℕ) (inc : ℤ) :
    State.balances { s with affiliates := s.affiliates.modify i (·.suspend inc) } = s.balances := by
  refine ext_getElem? fun j => ?_
  simp only [State.balances, getElem?_map, getElem?_modify, Option.map_eq_map, Option.map_map]
  congr 1
  funext a
  dsimp only [Function.comp_apply]
  split
  · rfl
  · rfl

theorem loop_cases (attrs : List AttributionEvent) : ∀ p : Progress, (attrs.map (·.affiliateId)).Nodup →
    (∀ p', attrs.foldlM (Progress.attribute call) p = .ok p' → (∀ e ∈ attrs, ¬ p.state.Blocked call e) ∧
      ((∀ e ∈ attrs, ¬ p.state.Active e) → p'.weights = p.weights) ∧
      ((∀ e ∈ attrs, p.state.Active e) → p'.weights = p.weights ++ attrs.map (·.touchWeight))) ∧
    (∀ refused, attrs.foldlM (Progress.attribute call) p = .error refused → ∃ earlier attr later,
      attrs = earlier ++ attr :: later ∧ p.state.Blocked call attr ∧ (∀ e ∈ earlier, ¬ p.state.Blocked call e) ∧
      ((∀ e ∈ earlier, ¬ p.state.Active e) →
        refused.1.commissions = p.state.commissions ∧ refused.1.balances = p.state.balances)) := by
  induction attrs with
  | nil =>
    intro p _
    refine ⟨fun p' done => ?_, fun refused thrown => by cases thrown⟩
    cases done
    simp
  | cons attr rest ih =>
    intro p nodup
    rw [map_cons, nodup_cons] at nodup
    have different : ∀ e ∈ rest, attr.affiliateId ≠ e.affiliateId := fun e later same =>
      nodup.1 (same ▸ mem_map_of_mem later)
    rw [foldlM_cons]
    cases first : p.attribute call attr with
    | ok middle =>
      have ⟨returns, throws⟩ := ih middle nodup.2
      have active : ∀ e ∈ rest, (middle.state.Active e ↔ p.state.Active e) := fun e later =>
        (attribute_other first (different e later)).1
      have blocked : ∀ e ∈ rest, (middle.state.Blocked call e ↔ p.state.Blocked call e) := fun e later =>
        (attribute_other first (different e later)).2
      have unblocked : ¬ p.state.Blocked call attr := by
        rcases attribute_cases call p attr with ⟨inactive, -⟩ | ⟨-, inc, message, thrown⟩ | ⟨-, unblocked, -⟩
        · rintro ⟨a, found, active, -⟩
          exact inactive ⟨a, found, active⟩
        · rw [thrown] at first
          cases first
        · exact unblocked
      have idle : ¬ p.state.Active attr → middle = p := by
        intro inactive
        rcases attribute_cases call p attr with ⟨-, same⟩ | ⟨⟨a, found, active, -⟩, -⟩ | ⟨active, -⟩
        · rw [same] at first
          exact (Except.ok.inj first).symm
        · exact absurd ⟨a, found, active⟩ inactive
        · exact absurd active inactive
      constructor
      · intro p' done
        obtain ⟨none_blocked, none, all⟩ := returns p' done
        refine ⟨?_, fun inactive => ?_, fun actives => ?_⟩
        · rw [forall_mem_cons]
          exact ⟨unblocked, fun e later => (blocked e later).not.mp (none_blocked e later)⟩
        · rw [forall_mem_cons] at inactive
          rw [none fun e later => (active e later).not.mpr (inactive.2 e later), idle inactive.1]
        · rw [forall_mem_cons] at actives
          have weighted : middle.weights = p.weights ++ [attr.touchWeight] := by
            rcases attribute_cases call p attr with ⟨inactive, -⟩ | ⟨-, inc, message, thrown⟩ | ⟨-, -, inc, c, -, -, -, -, earned⟩
            · exact absurd actives.1 inactive
            · rw [thrown] at first
              cases first
            · rw [earned] at first
              cases first
              rfl
          rw [all fun e later => (active e later).mpr (actives.2 e later), weighted, append_assoc]
          rfl
      · intro refused thrown
        obtain ⟨earlier, blocker, later, rfl, blocks, free, unchanged⟩ := throws refused thrown
        have inside : ∀ e ∈ earlier, e ∈ earlier ++ blocker :: later := fun e early => mem_append_left _ early
        refine ⟨attr :: earlier, blocker, later, rfl, (blocked blocker (by simp)).mp blocks, ?_, fun inactive => ?_⟩
        · rw [forall_mem_cons]
          exact ⟨unblocked, fun e early => (blocked e (inside e early)).not.mp (free e early)⟩
        · rw [forall_mem_cons] at inactive
          have kept := unchanged fun e early => (active e (inside e early)).not.mpr (inactive.2 e early)
          rw [idle inactive.1] at kept
          exact kept
    | error refused =>
      refine ⟨fun p' done => (by cases done), fun refused' thrown => ?_⟩
      cases thrown
      rcases attribute_cases call p attr with ⟨-, same⟩ | ⟨blocks, inc, message, thrown⟩ | ⟨-, -, inc, c, -, -, -, -, earned⟩
      · rw [same] at first
        cases first
      · rw [thrown] at first
        cases first
        exact ⟨[], attr, rest, rfl, blocks, by simp, fun _ => ⟨rfl, balances_suspend _ _ _⟩⟩
      · rw [earned] at first
        cases first

theorem lawful_convertReferral (careful : Careful s (.convertReferral call)) : Lawful s (.convertReferral call) := by
  obtain ⟨nodup, weights⟩ := attributed s call
  obtain ⟨returns, throws⟩ := loop_cases (s.getAttributedAffiliates call) { state := s } nodup
  simp only [Lawful]
  split
  · rename_i progress done
    obtain ⟨free, none, all⟩ := returns progress done
    rcases careful.2 free with inactive | active
    · exact .inl (none inactive)
    · rw [all active, nil_append]
      rcases weights with empty | one
      · exact .inl (by rw [empty]; rfl)
      · exact .inr one
  · rename_i s' message thrown
    obtain ⟨earlier, attr, later, split, blocks, free, unchanged⟩ := throws (s', message) thrown
    exact unchanged (careful.1 earlier attr later split blocks free)

end Conversions

section Runs

variable {s : State} {action : Action}

theorem Inv.step (inv : Inv s) (careful : Careful s action) : Inv (s.step action) := by
  cases action with
  | registerAffiliate address program random => exact inv.registerAffiliate address program random
  | trackClick code ip userAgent now => exact inv.trackClick code ip userAgent now
  | convertReferral call => exact inv.convertReferral call
  | processClawback subscriptionId => exact inv.processClawback careful
  | requestPayout affiliateId =>
    simp only [State.step]
    split
    · rename_i paid
      exact inv.requestPayout careful paid
    · exact inv

theorem Inv.lawful (inv : Inv s) (careful : Careful s action) : Lawful s action := by
  cases action with
  | convertReferral call => exact lawful_convertReferral careful
  | requestPayout affiliateId =>
    simp only [Lawful]
    split
    · rename_i paid
      exact payout_eq_marked inv careful paid
    · trivial
  | _ => trivial

def defaultPrograms (id : String) : Option AffiliateProgram :=
  if id = "default-basic" then some { commissionConfig := ⟨.percentage, 10, none⟩, attributionWindowDays := 30 } else none

def exampleConversion (subscriptionId : String) : Conversion where
  subscriptionId := subscriptionId
  subscriptionAmount := 2000
  userIp := "10.0.0.2"
  userAgent := "app"
  cookieReferralCode := some "REF-ABCDEF-100"
  now := 60000

def exampleActions : List Action :=
  [.registerAffiliate "0xabcdef0123" "default-basic" 0, .trackClick "REF-ABCDEF-100" "10.0.0.1" "web" 0,
    .convertReferral (exampleConversion "sub-1"), .convertReferral (exampleConversion "sub-2")]

def paidActions : List Action := exampleActions ++ [.processClawback "sub-3", .requestPayout 0]

theorem careful_of_one {call : Conversion} (attr : AttributionEvent) (only : s.getAttributedAffiliates call = [attr])
    (active : (s.affiliates[attr.affiliateId]?).map Affiliate.status = some .active) : Careful s (.convertReferral call) := by
  rw [Careful, only]
  constructor
  · intro earlier attr' later split _ _ e early
    cases earlier with
    | nil => cases early
    | cons first rest =>
      have length := congrArg List.length split
      simp at length
  · intro _
    right
    intro e mem
    rw [List.mem_singleton.mp mem]
    exact Option.map_eq_some_iff.mp active

def clawedActions : List Action := exampleActions ++ [.processClawback "sub-1", .requestPayout 0]

theorem clawed_paid : (⟨0, "sub-1", 20000, .paid, true⟩ : Commission) ∈
    (clawedActions.foldl State.step { programs := defaultPrograms }).commissions := by
  decide +kernel

end Runs

end SubTrackr.Affiliates
