import SubTrackr.Group.Allocation
import SubTrackr.Lib.Fallible

namespace SubTrackr.Group

open List Lib

variable {group : SubscriptionGroup} {strategy : BillingAllocationStrategy} {customWeights : Option CustomBillingWeights}
  {weights : Weights} {totalAmount allocated : ℚ}

structure Accepted (group : SubscriptionGroup) (strategy : BillingAllocationStrategy)
    (customWeights : Option CustomBillingWeights) (weights : Weights) : Prop where
  resolved : resolveWeights group strategy customWeights = .ok weights
  positive : 0 < weights.total ∨ strategy = .ownerPays

def Weights.Nonneg (weights : Weights) : Prop := ∀ e ∈ weights.entries, (0 : ℚ) ≤ e.2

section Weights

theorem Weights.Nonneg.insert (nonneg : weights.Nonneg) {address : String} {weight : ℚ} (own : 0 ≤ weight) :
    Weights.Nonneg (AList.insert address weight weights) := by
  intro e mem
  rw [AList.entries_insert] at mem
  rcases mem_cons.mp mem with rfl | old
  · exact own
  · exact nonneg e ((kerase_sublist _ _).subset old)

theorem Weights.Nonneg.empty : Weights.Nonneg ∅ := by
  intro e mem
  cases mem

theorem Weights.Nonneg.total (nonneg : weights.Nonneg) : 0 ≤ weights.total := by
  apply sum_nonneg
  intro w member
  obtain ⟨e, mem, rfl⟩ := mem_map.mp member
  exact nonneg e mem

theorem Weights.Nonneg.of (nonneg : weights.Nonneg) (member : GroupMember) : 0 ≤ weights.of member := by
  unfold Weights.of
  cases found : weights.lookup member.address with
  | none => exact le_refl _
  | some w => exact nonneg _ (OrderedMap.lookup_eq_some.mp found)

theorem setAll_nonneg {weight : GroupMember → ℚ} (each : ∀ mem, 0 ≤ weight mem) (members : List GroupMember) :
    (setAll weight members).Nonneg := by
  have step (members : List GroupMember) (weights : Weights) (nonneg : weights.Nonneg) :
      Weights.Nonneg (members.foldl (fun weights mem => weights.insert mem.address (weight mem)) weights) := by
    induction members generalizing weights with
    | nil => exact nonneg
    | cons mem members ih => exact ih _ (nonneg.insert (each mem))
  exact step members ∅ .empty

theorem setCustom_nonneg {custom : CustomBillingWeights} {members : List GroupMember} {before : Weights}
    (done : members.foldlM (setCustom custom) before = .ok weights) (nonneg : before.Nonneg) : weights.Nonneg := by
  induction members generalizing before with
  | nil =>
    obtain rfl := (pure_eq_ok _ _).mp done
    exact nonneg
  | cons mem members ih =>
    rw [foldlM_cons, bind_eq_ok] at done
    obtain ⟨next, one, done⟩ := done
    apply ih done
    unfold setCustom at one
    split at one
    · cases one
    · split at one
      · cases one
      · rename_i pos
        cases one
        exact nonneg.insert (not_lt.mp pos)

theorem resolveWeights_nonneg (resolved : resolveWeights group strategy customWeights = .ok weights) : weights.Nonneg := by
  unfold resolveWeights at resolved
  cases strategy with
  | ownerPays =>
    cases resolved
    apply setAll_nonneg
    intro mem
    split <;> norm_num
  | equal =>
    cases resolved
    exact setAll_nonneg (fun _ => by norm_num) _
  | usageWeighted =>
    dsimp only at resolved
    split at resolved
    · cases resolved
      exact setAll_nonneg (fun _ => by norm_num) _
    · cases resolved
      exact setAll_nonneg (fun _ => le_max_right _ _) _
  | customWeights =>
    dsimp only at resolved
    split at resolved
    · cases resolved
    · obtain ⟨weights', done, last⟩ := (bind_eq_ok ..).mp resolved
      split at last
      · cases last
      · cases last
        exact setCustom_nonneg done .empty

end Weights

def share (weights : Weights) (totalAmount : ℚ) (member : GroupMember) : ℚ :=
  totalAmount * weights.of member / weights.total

def drift (group : SubscriptionGroup) (weights : Weights) (totalAmount : ℚ) (last : GroupMember) : ℚ :=
  ((ordered group).dropLast.map fun member => roundCents (share weights totalAmount member)).sum -
    (totalAmount - share weights totalAmount last)

structure Bearable (group : SubscriptionGroup) (weights : Weights) (totalAmount : ℚ) (last : GroupMember) : Prop where
  covered : drift group weights totalAmount last ≤ share weights totalAmount last
  weightless : weights.of last = 0 → drift group weights totalAmount last = 0
  near : |drift group weights totalAmount last| * 100 < group.members.length

structure Divisible (group : SubscriptionGroup) (weights : Weights) (totalAmount : ℚ) : Prop where
  payer : weights.total = 0 → totalAmount = 0
  bearable : weights.total ≠ 0 → ∀ last ∈ (ordered group).getLast?, Bearable group weights totalAmount last

structure FairItem (group : SubscriptionGroup) (weights : Weights) (totalAmount : ℚ) (item : MemberBillingAllocationItem) :
    Prop where
  nonneg : 0 ≤ item.amount
  weightless : item.weight = 0 → item.amount = 0
  near : |item.amount - totalAmount * item.weight / weights.total| * 100 < group.members.length

structure Fair (group : SubscriptionGroup) (weights : Weights) (totalAmount : ℚ) (items : List MemberBillingAllocationItem) :
    Prop where
  members : (items.map fun item => (item.memberAddress, item.weight)).Perm
    (group.members.map fun member => (member.address, weights.of member))
  sum : (items.map MemberBillingAllocationItem.amount).sum = totalAmount
  each : ∀ item ∈ items, FairItem group weights totalAmount item

theorem roundCents_onGrid (value : ℚ) : Rounding.OnGrid 100 (roundCents value) := Rounding.halfUp_onGrid

theorem roundCents_eq {value : ℚ} (cents : Rounding.OnGrid 100 value) : roundCents value = value :=
  Rounding.halfUp_eq (by norm_num) cents

theorem ordered_perm : (ordered group).Perm group.members := perm_insertionSort _ _

theorem allocateFrom_nothing (nothing : totalAmount = 0 ∨ weights.total = 0) (members : List GroupMember) :
    allocateFrom group strategy weights totalAmount allocated members =
      members.map fun mem => itemFor group strategy weights mem 0 := by
  induction members with
  | nil => rfl
  | cons mem members ih => rw [allocateFrom, if_pos nothing, ih, map_cons]

theorem allocateFrom_shares (bill : totalAmount ≠ 0) (weighed : weights.total ≠ 0) (grid : Rounding.OnGrid 100 allocated)
    (others : List GroupMember) (last : GroupMember) :
    allocateFrom group strategy weights totalAmount allocated (others ++ [last]) =
      (others.map fun mem => itemFor group strategy weights mem (roundCents (share weights totalAmount mem))) ++
        [itemFor group strategy weights last
          (roundCents (totalAmount - (allocated + (others.map fun mem => roundCents (share weights totalAmount mem)).sum)))] := by
  have something : ¬(totalAmount = 0 ∨ weights.total = 0) := not_or.mpr ⟨bill, weighed⟩
  induction others generalizing allocated with
  | nil =>
    rw [nil_append, allocateFrom, if_neg something, isEmpty_nil, if_pos rfl, allocateFrom]
    simp
  | cons mem others ih =>
    have more : (others ++ [last]).isEmpty = false := by simp
    have whole := grid.add (roundCents_onGrid (share weights totalAmount mem))
    rw [cons_append, allocateFrom, if_neg something, more, if_neg Bool.false_ne_true]
    dsimp only
    rw [← share, roundCents_eq whole, ih whole, map_cons, cons_append, map_cons, sum_cons, add_assoc]

theorem allocateMemberBilling_ok (some : group.members ≠ []) (nonneg : 0 ≤ totalAmount)
    (accepted : Accepted group strategy customWeights weights) :
    allocateMemberBilling group totalAmount strategy customWeights =
      .ok ⟨group.groupId, strategy, totalAmount, allocateFrom group strategy weights totalAmount 0 (ordered group)⟩ := by
  have mem : group.members.isEmpty = false := by simpa using some
  have weighed : ¬(weights.total ≤ 0 ∧ strategy ≠ .ownerPays) := by
    rintro ⟨none, other⟩
    exact accepted.positive.elim (fun pos => absurd pos none.not_gt) other
  unfold allocateMemberBilling
  rw [accepted.resolved, mem, if_neg (not_lt.mpr nonneg)]
  simp only [Bool.false_eq_true, if_false, ok_bind, if_neg weighed]
  rfl

theorem share_zero (mem : GroupMember) : share weights 0 mem = 0 := by
  unfold share
  rw [zero_mul, zero_div]

theorem share_weightless {mem : GroupMember} (none : weights.of mem = 0) : share weights totalAmount mem = 0 := by
  unfold share
  rw [none, mul_zero, zero_div]

theorem length_pos (some : group.members ≠ []) : (1 : ℚ) ≤ group.members.length := by
  exact_mod_cast length_pos_of_ne_nil some

theorem divisible_zero (some : group.members ≠ []) : Divisible group weights 0 := by
  have none (last : GroupMember) : drift group weights 0 last = 0 := by
    unfold drift
    have shares : (fun mem => roundCents (share weights 0 mem)) = fun _ => 0 := by
      funext mem
      rw [share_zero, roundCents_eq .zero]
    rw [shares, share_zero]
    simp
  refine ⟨fun _ => rfl, fun _ last _ => ⟨?_, fun _ => none last, ?_⟩⟩
  · rw [none, share_zero]
  · rw [none, abs_zero, zero_mul]
    exact lt_of_lt_of_le one_pos (length_pos some)

theorem fair_nothing_iff (some : group.members ≠ []) (nothing : totalAmount = 0 ∨ weights.total = 0) :
    Fair group weights totalAmount (allocateFrom group strategy weights totalAmount 0 (ordered group)) ↔
      Divisible group weights totalAmount := by
  rw [allocateFrom_nothing nothing]
  constructor
  · intro fair
    have sum := fair.sum
    rw [map_map] at sum
    obtain rfl : 0 = totalAmount := by simpa [itemFor, Function.comp_def] using sum
    exact divisible_zero some
  · intro divisible
    obtain rfl : totalAmount = 0 := nothing.elim id divisible.payer
    refine ⟨?_, ?_, ?_⟩
    · rw [map_map]
      exact ordered_perm.map _
    · rw [map_map]
      simp [itemFor, Function.comp_def]
    · intro item mem
      obtain ⟨m, -, rfl⟩ := mem_map.mp mem
      refine ⟨le_refl _, fun _ => rfl, ?_⟩
      simpa [itemFor] using lt_of_lt_of_le one_pos (length_pos some)

theorem rounded_fair (pos : 0 ≤ totalAmount) (nonneg : weights.Nonneg) (some : group.members ≠ []) (mem : GroupMember) :
    FairItem group weights totalAmount
      (itemFor group strategy weights mem (roundCents (share weights totalAmount mem))) := by
  refine ⟨?_, fun none => ?_, ?_⟩
  · exact Rounding.halfUp_nonneg (by norm_num) (div_nonneg (mul_nonneg pos (nonneg.of mem)) nonneg.total)
  · change roundCents (share weights totalAmount mem) = 0
    rw [share_weightless none, roundCents_eq .zero]
  · change |roundCents (share weights totalAmount mem) - share weights totalAmount mem| * 100 < _
    have half : |roundCents (share weights totalAmount mem) - share weights totalAmount mem| * 100 ≤ 1 / 2 :=
      Rounding.halfUp_error (by norm_num)
    have several := length_pos some
    linarith

theorem rest_fair_iff (last : GroupMember) : FairItem group weights totalAmount
        (itemFor group strategy weights last (share weights totalAmount last - drift group weights totalAmount last)) ↔
      Bearable group weights totalAmount last := by
  have distance : share weights totalAmount last - drift group weights totalAmount last -
      totalAmount * weights.of last / weights.total = -drift group weights totalAmount last := by
    rw [← share]
    ring
  constructor
  · rintro ⟨nonneg, weightless, near⟩
    simp only [itemFor] at nonneg weightless near
    rw [distance, abs_neg] at near
    refine ⟨by linarith, fun none => ?_, near⟩
    have nothing := weightless none
    rw [share_weightless none] at nothing
    linarith
  · rintro ⟨covered, weightless, near⟩
    refine ⟨?_, fun none => ?_, ?_⟩
    · simp only [itemFor]
      linarith
    · change share weights totalAmount last - drift group weights totalAmount last = 0
      rw [share_weightless none, weightless none, sub_zero]
    · simp only [itemFor]
      rw [distance, abs_neg]
      exact near

theorem allocateFrom_drift (bill : totalAmount ≠ 0) (weighed : weights.total ≠ 0) (cents : Rounding.OnGrid 100 totalAmount)
    {others : List GroupMember} {last : GroupMember} (split : ordered group = others ++ [last]) :
    allocateFrom group strategy weights totalAmount 0 (ordered group) =
      (others.map fun mem => itemFor group strategy weights mem (roundCents (share weights totalAmount mem))) ++
        [itemFor group strategy weights last (share weights totalAmount last - drift group weights totalAmount last)] ∧
      (others.map fun mem => roundCents (share weights totalAmount mem)).sum =
        drift group weights totalAmount last + (totalAmount - share weights totalAmount last) := by
  have early : (others.map fun mem => roundCents (share weights totalAmount mem)).sum =
      drift group weights totalAmount last + (totalAmount - share weights totalAmount last) := by
    rw [drift, split, dropLast_concat]
    ring
  have whole : Rounding.OnGrid 100 (others.map fun mem => roundCents (share weights totalAmount mem)).sum := by
    apply Rounding.OnGrid.sum
    intro x mem
    obtain ⟨m, -, rfl⟩ := mem_map.mp mem
    exact roundCents_onGrid _
  refine ⟨?_, early⟩
  rw [split, allocateFrom_shares bill weighed .zero, zero_add, roundCents_eq (cents.sub whole), early]
  congr 3
  ring

theorem fair_shares_iff (bill : totalAmount ≠ 0) (weighed : weights.total ≠ 0) (cents : Rounding.OnGrid 100 totalAmount)
    (pos : 0 ≤ totalAmount) (nonneg : weights.Nonneg) (some : group.members ≠ []) :
    Fair group weights totalAmount (allocateFrom group strategy weights totalAmount 0 (ordered group)) ↔
      Divisible group weights totalAmount := by
  have mem : ordered group ≠ [] := by
    intro none
    have perm : (ordered group).Perm group.members := ordered_perm
    rw [none] at perm
    exact some (nil_perm.mp perm)
  obtain ⟨others, last, split⟩ : ∃ others last, ordered group = others ++ [last] :=
    ⟨_, _, (dropLast_append_getLast mem).symm⟩
  have tail : (ordered group).getLast? = Option.some last := by
    rw [split, getLast?_concat]
  obtain ⟨items, early⟩ := @allocateFrom_drift group strategy weights totalAmount bill weighed cents others last split
  rw [items]
  constructor
  · intro fair
    refine ⟨fun none => absurd none weighed, fun _ m member => ?_⟩
    obtain rfl : last = m := Option.some.inj (tail.symm.trans member)
    exact rest_fair_iff last |>.mp (fair.each _ (mem_append_right _ (mem_singleton_self _)))
  · intro divisible
    refine ⟨?_, ?_, ?_⟩
    · rw [map_append, map_map, map_singleton]
      have perm := (ordered_perm : (ordered group).Perm group.members).map fun member => (member.address, weights.of member)
      rw [split, map_append] at perm
      exact perm
    · rw [map_append, sum_append, map_map, map_singleton, sum_singleton]
      simp only [itemFor, Function.comp_def]
      linarith
    · intro item member
      rcases mem_append.mp member with rounded | final
      · obtain ⟨m, -, rfl⟩ := mem_map.mp rounded
        exact rounded_fair pos nonneg some m
      · rw [mem_singleton.mp final]
        exact (rest_fair_iff last).mpr (divisible.bearable weighed last tail)

section Distinct

theorem mem_keys_setAll {weight : GroupMember → ℚ} {members : List GroupMember} {k : String} :
    k ∈ (setAll weight members).keys ↔ k ∈ members.map GroupMember.address := by
  have step (members : List GroupMember) (weights : Weights) :
      k ∈ (members.foldl (fun weights mem => weights.insert mem.address (weight mem)) weights).keys ↔
        k ∈ weights.keys ∨ k ∈ members.map GroupMember.address := by
    induction members generalizing weights with
    | nil => simp
    | cons mem members ih =>
      rw [foldl_cons, ih, ← AList.mem_keys, AList.mem_insert, AList.mem_keys, map_cons, mem_cons]
      tauto
  rw [setAll, step]
  simp [AList.keys_empty]

theorem mem_keys_setCustom {custom : CustomBillingWeights} {members : List GroupMember} {before : Weights} {k : String}
    (done : members.foldlM (setCustom custom) before = .ok weights) :
    k ∈ weights.keys ↔ k ∈ before.keys ∨ k ∈ members.map GroupMember.address := by
  induction members generalizing before with
  | nil =>
    obtain rfl := (pure_eq_ok _ _).mp done
    simp
  | cons mem members ih =>
    rw [foldlM_cons, bind_eq_ok] at done
    obtain ⟨next, one, done⟩ := done
    rw [ih done, map_cons, mem_cons]
    unfold setCustom at one
    split at one
    · cases one
    · split at one
      · cases one
      · cases one
        rw [← AList.mem_keys, AList.mem_insert, AList.mem_keys]
        tauto

theorem mem_keys_resolved {k : String} (resolved : resolveWeights group strategy customWeights = .ok weights) :
    k ∈ weights.keys ↔ k ∈ group.members.map GroupMember.address := by
  unfold resolveWeights at resolved
  cases strategy with
  | ownerPays | equal =>
    cases resolved
    exact mem_keys_setAll
  | usageWeighted =>
    dsimp only at resolved
    split at resolved <;> cases resolved <;> exact mem_keys_setAll
  | customWeights =>
    dsimp only at resolved
    split at resolved
    · cases resolved
    · obtain ⟨weights', done, last⟩ := (bind_eq_ok ..).mp resolved
      split at last
      · cases last
      · cases last
        rw [mem_keys_setCustom done]
        simp [AList.keys_empty]

section

variable (distinct : (group.members.map GroupMember.address).Nodup)

include distinct

theorem total_resolved
    (resolved : resolveWeights group strategy customWeights = .ok weights) :
    weights.total = (group.members.map weights.of).sum := by
  have keys : weights.keys.Perm (group.members.map GroupMember.address) :=
    (perm_ext_iff_of_nodup weights.keys_nodup distinct).mpr fun _ => mem_keys_resolved resolved
  have values : weights.entries.map Sigma.snd = weights.keys.map fun k => (weights.lookup k).getD 0 := by
    unfold AList.keys List.keys
    rw [map_map]
    apply map_congr_left
    intro e mem
    rw [Function.comp_apply, OrderedMap.lookup_eq_some.mpr mem, Option.getD_some]
  unfold Weights.total
  rw [values, (keys.map _).sum_eq, map_map]
  rfl

section

variable (weighed : weights.total ≠ 0) (resolved : resolveWeights group strategy customWeights = .ok weights)

include weighed resolved

theorem sum_shares :
    ((ordered group).map (share weights totalAmount)).sum = totalAmount := by
  have scaled (members : List GroupMember) :
      (members.map (share weights totalAmount)).sum = totalAmount / weights.total * (members.map weights.of).sum := by
    induction members with
    | nil => simp
    | cons mem members ih =>
      rw [map_cons, sum_cons, ih, map_cons, sum_cons, share]
      ring
  rw [scaled, (ordered_perm.map weights.of).sum_eq, ← total_resolved distinct resolved, div_mul_cancel₀ _ weighed]

theorem drift_le {others : List GroupMember} {last : GroupMember}
    (split : ordered group = others ++ [last]) :
    |drift group weights totalAmount last| * 100 ≤ others.length / 2 := by
  have sum := @sum_shares group strategy customWeights weights totalAmount distinct weighed resolved
  rw [split, map_append, sum_append, map_singleton, sum_singleton] at sum
  have exact_error : drift group weights totalAmount last =
      ((others.map (share weights totalAmount)).map roundCents).sum - (others.map (share weights totalAmount)).sum := by
    rw [drift, split, dropLast_concat, map_map]
    simp only [Function.comp_def]
    linarith
  have error := @Rounding.sum_halfUp_error ℚ _ _ _ _ 100 (by norm_num) (others.map (share weights totalAmount))
  rw [exact_error]
  rw [length_map] at error
  exact error

end

/-- With addresses of their own, the members are treated fairly where someone pays, the last one's share covers the drift, and
    there is none where the last one's weight is zero. -/
theorem divisible_iff_of_distinct
    (resolved : resolveWeights group strategy customWeights = .ok weights) :
    Divisible group weights totalAmount ↔
      (weights.total = 0 → totalAmount = 0) ∧
      (weights.total ≠ 0 → ∀ last ∈ (ordered group).getLast?,
        drift group weights totalAmount last ≤ share weights totalAmount last ∧
        (weights.of last = 0 → drift group weights totalAmount last = 0)) := by
  constructor
  · rintro ⟨payer, bearable⟩
    exact ⟨payer, fun weighed last mem => ⟨(bearable weighed last mem).covered, (bearable weighed last mem).weightless⟩⟩
  · rintro ⟨payer, covered⟩
    refine ⟨payer, fun weighed last mem => ⟨(covered weighed last mem).1, (covered weighed last mem).2, ?_⟩⟩
    obtain ⟨others, split⟩ := getLast?_eq_some_iff.mp mem
    have error := @drift_le group strategy customWeights weights totalAmount distinct weighed resolved others last split
    have length := (ordered_perm : (ordered group).Perm group.members).length_eq
    rw [split, length_append, length_singleton] at length
    rw [← length, Nat.cast_add, Nat.cast_one]
    linarith [(Nat.cast_nonneg others.length : (0 : ℚ) ≤ others.length)]

theorem divisible_of_share
    (resolved : resolveWeights group strategy customWeights = .ok weights) (weighed : weights.total ≠ 0)
    (enough : ∀ last ∈ (ordered group).getLast?, 0 < weights.of last ∧
      ((group.members.length : ℚ) - 1) / 2 ≤ share weights totalAmount last * 100) :
    Divisible group weights totalAmount := by
  refine (divisible_iff_of_distinct distinct resolved).mpr ⟨fun none => absurd none weighed, fun _ last mem => ?_⟩
  obtain ⟨others, split⟩ := getLast?_eq_some_iff.mp mem
  obtain ⟨pos, large⟩ := enough last mem
  have error := @drift_le group strategy customWeights weights totalAmount distinct weighed resolved others last split
  have length := (ordered_perm : (ordered group).Perm group.members).length_eq
  rw [split, length_append, length_singleton] at length
  rw [← length, Nat.cast_add, Nat.cast_one] at large
  have upper := le_abs_self (drift group weights totalAmount last)
  exact ⟨by linarith, fun none => absurd none pos.ne'⟩

end

end Distinct

section Sample

def teamOf (addresses : List String) : SubscriptionGroup where
  groupId := "grp"
  owner := "owner"
  members := addresses.map fun address => ⟨address, 0⟩
  charges := []

theorem team_accepted (addresses : List String) (pos : 0 < (setAll (fun _ => 1) (teamOf addresses).members).total) :
    Accepted (teamOf addresses) .equal none (setAll (fun _ => 1) (teamOf addresses).members) :=
  ⟨rfl, .inl pos⟩

end Sample

end SubTrackr.Group
