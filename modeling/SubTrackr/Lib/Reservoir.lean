import Mathlib.Algebra.Order.Field.Basic
import Mathlib.Algebra.BigOperators.Group.List.Basic
import Mathlib.Tactic.Linarith
import Mathlib.Tactic.Ring

namespace Lib

open List

variable {K : Type*} [Field K] [LinearOrder K]

structure Reservoir (K : Type*) where
  (level since : K)

namespace Reservoir

/-- The inflow since the last time, up to the capacity. Time does not run backwards. -/
def fill (capacity rate : K) (r : Reservoir K) (time : K) : Reservoir K :=
  if r.since < time then ⟨min capacity (r.level + (time - r.since) * rate), time⟩ else r

def draw (r : Reservoir K) (cost : K) : Reservoir K := ⟨r.level - cost, r.since⟩

variable {capacity rate : K} {r : Reservoir K} {t u : K}

theorem fill_since : (r.fill capacity rate t).since = max r.since t := by
  unfold fill
  split
  · rename_i later
    exact (max_eq_right later.le).symm
  · rename_i early
    exact (max_eq_left (not_lt.mp early)).symm

theorem fill_of_le (early : t ≤ r.since) : r.fill capacity rate t = r := if_neg (not_lt.mpr early)

theorem fill_level_le (bounded : r.level ≤ capacity) : (r.fill capacity rate t).level ≤ capacity := by
  unfold fill
  split
  · exact min_le_left _ _
  · exact bounded

theorem fill_level_le_add : (r.fill capacity rate t).level ≤ r.level + ((r.fill capacity rate t).since - r.since) * rate := by
  unfold fill
  split
  · exact min_le_right _ _
  · rw [sub_self, zero_mul, add_zero]

/-- The draws that a list of requests (a time, and a cost unless the level is only read) is granted: those for which
    the level suffices. -/
def grants (capacity rate : K) : Reservoir K → List (K × Option K) → List (K × K)
  | _, [] => []
  | r, (time, none) :: rest => grants capacity rate (r.fill capacity rate time) rest
  | r, (time, some cost) :: rest =>
    if cost ≤ (r.fill capacity rate time).level then
      (time, cost) :: grants capacity rate ((r.fill capacity rate time).draw cost) rest
    else grants capacity rate (r.fill capacity rate time) rest

def total (granted : List (K × K)) : K := (granted.map Prod.snd).sum

omit [LinearOrder K] in
theorem total_cons (time cost : K) (granted : List (K × K)) : total ((time, cost) :: granted) = cost + total granted :=
  sum_cons

theorem grants_time {requests : List (K × Option K)} {grant : K × K} (mem : grant ∈ grants capacity rate r requests) :
    grant.1 ∈ requests.map Prod.fst := by
  induction requests generalizing r with
  | nil => cases mem
  | cons request rest ih =>
    obtain ⟨time, _ | cost⟩ := request
    · exact mem_cons_of_mem _ (ih mem)
    · unfold grants at mem
      split at mem
      · rcases mem_cons.mp mem with rfl | later
        · exact mem_cons_self
        · exact mem_cons_of_mem _ (ih later)
      · exact mem_cons_of_mem _ (ih mem)

theorem grants_fill {requests : List (K × Option K)} {request : Option K} :
    grants capacity rate (r.fill capacity rate t) ((t, request) :: requests) =
      grants capacity rate r ((t, request) :: requests) := by
  have filled : (r.fill capacity rate t).fill capacity rate t = r.fill capacity rate t := by
    refine fill_of_le ?_
    rw [fill_since]
    exact le_max_right _ _
  cases request with
  | none => rw [grants, grants, filled]
  | some cost => rw [grants, grants, filled]

variable [IsStrictOrderedRing K]

theorem le_fill_level (pos : 0 ≤ rate) (bounded : r.level ≤ capacity) : r.level ≤ (r.fill capacity rate t).level := by
  unfold fill
  split
  · rename_i later
    refine le_min bounded ?_
    have inflow : 0 ≤ (t - r.since) * rate := mul_nonneg (sub_nonneg.mpr later.le) pos
    linarith
  · exact le_rfl

theorem fill_fill (pos : 0 ≤ rate) (later : t ≤ u) :
    (r.fill capacity rate t).fill capacity rate u = r.fill capacity rate u := by
  by_cases early : t ≤ r.since
  · rw [fill_of_le early]
  · have since : r.since < t := not_le.mp early
    have caught : r.fill capacity rate t = ⟨min capacity (r.level + (t - r.since) * rate), t⟩ := if_pos since
    rw [caught]
    rcases eq_or_lt_of_le later with rfl | after
    · rw [fill_of_le le_rfl, caught]
    · have inflow : 0 ≤ (u - t) * rate := mul_nonneg (sub_nonneg.mpr later) pos
      have direct : r.fill capacity rate u = ⟨min capacity (r.level + (u - r.since) * rate), u⟩ :=
        if_pos (since.trans after)
      have then_ : (⟨min capacity (r.level + (t - r.since) * rate), t⟩ : Reservoir K).fill capacity rate u =
          ⟨min capacity (min capacity (r.level + (t - r.since) * rate) + (u - t) * rate), u⟩ := if_pos after
      rw [direct, then_]
      congr 1
      have whole : r.level + (u - r.since) * rate = r.level + (t - r.since) * rate + (u - t) * rate := by ring
      rw [whole]
      rcases le_total capacity (r.level + (t - r.since) * rate) with full | below
      · rw [min_eq_left full, min_eq_left (by linarith), min_eq_left (by linarith)]
      · rw [min_eq_right below]

theorem le_fill_of_deficit {cost wait : K} (affordable : cost ≤ capacity) (enough : cost - r.level ≤ wait * rate)
    (pos : 0 < wait) (time : t = r.since + wait) : cost ≤ (r.fill capacity rate t).level := by
  have later : r.since < t := by linarith
  have caught : r.fill capacity rate t = ⟨min capacity (r.level + (t - r.since) * rate), t⟩ := if_pos later
  rw [caught]
  refine le_min affordable ?_
  have elapsed : t - r.since = wait := by linarith
  rw [elapsed]
  linarith

theorem inflow_nonneg (pos : 0 ≤ rate) : 0 ≤ (max r.since u - r.since) * rate :=
  mul_nonneg (sub_nonneg.mpr (le_max_left _ _)) pos

section

variable {requests : List (K × Option K)} (pos : 0 ≤ rate) (nonneg : 0 ≤ r.level) (bounded : r.level ≤ capacity) (sorted : (requests.map Prod.fst).Pairwise (· ≤ ·)) (costs : ∀ request ∈ requests, ∀ cost ∈ request.2, 0 ≤ cost)

include pos nonneg bounded sorted costs

theorem total_until_le :
    total ((grants capacity rate r requests).filter (·.1 ≤ u)) ≤ r.level + (max r.since u - r.since) * rate := by
  induction requests generalizing r with
  | nil => exact add_nonneg nonneg (inflow_nonneg pos)
  | cons request rest ih =>
    obtain ⟨time, request⟩ := request
    obtain ⟨first, ordered⟩ := pairwise_cons.mp sorted
    obtain ⟨cost, others⟩ := forall_mem_cons.mp costs
    by_cases late : u < time
    · have none : (grants capacity rate r ((time, request) :: rest)).filter (·.1 ≤ u) = [] := by
        refine filter_eq_nil_iff.mpr fun grant mem early => ?_
        rcases mem_cons.mp (grants_time mem) with now | later
        · rw [now] at early
          exact absurd (of_decide_eq_true early) (not_le.mpr late)
        · exact absurd (of_decide_eq_true early) (not_le.mpr (late.trans_le (first _ later)))
      rw [none]
      exact add_nonneg nonneg (inflow_nonneg pos)
    · have early : time ≤ u := not_lt.mp late
      have until_ : max (r.fill capacity rate time).since u = max r.since u := by
        rw [fill_since, max_assoc, max_eq_right early]
      have account : (r.fill capacity rate time).level + (max r.since u - (r.fill capacity rate time).since) * rate ≤
          r.level + (max r.since u - r.since) * rate := by
        have added := @fill_level_le_add _ _ _ capacity rate r time
        have whole : (max r.since u - r.since) * rate = (max r.since u - (r.fill capacity rate time).since) * rate +
            ((r.fill capacity rate time).since - r.since) * rate := by ring
        linarith
      have level : 0 ≤ (r.fill capacity rate time).level := nonneg.trans (le_fill_level pos bounded)
      have below : (r.fill capacity rate time).level ≤ capacity := fill_level_le bounded
      have skipped := ih level below ordered others
      rw [until_] at skipped
      cases request with
      | none => exact skipped.trans account
      | some cost' =>
        rw [grants]
        split
        · rename_i granted
          have drawn := @ih ((r.fill capacity rate time).draw cost') (sub_nonneg.mpr granted)
            ((sub_le_self _ (cost cost' rfl)).trans below) ordered others
          have since : ((r.fill capacity rate time).draw cost').since = (r.fill capacity rate time).since := rfl
          have level' : ((r.fill capacity rate time).draw cost').level = (r.fill capacity rate time).level - cost' := rfl
          rw [since, level', until_] at drawn
          rw [filter_cons_of_pos (by simpa using early), total_cons]
          linarith
        · exact skipped.trans account

theorem total_window_le (forward : t ≤ u) :
    total ((grants capacity rate r requests).filter fun grant => t ≤ grant.1 ∧ grant.1 ≤ u) ≤
      capacity + (u - t) * rate := by
  have inflow : 0 ≤ (u - t) * rate := mul_nonneg (sub_nonneg.mpr forward) pos
  induction requests generalizing r with
  | nil => exact add_nonneg (nonneg.trans bounded) inflow
  | cons request rest ih =>
    obtain ⟨time, request⟩ := request
    have level : 0 ≤ (r.fill capacity rate time).level := nonneg.trans (le_fill_level pos bounded)
    have below : (r.fill capacity rate time).level ≤ capacity := fill_level_le bounded
    by_cases before : time < t
    · obtain ⟨-, ordered⟩ := pairwise_cons.mp sorted
      obtain ⟨cost, others⟩ := forall_mem_cons.mp costs
      cases request with
      | none => exact ih level below ordered others
      | some cost' =>
        rw [grants]
        split
        · rename_i granted
          have outside : ¬(t ≤ time ∧ time ≤ u) := fun inside => not_le.mpr before inside.1
          rw [filter_cons_of_neg (by simpa using outside)]
          exact ih (sub_nonneg.mpr granted) ((sub_le_self _ (cost cost' rfl)).trans below) ordered others
        · exact ih level below ordered others
    · have start : t ≤ time := not_lt.mp before
      have inside : (grants capacity rate r ((time, request) :: rest)).filter (fun grant => t ≤ grant.1 ∧ grant.1 ≤ u) =
          (grants capacity rate r ((time, request) :: rest)).filter (·.1 ≤ u) := by
        refine filter_congr fun grant mem => ?_
        have after : t ≤ grant.1 := by
          rcases mem_cons.mp (grants_time mem) with now | later
          · rwa [now]
          · exact start.trans ((pairwise_cons.mp sorted).1 _ later)
        simp [after]
      have bound := @total_until_le _ _ _ capacity rate (r.fill capacity rate time) u _ _ pos level below sorted costs
      rw [grants_fill] at bound
      rw [inside]
      refine bound.trans (add_le_add below (mul_le_mul_of_nonneg_right ?_ pos))
      rw [fill_since]
      have caught : t ≤ max r.since time := start.trans (le_max_right _ _)
      rcases le_total (max r.since time) u with earlier | later
      · rw [max_eq_right earlier]
        linarith
      · rw [max_eq_left later, sub_self]
        exact sub_nonneg.mpr forward

end

end Reservoir

end Lib
