import Mathlib.Data.List.Basic
import Mathlib.Algebra.Order.Ring.Int

namespace Lib.Merkle

open List

variable {α β : Type}

/-- The next level: neighbours are combined, and an unpaired last node moves up as it is. -/
def pairUp (combine : α → α → α) : List α → List α
  | [] => []
  | [a] => [a]
  | a :: b :: rest => combine a b :: pairUp combine rest

def sibling : List α → Nat → Option α
  | _ :: b :: _, 0 => some b
  | a :: _ :: _, 1 => some a
  | _ :: _ :: rest, idx + 2 => sibling rest idx
  | _, _ => none

theorem length_pairUp (combine : α → α → α) (level : List α) :
    (pairUp combine level).length = (level.length + 1) / 2 := by
  fun_induction pairUp combine level with
  | case1 => simp
  | case2 => simp
  | case3 a b rest ih =>
    simp only [length_cons, ih]
    omega

def root (combine : α → α → α) (empty : α) (level : List α) : α :=
  if level.length ≤ 1 then level.headD empty else root combine empty (pairUp combine level)
termination_by level.length
decreasing_by
  rw [length_pairUp]
  omega

/-- The siblings on the way from `idx` to the root, lowest first. An unpaired node has none. -/
def siblings (combine : α → α → α) (level : List α) (idx : Nat) : List α :=
  if level.length ≤ 1 then [] else (sibling level idx).toList ++ siblings combine (pairUp combine level) (idx / 2)
termination_by level.length
decreasing_by
  rw [length_pairUp]
  omega

def climb (combine : α → α → α) : Nat → List α → α → α
  | _, [], node => node
  | idx, s :: rest, node => climb combine (idx / 2) rest (if idx % 2 = 0 then combine node s else combine s node)

section Levels

variable {combine : α → α → α} {empty : α} {level : List α} {idx : Nat}

theorem root_short (short : level.length ≤ 1) : root combine empty level = level.headD empty := by
  rw [root, if_pos short]

theorem root_long (long : 1 < level.length) : root combine empty level = root combine empty (pairUp combine level) := by
  rw [root, if_neg (by omega)]

theorem siblings_short (short : level.length ≤ 1) : siblings combine level idx = [] := by
  rw [siblings, if_pos short]

theorem siblings_long (long : 1 < level.length) : siblings combine level idx =
    (sibling level idx).toList ++ siblings combine (pairUp combine level) (idx / 2) := by
  rw [siblings, if_neg (by omega)]

theorem level_induction {P : List α → Prop} (combine : α → α → α) (short : ∀ level, level.length ≤ 1 → P level)
    (long : ∀ level, 1 < level.length → P (pairUp combine level) → P level) (level : List α) : P level := by
  generalize known : level.length = n
  induction n using Nat.strong_induction_on generalizing level with
  | _ n ih =>
    by_cases alone : level.length ≤ 1
    · exact short level alone
    · have fewer : (pairUp combine level).length < n := by
        rw [length_pairUp]
        omega
      exact long level (by omega) (ih _ fewer _ rfl)

theorem sibling_step (combine : α → α → α) {node : α} (found : level[idx]? = some node)
    (paired : ¬ (level.length % 2 = 1 ∧ idx + 1 = level.length)) : ∃ s, sibling level idx = some s ∧
      (pairUp combine level)[idx / 2]? = some (if idx % 2 = 0 then combine node s else combine s node) := by
  fun_induction sibling level idx with
  | case1 a b rest =>
    cases found
    exact ⟨b, rfl, rfl⟩
  | case2 a b rest =>
    cases found
    exact ⟨a, rfl, rfl⟩
  | case3 a b rest idx ih =>
    simp only [getElem?_cons_succ] at found
    simp only [length_cons] at paired
    obtain ⟨s, known, up⟩ := ih found (by omega)
    refine ⟨s, known, ?_⟩
    have half : (idx + 2) / 2 = idx / 2 + 1 := by omega
    have parity : (idx + 2) % 2 = idx % 2 := by omega
    rw [half, parity, pairUp, getElem?_cons_succ]
    exact up
  | case4 level idx first second later =>
    match level, idx with
    | [], _ => cases found
    | [a], 0 => exact absurd ⟨rfl, rfl⟩ paired
    | [a], idx + 1 => cases found
    | a :: b :: rest, 0 => exact (first a b rest rfl rfl).elim
    | a :: b :: rest, 1 => exact (second a b rest rfl rfl).elim
    | a :: b :: rest, idx + 2 => exact (later a b rest idx rfl rfl).elim

end Levels

/-- `l` levels up from `n` leaves, the node over leaf `idx` is the unpaired last of several. -/
def Unpaired (n idx l : Nat) : Prop :=
  let width := (n + 2 ^ l - 1) / 2 ^ l
  1 < width ∧ width % 2 = 1 ∧ idx / 2 ^ l + 1 = width

instance (n idx l : Nat) : Decidable (Unpaired n idx l) := inferInstanceAs (Decidable (_ ∧ _ ∧ _))

theorem unpaired_zero (n idx : Nat) : Unpaired n idx 0 ↔ 1 < n ∧ n % 2 = 1 ∧ idx + 1 = n := by
  simp [Unpaired]

theorem unpaired_succ (n idx l : Nat) : Unpaired n idx (l + 1) ↔ Unpaired ((n + 1) / 2) (idx / 2) l := by
  have power : 2 ^ (l + 1) = 2 * 2 ^ l := by rw [Nat.pow_succ, Nat.mul_comm]
  have pos : 0 < 2 ^ l := Nat.two_pow_pos l
  have half : (n + 2 * 2 ^ l - 1) / 2 = (n + 1) / 2 + 2 ^ l - 1 := by omega
  have width : (n + 2 ^ (l + 1) - 1) / 2 ^ (l + 1) = ((n + 1) / 2 + 2 ^ l - 1) / 2 ^ l := by
    rw [power, ← Nat.div_div_eq_div_mul, half]
  have above : idx / 2 ^ (l + 1) = idx / 2 / 2 ^ l := by rw [power, Nat.div_div_eq_div_mul]
  unfold Unpaired
  rw [width, above]

theorem Unpaired.several {n idx l : Nat} (unpaired : Unpaired n idx l) : 1 < n := by
  induction l generalizing n idx with
  | zero => exact ((unpaired_zero n idx).mp unpaired).1
  | succ l ih =>
    have above := ih ((unpaired_succ n idx l).mp unpaired)
    omega

/-- The path of a leaf that meets a pair at every level reaches the root. -/
theorem climb_siblings (combine : α → α → α) (empty : α) (level : List α) (idx : Nat) (node : α)
    (found : level[idx]? = some node) (paired : ∀ l, ¬ Unpaired level.length idx l) :
    climb combine idx (siblings combine level idx) node = root combine empty level := by
  induction level using level_induction combine generalizing idx node with
  | short level short =>
    rw [siblings_short short, root_short short]
    match level, idx with
    | [], _ => cases found
    | [a], 0 => exact (Option.some.inj found).symm
    | [a], idx + 1 => cases found
    | _ :: _ :: _, _ => simp at short
  | long level long ih =>
    have here := paired 0
    rw [unpaired_zero] at here
    obtain ⟨s, known, up⟩ := sibling_step combine found (by omega)
    rw [siblings_long long, root_long long, known]
    refine ih (idx / 2) _ up fun l => ?_
    rw [length_pairUp, ← unpaired_succ]
    exact paired (l + 1)

theorem length_siblings_le (combine : α → α → α) {level : List α} {height : Nat} (size : level.length ≤ 2 ^ height)
    (idx : Nat) : (siblings combine level idx).length ≤ height := by
  induction height generalizing level idx with
  | zero =>
    rw [siblings_short size]
    exact Nat.le_refl 0
  | succ height ih =>
    by_cases short : level.length ≤ 1
    · rw [siblings_short short]
      exact Nat.zero_le _
    · have fewer : (pairUp combine level).length ≤ 2 ^ height := by
        rw [length_pairUp]
        rw [Nat.pow_succ] at size
        omega
      have above := ih fewer (idx / 2)
      have here : (sibling level idx).toList.length ≤ 1 := by cases sibling level idx <;> simp
      rw [siblings_long (by omega), length_append]
      omega

theorem siblings_first (combine : α → α → α) {level : List α} (long : 1 < level.length) :
    siblings combine level 0 ≠ [] := by
  rw [siblings_long long]
  match level with
  | _ :: _ :: _ => exact cons_ne_nil _ _

theorem climb_first (f : α → α) (path : List α) (node : α) :
    climb (fun a _ => f a) 0 path node = f^[path.length] node := by
  induction path generalizing node with
  | nil => rfl
  | cons _ rest ih =>
    rw [length_cons, Function.iterate_succ_apply, ← ih]
    rfl

section Maps

variable {combine : α → α → α} {other : β → β → β} {φ : α → β}

theorem pairUp_map (respects : ∀ a b, φ (combine a b) = other (φ a) (φ b)) (level : List α) :
    pairUp other (level.map φ) = (pairUp combine level).map φ := by
  fun_induction pairUp combine level with
  | case1 => rfl
  | case2 => rfl
  | case3 a b rest ih => rw [map_cons, map_cons, pairUp, ih, map_cons, respects]

theorem sibling_map (level : List α) (idx : Nat) : sibling (level.map φ) idx = (sibling level idx).map φ := by
  fun_induction sibling level idx with
  | case1 => rfl
  | case2 => rfl
  | case3 _ _ _ _ ih => exact ih
  | case4 level idx first second later =>
    match level, idx with
    | [], _ => rfl
    | [a], 0 => rfl
    | [a], idx + 1 => rfl
    | a :: b :: rest, 0 => exact (first a b rest rfl rfl).elim
    | a :: b :: rest, 1 => exact (second a b rest rfl rfl).elim
    | a :: b :: rest, idx + 2 => exact (later a b rest idx rfl rfl).elim

section

variable (respects : ∀ a b, φ (combine a b) = other (φ a) (φ b))

include respects

theorem root_map (empty : α) (level : List α) : root other (φ empty) (level.map φ) = φ (root combine empty level) := by
  induction level using level_induction combine with
  | short level short =>
    rw [root_short short, root_short (by rwa [length_map])]
    cases level <;> rfl
  | long level long ih =>
    rw [root_long long, root_long (by rwa [length_map]), pairUp_map respects, ih]

theorem siblings_map (level : List α) (idx : Nat) :
    siblings other (level.map φ) idx = (siblings combine level idx).map φ := by
  induction level using level_induction combine generalizing idx with
  | short level short =>
    rw [siblings_short short, siblings_short (by rwa [length_map])]
    rfl
  | long level long ih =>
    rw [siblings_long long, siblings_long (by rwa [length_map]), pairUp_map respects, ih, sibling_map,
      map_append]
    cases sibling level idx <;> rfl

theorem climb_map (idx : Nat) (path : List α) (node : α) :
    climb other idx (path.map φ) (φ node) = φ (climb combine idx path node) := by
  induction path generalizing idx node with
  | nil => rfl
  | cons s rest ih =>
    rw [map_cons, climb, climb, ← ih]
    split
    · rw [respects]
    · rw [respects]

end

end Maps

section Counting

def count (_ right : Nat) : Nat := right + 1

/-- The counts over one leaf more than `n`, at height `k`: all but the last node are over full trees. -/
def heights (n k last : Nat) : List Nat := List.replicate n k ++ [last]

variable {n k last : Nat}

theorem length_heights (n k last : Nat) : (heights n k last).length = n + 1 := by simp [heights]

theorem pairUp_heights (n k last : Nat) : pairUp count (heights n k last) =
    heights (n / 2) (k + 1) (if n % 2 = 1 then last + 1 else last) := by
  induction n using Nat.twoStepInduction with
  | zero => rfl
  | one => rfl
  | more n ih _ =>
    have half : (n + 2) / 2 = n / 2 + 1 := by omega
    have parity : (n + 2) % 2 = n % 2 := by omega
    rw [half, parity]
    exact congrArg (List.cons (k + 1)) ih

theorem sibling_heights (n k last : Nat) : sibling (heights n k last) n = if n % 2 = 1 then some k else none := by
  induction n using Nat.twoStepInduction with
  | zero => rfl
  | one => rfl
  | more n ih _ =>
    have parity : (n + 2) % 2 = n % 2 := by omega
    rw [parity]
    exact ih

theorem root_heights (several : n ≠ 0) : root count 0 (heights n k last) =
    root count 0 (heights (n / 2) (k + 1) (if n % 2 = 1 then last + 1 else last)) := by
  rw [root_long (by rw [length_heights]; omega), pairUp_heights]

theorem siblings_heights (several : n ≠ 0) : siblings count (heights n k last) n =
    (if n % 2 = 1 then [k] else []) ++
      siblings count (heights (n / 2) (k + 1) (if n % 2 = 1 then last + 1 else last)) (n / 2) := by
  rw [siblings_long (by rw [length_heights]; omega), sibling_heights, pairUp_heights]
  split <;> rfl

theorem climb_ahead (low : last < k) {node : Nat} (ahead : last < node) (idx : Nat) :
    root count 0 (heights n k last) < climb count idx (siblings count (heights n k last) n) node := by
  induction n using Nat.strong_induction_on generalizing k last node idx with
  | _ n ih =>
    by_cases alone : n = 0
    · subst alone
      have short (last : Nat) : (heights 0 k last).length ≤ 1 := Nat.le_refl 1
      rw [root_short (short last), siblings_short (short last)]
      exact ahead
    · rw [root_heights alone, siblings_heights alone]
      split
      · apply ih (n / 2) (by omega) (by omega)
        split
        · exact Nat.succ_lt_succ low
        · exact Nat.succ_lt_succ ahead
      · exact ih (n / 2) (by omega) (by omega) ahead idx

theorem climb_left (low : last < k) (several : n ≠ 0) {idx : Nat} (even : idx % 2 = 0) (node : Nat) :
    root count 0 (heights n k last) < climb count idx (siblings count (heights n k last) n) node := by
  induction n using Nat.strong_induction_on generalizing k last with
  | _ n ih =>
    rw [root_heights several, siblings_heights several]
    split
    · apply climb_ahead (by omega)
      rw [if_pos even]
      exact Nat.succ_lt_succ low
    · exact ih (n / 2) (by omega) (by omega) (by omega)

theorem climb_unpaired (low : last ≤ k) {idx : Nat} (within : idx ≤ n) (node l : Nat)
    (unpaired : Unpaired (n + 1) idx l) :
    root count 0 (heights n k last) < climb count idx (siblings count (heights n k last) idx) node := by
  induction n using Nat.strong_induction_on generalizing k last idx node l with
  | _ n ih =>
    have several := unpaired.several
    by_cases here : n % 2 = 0 ∧ idx = n
    · obtain ⟨even, rfl⟩ := here
      rw [root_heights (by omega), siblings_heights (by omega), if_neg (by omega), if_neg (by omega)]
      exact climb_left (by omega) (by omega) even node
    · have length := length_heights n k last
      have above : ∃ l, Unpaired (n / 2 + 1) (idx / 2) l := by
        cases l with
        | zero =>
          have alone := (unpaired_zero ..).mp unpaired
          omega
        | succ l =>
          have half : (n + 1 + 1) / 2 = n / 2 + 1 := by omega
          rw [unpaired_succ, half] at unpaired
          exact ⟨l, unpaired⟩
      obtain ⟨l, above⟩ := above
      have found : (heights n k last)[idx]? = some _ := getElem?_eq_getElem (by omega)
      obtain ⟨s, known, _⟩ := sibling_step count found (by omega)
      rw [root_heights (by omega), siblings_long (by omega), known, pairUp_heights]
      apply ih (n / 2) (by omega) _ (by omega) _ l above
      split
      · omega
      · omega

theorem pairUp_count {level : List Nat} (bounded : ∀ node ∈ level, node ≤ k) :
    ∀ node ∈ pairUp count level, node ≤ k + 1 := by
  fun_induction pairUp count level with
  | case1 => exact fun _ mem => absurd mem not_mem_nil
  | case2 a => exact fun node mem => Nat.le_succ_of_le (bounded node mem)
  | case3 a b rest ih =>
    intro node mem
    obtain rfl | later := mem_cons.mp mem
    · exact Nat.succ_le_succ (bounded b (.tail _ (.head _)))
    · exact ih (fun node mem => bounded node (.tail _ (.tail _ mem))) node later

theorem sibling_mem {level : List α} {idx : Nat} {s : α} (known : sibling level idx = some s) : s ∈ level := by
  fun_induction sibling level idx with
  | case1 => simp_all
  | case2 => simp_all
  | case3 a b rest idx ih => exact .tail _ (.tail _ (ih known))
  | case4 => cases known

theorem climb_le {level : List Nat} {height node : Nat} (bounded : ∀ node ∈ level, node ≤ k) (low : node ≤ k)
    (size : level.length ≤ 2 ^ height) (idx at_ : Nat) :
    climb count at_ (siblings count level idx) node ≤ k + height := by
  induction height generalizing level k node idx at_ with
  | zero =>
    rw [siblings_short size]
    exact low
  | succ height ih =>
    by_cases short : level.length ≤ 1
    · rw [siblings_short short]
      exact Nat.le_add_right_of_le low
    · have fewer : (pairUp count level).length ≤ 2 ^ height := by
        rw [length_pairUp]
        rw [Nat.pow_succ] at size
        omega
      have sum : k + (height + 1) = k + 1 + height := by omega
      rw [siblings_long (by omega), sum]
      cases known : sibling level idx with
      | none => exact ih (pairUp_count bounded) (Nat.le_succ_of_le low) fewer _ _
      | some s =>
        apply ih (pairUp_count bounded) _ fewer
        split
        · exact Nat.succ_le_succ (bounded s (sibling_mem known))
        · exact Nat.succ_le_succ low

end Counting

theorem root_nonempty (combine : α → α → α) (empty other : α) {level : List α} (some : level ≠ []) :
    root combine empty level = root combine other level := by
  induction level using level_induction combine with
  | short level short =>
    rw [root_short short, root_short short]
    cases level with
    | nil => exact absurd rfl some
    | cons => rfl
  | long level long ih =>
    rw [root_long long, root_long long]
    refine ih fun none => ?_
    have length := length_pairUp combine level
    rw [none, length_nil] at length
    omega

def trace (_ right : Nat × Nat) : Nat × Nat := (right.1, right.2 + 1)

def leaves (n : Nat) : List (Nat × Nat) := (List.range (n + 1)).map fun i => (i, 0)

theorem leaves_counts (n : Nat) : (leaves n).map Prod.snd = heights n 0 0 := by
  rw [leaves, map_map, heights, ← replicate_succ']
  exact eq_replicate_iff.mpr ⟨by simp, by simp⟩

def landed (f : α → α) (leaf : Nat → α) (node : Nat × Nat) : α := f^[node.2] (leaf node.1)

theorem landed_trace (f : α → α) (leaf : Nat → α) (a b : Nat × Nat) :
    landed f leaf (trace a b) = f (landed f leaf b) := Function.iterate_succ_apply' f b.2 (leaf b.1)

theorem landed_leaves (f : α → α) (leaf : Nat → α) (n : Nat) :
    (leaves n).map (landed f leaf) = (List.range (n + 1)).map leaf := by
  rw [leaves, map_map]
  rfl

/-- Where the right side of each pair goes through `f`, the root and the climb of an unpaired path each are a leaf that
    went through `f`, the climb's more often. -/
theorem unpaired_departs {n idx l height : Nat} (within : idx < n) (unpaired : Unpaired n idx l)
    (size : n ≤ 2 ^ height) : ∃ i j r c, r < c ∧ c ≤ height ∧ ∀ (f : α → α) (empty : α) (leaf : Nat → α),
      root (fun _ b => f b) empty ((List.range n).map leaf) = f^[r] (leaf i) ∧
        climb (fun _ b => f b) idx (siblings (fun _ b => f b) ((List.range n).map leaf) idx) (leaf idx) =
          f^[c] (leaf j) := by
  obtain ⟨n, rfl⟩ : ∃ m, n = m + 1 := ⟨n - 1, by omega⟩
  let top := root trace (0, 0) (leaves n)
  let reached := climb trace idx (siblings trace (leaves n) idx) (idx, 0)
  have rises (a b : Nat × Nat) : (trace a b).2 = count a.2 b.2 := rfl
  have topCount : root count 0 (heights n 0 0) = top.2 := by
    rw [← leaves_counts]
    exact root_map rises (0, 0) (leaves n)
  have reachedCount : climb count idx (siblings count (heights n 0 0) idx) 0 = reached.2 := by
    rw [← leaves_counts, siblings_map rises]
    exact climb_map rises idx _ (idx, 0)
  refine ⟨top.1, reached.1, top.2, reached.2, ?_, ?_, fun f empty leaf => ?_⟩
  · rw [← topCount, ← reachedCount]
    exact climb_unpaired (Nat.le_refl 0) (by omega) 0 l unpaired
  · have low (node : Nat) (mem : node ∈ heights n 0 0) : node ≤ 0 := by
      rw [heights, ← replicate_succ'] at mem
      exact Nat.le_of_eq (eq_of_mem_replicate mem)
    have bound := climb_le low (Nat.le_refl 0) (by rwa [length_heights]) idx idx
    rwa [reachedCount, Nat.zero_add] at bound
  · have some : (leaves n).map (landed f leaf) ≠ [] := by simp [leaves]
    rw [← landed_leaves]
    constructor
    · rw [root_nonempty _ empty (landed f leaf (0, 0)) some]
      exact root_map (landed_trace f leaf) (0, 0) (leaves n)
    · rw [siblings_map (landed_trace f leaf)]
      exact climb_map (landed_trace f leaf) idx _ (idx, 0)

end Lib.Merkle
