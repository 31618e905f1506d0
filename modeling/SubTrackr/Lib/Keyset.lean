import Mathlib.Data.List.Sort
import Mathlib.Data.Prod.Lex

namespace Lib.Keyset

open List

variable {ρ K : Type*} [LinearOrder K] {key : ρ → K} {limit : ℕ} {rows ordered : List ρ} {last row : ρ}

structure Ordered (key : ρ → K) (rows ordered : List ρ) : Prop where
  perm : ordered.Perm rows
  sorted : (ordered.map key).Pairwise (· ≤ ·)

def after (key : ρ → K) (rows : List ρ) (last : ρ) : List ρ := rows.filter fun row => key last < key row

def page (limit : ℕ) (ordered : List ρ) : List ρ := if limit < ordered.length then ordered.take limit else ordered

def next (limit : ℕ) (ordered : List ρ) : Option ρ := if limit < ordered.length then (ordered.take limit).getLast? else none

inductive Trail (key : ρ → K) (limit : ℕ) (rows : List ρ) : ρ → List (List ρ) → Option ρ → Prop
  | page {last : ρ} {ordered : List ρ} : Ordered key (after key rows last) ordered →
    Trail key limit rows last [page limit ordered] (next limit ordered)
  | more {last row : ρ} {ordered : List ρ} {pages : List (List ρ)} {stop : Option ρ} :
    Ordered key (after key rows last) ordered → next limit ordered = some row → Trail key limit rows row pages stop →
    Trail key limit rows last (page limit ordered :: pages) stop

theorem exists_ordered (key : ρ → K) (rows : List ρ) : ∃ ordered, Ordered key rows ordered := by
  refine ⟨rows.insertionSort (fun a b => key a ≤ key b), perm_insertionSort _ _, ?_⟩
  have : Std.Total (fun a b : ρ => key a ≤ key b) := ⟨fun a b => le_total _ _⟩
  have : IsTrans ρ (fun a b => key a ≤ key b) := ⟨fun _ _ _ => le_trans⟩
  exact pairwise_map.mpr (pairwise_insertionSort _ _)

theorem next_none (some : 0 < limit) : next limit ordered = none ↔ ordered.length ≤ limit := by
  unfold next
  split
  · rename_i long
    refine iff_of_false ?_ (by omega)
    rw [getLast?_eq_none_iff, take_eq_nil_iff]
    rintro (none | none)
    · omega
    · rw [none] at long
      exact Nat.not_lt_zero _ long
  · exact iff_of_true rfl (by omega)

theorem next_some (found : next limit ordered = some row) :
    ∃ before rest, ordered = before ++ row :: rest ∧ before.length + 1 = limit ∧ page limit ordered = before ++ [row] ∧
      rest ≠ [] := by
  unfold next at found
  split at found
  · rename_i long
    obtain ⟨before, taken⟩ := getLast?_eq_some_iff.mp found
    refine ⟨before, ordered.drop limit, ?_, ?_, ?_, ?_⟩
    · have whole := take_append_drop limit ordered
      rw [taken, append_assoc] at whole
      exact whole.symm
    · have length := congrArg List.length taken
      rw [length_take, length_append, length_singleton] at length
      omega
    · rw [page, if_pos long, taken]
    · rw [Ne, drop_eq_nil_iff]
      omega
  · cases found

theorem filter_after {before rest : List ρ} (earlier : ∀ r ∈ before, key r ≤ key row) (later : ∀ r ∈ rest, key row < key r) :
    (before ++ row :: rest).filter (fun r => key row < key r) = rest := by
  have skipped : before.filter (fun r => key row < key r) = [] := by
    refine filter_eq_nil_iff.mpr fun r mem => ?_
    simpa using earlier r mem
  have kept : rest.filter (fun r => key row < key r) = rest := by
    refine filter_eq_self.mpr fun r mem => ?_
    simpa using later r mem
  rw [filter_append, filter_cons_of_neg (by simp), skipped, kept, nil_append]

theorem Ordered.around {before rest : List ρ} (order : Ordered key rows (before ++ row :: rest)) :
    (∀ r ∈ before, key r ≤ key row) ∧ (∀ r ∈ rest, key row ≤ key r) ∧ ∀ r ∈ before, ∀ r' ∈ rest, key r ≤ key r' := by
  have sorted := pairwise_map.mp order.sorted
  rw [pairwise_append, pairwise_cons] at sorted
  obtain ⟨-, ⟨later, -⟩, earlier⟩ := sorted
  exact ⟨fun r mem => earlier r mem row mem_cons_self, later,
    fun r mem r' mem' => earlier r mem r' (mem_cons_of_mem _ mem')⟩

section

variable (distinct : (rows.map key).Nodup)

include distinct

theorem after_distinct (last : ρ) : ((after key rows last).map key).Nodup :=
  distinct.sublist (filter_sublist.map key)

theorem Ordered.rest {before rest : List ρ}
    (order : Ordered key (after key rows last) (before ++ row :: rest)) : rest.Perm (after key rows row) := by
  have mem : row ∈ after key rows last := order.perm.mem_iff.mp (by simp)
  have beyond : key last < key row := by simpa using (mem_filter.mp mem).2
  have narrowed : (after key rows last).filter (fun r => key row < key r) = after key rows row := by
    unfold after
    rw [filter_filter]
    refine filter_congr fun r _ => ?_
    by_cases further : key row < key r
    · simp [further, beyond.trans further]
    · simp [further]
  have nodup : ((before ++ row :: rest).map key).Nodup := (order.perm.map key).nodup_iff.mpr (after_distinct distinct last)
  obtain ⟨earlier, later, -⟩ := order.around
  have strictly (r : ρ) (mem : r ∈ rest) : key row < key r := by
    refine lt_of_le_of_ne (later r mem) fun same => ?_
    rw [map_append, map_cons] at nodup
    exact (nodup_cons.mp nodup.of_append_right).1 (same ▸ mem_map_of_mem mem)
  have kept := order.perm.filter fun r => key row < key r
  rwa [filter_after earlier strictly, narrowed] at kept

theorem Trail.length_le {pages : List (List ρ)} {stop : Option ρ}
    (trail : Trail key limit rows last pages stop) : pages.length ≤ (after key rows last).length + 1 := by
  induction trail with
  | page _ => simp
  | more order found _ ih =>
    obtain ⟨before, rest, rfl, -, -, -⟩ := next_some found
    have length := order.perm.length_eq
    rw [length_append, length_cons, (order.rest distinct).length_eq] at length
    rw [length_cons]
    omega

theorem Trail.visits {pages : List (List ρ)} {stop : Option ρ} (some : 0 < limit)
    (trail : Trail key limit rows last pages stop) (done : stop = none) :
    Ordered key (after key rows last) pages.flatten := by
  induction trail with
  | page order =>
    have short := (next_none some).mp done
    rw [Keyset.page, if_neg (by omega)]
    simpa using order
  | @more last row ordered pages stop order found _ ih =>
    obtain ⟨before, rest, rfl, -, whole, -⟩ := next_some found
    have left := order.rest distinct
    have tail := ih done
    have left' := (tail.perm.trans left.symm)
    obtain ⟨earlier, later, across⟩ := order.around
    rw [flatten_cons, whole, append_assoc]
    refine ⟨(left'.cons row).append_left before |>.trans order.perm, pairwise_map.mpr ?_⟩
    have sorted := pairwise_map.mp order.sorted
    refine pairwise_append.mpr ⟨(pairwise_append.mp sorted).1, pairwise_cons.mpr ⟨?_, pairwise_map.mp tail.sorted⟩, ?_⟩
    · exact fun r mem => later r (left'.mem_iff.mp mem)
    · intro r mem r' mem'
      rcases mem_cons.mp mem' with rfl | further
      · exact earlier r mem
      · exact across r mem r' (left'.mem_iff.mp further)

end

theorem exists_trail (limit : ℕ) (distinct : (rows.map key).Nodup) (last : ρ) :
    ∃ pages, Trail key limit rows last pages none := by
  induction left : (after key rows last).length using Nat.strong_induction_on generalizing last with
  | _ n ih =>
    obtain ⟨ordered, order⟩ := exists_ordered key (after key rows last)
    cases found : next limit ordered with
    | none =>
      have trail : Trail key limit rows last [page limit ordered] (next limit ordered) := .page order
      rw [found] at trail
      exact ⟨_, trail⟩
    | some row =>
      obtain ⟨before, rest, rfl, -, -, -⟩ := next_some found
      have length := order.perm.length_eq
      rw [length_append, length_cons, (order.rest distinct).length_eq] at length
      obtain ⟨pages, trail⟩ := ih _ (by omega) row rfl
      exact ⟨_, .more order found trail⟩

section FirstPage

variable {V I : Type*} [LinearOrder V] [LinearOrder I] {value : ρ → V} {id : ρ → I}

def composite (value : ρ → V) (id : ρ → I) (row : ρ) : V ×ₗ I := toLex (value row, id row)

/-- Pages of which the first is in an order of the values only, and the others are in the composite order. -/
inductive Paging (value : ρ → V) (id : ρ → I) (limit : ℕ) (rows : List ρ) : List (List ρ) → Option ρ → Prop
  | page {ordered : List ρ} : Ordered value rows ordered → Paging value id limit rows [page limit ordered] (next limit ordered)
  | more {ordered : List ρ} {row : ρ} {pages : List (List ρ)} {stop : Option ρ} :
    Ordered value rows ordered → next limit ordered = some row → Trail (composite value id) limit rows row pages stop →
    Paging value id limit rows (page limit ordered :: pages) stop

/-- No other row has the value of the last row of a first page of this length. -/
def Separated (value : ρ → V) (limit : ℕ) (rows : List ρ) : Prop :=
  ∃ row ∈ rows, (rows.countP fun r => value r < value row) + 1 = limit ∧ ∀ r ∈ rows, value r = value row → r = row

omit [LinearOrder V] [LinearOrder I] in
theorem composite_distinct (value : ρ → V) (distinct : (rows.map id).Nodup) : (rows.map (composite value id)).Nodup := by
  refine List.Nodup.of_map (fun k : V ×ₗ I => (ofLex k).2) ?_
  rw [map_map]
  exact distinct

theorem composite_lt {a b : ρ} : composite value id a < composite value id b ↔
    value a < value b ∨ value a = value b ∧ id a < id b := Prod.Lex.toLex_lt_toLex

theorem composite_le {a b : ρ} : composite value id a ≤ composite value id b ↔
    value a < value b ∨ value a = value b ∧ id a ≤ id b := Prod.Lex.toLex_le_toLex

omit [LinearOrder I] in
theorem separated_page {before rest : List ρ} (distinct : (rows.map id).Nodup) (separated : Separated value limit rows)
    (order : Ordered value rows (before ++ row :: rest)) (length : before.length + 1 = limit) :
    (∀ r ∈ before, value r < value row) ∧ ∀ r ∈ rest, value row < value r := by
  obtain ⟨only, member, count, unique⟩ := separated
  have inside (r : ρ) (mem : r ∈ before ++ row :: rest) (same : value r = value only) : r = only :=
    unique r (order.perm.mem_iff.mp mem) same
  have nodup : (before ++ row :: rest).Nodup := order.perm.nodup_iff.mpr (distinct.of_map id)
  have counted : before.countP (fun r => value r < value only) + (row :: rest).countP (fun r => value r < value only) =
      before.length := by
    rw [← countP_append, order.perm.countP_eq]
    omega
  obtain ⟨earlier, later, across⟩ := order.around
  have mem := order.perm.mem_iff.mpr member
  rw [mem_append, mem_cons] at mem
  have same : only = row := by
    rcases mem with first | this | last
    · have none : (row :: rest).countP (fun r => value r < value only) = 0 := by
        refine countP_eq_zero.mpr fun r member => ?_
        rcases mem_cons.mp member with rfl | further
        · simpa using earlier only first
        · simpa using across only first r further
      have fewer : before.countP (fun r => value r < value only) ≠ before.length := by
        intro all
        simpa using countP_eq_length.mp all only first
      omega
    · exact this
    · have all : before.countP (fun r => value r < value only) = before.length := by
        refine countP_eq_length.mpr fun r member => ?_
        refine decide_eq_true (lt_of_le_of_ne (across r member only last) fun same => ?_)
        have here := inside r (mem_append_left _ member) same
        rw [here] at member
        exact (nodup_append.mp nodup).2.2 only member only (mem_cons_of_mem _ last) rfl
      have too : 0 < (row :: rest).countP (fun r => value r < value only) := by
        refine countP_pos_iff.mpr ⟨row, mem_cons_self, ?_⟩
        refine decide_eq_true (lt_of_le_of_ne (later only last) fun same => ?_)
        have here := inside row (mem_append_right _ mem_cons_self) same
        rw [← here] at last
        exact (nodup_cons.mp nodup.of_append_right).1 last
      omega
  subst same
  refine ⟨fun r member => ?_, fun r member => ?_⟩
  · refine lt_of_le_of_ne (earlier r member) fun same => ?_
    have here := inside r (mem_append_left _ member) same
    rw [here] at member
    exact (nodup_append.mp nodup).2.2 only member only mem_cons_self rfl
  · refine lt_of_le_of_ne (later r member) fun same => ?_
    have here := inside r (mem_append_right _ (mem_cons_of_mem _ member)) same.symm
    rw [here] at member
    exact (nodup_cons.mp nodup.of_append_right).1 member

theorem Paging.length_le {pages : List (List ρ)} {stop : Option ρ} (distinct : (rows.map id).Nodup)
    (paging : Paging value id limit rows pages stop) : pages.length ≤ rows.length + 1 := by
  cases paging with
  | page _ => simp
  | @more _ row _ _ order found trail =>
    obtain ⟨before, rest, rfl, -, -, -⟩ := next_some found
    have mem : row ∈ rows := order.perm.mem_iff.mp (mem_append_right before mem_cons_self)
    have fewer : (after (composite value id) rows row).length < rows.length :=
      length_filter_lt_length_iff_exists.mpr ⟨row, mem, by simp⟩
    have more := trail.length_le (composite_distinct value distinct)
    rw [length_cons]
    omega

theorem visits_iff (distinct : (rows.map id).Nodup) (some : 0 < limit) :
    (∀ pages, Paging value id limit rows pages none → Ordered value rows pages.flatten) ↔
      rows.length ≤ limit ∨ Separated value limit rows := by
  have keys := composite_distinct value distinct
  constructor
  · intro visits
    refine or_iff_not_imp_left.mpr fun long => ?_
    -- a first page on which equal values come with descending identities
    obtain ⟨ordered, reversed⟩ := exists_ordered (fun r => toLex (value r, OrderDual.toDual (id r))) rows
    have order : Ordered value rows ordered := by
      refine ⟨reversed.perm, pairwise_map.mpr ((pairwise_map.mp reversed.sorted).imp fun le => ?_)⟩
      rcases Prod.Lex.toLex_le_toLex.mp le with less | ⟨same, -⟩
      · exact less.le
      · exact same.le
    have more : next limit ordered ≠ none := by
      rw [Ne, next_none some, order.perm.length_eq]
      exact long
    obtain ⟨row, found⟩ := Option.ne_none_iff_exists'.mp more
    obtain ⟨before, rest, rfl, length, whole, -⟩ := next_some found
    obtain ⟨pages, trail⟩ := exists_trail limit keys row
    have visited := (visits _ (.more order found trail)).perm
    rw [flatten_cons, whole, append_assoc] at visited
    have remaining : (after (composite value id) rows row).Perm rest := by
      have both := visited.trans order.perm.symm
      rw [perm_append_left_iff] at both
      exact (trail.visits keys some rfl).perm.symm.trans (perm_cons row |>.mp both)
    have nodup : (before ++ row :: rest).Nodup := order.perm.nodup_iff.mpr (distinct.of_map id)
    obtain ⟨earlier, later, -⟩ := reversed.around
    have below (r : ρ) (mem : r ∈ before) : value r < value row := by
      rcases Prod.Lex.toLex_le_toLex.mp (earlier r mem) with less | ⟨same, le⟩
      · exact less
      · have apart : id row ≠ id r := by
          intro equal
          have here := inj_on_of_nodup_map distinct (order.perm.mem_iff.mp (by simp))
            (order.perm.mem_iff.mp (mem_append_left _ mem)) equal
          exact (nodup_append.mp nodup).2.2 r mem row mem_cons_self here.symm
        have beyond : composite value id row < composite value id r :=
          composite_lt.mpr (.inr ⟨same.symm, lt_of_le_of_ne (OrderDual.toDual_le_toDual.mp le) apart⟩)
        have again : r ∈ rest := by
          refine remaining.mem_iff.mp (mem_filter.mpr ⟨order.perm.mem_iff.mp (mem_append_left _ mem), ?_⟩)
          exact decide_eq_true beyond
        exact absurd rfl ((nodup_append.mp nodup).2.2 r mem r (mem_cons_of_mem _ again))
    have above (r : ρ) (mem : r ∈ rest) : value row < value r := by
      have beyond : composite value id row < composite value id r := by
        simpa using (mem_filter.mp (remaining.mem_iff.mpr mem)).2
      rcases Prod.Lex.toLex_le_toLex.mp (later r mem) with less | ⟨same, le⟩
      · exact less
      · rcases composite_lt.mp beyond with less | ⟨-, less⟩
        · exact less
        · exact absurd (OrderDual.toDual_le_toDual.mp le) (not_le.mpr less)
    refine ⟨row, order.perm.mem_iff.mp (by simp), ?_, fun r mem same => ?_⟩
    · have first : before.countP (fun r => value r < value row) = before.length :=
        countP_eq_length.mpr fun r mem => decide_eq_true (below r mem)
      have none : (row :: rest).countP (fun r => value r < value row) = 0 := by
        refine countP_eq_zero.mpr fun r mem => ?_
        rcases mem_cons.mp mem with rfl | last
        · simp
        · simpa using (above r last).le
      rw [← order.perm.countP_eq, countP_append, first, none]
      exact length
    · rcases mem_append.mp (order.perm.mem_iff.mpr mem) with first | second
      · exact absurd same (below r first).ne
      · rcases mem_cons.mp second with here | last
        · exact here
        · exact absurd same (above r last).ne'
  · intro cond pages paging
    generalize done : (none : Option ρ) = stop at paging
    cases paging with
    | page order =>
      have short := (next_none some).mp done.symm
      rw [page, if_neg (by omega)]
      simpa using order
    | @more ordered row pages stop order found trail =>
      subst done
      obtain ⟨before, rest, rfl, length, whole, left⟩ := next_some found
      have separated : Separated value limit rows := by
        refine cond.resolve_left fun short => ?_
        have rest_pos := length_pos_iff.mpr left
        rw [← order.perm.length_eq, length_append, length_cons] at short
        omega
      obtain ⟨below, above⟩ := separated_page distinct separated order length
      have remaining : (after (composite value id) rows row).Perm rest := by
        have kept := order.perm.filter fun r => composite value id row < composite value id r
        rw [filter_after (fun r mem => (composite_lt.mpr (.inl (below r mem))).le)
          (fun r mem => composite_lt.mpr (.inl (above r mem)))] at kept
        exact kept.symm
      have tail := trail.visits keys some rfl
      have tail' := tail.perm.trans remaining
      rw [flatten_cons, whole, append_assoc]
      refine ⟨((tail'.cons row).append_left before).trans order.perm, pairwise_map.mpr ?_⟩
      have sorted := pairwise_map.mp order.sorted
      have values : pages.flatten.Pairwise fun a b => value a ≤ value b := by
        refine (pairwise_map.mp tail.sorted).imp fun le => ?_
        rcases composite_le.mp le with less | ⟨same, -⟩
        · exact less.le
        · exact same.le
      refine pairwise_append.mpr ⟨(pairwise_append.mp sorted).1, pairwise_cons.mpr ⟨?_, values⟩, ?_⟩
      · exact fun r mem => (above r (tail'.mem_iff.mp mem)).le
      · intro r mem r' mem'
        rcases mem_cons.mp mem' with rfl | further
        · exact (below r mem).le
        · exact ((below r mem).trans (above r' (tail'.mem_iff.mp further))).le

end FirstPage

end Lib.Keyset
