import SubTrackr.Pagination.Cursor
import SubTrackr.Lib.Keyset
import Mathlib.Data.String.Basic

namespace SubTrackr.Pagination

open List Lib

variable {ρ V I : Type} [LinearOrder V] [LinearOrder I]

/-- A table's columns, in the order of the database. A value and an id are bound to parameters as they were written. -/
structure Schema (ρ V I : Type) where
  column : String → ρ → V
  id : ρ → I
  toJson : V → Json
  idText : I → String
  bind : Json → V
  bindId : String → I
  bind_toJson (v : V) : bind (toJson v) = v
  bindId_idText (i : I) : bindId (idText i) = i

def Direction.Before {K : Type} [LT K] : Direction → K → K → Prop
  | .asc, a, b => a < b
  | .desc, a, b => b < a

instance {K : Type} [LinearOrder K] (dir : Direction) (a b : K) : Decidable (dir.Before a b) := by
  cases dir
  · exact inferInstanceAs (Decidable (a < b))
  · exact inferInstanceAs (Decidable (b < a))

namespace Schema

variable (T : Schema ρ V I)

def Holds (condition : Condition) (param : Json) (id : String) (row : ρ) : Prop :=
  match condition.op with
  | .greater => toLex (T.bind param, T.bindId id) < toLex (T.column condition.field row, T.id row)
  | .less => toLex (T.column condition.field row, T.id row) < toLex (T.bind param, T.bindId id)

instance (condition : Condition) (param : Json) (id : String) (row : ρ) : Decidable (T.Holds condition param id row) := by
  unfold Holds
  cases condition.op <;> exact inferInstance

def Precedes : List (Column × Direction) → ρ → ρ → Prop
  | [], _, _ => True
  | (.named field, dir) :: rest, a, b =>
    dir.Before (T.column field a) (T.column field b) ∨ T.column field a = T.column field b ∧ Precedes rest a b
  | (.id, dir) :: rest, a, b => dir.Before (T.id a) (T.id b) ∨ T.id a = T.id b ∧ Precedes rest a b

def Answers (table : List ρ) (clause : SqlCursorClause) (id : String) (rows : List ρ) : Prop :=
  ∃ ordered : List ρ,
    ordered.Perm (table.filter fun row => clause.condition.all fun condition => T.Holds condition clause.param id row) ∧
      ordered.Pairwise (T.Precedes clause.orderBy) ∧ rows = ordered.take (clause.limit + 1).toNat

variable (R : Runtime) (options : PageOptions)

def clause (cursor : Option String) : SqlCursorClause := R.buildCursorClause { options with cursor }

def boundId (cursor : Option String) : String := ((cursor.bind R.decodeCursor).map CursorPayload.id).getD ""

def pageOf (rows : List ρ) : PageResult ρ :=
  R.buildPage rows options.clampedLimit (fun row => T.toJson (T.column options.field row)) (fun row => T.idText (T.id row))
    options.dir options.field none

inductive Follows (table : List ρ) : Option String → List (List ρ) → Option String → Prop
  | page {cursor : Option String} {rows : List ρ} : T.Answers table (clause R options cursor) (boundId R cursor) rows →
    Follows table cursor [(T.pageOf R options rows).items] (T.pageOf R options rows).nextCursor
  | more {cursor : Option String} {next : String} {rows : List ρ} {pages : List (List ρ)} {stop : Option String} :
    T.Answers table (clause R options cursor) (boundId R cursor) rows → (T.pageOf R options rows).nextCursor = some next →
    Follows table (some next) pages stop → Follows table cursor ((T.pageOf R options rows).items :: pages) stop

/-- Whatever the database answers, paging comes to an end, and has then read every row once, in sort order. -/
def VisitsOnce (table : List ρ) : Prop :=
  (∀ pages stop, T.Follows R options table none pages stop → pages.length ≤ table.length + 1) ∧
    ∀ pages, T.Follows R options table none pages none →
      pages.flatten.Perm table ∧
        pages.flatten.Pairwise fun a b => ¬options.dir.Before (T.column options.field b) (T.column options.field a)

end Schema

/-- `W` and `J` order the values and the ids in the direction of the pages. -/
structure Directed {W J : Type} [LinearOrder W] [LinearOrder J] (T : Schema ρ V I) (field : String) (dir : Direction)
    (value : ρ → W) (id : ρ → J) : Prop where
  value_lt (a b : ρ) : dir.Before (T.column field a) (T.column field b) ↔ value a < value b
  value_eq (a b : ρ) : T.column field a = T.column field b ↔ value a = value b
  id_lt (a b : ρ) : dir.Before (T.id a) (T.id b) ↔ id a < id b
  id_eq (a b : ρ) : T.id a = T.id b ↔ id a = id b

theorem directed_asc (T : Schema ρ V I) (field : String) : Directed T field .asc (T.column field) T.id :=
  ⟨fun _ _ => .rfl, fun _ _ => .rfl, fun _ _ => .rfl, fun _ _ => .rfl⟩

theorem directed_desc (T : Schema ρ V I) (field : String) :
    Directed T field .desc (fun row => OrderDual.toDual (T.column field row)) fun row => OrderDual.toDual (T.id row) :=
  ⟨fun _ _ => .rfl, fun _ _ => .rfl, fun _ _ => .rfl, fun _ _ => .rfl⟩

namespace Directed

open Keyset

variable {W J : Type} [LinearOrder W] [LinearOrder J] {T : Schema ρ V I} {R : Runtime} {options : PageOptions}
  {field : String} {dir : Direction} {value : ρ → W} {id : ρ → J} {table : List ρ}

theorem precedes_value (directed : Directed T field dir value id) (a b : ρ) :
    T.Precedes [(.named field, dir)] a b ↔ value a ≤ value b := by
  rw [Schema.Precedes, Schema.Precedes, directed.value_lt, directed.value_eq, and_true, le_iff_lt_or_eq]

theorem precedes_composite (directed : Directed T field dir value id) (a b : ρ) :
    T.Precedes [(.named field, dir), (.id, dir)] a b ↔ composite value id a ≤ composite value id b := by
  rw [composite_le, Schema.Precedes, Schema.Precedes, Schema.Precedes, directed.value_lt, directed.value_eq, directed.id_lt,
    directed.id_eq, and_true, ← @le_iff_lt_or_eq J _ (id a)]

end Directed

namespace Schema

open Keyset

variable {W J : Type} [LinearOrder W] [LinearOrder J] {T : Schema ρ V I} {R : Runtime} {options : PageOptions}
  {value : ρ → W} {id : ρ → J} {table rows : List ρ}

def cursorOf (T : Schema ρ V I) (R : Runtime) (options : PageOptions) (row : ρ) : String :=
  R.encodeCursor ⟨options.field, T.toJson (T.column options.field row), T.idText (T.id row), options.dir⟩

omit [LinearOrder V] [LinearOrder I] in
theorem clause_cursorOf (last : ρ) : clause R options (some (T.cursorOf R options last)) =
    { condition := some ⟨options.field, if options.dir = .asc then .greater else .less⟩
      param := T.toJson (T.column options.field last)
      orderBy := [(.named options.field, options.dir), (.id, options.dir)]
      limit := options.clampedLimit } := by
  rw [clause, Runtime.buildCursorClause]
  simp only [cursorOf, R.encodeCursor_ne_empty, if_false, R.decode_encodeCursor]
  rfl

omit [LinearOrder V] [LinearOrder I] in
theorem boundId_cursorOf (last : ρ) : boundId R (some (T.cursorOf R options last)) = T.idText (T.id last) := by
  rw [boundId, Option.bind_some, cursorOf, R.decode_encodeCursor]
  rfl

theorem holds_cursorOf (directed : Directed T options.field options.dir value id) (last row : ρ) :
    T.Holds ⟨options.field, if options.dir = .asc then .greater else .less⟩ (T.toJson (T.column options.field last))
      (T.idText (T.id last)) row ↔ composite value id last < composite value id row := by
  rw [composite_lt, ← directed.value_lt, ← directed.value_eq, ← directed.id_lt, Holds, T.bind_toJson, T.bindId_idText]
  cases options.dir with
  | asc => exact Prod.Lex.toLex_lt_toLex
  | desc => exact Prod.Lex.toLex_lt_toLex.trans (or_congr .rfl (and_congr eq_comm .rfl))

theorem answers_first (directed : Directed T options.field options.dir value id) :
    T.Answers table (clause R options none) (boundId R none) rows ↔
      ∃ ordered, Ordered value table ordered ∧ rows = ordered.take (options.clampedLimit + 1).toNat := by
  have all : table.filter (fun row => (clause R options none).condition.all fun condition =>
      T.Holds condition (clause R options none).param (boundId R none) row) = table := filter_eq_self.mpr fun _ _ => rfl
  unfold Answers
  rw [all]
  constructor
  · rintro ⟨ordered, perm, sorted, taken⟩
    exact ⟨ordered, ⟨perm, pairwise_map.mpr (sorted.imp fun le => (directed.precedes_value _ _).mp le)⟩, taken⟩
  · rintro ⟨ordered, order, taken⟩
    exact ⟨ordered, order.perm, (pairwise_map.mp order.sorted).imp fun le => (directed.precedes_value _ _).mpr le, taken⟩

theorem answers_cursorOf (directed : Directed T options.field options.dir value id) (last : ρ) :
    T.Answers table (clause R options (some (T.cursorOf R options last))) (boundId R (some (T.cursorOf R options last))) rows ↔
      ∃ ordered, Ordered (composite value id) (after (composite value id) table last) ordered ∧
        rows = ordered.take (options.clampedLimit + 1).toNat := by
  have later : table.filter (fun row =>
      (some (⟨options.field, if options.dir = .asc then .greater else .less⟩ : Condition)).all fun condition =>
        T.Holds condition (T.toJson (T.column options.field last)) (T.idText (T.id last)) row) =
      after (composite value id) table last := by
    refine filter_congr fun row _ => ?_
    exact decide_eq_decide.mpr (holds_cursorOf directed last row)
  unfold Answers
  rw [clause_cursorOf, boundId_cursorOf]
  dsimp only
  rw [later]
  constructor
  · rintro ⟨ordered, perm, sorted, taken⟩
    exact ⟨ordered, ⟨perm, pairwise_map.mpr (sorted.imp fun le => (directed.precedes_composite _ _).mp le)⟩, taken⟩
  · rintro ⟨ordered, order, taken⟩
    exact ⟨ordered, order.perm, (pairwise_map.mp order.sorted).imp fun le => (directed.precedes_composite _ _).mpr le, taken⟩

omit [LinearOrder V] [LinearOrder I] in
theorem pageOf_take {limit : ℕ} (clamped : options.clampedLimit = limit) (ordered : List ρ) :
    (T.pageOf R options (ordered.take (options.clampedLimit + 1).toNat)).items = page limit ordered ∧
      (T.pageOf R options (ordered.take (options.clampedLimit + 1).toNat)).nextCursor =
        (next limit ordered).map (T.cursorOf R options) := by
  have taken : (options.clampedLimit + 1).toNat = limit + 1 := by omega
  unfold pageOf Runtime.buildPage page Keyset.next
  rw [taken, clamped]
  by_cases long : limit < ordered.length
  · have more : ((limit : ℤ) < ((ordered.take (limit + 1)).length : ℤ)) := by
      rw [length_take]
      omega
    have sliced : sliceTo (ordered.take (limit + 1)) limit = ordered.take limit := by
      rw [sliceTo, if_neg (by omega), take_take]
      congr 1
      omega
    simp only [more, decide_true, if_true, sliced, if_pos long]
    exact ⟨trivial, rfl⟩
  · have last : ¬((limit : ℤ) < (ordered.length : ℤ)) := by omega
    have whole : ordered.take (limit + 1) = ordered := take_of_length_le (by omega)
    simp only [whole, last, decide_false, Bool.false_eq_true, if_false, if_neg long]
    exact ⟨trivial, rfl⟩

theorem follows_trail {limit : ℕ} (clamped : options.clampedLimit = limit)
    (directed : Directed T options.field options.dir value id) {last : ρ} {pages : List (List ρ)} {stop : Option String}
    (follows : T.Follows R options table (some (T.cursorOf R options last)) pages stop) :
    ∃ stop', Trail (composite value id) limit table last pages stop' ∧ stop = stop'.map (T.cursorOf R options) := by
  generalize start : some (T.cursorOf R options last) = cursor at follows
  induction follows generalizing last with
  | page answers =>
    subst start
    obtain ⟨ordered, order, rfl⟩ := (answers_cursorOf directed last).mp answers
    obtain ⟨items, cursor⟩ := @pageOf_take _ _ _ T R options limit clamped ordered
    rw [items, cursor]
    exact ⟨_, .page order, rfl⟩
  | more answers found _ ih =>
    subst start
    obtain ⟨ordered, order, rfl⟩ := (answers_cursorOf directed last).mp answers
    obtain ⟨items, cursor⟩ := @pageOf_take _ _ _ T R options limit clamped ordered
    rw [cursor] at found
    obtain ⟨row, further, rfl⟩ := Option.map_eq_some_iff.mp found
    obtain ⟨stop', trail, same⟩ := ih rfl
    rw [items]
    exact ⟨stop', .more order further trail, same⟩

theorem trail_follows {limit : ℕ} (clamped : options.clampedLimit = limit)
    (directed : Directed T options.field options.dir value id) {last : ρ} {pages : List (List ρ)} {stop : Option ρ}
    (trail : Trail (composite value id) limit table last pages stop) :
    T.Follows R options table (some (T.cursorOf R options last)) pages (stop.map (T.cursorOf R options)) := by
  induction trail with
  | @page last ordered order =>
    obtain ⟨items, cursor⟩ := @pageOf_take _ _ _ T R options limit clamped ordered
    rw [← items, ← cursor]
    exact .page ((answers_cursorOf directed last).mpr ⟨ordered, order, rfl⟩)
  | @more last row ordered pages stop order further _ ih =>
    obtain ⟨items, cursor⟩ := @pageOf_take _ _ _ T R options limit clamped ordered
    rw [further] at cursor
    rw [← items]
    exact .more ((answers_cursorOf directed last).mpr ⟨ordered, order, rfl⟩) cursor ih

theorem follows_iff {limit : ℕ} (clamped : options.clampedLimit = limit)
    (directed : Directed T options.field options.dir value id) {pages : List (List ρ)} {stop : Option String} :
    T.Follows R options table none pages stop ↔
      ∃ stop', Paging value id limit table pages stop' ∧ stop = stop'.map (T.cursorOf R options) := by
  constructor
  · intro follows
    cases follows with
    | page answers =>
      obtain ⟨ordered, order, rfl⟩ := (answers_first directed).mp answers
      obtain ⟨items, cursor⟩ := @pageOf_take _ _ _ T R options limit clamped ordered
      rw [items, cursor]
      exact ⟨_, .page order, rfl⟩
    | more answers found rest =>
      obtain ⟨ordered, order, rfl⟩ := (answers_first directed).mp answers
      obtain ⟨items, cursor⟩ := @pageOf_take _ _ _ T R options limit clamped ordered
      rw [cursor] at found
      obtain ⟨row, further, rfl⟩ := Option.map_eq_some_iff.mp found
      obtain ⟨stop', trail, same⟩ := follows_trail clamped directed rest
      rw [items]
      exact ⟨stop', .more order further trail, same⟩
  · rintro ⟨stop', paging, rfl⟩
    cases paging with
    | @page ordered order =>
      obtain ⟨items, cursor⟩ := @pageOf_take _ _ _ T R options limit clamped ordered
      rw [← items, ← cursor]
      exact .page ((answers_first directed).mpr ⟨ordered, order, rfl⟩)
    | @more ordered row pages stop order further trail =>
      obtain ⟨items, cursor⟩ := @pageOf_take _ _ _ T R options limit clamped ordered
      rw [further] at cursor
      rw [← items]
      exact .more ((answers_first directed).mpr ⟨ordered, order, rfl⟩) cursor (trail_follows clamped directed trail)

def Separated (T : Schema ρ V I) (field : String) (dir : Direction) (limit : ℤ) (table : List ρ) : Prop :=
  ∃ row ∈ table, ((table.countP fun r => dir.Before (T.column field r) (T.column field row)) : ℤ) + 1 = limit ∧
    ∀ r ∈ table, T.column field r = T.column field row → r = row

theorem visitsOnce_directed {limit : ℕ} (clamped : options.clampedLimit = limit) (some : 0 < limit)
    (directed : Directed T options.field options.dir value id) (nodup : (table.map T.id).Nodup) :
    T.VisitsOnce R options table ↔ (table.length : ℤ) ≤ limit ∨ T.Separated options.field options.dir limit table := by
  have ids : (table.map id).Nodup := by
    refine pairwise_map.mpr ((pairwise_map.mp nodup).imp fun apart same => apart ?_)
    exact (directed.id_eq _ _).mpr same
  have separated : T.Separated options.field options.dir limit table ↔ Keyset.Separated value limit table := by
    unfold Separated Keyset.Separated
    simp only [directed.value_lt, directed.value_eq]
    exact exists_congr fun row => and_congr_right fun _ => and_congr_left fun _ => by omega
  have sorted (rows : List ρ) : (rows.Pairwise fun a b =>
      ¬options.dir.Before (T.column options.field b) (T.column options.field a)) ↔ (rows.map value).Pairwise (· ≤ ·) := by
    rw [pairwise_map]
    simp only [directed.value_lt, not_lt]
  rw [separated, Int.ofNat_le, ← visits_iff ids some]
  constructor
  · rintro ⟨-, visits⟩ pages paging
    obtain ⟨perm, order⟩ := visits pages ((follows_iff clamped directed).mpr ⟨none, paging, rfl⟩)
    exact ⟨perm, (sorted _).mp order⟩
  · intro visits
    refine ⟨fun pages stop follows => ?_, fun pages follows => ?_⟩
    · obtain ⟨stop', paging, -⟩ := (follows_iff clamped directed).mp follows
      exact paging.length_le ids
    · obtain ⟨stop', paging, last⟩ := (follows_iff clamped directed).mp follows
      rw [Option.map_eq_none_iff.mp last.symm] at paging
      exact ⟨(visits pages paging).perm, (sorted _).mpr (visits pages paging).sorted⟩

omit [LinearOrder V] [LinearOrder I] in
theorem pageOf_none (nonpos : options.clampedLimit ≤ 0) (ordered : List ρ) :
    (T.pageOf R options (ordered.take (options.clampedLimit + 1).toNat)).items = [] ∧
      (T.pageOf R options (ordered.take (options.clampedLimit + 1).toNat)).nextCursor = none := by
  have items : (T.pageOf R options (ordered.take (options.clampedLimit + 1).toNat)).items = [] := by
    unfold pageOf Runtime.buildPage sliceTo
    rcases eq_or_lt_of_le nonpos with zero | negative
    · rw [zero]
      cases ordered <;> simp
    · have none : (options.clampedLimit + 1).toNat = 0 := by omega
      rw [none, take_zero]
      simp
  refine ⟨items, ?_⟩
  unfold pageOf Runtime.buildPage at items ⊢
  dsimp only at items ⊢
  rw [items]
  simp

theorem visitsOnce_nonpos (nonpos : options.clampedLimit ≤ 0)
    (directed : Directed T options.field options.dir value id) (table : List ρ) :
    T.VisitsOnce R options table ↔ table = [] := by
  constructor
  · rintro ⟨-, visits⟩
    obtain ⟨ordered, order⟩ := exists_ordered value table
    obtain ⟨items, cursor⟩ := @pageOf_none _ _ _ T R options nonpos ordered
    have follows : T.Follows R options table none _ _ := .page ((answers_first directed).mpr ⟨ordered, order, rfl⟩)
    rw [items, cursor] at follows
    exact nil_perm.mp (visits _ follows).1
  · rintro rfl
    have only (pages : List (List ρ)) (stop : Option String) (follows : T.Follows R options [] none pages stop) :
        pages = [[]] := by
      cases follows with
      | page answers =>
        obtain ⟨ordered, -, rfl⟩ := (answers_first directed).mp answers
        rw [(@pageOf_none _ _ _ T R options nonpos ordered).1]
      | more answers found _ =>
        obtain ⟨ordered, -, rfl⟩ := (answers_first directed).mp answers
        rw [(@pageOf_none _ _ _ T R options nonpos ordered).2] at found
        cases found
    refine ⟨fun pages stop follows => ?_, fun pages follows => ?_⟩
    · rw [only pages stop follows]
      exact le_rfl
    · rw [only pages none follows]
      exact ⟨.refl _, .nil⟩

theorem visitsOnce_iff (directed : Directed T options.field options.dir value id) (nodup : (table.map T.id).Nodup) :
    T.VisitsOnce R options table ↔ table = [] ∨ (table.length : ℤ) ≤ options.clampedLimit ∨
      T.Separated options.field options.dir options.clampedLimit table := by
  rcases Int.lt_or_le 0 options.clampedLimit with pos | nonpos
  · obtain ⟨limit, clamped⟩ := Int.eq_ofNat_of_zero_le pos.le
    rw [visitsOnce_directed clamped (by omega) directed nodup, clamped]
    refine ⟨.inr, fun cond => ?_⟩
    rcases cond with rfl | cond
    · exact .inl (by simp)
    · exact cond
  · rw [visitsOnce_nonpos nonpos directed]
    refine ⟨.inl, fun cond => ?_⟩
    rcases cond with empty | short | ⟨row, -, count, -⟩
    · exact empty
    · exact length_eq_zero_iff.mp (by omega)
    · omega

end Schema

open Schema

section Sample

open Classical in
noncomputable def parseText (text : String) : Option Json :=
  if written : ∃ j : Json, j.stringify = text then some written.choose else none

theorem parseText_stringify (j : Json) : parseText j.stringify = some j := by
  have written : ∃ j' : Json, j'.stringify = j.stringify := ⟨j, rfl⟩
  rw [parseText, dif_pos written, Json.stringify_injective written.choose_spec]

noncomputable def runtime : Runtime where
  hmac _ := "Zm9vYmFyYmF6cXV4"
  parse := parseText
  hmac_plain _ := by decide
  parse_stringify := parseText_stringify

def boundFlag : Json → Bool
  | .bool flag => flag
  | _ => false

def flags : Schema (Bool × String) Bool String where
  column _ row := row.1
  id row := row.2
  toJson flag := .bool flag
  idText text := text
  bind := boundFlag
  bindId text := text
  bind_toJson _ := rfl
  bindId_idText _ := rfl

def byFlag : PageOptions := ⟨none, some 1, none, none, some "isActive"⟩

end Sample

end SubTrackr.Pagination
