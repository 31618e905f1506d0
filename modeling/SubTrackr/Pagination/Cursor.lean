import SubTrackr.Lib.Radix
import SubTrackr.Lib.JsValue

namespace SubTrackr.Pagination

open List Lib

/-- What the runtime provides: the truncated digest of the keyed hash, which is text in the base64 alphabet, and the
    inverse of `JSON.stringify`. -/
structure Runtime where
  hmac : String → String
  parse : String → Option Json
  hmac_plain (data : String) : '|' ∉ (hmac data).toList
  parse_stringify (j : Json) : parse j.stringify = some j

inductive Direction
  | asc
  | desc
  deriving DecidableEq

def Direction.text : Direction → String
  | .asc => "asc"
  | .desc => "desc"

def Direction.toUpperCase : Direction → String
  | .asc => "ASC"
  | .desc => "DESC"

def CURSOR_VERSION : Numeral := .ofInt 1

structure CursorPayload where
  field : String
  value : Json
  id : String
  dir : Direction

def CursorPayload.toJson (payload : CursorPayload) : Json :=
  .object
    [("v", .number CURSOR_VERSION),
     ("field", .string payload.field),
     ("value", payload.value),
     ("id", .string payload.id),
     ("dir", .string payload.dir.text)]

def member (name : String) : Json → Option Json
  | .object members => members.reverse.lookup name
  | _ => none

def CursorPayload.ofJson (j : Json) : Option CursorPayload :=
  match member "v" j, member "field" j, member "value" j, member "id" j, member "dir" j with
  | some (.number v), some (.string field), some value, some (.string id), some (.string dir) =>
    if v ≠ CURSOR_VERSION then none
    else some ⟨field, value, id, if dir = "desc" then .desc else .asc⟩
  | _, _, _, _, _ => none

def splitAtLast (c : Char) (text : String) : Option (String × String) :=
  match text.toList.reverse.dropWhile (· ≠ c) with
  | [] => none
  | _ :: before => some (String.ofList before.reverse, String.ofList (text.toList.reverse.takeWhile (· ≠ c)).reverse)

namespace Runtime

variable (R : Runtime)

def sign (data : String) : String := R.hmac data

def encodeCursor (payload : CursorPayload) : String :=
  let json := payload.toJson.stringify
  Base64url.encode (json ++ "|" ++ R.sign json)

def decodeCursor (cursor : String) : Option CursorPayload := do
  let raw ← Base64url.decode cursor
  let (json, sig) ← splitAtLast '|' raw
  if R.sign json ≠ sig then none
  else
    let payload ← R.parse json
    CursorPayload.ofJson payload

end Runtime

structure PageOptions where
  cursor : Option String
  (limit maxLimit : Option ℤ)
  direction : Option Direction
  sortField : Option String

inductive Comparison
  | greater
  | less

def Comparison.toSql : Comparison → String
  | .greater => ">"
  | .less => "<"

structure Condition where
  field : String
  op : Comparison

def Condition.toSql (condition : Condition) : String :=
  "(\"" ++ condition.field ++ "\", id) " ++ condition.op.toSql ++ " ($1, $2)"

inductive Column
  | named (field : String)
  | id

def Column.toSql : Column → String
  | .named field => "\"" ++ field ++ "\""
  | .id => "id"

def orderToSql (terms : List (Column × Direction)) : String :=
  String.intercalate ", " (terms.map fun term => term.1.toSql ++ " " ++ term.2.toUpperCase)

structure SqlCursorClause where
  condition : Option Condition
  param : Json
  orderBy : List (Column × Direction)
  limit : ℤ

def PageOptions.clampedLimit (options : PageOptions) : ℤ := min (max 1 (options.limit.getD 20)) (options.maxLimit.getD 100)

def PageOptions.dir (options : PageOptions) : Direction := options.direction.getD .asc

def PageOptions.field (options : PageOptions) : String := options.sortField.getD "id"

def Runtime.buildCursorClause (R : Runtime) (options : PageOptions) : SqlCursorClause :=
  let first : SqlCursorClause := ⟨none, .null, [(.named options.field, options.dir)], options.clampedLimit⟩
  match options.cursor with
  | none => first
  | some cursor =>
    if cursor = "" then first
    else
      match R.decodeCursor cursor with
      | none => first
      | some decoded =>
        { condition := some ⟨decoded.field, if options.dir = .asc then .greater else .less⟩
          param := decoded.value
          orderBy := [(.named decoded.field, options.dir), (.id, options.dir)]
          limit := options.clampedLimit }

structure PageResult (ρ : Type) where
  items : List ρ
  nextCursor : Option String
  hasMore : Bool
  total : Option ℕ

def sliceTo {ρ : Type} (rows : List ρ) (limit : ℤ) : List ρ :=
  if limit < 0 then rows.take (rows.length + limit).toNat else rows.take limit.toNat

def Runtime.buildPage {ρ : Type} (R : Runtime) (rows : List ρ) (limit : ℤ) (getCursorValue : ρ → Json) (getId : ρ → String)
    (direction : Direction) (sortField : String) (total : Option ℕ) : PageResult ρ :=
  let hasMore : Bool := limit < rows.length
  let items := if hasMore then sliceTo rows limit else rows
  let nextCursor := if hasMore then
      items.getLast?.map fun lastItem =>
        R.encodeCursor ⟨sortField, getCursorValue lastItem, getId lastItem, direction⟩
    else none
  { items, nextCursor, hasMore, total }

theorem splitAtLast_append {c : Char} {sig : List Char} (plain : c ∉ sig) (text : String) :
    splitAtLast c (String.ofList (text.toList ++ c :: sig)) = some (text, String.ofList sig) := by
  have other (d : Char) (mem : d ∈ sig.reverse) : decide (d ≠ c) = true := by
    refine decide_eq_true fun same => ?_
    rw [same, mem_reverse] at mem
    exact plain mem
  have whole : (String.ofList (text.toList ++ c :: sig)).toList.reverse = sig.reverse ++ c :: text.toList.reverse := by
    rw [String.toList_ofList, reverse_append, reverse_cons, append_assoc, singleton_append]
  have dropped : (sig.reverse ++ c :: text.toList.reverse).dropWhile (· ≠ c) = c :: text.toList.reverse := by
    rw [dropWhile_append_of_pos other, dropWhile_cons_of_neg (by simp)]
  have taken : (sig.reverse ++ c :: text.toList.reverse).takeWhile (· ≠ c) = sig.reverse := by
    rw [takeWhile_append_of_pos other, takeWhile_cons_of_neg (by simp), append_nil]
  rw [splitAtLast, whole, dropped, taken]
  simp only [reverse_reverse, String.ofList_toList]

theorem ofJson_toJson (payload : CursorPayload) : CursorPayload.ofJson payload.toJson = some payload := by
  obtain ⟨field, value, id, dir⟩ := payload
  cases dir <;> rfl

theorem Runtime.decode_encodeCursor (R : Runtime) (payload : CursorPayload) :
    R.decodeCursor (R.encodeCursor payload) = some payload := by
  have joined (json sig : String) : json ++ "|" ++ sig = String.ofList (json.toList ++ '|' :: sig.toList) := by
    refine String.toList_injective ?_
    rw [String.toList_ofList, String.toList_append, String.toList_append, append_assoc]
    rfl
  have split := splitAtLast_append (R.hmac_plain payload.toJson.stringify) payload.toJson.stringify
  rw [String.ofList_toList] at split
  simp only [decodeCursor, encodeCursor, Base64url.decode_encode, Option.bind_eq_bind, Option.bind_some, joined, sign, split,
    ne_eq, not_true_eq_false, if_false, R.parse_stringify, ofJson_toJson]

theorem Runtime.encodeCursor_ne_empty (R : Runtime) (payload : CursorPayload) : R.encodeCursor payload ≠ "" := by
  refine Base64url.encode_ne_empty fun none => ?_
  have length := congrArg (fun text => text.toList.length) none
  simp at length

end SubTrackr.Pagination
