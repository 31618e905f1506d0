import Mathlib.Data.List.Basic
import Mathlib.Data.Int.Notation

namespace Lib

open List

def isNumeric (c : Char) : Bool := c.isDigit || c == '-' || c == '+' || c == '.' || c == 'e'

structure Numeral where
  text : List Char
  nonempty : text ≠ []
  numeric : ∀ c ∈ text, isNumeric c = true
  deriving DecidableEq

inductive Json
  | null
  | bool (b : Bool)
  | number (n : Numeral)
  | string (s : String)
  | array (items : List Json)
  | object (members : List (String × Json))

namespace Json

def hexDigit (n : ℕ) : Char := if n < 10 then Char.ofNat (48 + n) else Char.ofNat (87 + n)

def escape (c : Char) : List Char :=
  if c = '"' then ['\\', '"']
  else if c = '\\' then ['\\', '\\']
  else if c = '\x08' then ['\\', 'b']
  else if c = '\x0c' then ['\\', 'f']
  else if c = '\n' then ['\\', 'n']
  else if c = '\r' then ['\\', 'r']
  else if c = '\t' then ['\\', 't']
  else if c.toNat < 32 then ['\\', 'u', '0', '0', hexDigit (c.toNat / 16), hexDigit (c.toNat % 16)]
  else [c]

def quote (s : String) : List Char := '"' :: (s.toList.flatMap escape ++ ['"'])

mutual

def render : Json → List Char
  | .null => ['n', 'u', 'l', 'l']
  | .bool true => ['t', 'r', 'u', 'e']
  | .bool false => ['f', 'a', 'l', 's', 'e']
  | .number n => n.text
  | .string s => quote s
  | .array [] => ['[', ']']
  | .array (item :: items) => '[' :: (render item ++ renderItems items)
  | .object [] => ['{', '}']
  | .object ((name, value) :: members) => '{' :: (quote name ++ ':' :: (render value ++ renderMembers members))

def renderItems : List Json → List Char
  | [] => [']']
  | item :: items => ',' :: (render item ++ renderItems items)

def renderMembers : List (String × Json) → List Char
  | [] => ['}']
  | (name, value) :: members => ',' :: (quote name ++ ':' :: (render value ++ renderMembers members))

end

def stringify (j : Json) : String := String.ofList j.render

section Strings

def hexValue (c : Char) : ℕ := if c.isDigit then c.toNat - 48 else c.toNat - 87

def unescape : List Char → Option (Char × List Char)
  | '\\' :: '"' :: rest => some ('"', rest)
  | '\\' :: '\\' :: rest => some ('\\', rest)
  | '\\' :: 'b' :: rest => some ('\x08', rest)
  | '\\' :: 'f' :: rest => some ('\x0c', rest)
  | '\\' :: 'n' :: rest => some ('\n', rest)
  | '\\' :: 'r' :: rest => some ('\r', rest)
  | '\\' :: 't' :: rest => some ('\t', rest)
  | '\\' :: 'u' :: '0' :: '0' :: high :: low :: rest => some (Char.ofNat (16 * hexValue high + hexValue low), rest)
  | c :: rest => some (c, rest)
  | [] => none

theorem hexValue_hexDigit : ∀ n < 16, hexValue (hexDigit n) = n := by decide

theorem unescape_escape (c : Char) (rest : List Char) : unescape (escape c ++ rest) = some (c, rest) := by
  unfold escape
  split
  · subst c
    rfl
  split
  · subst c
    rfl
  split
  · subst c
    rfl
  split
  · subst c
    rfl
  split
  · subst c
    rfl
  split
  · subst c
    rfl
  split
  · subst c
    rfl
  split
  · rename_i control
    have high := hexValue_hexDigit (c.toNat / 16) (by omega)
    have low := hexValue_hexDigit (c.toNat % 16) (by omega)
    have value : 16 * (c.toNat / 16) + c.toNat % 16 = c.toNat := Nat.div_add_mod _ _
    simp only [cons_append, nil_append, unescape, high, low, value, Char.ofNat_toNat]
  · rename_i plain _ _ _ _ _ _
    rw [singleton_append]
    unfold unescape
    split <;> simp_all

theorem escape_cancel {c d : Char} {rest rest' : List Char} (same : escape c ++ rest = escape d ++ rest') :
    c = d ∧ rest = rest' := by
  have decoded := congrArg unescape same
  rw [unescape_escape, unescape_escape] at decoded
  cases decoded
  exact ⟨rfl, rfl⟩

theorem escape_head (c : Char) : ∃ first rest, escape c = first :: rest ∧ first ≠ '"' := by
  unfold escape
  repeat' split
  all_goals first | exact ⟨_, _, rfl, by decide⟩ | exact ⟨_, _, rfl, by assumption⟩

theorem escaped_cancel {cs ds rest rest' : List Char}
    (same : cs.flatMap escape ++ '"' :: rest = ds.flatMap escape ++ '"' :: rest') : cs = ds ∧ rest = rest' := by
  induction cs generalizing ds with
  | nil =>
    cases ds with
    | nil => exact ⟨rfl, (List.cons.inj same).2⟩
    | cons d ds =>
      obtain ⟨first, tail, head, other⟩ := escape_head d
      rw [flatMap_cons, head] at same
      exact absurd (List.cons.inj same).1.symm other
  | cons c cs ih =>
    cases ds with
    | nil =>
      obtain ⟨first, tail, head, other⟩ := escape_head c
      rw [flatMap_cons, head] at same
      exact absurd (List.cons.inj same).1 other
    | cons d ds =>
      rw [flatMap_cons, flatMap_cons, append_assoc, append_assoc] at same
      obtain ⟨rfl, tail⟩ := escape_cancel same
      obtain ⟨rfl, rests⟩ := ih tail
      exact ⟨rfl, rests⟩

theorem quote_cancel {s t : String} {rest rest' : List Char} (same : quote s ++ rest = quote t ++ rest') :
    s = t ∧ rest = rest' := by
  unfold quote at same
  rw [cons_append, cons_append, append_assoc, append_assoc] at same
  obtain ⟨chars, rests⟩ := escaped_cancel (List.cons.inj same).2
  exact ⟨String.toList_injective chars, rests⟩

end Strings

section Numbers

def Stops (rest : List Char) : Prop := ∀ c ∈ rest.head?, isNumeric c = false

theorem takeWhile_numeral (n : Numeral) {rest : List Char} (stops : Stops rest) :
    (n.text ++ rest).takeWhile isNumeric = n.text := by
  rw [takeWhile_append_of_pos n.numeric]
  have nothing : rest.takeWhile isNumeric = [] := by
    cases rest with
    | nil => rfl
    | cons c rest => rw [takeWhile_cons, stops c rfl]; rfl
  rw [nothing, append_nil]

theorem numeral_cancel {n m : Numeral} {rest rest' : List Char} (same : n.text ++ rest = m.text ++ rest')
    (stops : Stops rest) (stops' : Stops rest') : n = m ∧ rest = rest' := by
  have texts : n.text = m.text := by
    rw [← takeWhile_numeral n stops, same, takeWhile_numeral m stops']
  rw [texts] at same
  cases n
  cases m
  cases texts
  exact ⟨rfl, append_cancel_left same⟩

end Numbers

section Values

inductive Kind
  | null
  | yes
  | no
  | string
  | array
  | object
  | number
  | close

def Kind.ofChar (c : Char) : Kind :=
  if c = 'n' then .null
  else if c = 't' then .yes
  else if c = 'f' then .no
  else if c = '"' then .string
  else if c = '[' then .array
  else if c = '{' then .object
  else if c = ']' then .close
  else .number

def kind : Json → Kind
  | .null => .null
  | .bool true => .yes
  | .bool false => .no
  | .string _ => .string
  | .array _ => .array
  | .object _ => .object
  | .number _ => .number

theorem ofChar_numeric {c : Char} (numeric : isNumeric c = true) : Kind.ofChar c = .number := by
  have other {d : Char} (plain : isNumeric d = false) : c ≠ d := by
    rintro rfl
    rw [plain] at numeric
    cases numeric
  unfold Kind.ofChar
  rw [if_neg (other (by decide)), if_neg (other (by decide)), if_neg (other (by decide)), if_neg (other (by decide)),
    if_neg (other (by decide)), if_neg (other (by decide)), if_neg (other (by decide))]

theorem render_head (j : Json) : ∃ c rest, j.render = c :: rest ∧ Kind.ofChar c = j.kind := by
  cases j with
  | null => exact ⟨_, _, by rw [render], rfl⟩
  | bool b => cases b <;> exact ⟨_, _, by rw [render], rfl⟩
  | number n =>
    obtain ⟨c, rest, text⟩ := exists_cons_of_ne_nil n.nonempty
    exact ⟨c, rest, by rw [render, text], ofChar_numeric (n.numeric c (by rw [text]; exact .head _))⟩
  | string s => exact ⟨_, _, by rw [render, quote], rfl⟩
  | array items => cases items <;> exact ⟨_, _, by rw [render], rfl⟩
  | object members => cases members <;> exact ⟨_, _, by rw [render], rfl⟩

theorem same_kind {a b : Json} {rest rest' : List Char} (same : a.render ++ rest = b.render ++ rest') :
    a.kind = b.kind := by
  obtain ⟨c, _, first, ofChar⟩ := render_head a
  obtain ⟨d, _, second, ofChar'⟩ := render_head b
  rw [first, second] at same
  rw [← ofChar, ← ofChar', (List.cons.inj same).1]

theorem stops_items (items : List Json) (rest : List Char) : Stops (renderItems items ++ rest) := by
  intro c first
  cases items <;> rw [renderItems] at first <;> cases first <;> decide

theorem stops_members (members : List (String × Json)) (rest : List Char) : Stops (renderMembers members ++ rest) := by
  intro c first
  cases members <;> rw [renderMembers] at first <;> cases first <;> decide

theorem render_ne_close {j : Json} {rest rest' : List Char} : j.render ++ rest ≠ ']' :: rest' := by
  intro same
  obtain ⟨c, tail, head, ofChar⟩ := render_head j
  rw [head] at same
  obtain rfl := (List.cons.inj same).1
  cases j with
  | bool b => cases b <;> cases ofChar
  | _ => cases ofChar

theorem member_cancel {name name' : String} {value value' : Json} {members members' : List (String × Json)}
    {rest rest' : List Char}
    (same : quote name ++ ((':' :: (value.render ++ renderMembers members)) ++ rest) =
      quote name' ++ ((':' :: (value'.render ++ renderMembers members')) ++ rest'))
    (values : ∀ {rest rest' : List Char}, value.render ++ rest = value'.render ++ rest' → Stops rest → Stops rest' →
      value = value' ∧ rest = rest')
    (others : ∀ {rest rest' : List Char}, renderMembers members ++ rest = renderMembers members' ++ rest' →
      members = members' ∧ rest = rest') :
    (name, value) :: members = (name', value') :: members' ∧ rest = rest' := by
  obtain ⟨rfl, tails⟩ := quote_cancel same
  rw [cons_append, cons_append, append_assoc, append_assoc] at tails
  obtain ⟨rfl, ends⟩ := values (List.cons.inj tails).2 (stops_members _ _) (stops_members _ _)
  obtain ⟨rfl, rests⟩ := others ends
  exact ⟨rfl, rests⟩

mutual

theorem render_cancel : ∀ (a b : Json) {rest rest' : List Char}, a.render ++ rest = b.render ++ rest' → Stops rest →
    Stops rest' → a = b ∧ rest = rest'
  | .null, b, rest, rest', same, _, _ => by
    have kinds := same_kind same
    cases b with
    | null => exact ⟨rfl, append_cancel_left same⟩
    | bool b => cases b <;> cases kinds
    | _ => cases kinds
  | .bool b, b', rest, rest', same, _, _ => by
    have kinds := same_kind same
    cases b' with
    | bool b' =>
      obtain rfl : b = b' := by cases b <;> cases b' <;> first | rfl | cases kinds
      exact ⟨rfl, append_cancel_left same⟩
    | _ => cases b <;> cases kinds
  | .number n, b, rest, rest', same, stops, stops' => by
    have kinds := same_kind same
    cases b with
    | number m =>
      rw [render, render] at same
      obtain ⟨rfl, rests⟩ := numeral_cancel same stops stops'
      exact ⟨rfl, rests⟩
    | bool b => cases b <;> cases kinds
    | _ => cases kinds
  | .string s, b, rest, rest', same, _, _ => by
    have kinds := same_kind same
    cases b with
    | string t =>
      rw [render, render] at same
      obtain ⟨rfl, rests⟩ := quote_cancel same
      exact ⟨rfl, rests⟩
    | bool b => cases b <;> cases kinds
    | _ => cases kinds
  | .array [], b, rest, rest', same, _, _ => by
    have kinds := same_kind same
    cases b with
    | array items' =>
      cases items' with
      | nil => exact ⟨rfl, append_cancel_left same⟩
      | cons item' items' =>
        rw [render, render, cons_append, cons_append, cons_append, append_assoc] at same
        exact absurd (List.cons.inj same).2.symm render_ne_close
    | bool b => cases b <;> cases kinds
    | _ => cases kinds
  | .array (item :: items), b, rest, rest', same, _, _ => by
    have kinds := same_kind same
    cases b with
    | array items' =>
      cases items' with
      | nil =>
        rw [render, render, cons_append, cons_append, append_assoc] at same
        exact absurd (List.cons.inj same).2 render_ne_close
      | cons item' items' =>
        rw [render, render, cons_append, cons_append, append_assoc, append_assoc] at same
        obtain ⟨rfl, tails⟩ :=
          render_cancel item item' (List.cons.inj same).2 (stops_items _ _) (stops_items _ _)
        obtain ⟨rfl, rests⟩ := renderItems_cancel items items' tails
        exact ⟨rfl, rests⟩
    | bool b => cases b <;> cases kinds
    | _ => cases kinds
  | .object [], b, rest, rest', same, _, _ => by
    have kinds := same_kind same
    cases b with
    | object members' =>
      cases members' with
      | nil => exact ⟨rfl, append_cancel_left same⟩
      | cons mem' members' => cases (List.cons.inj (List.cons.inj same).2).1
    | bool b => cases b <;> cases kinds
    | _ => cases kinds
  | .object ((name, value) :: members), b, rest, rest', same, _, _ => by
    have kinds := same_kind same
    cases b with
    | object members' =>
      cases members' with
      | nil => cases (List.cons.inj (List.cons.inj same).2).1
      | cons mem' members' =>
        obtain ⟨name', value'⟩ := mem'
        rw [render, render, cons_append, cons_append, append_assoc, append_assoc] at same
        obtain ⟨equal, rests⟩ := member_cancel (List.cons.inj same).2 (render_cancel value value')
          (renderMembers_cancel members members')
        exact ⟨congrArg Json.object equal, rests⟩
    | bool b => cases b <;> cases kinds
    | _ => cases kinds

theorem renderItems_cancel : ∀ (items items' : List Json) {rest rest' : List Char},
    renderItems items ++ rest = renderItems items' ++ rest' → items = items' ∧ rest = rest'
  | [], [], rest, rest', same => by
    rw [renderItems] at same
    exact ⟨rfl, append_cancel_left same⟩
  | [], item' :: items', rest, rest', same => by
    rw [renderItems, renderItems] at same
    cases (List.cons.inj same).1
  | item :: items, [], rest, rest', same => by
    rw [renderItems, renderItems] at same
    cases (List.cons.inj same).1
  | item :: items, item' :: items', rest, rest', same => by
    rw [renderItems, renderItems, cons_append, cons_append, append_assoc, append_assoc] at same
    obtain ⟨rfl, tails⟩ := render_cancel item item' (List.cons.inj same).2 (stops_items _ _) (stops_items _ _)
    obtain ⟨rfl, rests⟩ := renderItems_cancel items items' tails
    exact ⟨rfl, rests⟩

theorem renderMembers_cancel : ∀ (members members' : List (String × Json)) {rest rest' : List Char},
    renderMembers members ++ rest = renderMembers members' ++ rest' → members = members' ∧ rest = rest'
  | [], [], rest, rest', same => by
    rw [renderMembers] at same
    exact ⟨rfl, append_cancel_left same⟩
  | [], (name', value') :: members', rest, rest', same => by
    rw [renderMembers, renderMembers] at same
    cases (List.cons.inj same).1
  | (name, value) :: members, [], rest, rest', same => by
    rw [renderMembers, renderMembers] at same
    cases (List.cons.inj same).1
  | (name, value) :: members, (name', value') :: members', rest, rest', same => by
    rw [renderMembers, renderMembers, cons_append, cons_append, append_assoc, append_assoc] at same
    exact member_cancel (List.cons.inj same).2 (render_cancel value value') (renderMembers_cancel members members')

end

theorem stringify_injective : Function.Injective stringify := by
  intro a b same
  have texts : a.render ++ [] = b.render ++ [] := by
    rw [append_nil, append_nil]
    exact String.ofList_injective same
  exact (render_cancel a b texts nofun nofun).1

end Values

example : (Json.object [("a", .array [.null, .bool true]), ("b", .string "x\"")]).stringify =
    "\x7b\"a\":[null,true],\"b\":\"x\\\"\"\x7d" := by rfl

end Json

namespace Numeral

def digits (n : ℕ) : List Char := Nat.toDigits 10 n

theorem digits_numeric {n : ℕ} {c : Char} (mem : c ∈ digits n) : c.isDigit = true :=
  Nat.isDigit_of_mem_toDigits (by decide) (by decide) mem

theorem digits_injective : Function.Injective digits := by
  intro m n same
  have values := congrArg (fun text => Nat.ofDigitChars 10 text 0) same
  simpa only [digits, Nat.ofDigitChars_ten_toDigits] using values

def signedDigits : ℤ → List Char
  | .ofNat n => digits n
  | .negSucc n => '-' :: digits (n + 1)

def ofInt (n : ℤ) : Numeral where
  text := signedDigits n
  nonempty := by
    cases n with
    | ofNat n => exact Nat.toDigits_ne_nil
    | negSucc n => exact cons_ne_nil _ _
  numeric c member := by
    unfold isNumeric
    cases n with
    | ofNat n => rw [digits_numeric member]; rfl
    | negSucc n =>
      rcases mem_cons.mp member with rfl | member
      · rfl
      · rw [digits_numeric member]; rfl

theorem digits_ne_minus {n : ℕ} {rest : List Char} : digits n ≠ '-' :: rest := by
  intro same
  have minus : '-' ∈ digits n := by
    rw [same]
    exact .head _
  exact absurd (digits_numeric minus) (by decide)

theorem ofInt_injective : Function.Injective ofInt := by
  intro a b same
  have texts : signedDigits a = signedDigits b := congrArg text same
  cases a with
  | ofNat m =>
    cases b with
    | ofNat n => rw [digits_injective texts]
    | negSucc n => exact absurd texts digits_ne_minus
  | negSucc m =>
    cases b with
    | ofNat n => exact absurd texts.symm digits_ne_minus
    | negSucc n =>
      have sizes := digits_injective (List.cons.inj texts).2
      rw [Nat.succ.inj sizes]

def zero : Numeral := ⟨['0'], by decide, all_eq_true.mp (by decide)⟩

end Numeral

inductive JsValue
  | undefined
  | null
  | bool (b : Bool)
  | number (n : Numeral)
  | negativeZero
  | notFinite
  | string (s : String)
  | array (items : List JsValue)
  | object (members : List (String × JsValue))

namespace JsValue

def pick (replacer : Option (List String)) (members : List (String × Json)) : List (String × Json) :=
  match replacer with
  | none => members
  | some allowed => allowed.filterMap fun name => (members.lookup name).map (name, ·)

theorem pick_eq_iff {allowed : List String} (nodup : allowed.Nodup) {a b : List (String × Json)} :
    pick (some allowed) a = pick (some allowed) b ↔ ∀ name ∈ allowed, a.lookup name = b.lookup name := by
  have names {l : List String} {c : List (String × Json)} {m : String × Json} (member : m ∈ pick (some l) c) : m.1 ∈ l := by
    obtain ⟨name, mem, found⟩ := mem_filterMap.mp member
    obtain ⟨_, -, rfl⟩ := Option.map_eq_some_iff.mp found
    exact mem
  induction allowed with
  | nil => exact iff_of_true rfl nofun
  | cons name rest ih =>
    obtain ⟨new, nodup⟩ := nodup_cons.mp nodup
    have other {c d : List (String × Json)} {value : Json} :
        (name, value) :: pick (some rest) c ≠ pick (some rest) d := by
      intro same
      exact new (names (by rw [← same]; exact .head _))
    rw [forall_mem_cons]
    refine Iff.trans ?_ (and_congr_right' (ih nodup))
    unfold pick at other ⊢
    dsimp only at other ⊢
    rw [filterMap_cons, filterMap_cons]
    cases first : a.lookup name with
    | none =>
      cases second : b.lookup name with
      | none => exact (and_iff_right rfl).symm
      | some value => exact iff_of_false (fun same => other same.symm) fun both => nomatch both.1
    | some value =>
      cases second : b.lookup name with
      | none => exact iff_of_false (fun same => other same) fun both => nomatch both.1
      | some value' =>
        simp only [Option.map_some, List.cons.injEq, Prod.mk.injEq, true_and, Option.some.injEq]

mutual

def toJson (replacer : Option (List String)) : JsValue → Option Json
  | .undefined => none
  | .null => some .null
  | .bool b => some (.bool b)
  | .number n => some (.number n)
  | .negativeZero => some (.number .zero)
  | .notFinite => some .null
  | .string s => some (.string s)
  | .array items => some (.array (itemsToJson replacer items))
  | .object members => some (.object (pick replacer (membersToJson replacer members)))

def itemsToJson (replacer : Option (List String)) : List JsValue → List Json
  | [] => []
  | item :: items => (toJson replacer item).getD .null :: itemsToJson replacer items

def membersToJson (replacer : Option (List String)) : List (String × JsValue) → List (String × Json)
  | [] => []
  | (name, value) :: members =>
    ((toJson replacer value).map (name, ·)).toList ++ membersToJson replacer members

end

mutual

def ofJson : Json → JsValue
  | .null => .null
  | .bool b => .bool b
  | .number n => .number n
  | .string s => .string s
  | .array items => .array (itemsOfJson items)
  | .object members => .object (membersOfJson members)

def itemsOfJson : List Json → List JsValue
  | [] => []
  | item :: items => ofJson item :: itemsOfJson items

def membersOfJson : List (String × Json) → List (String × JsValue)
  | [] => []
  | (name, value) :: members => (name, ofJson value) :: membersOfJson members

end

def reread (v : JsValue) : JsValue := ((toJson none v).map ofJson).getD .undefined

def rereadMembers (members : List (String × JsValue)) : List (String × JsValue) :=
  membersOfJson (membersToJson none members)

mutual

theorem toJson_reread (replacer : Option (List String)) : ∀ v : JsValue, toJson replacer v.reread = toJson replacer v
  | .undefined => rfl
  | .null => rfl
  | .bool b => rfl
  | .number n => rfl
  | .negativeZero => rfl
  | .notFinite => rfl
  | .string s => rfl
  | .array items => by
    change toJson replacer (.array (itemsOfJson (itemsToJson none items))) = _
    rw [toJson, toJson, itemsToJson_reread replacer items]
  | .object members => by
    change toJson replacer (.object (membersOfJson (membersToJson none members))) = _
    rw [toJson, toJson, membersToJson_reread replacer members]

theorem itemsToJson_reread (replacer : Option (List String)) :
    ∀ items : List JsValue, itemsToJson replacer (itemsOfJson (itemsToJson none items)) = itemsToJson replacer items
  | [] => rfl
  | item :: items => by
    rw [itemsToJson, itemsOfJson, itemsToJson, itemsToJson, itemsToJson_reread replacer items]
    have same := toJson_reread replacer item
    unfold reread at same
    cases kept : toJson none item with
    | none | some =>
      rw [kept] at same
      rw [← same]
      rfl

theorem membersToJson_reread (replacer : Option (List String)) : ∀ members : List (String × JsValue),
    membersToJson replacer (membersOfJson (membersToJson none members)) = membersToJson replacer members
  | [] => rfl
  | (name, value) :: members => by
    have same := toJson_reread replacer value
    have others := membersToJson_reread replacer members
    unfold reread at same
    rw [membersToJson, membersToJson, ← same]
    cases kept : toJson none value with
    | none => exact others
    | some j =>
      change membersToJson replacer ((name, ofJson j) :: membersOfJson (membersToJson none members)) = _
      rw [membersToJson, others]
      rfl

end

end JsValue

namespace Json

abbrev Members := List (String × Json)

variable (f : Members → Members) (p : Members → Prop)

mutual

def mapObjects : Json → Json
  | .array items => .array (mapItems items)
  | .object members => .object (f (mapMembers members))
  | j => j

def mapItems : List Json → List Json
  | [] => []
  | item :: items => mapObjects item :: mapItems items

def mapMembers : Members → Members
  | [] => []
  | (name, value) :: members => (name, mapObjects value) :: mapMembers members

end

mutual

def Forall : Json → Prop
  | .array items => ForallItems items
  | .object members => p members ∧ ForallMembers members
  | _ => True

def ForallItems : List Json → Prop
  | [] => True
  | item :: items => Forall item ∧ ForallItems items

def ForallMembers : Members → Prop
  | [] => True
  | (_, value) :: members => Forall value ∧ ForallMembers members

end

def Plain : Json → Prop := Forall fun _ => False

def Distinct : Json → Prop := Forall fun members => (members.map Prod.fst).Nodup

mutual

theorem mapObjects_plain : ∀ j, Plain j ∨ Plain (mapObjects f j) → mapObjects f j = j
  | .array items, plain => congrArg array (mapItems_plain items plain)
  | .object _, plain => (plain.elim And.left And.left).elim
  | .null, _ | .bool _, _ | .number _, _ | .string _, _ => rfl

theorem mapItems_plain : ∀ items, ForallItems (fun _ => False) items ∨ ForallItems (fun _ => False) (mapItems f items) →
    mapItems f items = items
  | [], _ => rfl
  | item :: items, plain =>
    congrArg₂ cons (mapObjects_plain item (plain.imp And.left And.left)) (mapItems_plain items (plain.imp And.right And.right))

end

theorem mapMembers_eq_map (members : Members) :
    mapMembers f members = members.map fun m => (m.1, mapObjects f m.2) := by
  induction members with
  | nil => rfl
  | cons m members ih => exact congrArg (cons _) ih

theorem forallMembers_iff {members : Members} : ForallMembers p members ↔ ∀ m ∈ members, Forall p m.2 := by
  induction members with
  | nil => exact iff_of_true trivial nofun
  | cons m members ih => rw [forall_mem_cons, ← ih]; rfl

theorem mapMembers_plain {members : Members}
    (plain : (∀ m ∈ members, Plain m.2) ∨ ∀ m ∈ mapMembers f members, Plain m.2) : mapMembers f members = members := by
  rw [mapMembers_eq_map] at plain ⊢
  refine (map_congr_left fun m mem => ?_).trans (map_id _)
  have here := plain.imp (fun all => all m mem) fun all => all _ (mem_map_of_mem mem)
  exact congrArg (Prod.mk m.1) (mapObjects_plain f m.2 here)

end Json

namespace JsValue

variable (replacer : Option (List String))

mutual

theorem toJson_ofJson : ∀ j : Json, toJson replacer (.ofJson j) = some (j.mapObjects (pick replacer))
  | .array items => congrArg (some ∘ Json.array) (itemsToJson_ofJson items)
  | .object members => congrArg (some ∘ Json.object ∘ pick replacer) (membersToJson_ofJson members)
  | .null | .bool _ | .number _ | .string _ => rfl

theorem itemsToJson_ofJson : ∀ items, itemsToJson replacer (itemsOfJson items) = Json.mapItems (pick replacer) items
  | [] => rfl
  | item :: items => by
    rw [itemsOfJson, itemsToJson, toJson_ofJson item, itemsToJson_ofJson items]
    rfl

theorem membersToJson_ofJson :
    ∀ members, membersToJson replacer (membersOfJson members) = Json.mapMembers (pick replacer) members
  | [] => rfl
  | (name, value) :: members => by
    rw [membersOfJson, membersToJson, toJson_ofJson value, membersToJson_ofJson members]
    rfl

end

end JsValue

end Lib
