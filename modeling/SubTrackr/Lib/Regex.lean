import Mathlib.Data.List.Basic

namespace Lib

open List

inductive Regex where
  | empty
  | one (accepts : Char → Bool)
  | plus (accepts : Char → Bool)
  | boundary
  | seq (first second : Regex)
  | alt (left right : Regex)

namespace Regex

abbrev Place := Option Char × List Char

variable (isWord : Char → Bool)

def plusEnds (accepts : Char → Bool) : List Char → List Place
  | [] => []
  | c :: rest => if accepts c then (some c, rest) :: plusEnds accepts rest else []

def atBoundary (place : Place) : Bool := place.1.any isWord != place.2.head?.any isWord

def ends : Regex → Place → List Place
  | empty, place => [place]
  | one accepts, place =>
    match place.2 with
    | [] => []
    | c :: rest => if accepts c then [(some c, rest)] else []
  | plus accepts, place => plusEnds accepts place.2
  | boundary, place => if atBoundary isWord place then [place] else []
  | seq first second, place => (ends first place).flatMap (ends second)
  | alt left right, place => ends left place ++ ends right place

def testFrom (r : Regex) : Option Char → List Char → Bool
  | before, [] => !(r.ends isWord (before, [])).isEmpty
  | before, c :: rest => !(r.ends isWord (before, c :: rest)).isEmpty || testFrom r (some c) rest

def test (r : Regex) (text : List Char) : Bool := r.testFrom isWord none text

def literal (fold : Char → Char) : List Char → Regex
  | [] => empty
  | c :: rest => seq (one fun d => fold d = c) (literal fold rest)

def wholeWord (fold : Char → Char) (words : List (List Char)) : Regex :=
  seq boundary (seq (words.foldr (fun word r => alt (literal fold word) r) (one fun _ => false)) boundary)

variable {isWord} {r first second : Regex} {place q : Place} {fold : Char → Char}

theorem mem_ends_seq : q ∈ (seq first second).ends isWord place ↔
    ∃ middle ∈ first.ends isWord place, q ∈ second.ends isWord middle := by
  simp [ends]

theorem mem_ends_alt : q ∈ (alt first second).ends isWord place ↔
    q ∈ first.ends isWord place ∨ q ∈ second.ends isWord place := by
  simp [ends]

theorem mem_ends_boundary : q ∈ boundary.ends isWord place ↔ q = place ∧ atBoundary isWord place = true := by
  unfold ends
  split
  · rename_i holds
    simp [holds]
  · rename_i fails
    simp [fails]

theorem last_cons (c : Char) (read : List Char) (before : Option Char) :
    (c :: read).getLast?.or before = read.getLast?.or (some c) := by
  rw [getLast?_cons]
  cases read.getLast? <;> rfl

theorem testFrom_iff {before : Option Char} {text : List Char} : r.testFrom isWord before text = true ↔
    ∃ read rest, text = read ++ rest ∧ r.ends isWord (read.getLast?.or before, rest) ≠ [] := by
  induction text generalizing before with
  | nil => simp [testFrom]
  | cons c text ih =>
    rw [testFrom, Bool.or_eq_true, ih]
    constructor
    · rintro (here | ⟨read, rest, rfl, later⟩)
      · exact ⟨[], c :: text, rfl, by simpa using here⟩
      · refine ⟨c :: read, rest, rfl, ?_⟩
        rw [last_cons]
        exact later
    · rintro ⟨read, rest, split, found⟩
      cases read with
      | nil =>
        rw [nil_append] at split
        subst split
        exact .inl (by simpa using found)
      | cons d read =>
        obtain ⟨rfl, rfl⟩ := List.cons.inj split
        refine .inr ⟨read, rest, rfl, ?_⟩
        rw [last_cons] at found
        exact found

theorem test_iff {text : List Char} :
    r.test isWord text = true ↔ ∃ read rest, text = read ++ rest ∧ ∃ q, q ∈ r.ends isWord (read.getLast?, rest) := by
  simp only [test, testFrom_iff, Option.or_none]
  constructor
  · rintro ⟨read, rest, split, found⟩
    exact ⟨read, rest, split, exists_mem_of_ne_nil _ found⟩
  · rintro ⟨read, rest, split, q, found⟩
    exact ⟨read, rest, split, ne_nil_of_mem found⟩

theorem mem_ends_literal {letters : List Char} : q ∈ (literal fold letters).ends isWord place ↔
    ∃ read, place.2 = read ++ q.2 ∧ read.map fold = letters ∧ q.1 = read.getLast?.or place.1 := by
  induction letters generalizing place with
  | nil =>
    obtain ⟨before, rest⟩ := place
    obtain ⟨last, after⟩ := q
    simp [literal, ends, and_comm, eq_comm]
  | cons c letters ih =>
    obtain ⟨before, text⟩ := place
    rw [literal, mem_ends_seq]
    constructor
    · rintro ⟨middle, first, later⟩
      cases text with
      | nil => simp [ends] at first
      | cons d text =>
        simp only [ends] at first
        split at first
        · rename_i same
          rw [mem_singleton] at first
          subst first
          obtain ⟨read, rfl, rfl, last⟩ := ih.mp later
          exact ⟨d :: read, rfl, by simpa using same, by rw [last_cons]; exact last⟩
        · cases first
    · rintro ⟨read, split, folded, last⟩
      cases read with
      | nil => cases folded
      | cons d read =>
        dsimp only at split
        subst split
        obtain ⟨same, rest⟩ := List.cons.inj folded
        refine ⟨(some d, read ++ q.2), by simp [ends, same], ih.mpr ⟨read, rfl, rest, ?_⟩⟩
        rw [last, last_cons]

theorem mem_ends_words {words : List (List Char)} {r : Regex} :
    q ∈ (words.foldr (fun word r => alt (literal fold word) r) r).ends isWord place ↔
      (∃ word ∈ words, q ∈ (literal fold word).ends isWord place) ∨ q ∈ r.ends isWord place := by
  induction words with
  | nil => simp
  | cons word words ih => simp [mem_ends_alt, ih, or_assoc]

theorem mem_ends_plus {accepts : Char → Bool} {read rest : List Char} {before : Option Char} (some_ : read ≠ [])
    (all : ∀ c ∈ read, accepts c = true) : (read.getLast?.or before, rest) ∈ (plus accepts).ends isWord (before, read ++ rest) := by
  cases read with
  | nil => exact absurd rfl some_
  | cons c read =>
    rw [last_cons]
    clear some_
    induction read generalizing c with
    | nil => simp [ends, plusEnds, all c]
    | cons d read ih =>
      have later := ih d fun e mem => all e (mem_cons_of_mem _ mem)
      rw [last_cons]
      simp only [ends, cons_append, plusEnds, all c mem_cons_self, if_true, mem_cons] at later ⊢
      exact .inr later

def HasWord (isWord : Char → Bool) (fold : Char → Char) (words : List (List Char)) (text : List Char) : Prop :=
  ∃ read word rest, text = read ++ word ++ rest ∧ word.map fold ∈ words ∧
    atBoundary isWord (read.getLast?, word ++ rest) = true ∧ atBoundary isWord (word.getLast?.or read.getLast?, rest) = true

theorem HasWord.append {words : List (List Char)} {text a b : List Char} (found : HasWord isWord fold words text)
    (before : a.getLast?.any isWord = false) (after : b.head?.any isWord = false) :
    HasWord isWord fold words (a ++ text ++ b) := by
  have any_or (x y : Option Char) (none : y.any isWord = false) : (x.or y).any isWord = x.any isWord := by
    cases x with
    | none => exact none
    | some c => rfl
  obtain ⟨read, word, rest, rfl, mem, starts, stops⟩ := found
  refine ⟨a ++ read, word, rest ++ b, by simp, mem, ?_, ?_⟩
  · simp only [atBoundary] at starts ⊢
    rwa [getLast?_append, any_or _ _ before, ← append_assoc, head?_append, any_or _ _ after]
  · simp only [atBoundary] at stops ⊢
    rwa [getLast?_append, ← Option.or_assoc, any_or _ _ before, head?_append, any_or _ _ after]

theorem test_wholeWord {words : List (List Char)} {text : List Char} :
    (wholeWord fold words).test isWord text = true ↔ HasWord isWord fold words text := by
  rw [test_iff]
  constructor
  · rintro ⟨read, rest, rfl, q, found⟩
    obtain ⟨first, opens, later⟩ := mem_ends_seq.mp found
    obtain ⟨rfl, starts⟩ := mem_ends_boundary.mp opens
    obtain ⟨last, matched, closes⟩ := mem_ends_seq.mp later
    obtain ⟨rfl, stops⟩ := mem_ends_boundary.mp closes
    obtain ⟨word, mem, matched⟩ | none := mem_ends_words.mp matched
    · obtain ⟨letters, split, same, before⟩ := mem_ends_literal.mp matched
      dsimp only at split
      refine ⟨read, letters, q.2, by rw [split, append_assoc], same ▸ mem, split ▸ starts, ?_⟩
      rw [← before]
      exact stops
    · unfold ends at none
      split at none
      · cases none
      · simp at none
  · rintro ⟨read, word, rest, rfl, mem, starts, stops⟩
    refine ⟨read, word ++ rest, by simp, (word.getLast?.or read.getLast?, rest), ?_⟩
    refine mem_ends_seq.mpr ⟨_, mem_ends_boundary.mpr ⟨rfl, starts⟩, mem_ends_seq.mpr ⟨_, ?_, mem_ends_boundary.mpr ⟨rfl, stops⟩⟩⟩
    exact mem_ends_words.mpr (.inl ⟨_, mem, mem_ends_literal.mpr ⟨word, rfl, rfl, rfl⟩⟩)

end Regex

end Lib
