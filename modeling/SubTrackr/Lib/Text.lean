import Mathlib.Data.List.DropRight

namespace Lib.Text

open List

def whiteSpaces : List ℕ :=
  [0x9, 0xA, 0xB, 0xC, 0xD, 0x20, 0xA0, 0x1680, 0x2000, 0x2001, 0x2002, 0x2003, 0x2004, 0x2005, 0x2006, 0x2007, 0x2008,
    0x2009, 0x200A, 0x2028, 0x2029, 0x202F, 0x205F, 0x3000, 0xFEFF]

def isWhiteSpace (c : Char) : Bool := whiteSpaces.contains c.toNat

def trim (cs : List Char) : List Char := (cs.dropWhile isWhiteSpace).rdropWhile isWhiteSpace

structure Trimmed (cs : List Char) : Prop where
  head : ∀ c ∈ cs.head?, isWhiteSpace c = false
  last : ∀ c ∈ cs.getLast?, isWhiteSpace c = false

variable {c : Char} {cs line rest : List Char}

theorem trimmed_iff : (cs.head?.all (!isWhiteSpace ·) = true ∧ cs.getLast?.all (!isWhiteSpace ·) = true) ↔ Trimmed cs := by
  constructor
  · rintro ⟨head, last⟩
    constructor
    · intro c found
      rw [Option.mem_def.mp found] at head
      simpa using head
    · intro c found
      rw [Option.mem_def.mp found] at last
      simpa using last
  · intro trimmed
    constructor
    · cases found : cs.head? with
      | none => rfl
      | some c => simp [trimmed.head c found]
    · cases found : cs.getLast? with
      | none => rfl
      | some c => simp [trimmed.last c found]

instance (cs : List Char) : Decidable (Trimmed cs) := decidable_of_iff _ trimmed_iff

theorem trim_of_trimmed (trimmed : Trimmed cs) : trim cs = cs := by
  have start : cs.dropWhile isWhiteSpace = cs := by
    cases cs with
    | nil => rfl
    | cons c cs => exact dropWhile_cons_of_neg (by simp [trimmed.head c rfl])
  unfold trim
  rw [start, rdropWhile_eq_self_iff]
  intro some
  simp [trimmed.last _ (getLast?_eq_some_getLast some)]

theorem mem_of_mem_trim (mem : c ∈ trim cs) : c ∈ cs :=
  (dropWhile_sublist _).subset ((List.rdropWhile_prefix _ _).subset mem)

theorem trim_ne_nil (mem : c ∈ cs) (visible : isWhiteSpace c = false) : trim cs ≠ [] := by
  intro none
  have left : c ∈ cs.dropWhile isWhiteSpace := by
    rw [← takeWhile_append_dropWhile (p := isWhiteSpace) (l := cs), mem_append] at mem
    apply mem.resolve_left
    intro early
    simp [mem_takeWhile_imp early] at visible
  have all := rdropWhile_eq_nil_iff.mp none c left
  simp [all] at visible

theorem rdropWhile_visible (visible : isWhiteSpace c = false) (a b : List Char) :
    (a ++ c :: b).rdropWhile isWhiteSpace = a ++ c :: b.rdropWhile isWhiteSpace := by
  induction b using List.reverseRecOn with
  | nil => exact rdropWhile_concat_neg _ _ _ (by simp [visible])
  | append_singleton b d ih =>
    rw [show a ++ c :: (b ++ [d]) = (a ++ c :: b) ++ [d] by simp, rdropWhile_concat, rdropWhile_concat]
    split
    · exact ih
    · simp

/-- Before a visible character the text is trimmed at its start, behind it at its end. -/
theorem trim_append (visible : isWhiteSpace c = false) (a b : List Char) :
    trim (a ++ c :: b) = a.dropWhile isWhiteSpace ++ c :: b.rdropWhile isWhiteSpace := by
  unfold trim
  rw [dropWhile_append]
  split
  · rename_i blank
    rw [isEmpty_iff.mp blank, dropWhile_cons_of_neg (by simp [visible])]
    exact rdropWhile_visible visible [] b
  · exact rdropWhile_visible visible _ b

theorem append_mark_inj {a b d e : List Char} (left : c ∉ d) (right : c ∉ e) (same : a ++ c :: d = b ++ c :: e) :
    a = b ∧ d = e := by
  obtain ⟨more, rfl, rest⟩ | ⟨more, rfl, rest⟩ := append_eq_append_iff.mp same
  · cases more with
    | nil => exact ⟨(append_nil a).symm, (List.cons.inj rest).2⟩
    | cons m more =>
      obtain ⟨_, rfl⟩ := List.cons.inj rest
      simp at left
  · cases more with
    | nil => exact ⟨append_nil b, (List.cons.inj rest).2.symm⟩
    | cons m more =>
      obtain ⟨_, rfl⟩ := List.cons.inj rest
      simp at right

def splitLines : List Char → List (List Char)
  | [] => [[]]
  | c :: rest =>
    if c = '\n' then [] :: splitLines rest
    else if c = '\r' ∧ rest.head? = some '\n' then splitLines rest
    else (splitLines rest).modifyHead (c :: ·)

theorem mark_notMem_of_mem_splitOn (mem : line ∈ cs.splitOn c) : c ∉ line := by
  induction cs generalizing line with
  | nil =>
    obtain rfl : line = [] := by simpa using mem
    exact not_mem_nil
  | cons d cs ih =>
    rw [splitOn_cons_eq_if_modifyHead] at mem
    split at mem
    · rcases mem_cons.mp mem with rfl | later
      · exact not_mem_nil
      · exact ih later
    · rename_i other
      cases parts : cs.splitOn c with
      | nil => exact absurd parts (splitOn_ne_nil c cs)
      | cons first rest =>
        rw [parts, modifyHead_cons] at mem
        rcases mem_cons.mp mem with rfl | later
        · have absent := ih (parts ▸ mem_cons_self)
          simp only [beq_iff_eq] at other
          simp [absent, Ne.symm other]
        · exact ih (parts ▸ mem_cons_of_mem _ later)

theorem newline_notMem_of_mem_splitLines (mem : line ∈ splitLines cs) : '\n' ∉ line := by
  induction cs generalizing line with
  | nil => simp_all [splitLines]
  | cons c rest ih =>
    unfold splitLines at mem
    split at mem
    · rcases mem_cons.mp mem with rfl | mem
      · simp
      · exact ih mem
    · rename_i other
      split at mem
      · exact ih mem
      · cases lines : splitLines rest with
        | nil => simp [lines] at mem
        | cons first more =>
          rw [lines, modifyHead_cons, mem_cons] at mem
          rcases mem with rfl | mem
          · have first_fine : '\n' ∉ first := ih (by simp [lines])
            simp [first_fine, Ne.symm other]
          · exact ih (by simp [lines, mem])

theorem splitLines_append (one : '\n' ∉ line) (ends : '\r' ∉ line.getLast?) (rest : List Char) :
    splitLines (line ++ '\n' :: rest) = line :: splitLines rest := by
  induction line with
  | nil => simp [splitLines]
  | cons c line ih =>
    have feed : c ≠ '\n' := by
      rintro rfl
      simp at one
    have inner : ¬(c = '\r' ∧ (line ++ '\n' :: rest).head? = some '\n') := by
      rintro ⟨rfl, next⟩
      cases line with
      | nil => simp at ends
      | cons d line =>
        simp only [cons_append, head?_cons, Option.some.injEq] at next
        simp [next] at one
    have further : '\r' ∉ line.getLast? := by
      cases line with
      | nil => simp
      | cons d line => rwa [getLast?_cons_cons] at ends
    rw [cons_append, splitLines, if_neg feed, if_neg inner, ih (by simp_all) further, modifyHead_cons]

theorem splitLines_line (one : '\n' ∉ line) : splitLines line = [line] := by
  induction line with
  | nil => rfl
  | cons c line ih =>
    have feed : c ≠ '\n' := by
      rintro rfl
      simp at one
    have inner : ¬(c = '\r' ∧ line.head? = some '\n') := by
      rintro ⟨-, next⟩
      exact one (mem_cons_of_mem _ (mem_of_mem_head? next))
    rw [splitLines, if_neg feed, if_neg inner, ih (by simp_all), modifyHead_cons]

theorem splitLines_intercalate {lines : List (List Char)} (some : lines ≠ []) (single : ∀ line ∈ lines, '\n' ∉ line)
    (ends : ∀ line ∈ lines, '\r' ∉ line.getLast?) : splitLines (List.intercalate ['\n'] lines) = lines := by
  induction lines with
  | nil => exact absurd rfl some
  | cons line lines ih =>
    cases lines with
    | nil => simpa using splitLines_line (single line (by simp))
    | cons next lines =>
      have joined : List.intercalate ['\n'] (line :: next :: lines) = line ++ '\n' :: List.intercalate ['\n'] (next :: lines) := by
        simp [List.intercalate, List.intersperse]
      rw [joined, splitLines_append (single line (by simp)) (ends line (by simp))]
      rw [ih (by simp) (fun l mem => single l (mem_cons_of_mem _ mem))
        (fun l mem => ends l (mem_cons_of_mem _ mem))]

end Lib.Text
