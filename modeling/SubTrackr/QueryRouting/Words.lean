import SubTrackr.QueryRouting.QueryClassifier
import Mathlib

namespace SubTrackr.QueryRouting

open List Lib

section Characters

variable {c : Char}

theorem toNat_of_isAlpha (alpha : c.isAlpha = true) : 65 ≤ c.toNat ∧ c.toNat ≤ 90 ∨ 97 ≤ c.toNat ∧ c.toNat ≤ 122 := by
  simpa [Char.isAlpha, Char.isUpper, Char.isLower, UInt32.le_iff_toNat_le] using alpha

theorem toNat_of_word (word : isWordChar c = true) : 48 ≤ c.toNat ∧ c.toNat ≤ 57 ∨ 65 ≤ c.toNat ∧ c.toNat ≤ 90 ∨
    c.toNat = 95 ∨ 97 ≤ c.toNat ∧ c.toNat ≤ 122 := by
  simp only [isWordChar, Char.isAlphanum, Bool.or_eq_true, decide_eq_true_eq] at word
  obtain (alpha | digit) | rfl := word
  · have := toNat_of_isAlpha alpha
    omega
  · have range : 48 ≤ c.toNat ∧ c.toNat ≤ 57 := by simpa [Char.isDigit, UInt32.le_iff_toNat_le] using digit
    omega
  · exact .inr (.inr (.inl rfl))

theorem word_of_isAlpha (alpha : c.isAlpha = true) : isWordChar c = true := by simp [isWordChar, Char.isAlphanum, alpha]

theorem isAlpha_of_toUpper (upper : c.toUpper.isUpper = true) : c.isAlpha = true := by
  unfold Char.toUpper at upper
  split at upper
  · rename_i small
    have lower : c.isLower = true := by simpa [Char.isLower] using small
    simp [Char.isAlpha, lower]
  · simp [Char.isAlpha, upper]

theorem ascii_of_word (word : isWordChar c = true) : c.toNat < 128 := by
  have := toNat_of_word word
  omega

theorem toUpper_of_not_word (other : isWordChar c = false) : c.toUpper = c := by
  unfold Char.toUpper
  split
  · rename_i small
    have lower : c.isLower = true := by simpa [Char.isLower] using small
    simp [isWordChar, Char.isAlphanum, Char.isAlpha, lower] at other
  · rfl

theorem visible_of_word (word : isWordChar c = true) : Text.isWhiteSpace c = false := by
  have range := toNat_of_word word
  simp only [Text.isWhiteSpace, Text.whiteSpaces, contains_eq_mem, decide_eq_false_iff_not, mem_cons,
    not_mem_nil, or_false]
  omega

end Characters

def Mark (c : Char) : Prop := isWordChar c = false ∧ c.toNat < 128

def Edge (text : List Char) : Prop := ∀ c ∈ text.head?, Mark c

def Closed (text : List Char) : Prop := ∀ c ∈ text.getLast?, Mark c

section Edges

variable {a b text : List Char} {c : Char}

theorem edge_nil : Edge [] := nofun

theorem edge_cons (mark : Mark c) : Edge (c :: text) := fun _ same => Option.some.inj same ▸ mark

theorem Edge.append (left : Edge a) (right : Edge b) : Edge (a ++ b) := by
  cases a with
  | nil => exact right
  | cons c a => exact left

theorem Edge.append_of_ne (left : Edge a) (some : a ≠ []) : Edge (a ++ b) := by
  cases a with
  | nil => exact absurd rfl some
  | cons c a => exact left

theorem closed_concat (mark : Mark c) : Closed (a ++ [c]) := by
  intro d last
  rw [getLast?_append] at last
  exact Option.some.inj last ▸ mark

theorem Closed.append (closed : Closed b) (some : b ≠ []) : Closed (a ++ b) := by
  intro c last
  rw [getLast?_append, getLast?_eq_some_getLast some] at last
  rw [← Option.some.inj last]
  exact closed _ (getLast?_eq_some_getLast some)

theorem Closed.append_of_closed (first : Closed a) (closed : Closed b) : Closed (a ++ b) := by
  by_cases some : b = []
  · rw [some, append_nil]
    exact first
  · exact closed.append some

theorem mark_of_known (known : c ∈ sqlSpaces ∨ c ∈ ['-', '/', '(', ')', ';']) : Mark c := by
  have all : ∀ c ∈ sqlSpaces ++ ['-', '/', '(', ')', ';'], decide (isWordChar c = false ∧ c.toNat < 128) = true :=
    all_eq_true.mp (by decide +kernel)
  exact of_decide_eq_true (p := _ ∧ _) (all c (mem_append.mpr known))

theorem sqlSpaces_white (known : c ∈ sqlSpaces) : Text.isWhiteSpace c = true := by
  have all : ∀ c ∈ sqlSpaces, Text.isWhiteSpace c = true := all_eq_true.mp (by decide +kernel)
  exact all c known

theorem commentRest_ends {depth : ℕ} {text rest : List Char} (inside : commentRest (depth + 1) text = some rest) :
    ∃ a, text = a ++ ['*', '/'] ++ rest := by
  induction text using List.twoStepInduction generalizing depth with
  | nil => simp [commentRest] at inside
  | singleton c => simp [commentRest] at inside
  | cons_cons c d text ih later =>
    rw [commentRest] at inside
    split at inside
    · obtain ⟨a, rfl⟩ := ih inside
      exact ⟨c :: d :: a, rfl⟩
    · split at inside
      · rename_i closes
        obtain ⟨rfl, rfl⟩ := closes
        cases depth with
        | zero =>
          rw [commentRest] at inside
          exact ⟨[], by rw [Option.some.inj inside]; rfl⟩
        | succ depth =>
          obtain ⟨a, rfl⟩ := ih inside
          exact ⟨'*' :: '/' :: a, rfl⟩
      · obtain ⟨a, same⟩ := later _ inside
        exact ⟨c :: a, by rw [same]; rfl⟩

theorem Trivia.ne_nil (trivia : Trivia) : trivia.text ≠ [] := by cases trivia <;> simp [Trivia.text]

theorem Trivia.edge (trivia : Trivia) : Edge trivia.text := by
  cases trivia with
  | space c known => exact edge_cons (mark_of_known (.inl known))
  | line | block => exact edge_cons (mark_of_known (by decide))

theorem Trivia.closed (trivia : Trivia) : Closed trivia.text := by
  cases trivia with
  | space c known => exact closed_concat (a := []) (mark_of_known (.inl known))
  | line body single feed =>
    refine closed_concat (mark_of_known (.inl ?_))
    cases feed <;> decide
  | block body closed =>
    obtain ⟨a, same⟩ := commentRest_ends closed
    rw [Trivia.text, same, append_nil, show ['/', '*'] ++ (a ++ ['*', '/']) = (['/', '*'] ++ a ++ ['*']) ++ ['/'] by simp]
    exact closed_concat (mark_of_known (by decide))

theorem triviaText_edge (trivia : List Trivia) : Edge (triviaText trivia) := by
  cases trivia with
  | nil => exact edge_nil
  | cons first rest => exact first.edge.append_of_ne first.ne_nil

theorem triviaText_closed (trivia : List Trivia) : Closed (triviaText trivia) := by
  induction trivia with
  | nil => exact nofun
  | cons first rest ih => exact first.closed.append_of_closed ih

theorem Gap.ne_nil (gap : Gap) : gap.text ≠ [] := by simp [Gap.text, gap.first.ne_nil]

theorem Gap.edge (gap : Gap) : Edge gap.text := gap.first.edge.append_of_ne gap.first.ne_nil

theorem Gap.closed (gap : Gap) : Closed gap.text := gap.first.closed.append_of_closed (triviaText_closed gap.rest)

end Edges

theorem Keyword.alpha {name : String} (keyword : Keyword name) (upper : name.toList.all Char.isUpper = true) :
    ∀ c ∈ keyword.text, c.isAlpha = true := by
  intro c mem
  apply isAlpha_of_toUpper
  rw [all_eq_true] at upper
  apply upper
  rw [← keyword.same]
  exact mem_map_of_mem mem

theorem Keyword.ne_nil {name : String} (keyword : Keyword name) (some : name.toList ≠ []) : keyword.text ≠ [] := by
  intro none
  rw [← keyword.same, none] at some
  exact some rfl

def Effect.isSought : Effect → Bool
  | .rowLock blank => blank
  | .modify _ => true
  | .selectInto => false
  | .createTable => false

inductive Effect.Written : Effect → List Char → Prop where
  | rowLock (keyword : Keyword "FOR") (gap : Gap) (strength : Strength) (blank : gap.isBlank = true ∧ strength.isBlank = true) :
    Written (.rowLock true) (keyword.text ++ gap.text ++ strength.text)
  | modify (verb : Verb) (keyword : Keyword verb.name) : Written (.modify verb) keyword.text

def Occurs (effect : Effect) (text : List Char) : Prop :=
  ∃ a words b, text = a ++ words ++ b ∧ Closed a ∧ Edge b ∧ effect.Written words

theorem parenthesis_edge (after : List Char) : Edge ([')'] ++ after) := edge_cons (mark_of_known (by decide))

theorem parenthesis_closed (before : List Char) : Closed (before ++ ['(']) := closed_concat (mark_of_known (by decide))

theorem verbIntoText_edge (into : Option (Gap × Keyword "INTO")) : Edge (verbIntoText into) := by
  cases into with
  | none => exact edge_nil
  | some into => exact into.1.edge.append_of_ne into.1.ne_nil

theorem Tail.edge (tail : Tail) : Edge tail.text := by
  cases tail with
  | none => exact edge_nil
  | some gap items => exact gap.edge.append_of_ne gap.ne_nil

theorem Locks.edge (locks : Locks) : Edge locks.text := by
  cases locks with
  | nil => exact edge_nil
  | cons before keyword gap strength tail rest =>
    simp only [Locks.text, append_assoc]
    exact before.edge.append_of_ne before.ne_nil

theorem Ctes.closed (before : List Char) (ctes : Ctes) : Closed (before ++ ctes.text) := by
  cases ctes with
  | one name leading statement trailing =>
    simp only [Ctes.text, ← append_assoc]
    exact closed_concat (mark_of_known (by decide))
  | more name leading statement trailing rest =>
    simp only [Ctes.text, ← append_assoc]
    exact rest.closed _

section Occurs

variable {e : Effect}

mutual

theorem Items.occurs (items : Items) (sought : e.isSought = true) (made : e ∈ items.effects) (before after : List Char) :
    Occurs e (before ++ items.text ++ after) := by
  cases items with
  | nil => cases made
  | trivia trivia rest => simpa [Items.text] using rest.occurs sought made (before ++ trivia.text) after
  | token token rest => simpa [Items.text] using rest.occurs sought made (before ++ token.text) after
  | forWord keyword gap word unlocked rest =>
    simpa [Items.text] using rest.occurs sought made (before ++ keyword.text ++ gap.text ++ word.text) after
  | paren inside rest =>
    obtain made | made := mem_append.mp made
    · simpa [Items.text] using inside.occurs sought made (before ++ ['(']) ([')'] ++ (rest.text ++ after))
    · simpa [Items.text] using rest.occurs sought made (before ++ ['('] ++ inside.text ++ [')']) after
  | query leading statement trailing rest =>
    obtain made | made := mem_append.mp made
    · have inner := statement.occurs sought made (before ++ ['('] ++ triviaText leading)
        (triviaText trailing ++ ([')'] ++ (rest.text ++ after)))
        ((parenthesis_closed before).append_of_closed (triviaText_closed leading))
        ((triviaText_edge trailing).append (parenthesis_edge _))
      simpa [Items.text] using inner
    · simpa [Items.text] using rest.occurs sought made
        (before ++ ['('] ++ triviaText leading ++ statement.text ++ triviaText trailing ++ [')']) after

theorem Tail.occurs (tail : Tail) (sought : e.isSought = true) (made : e ∈ tail.effects) (before after : List Char) :
    Occurs e (before ++ tail.text ++ after) := by
  cases tail with
  | none => cases made
  | some gap items => simpa [Tail.text] using items.occurs sought made (before ++ gap.text) after

theorem Ctes.occurs (ctes : Ctes) (sought : e.isSought = true) (made : e ∈ ctes.effects) (before after : List Char) :
    Occurs e (before ++ ctes.text ++ after) := by
  cases ctes with
  | one name leading statement trailing =>
    obtain made | made := mem_append.mp made
    · simpa [Ctes.text] using name.occurs sought made before
        (['('] ++ triviaText leading ++ statement.text ++ triviaText trailing ++ [')'] ++ after)
    · have inner := statement.occurs sought made (before ++ name.text ++ ['('] ++ triviaText leading)
        (triviaText trailing ++ ([')'] ++ after))
        ((parenthesis_closed _).append_of_closed (triviaText_closed leading))
        ((triviaText_edge trailing).append (parenthesis_edge _))
      simpa [Ctes.text] using inner
  | more name leading statement trailing rest =>
    obtain made | made := mem_append.mp made
    · obtain made | made := mem_append.mp made
      · simpa [Ctes.text] using name.occurs sought made before
          (['('] ++ triviaText leading ++ statement.text ++ triviaText trailing ++ [')'] ++ rest.text ++ after)
      · have inner := statement.occurs sought made (before ++ name.text ++ ['('] ++ triviaText leading)
          (triviaText trailing ++ ([')'] ++ (rest.text ++ after)))
          ((parenthesis_closed _).append_of_closed (triviaText_closed leading))
          ((triviaText_edge trailing).append (parenthesis_edge _))
        simpa [Ctes.text] using inner
    · simpa [Ctes.text] using rest.occurs sought made
        (before ++ name.text ++ ['('] ++ triviaText leading ++ statement.text ++ triviaText trailing ++ [')']) after

theorem Statement.occurs (statement : Statement) (sought : e.isSought = true) (made : e ∈ statement.effects) (before after : List Char)
    (closed : Closed before) (edge : Edge after) : Occurs e (before ++ statement.text ++ after) := by
  cases statement with
  | plain main => exact main.occurs sought made before after closed edge
  | withList keyword ctes gap main =>
    obtain made | made := mem_append.mp made
    · simpa [Statement.text] using ctes.occurs sought made (before ++ keyword.text) (triviaText gap ++ main.text ++ after)
    · have inner := main.occurs sought made (before ++ keyword.text ++ ctes.text ++ triviaText gap) after
        ((ctes.closed _).append_of_closed (triviaText_closed gap)) edge
      simpa [Statement.text] using inner

theorem Main.occurs (main : Main) (sought : e.isSought = true) (made : e ∈ main.effects) (before after : List Char)
    (closed : Closed before) (edge : Edge after) : Occurs e (before ++ main.text ++ after) := by
  cases main with
  | select keyword targets into source locks =>
    simp only [Main.effects, mem_append] at made
    obtain ((made | made) | made) | made := made
    · simpa [Main.text] using targets.occurs sought made (before ++ keyword.text)
        (intoText into ++ source.text ++ locks.text ++ after)
    · split at made
      · rw [mem_singleton.mp made] at sought
        cases sought
      · cases made
    · simpa [Main.text] using source.occurs sought made (before ++ keyword.text ++ targets.text ++ intoText into) (locks.text ++ after)
    · simpa [Main.text] using locks.occurs sought made (before ++ keyword.text ++ targets.text ++ intoText into ++ source.text) after edge
  | modify verb keyword into gap items =>
    obtain rfl | made := mem_cons.mp made
    · refine ⟨before, keyword.text, verbIntoText into ++ (gap.text ++ (items.text ++ after)), by simp [Main.text], closed, ?_,
        .modify verb keyword⟩
      exact (verbIntoText_edge into).append (gap.edge.append_of_ne gap.ne_nil)
    · simpa [Main.text] using items.occurs sought made (before ++ keyword.text ++ verbIntoText into ++ gap.text) after
  | create keyword gap modifiers object tail =>
    simp only [Main.effects, mem_append] at made
    obtain made | made := made
    · split at made
      · rw [mem_singleton.mp made] at sought
        cases sought
      · cases made
    · simpa [Main.text] using tail.occurs sought made
        (before ++ keyword.text ++ gap.text ++ modifiersText modifiers ++ object.text) after
  | other command tail => simpa [Main.text] using tail.occurs sought made (before ++ command.text) after

theorem Locks.occurs (locks : Locks) (sought : e.isSought = true) (made : e ∈ locks.effects) (before after : List Char) (edge : Edge after) :
    Occurs e (before ++ locks.text ++ after) := by
  cases locks with
  | nil => cases made
  | cons first keyword gap strength tail rest =>
    obtain here | made := mem_cons.mp made
    · rw [here] at sought ⊢
      have blank : gap.isBlank = true ∧ strength.isBlank = true := by simpa [Effect.isSought] using sought
      refine ⟨before ++ first.text, keyword.text ++ gap.text ++ strength.text, tail.text ++ (rest.text ++ after),
        by simp [Locks.text], first.closed.append first.ne_nil, tail.edge.append (rest.edge.append edge), ?_⟩
      rw [blank.1, blank.2]
      exact .rowLock keyword gap strength blank
    · obtain made | made := mem_append.mp made
      · simpa [Locks.text] using tail.occurs sought made (before ++ first.text ++ keyword.text ++ gap.text ++ strength.text)
          (rest.text ++ after)
      · simpa [Locks.text] using rest.occurs sought made
          (before ++ first.text ++ keyword.text ++ gap.text ++ strength.text ++ tail.text) after edge

end

end Occurs

section Tests

variable {a b text : List Char}

def Matches (r : Regex) (before : Option Char) (text rest : List Char) : Prop :=
  ∃ last, (some last, rest) ∈ r.ends isWordChar (before, text ++ rest) ∧ isWordChar last = true

theorem Keyword.matches {name : String} (keyword : Keyword name) (upper : name.toList.all Char.isUpper = true)
    (some : name.toList ≠ []) (before : Option Char) (rest : List Char) :
    Matches (.literal Char.toUpper name.toList) before keyword.text rest := by
  have nonempty := keyword.ne_nil some
  refine ⟨keyword.text.getLast nonempty, ?_, word_of_isAlpha (keyword.alpha upper _ (getLast_mem nonempty))⟩
  refine Regex.mem_ends_literal.mpr ⟨keyword.text, rfl, keyword.same, ?_⟩
  rw [getLast?_eq_some_getLast nonempty]
  rfl

theorem Gap.whiteSpace (gap : Gap) (blank : gap.isBlank = true) : ∀ c ∈ gap.text, Text.isWhiteSpace c = true := by
  have each (trivia : Trivia) (space : trivia.IsBlank = true) : ∀ c ∈ trivia.text, Text.isWhiteSpace c = true := by
    cases trivia with
    | space c known =>
      intro d mem
      rw [mem_singleton.mp mem]
      exact sqlSpaces_white known
    | line | block => cases space
  rw [Gap.isBlank, all_eq_true] at blank
  intro c mem
  obtain first | later := mem_append.mp mem
  · exact each _ (blank _ mem_cons_self) c first
  · obtain ⟨trivia, inside, mem⟩ := mem_flatMap.mp later
    exact each trivia (blank _ (mem_cons_of_mem _ inside)) c mem

theorem Keyword.matches_gap {name : String} (keyword : Keyword name) (upper : name.toList.all Char.isUpper = true)
    (some : name.toList ≠ []) (gap : Gap) (blank : gap.isBlank = true) {r : Regex} {rest : List Char}
    (later : ∀ before, Matches r before text rest) (before : Option Char) :
    Matches (.seq (.literal Char.toUpper name.toList) (.seq (.plus Text.isWhiteSpace) r)) before
      (keyword.text ++ gap.text ++ text) rest := by
  obtain ⟨last, found, word⟩ := keyword.matches upper some before (gap.text ++ (text ++ rest))
  obtain ⟨last', found', word'⟩ := later (gap.text.getLast?.or last)
  refine ⟨last', ?_, word'⟩
  rw [append_assoc, append_assoc]
  refine Regex.mem_ends_seq.mpr ⟨_, found, Regex.mem_ends_seq.mpr ⟨_, ?_, found'⟩⟩
  exact Regex.mem_ends_plus gap.ne_nil (gap.whiteSpace blank)

theorem Strength.matches (strength : Strength) (blank : strength.isBlank = true) (before : Option Char) (rest : List Char) :
    Matches (.alt (phrase ["UPDATE"]) (.alt (phrase ["NO", "KEY", "UPDATE"]) (.alt (phrase ["SHARE"]) (phrase ["KEY", "SHARE"]))))
      before strength.text rest := by
  cases strength with
  | update last =>
    obtain ⟨c, found, word⟩ := last.matches (by decide) (by decide) before rest
    exact ⟨c, Regex.mem_ends_alt.mpr (.inl found), word⟩
  | noKeyUpdate no first key second last =>
    rw [Strength.isBlank, Bool.and_eq_true] at blank
    have tail := key.matches_gap (by decide) (by decide) second blank.2 (last.matches (by decide) (by decide) · rest)
    obtain ⟨c, found, word⟩ := no.matches_gap (by decide) (by decide) first blank.1 tail before
    simp only [Strength.text, Matches, append_assoc] at found ⊢
    exact ⟨c, Regex.mem_ends_alt.mpr (.inr (Regex.mem_ends_alt.mpr (.inl found))), word⟩
  | share last =>
    obtain ⟨c, found, word⟩ := last.matches (by decide) (by decide) before rest
    exact ⟨c, Regex.mem_ends_alt.mpr (.inr (Regex.mem_ends_alt.mpr (.inr (Regex.mem_ends_alt.mpr (.inl found))))), word⟩
  | keyShare key gap last =>
    obtain ⟨c, found, word⟩ := key.matches_gap (by decide) (by decide) gap blank (last.matches (by decide) (by decide) · rest) before
    exact ⟨c, Regex.mem_ends_alt.mpr (.inr (Regex.mem_ends_alt.mpr (.inr (Regex.mem_ends_alt.mpr (.inr found))))), word⟩

theorem Edge.unword (edge : Edge text) : text.head?.any isWordChar = false := by
  cases text with
  | nil => rfl
  | cons c text => simpa using (edge c rfl).1

theorem Closed.unword (closed : Closed text) : text.getLast?.any isWordChar = false := by
  cases last : text.getLast? with
  | none => rfl
  | some c => simpa using (closed c last).1

theorem Keyword.word {name : String} (keyword : Keyword name) (upper : name.toList.all Char.isUpper = true)
    (some : name.toList ≠ []) (rest : List Char) : (keyword.text ++ rest).head?.any isWordChar = true := by
  have alpha := keyword.alpha upper
  cases written : keyword.text with
  | nil => exact absurd written (keyword.ne_nil some)
  | cons c text =>
    rw [written] at alpha
    simpa using word_of_isAlpha (alpha c mem_cons_self)

theorem Occurs.rowLock (occurs : Occurs (.rowLock true) text) : testsRowLock text = true := by
  obtain ⟨a, words, b, rfl, closed, edge, written⟩ := occurs
  cases written with
  | rowLock keyword gap strength blank =>
    refine Regex.test_iff.mpr ⟨a, keyword.text ++ gap.text ++ strength.text ++ b, by simp, ?_⟩
    have starts : Regex.atBoundary isWordChar (a.getLast?, keyword.text ++ gap.text ++ strength.text ++ b) = true := by
      simp only [Regex.atBoundary, closed.unword, append_assoc]
      rw [keyword.word (by decide) (by decide)]
      rfl
    obtain ⟨c, found, word⟩ := keyword.matches (by decide) (by decide) a.getLast? (gap.text ++ (strength.text ++ b))
    obtain ⟨d, found', word'⟩ := strength.matches blank.2 (gap.text.getLast?.or c) b
    have stops : Regex.atBoundary isWordChar (some d, b) = true := by
      simp [Regex.atBoundary, edge.unword, word']
    simp only [append_assoc] at starts ⊢
    exact ⟨_, Regex.mem_ends_seq.mpr ⟨_, Regex.mem_ends_boundary.mpr ⟨rfl, starts⟩, Regex.mem_ends_seq.mpr ⟨_, found,
      Regex.mem_ends_seq.mpr ⟨_, Regex.mem_ends_plus gap.ne_nil (gap.whiteSpace blank.1), Regex.mem_ends_seq.mpr ⟨_, found',
        Regex.mem_ends_boundary.mpr ⟨rfl, stops⟩⟩⟩⟩⟩⟩

variable {U : UpperCase}

theorem toUpperCase_append : U.toUpperCase (a ++ b) = U.toUpperCase a ++ U.toUpperCase b := flatMap_append ..

theorem toUpperCase_of_alpha (alpha : ∀ c ∈ text, c.isAlpha = true) : U.toUpperCase text = text.map Char.toUpper := by
  induction text with
  | nil => rfl
  | cons c text ih =>
    have ascii := ascii_of_word (word_of_isAlpha (alpha c mem_cons_self))
    have later := ih fun d mem => alpha d (mem_cons_of_mem _ mem)
    rw [map_cons, ← later, UpperCase.toUpperCase, flatMap_cons, U.ascii c ascii]
    rfl

theorem upper_mark {c : Char} (mark : Mark c) : U.upper c = [c] := by
  rw [U.ascii c mark.2, toUpper_of_not_word mark.1]

theorem Edge.toUpperCase (edge : Edge text) : Edge (U.toUpperCase text) := by
  cases text with
  | nil => exact edge_nil
  | cons c text =>
    have mark := edge c rfl
    rw [UpperCase.toUpperCase, flatMap_cons, upper_mark mark]
    exact edge_cons mark

theorem Closed.toUpperCase (closed : Closed text) : Closed (U.toUpperCase text) := by
  cases text using List.reverseRecOn with
  | nil => exact nofun
  | append_singleton text c =>
    have mark := closed c (by simp)
    rw [toUpperCase_append]
    have last : U.toUpperCase [c] = [c] := by simp [UpperCase.toUpperCase, upper_mark mark]
    rw [last]
    exact closed_concat mark

theorem Occurs.modify {verb : Verb} (occurs : Occurs (.modify verb) text) (tested : verb ≠ .merge) :
    testsDataModifying (U.toUpperCase text) = true := by
  obtain ⟨a, words, b, rfl, closed, edge, written⟩ := occurs
  cases written with
  | modify _ keyword =>
    have upper : verb.name.toList.all Char.isUpper = true := by cases verb <;> decide
    have some : verb.name.toList ≠ [] := by cases verb <;> decide
    have twice : verb.name.toList.map Char.toUpper = verb.name.toList := by cases verb <;> decide
    have mem : verb.name.toList ∈ ["INSERT".toList, "UPDATE".toList, "DELETE".toList] := by
      cases verb with
      | insert | update | delete => decide
      | merge => exact absurd rfl tested
    refine Regex.test_wholeWord.mpr ⟨U.toUpperCase a, verb.name.toList, U.toUpperCase b, ?_, by rwa [twice], ?_, ?_⟩
    · rw [toUpperCase_append, toUpperCase_append, toUpperCase_of_alpha (keyword.alpha upper), keyword.same]
    · simp only [Regex.atBoundary, closed.toUpperCase.unword]
      cases verb <;> rfl
    · simp only [Regex.atBoundary, edge.toUpperCase.unword]
      cases verb <;> rfl

end Tests

end SubTrackr.QueryRouting
