import SubTrackr.QueryRouting.Leading

namespace SubTrackr.QueryRouting

open List Lib

inductive Led where
  | select | withList
  deriving DecidableEq

def Led.word : Led → String
  | .select => "SELECT"
  | .withList => "WITH"

def Main.led : Main → Option Led
  | .select _ _ _ _ _ => some .select
  | .modify _ _ _ _ _ => none
  | .create _ _ _ _ _ => none
  | .other _ _ => none

def Statement.led : Statement → Option Led
  | .plain main => main.led
  | .withList _ _ _ _ => some .withList

def Statement.main : Statement → Main
  | .plain main => main
  | .withList _ _ _ main => main

/-- The effects that the classifier does not look for in a text that begins so: a created table, a row lock with a comment between its
    words, and changed rows but for an `INSERT`, `UPDATE` or `DELETE` below a `WITH`. -/
def Effect.isUnseen (led : Led) : Effect → Bool
  | .selectInto => true
  | .rowLock blank => !blank
  | .modify verb => verb = .merge || led = .select
  | .createTable => true

def Sql.IsRead (q : Sql) : Prop := ∀ trivia ∈ q.leading, trivia.IsRead

def Sql.Plain (q : Sql) : Prop :=
  q.first.main.led = some .select ∧ (∀ further ∈ q.further, further.statement = none) ∧ q.effects = []

def WordFree (U : UpperCase) (sql : List Char) : Prop :=
  testsRowLock sql = false ∧ testsDataModifying (U.toUpperCase sql) = false

def Passes (U : UpperCase) (sql left : List Char) : Prop :=
  (startsWith (U.toUpperCase left) "SELECT" ∨ startsWith (U.toUpperCase left) "WITH") ∧
    ¬ (startsWith (U.toUpperCase left) "WITH" ∧ testsDataModifying (U.toUpperCase left)) ∧ testsRowLock sql = false

def Sound (U : UpperCase) (q : Sql) : Prop :=
  (isReadQuery U q.text = true → q.effects = []) ∧
    (∀ selected answers name, .replica name ∈ query U q.text selected answers → q.effects = []) ∧
    (q.Plain → WordFree U q.text → isReadQuery U q.text = true)

/-- Effects that the classifier does not look for stand beside words that it finds. Where a leading comment is misread, what is left of
    the text must be judged right. -/
def Classified (U : UpperCase) (q : Sql) : Prop :=
  (q.IsRead → ∀ led ∈ q.first.led, (∃ e ∈ q.effects, e.isUnseen led = true) →
      testsRowLock q.text = true ∨ led = .withList ∧ testsDataModifying (U.toUpperCase (Text.trim q.body)) = true) ∧
    (¬ q.IsRead → ∀ left, Left (Text.trim q.text) left →
      (Passes U q.text left → q.effects = []) ∧ (q.Plain → WordFree U q.text → Passes U q.text left))

section Begins

variable {U : UpperCase} {text a b : List Char}

inductive Begins : Option Led → List Char → Prop where
  | led (led : Led) (keyword : Keyword led.word) (rest : List Char) : Begins (some led) (keyword.text ++ rest)
  | other (word : List Char) (nonempty : word ≠ []) (letters : ∀ c ∈ word, c.isAlpha = true)
      (other : ∀ led : Led, ¬ led.word.toList <+: word.map Char.toUpper) (rest : List Char) (edge : Edge rest) :
      Begins none (word ++ rest)

theorem led_letters (led : Led) : led.word.toList.all Char.isUpper = true ∧ led.word.toList ≠ [] := by
  cases led <;> decide

theorem verb_letters (verb : Verb) : verb.name.toList.all Char.isUpper = true ∧ verb.name.toList ≠ [] := by
  cases verb <;> decide

theorem Main.begins (main : Main) {rest : List Char} (edge : Edge rest) : Begins main.led (main.text ++ rest) := by
  cases main with
  | select keyword targets into source locks =>
    simp only [Main.text, append_assoc]
    exact .led .select keyword _
  | modify verb keyword into gap items =>
    have letters := verb_letters verb
    simp only [Main.text, append_assoc]
    refine .other _ (keyword.ne_nil letters.2) (keyword.alpha letters.1) (fun led => ?_) _ ?_
    · rw [keyword.same]
      cases verb <;> cases led <;> decide
    · exact (verbIntoText_edge into).append (gap.edge.append_of_ne gap.ne_nil)
  | create keyword gap modifiers object tail =>
    simp only [Main.text, append_assoc]
    refine .other _ (keyword.ne_nil (by decide)) (keyword.alpha (by decide)) (fun led => ?_) _ (gap.edge.append_of_ne gap.ne_nil)
    rw [keyword.same]
    cases led <;> decide
  | other command tail =>
    simp only [Main.text, append_assoc]
    refine .other _ command.some command.letters (fun led => ?_) _ (tail.edge.append edge)
    cases led with
    | select => exact command.other "SELECT" (by decide)
    | withList => exact command.other "WITH" (by decide)

theorem Statement.begins (statement : Statement) {rest : List Char} (edge : Edge rest) :
    Begins statement.led (statement.text ++ rest) := by
  cases statement with
  | plain main => exact main.begins edge
  | withList keyword ctes gap main =>
    simp only [Statement.text, append_assoc]
    exact .led .withList keyword _

theorem trim_word {word : List Char} (nonempty : word ≠ []) (letters : ∀ c ∈ word, c.isAlpha = true) (rest : List Char) :
    Text.trim (word ++ rest) = word ++ rest.rdropWhile Text.isWhiteSpace := by
  have visible (c : Char) (mem : c ∈ word) : Text.isWhiteSpace c = false := visible_of_word (word_of_isAlpha (letters c mem))
  have last := visible _ (getLast_mem nonempty)
  have start : word.dropLast.dropWhile Text.isWhiteSpace = word.dropLast := by
    cases front : word.dropLast with
    | nil => rfl
    | cons c more =>
      have mem : c ∈ word := (dropLast_subset word) (by simp [front])
      exact dropWhile_cons_of_neg (by simp [visible c mem])
  have split : word ++ rest = word.dropLast ++ word.getLast nonempty :: rest := by
    rw [← singleton_append, ← append_assoc, dropLast_append_getLast nonempty]
  rw [split, Text.trim_append last, start, ← singleton_append, ← append_assoc, dropLast_append_getLast nonempty]

theorem edge_rdropWhile {text : List Char} (edge : Edge text) : Edge (text.rdropWhile Text.isWhiteSpace) := by
  intro c first
  obtain ⟨blank, whole⟩ := rdropWhile_prefix Text.isWhiteSpace text
  apply edge c
  rw [← whole, head?_append, Option.mem_def.mp first]
  rfl

theorem prefix_of_edge {name word rest : List Char} (letters : ∀ c ∈ name, isWordChar c = true) (edge : Edge rest)
    (starts : name <+: word ++ rest) : name <+: word := by
  obtain short | ⟨more, same⟩ := prefix_or_prefix_of_prefix starts (prefix_append word rest)
  · exact short
  · cases more with
    | nil => simp [← same]
    | cons c more =>
      rw [← same, prefix_append_right_inj] at starts
      obtain ⟨after, split⟩ := starts
      have mark := (edge c (by simp [← split])).1
      rw [letters c (by simp [← same])] at mark
      cases mark

theorem Begins.startsWith {led : Option Led} (begins : Begins led text) (k : Led) :
    startsWith (U.toUpperCase (Text.trim text)) k.word = true ↔ led = some k := by
  rw [startsWith_iff]
  cases begins with
  | led led keyword rest =>
    have letters := led_letters led
    rw [trim_word (keyword.ne_nil letters.2) (keyword.alpha letters.1), toUpperCase_append,
      toUpperCase_of_alpha (keyword.alpha letters.1), keyword.same]
    cases led <;> cases k <;> simp [Led.word]
  | other word nonempty letters other rest edge =>
    rw [trim_word nonempty letters, toUpperCase_append, toUpperCase_of_alpha letters]
    have word_letters : ∀ c ∈ k.word.toList, isWordChar c = true := all_eq_true.mp (by cases k <;> decide +kernel)
    refine iff_of_false (fun starts => ?_) nofun
    exact other k (prefix_of_edge word_letters (edge_rdropWhile edge).toUpperCase starts)

theorem Begins.cons {led : Option Led} (begins : Begins led text) : ∃ c more, text = c :: more ∧ c.isAlpha = true := by
  have first {word : List Char} (nonempty : word ≠ []) (letters : ∀ c ∈ word, c.isAlpha = true) (rest : List Char) :
      ∃ c more, word ++ rest = c :: more ∧ c.isAlpha = true := by
    cases word with
    | nil => exact absurd rfl nonempty
    | cons c word => exact ⟨c, word ++ rest, rfl, letters c mem_cons_self⟩
  cases begins with
  | led led keyword rest => exact first (keyword.ne_nil (led_letters led).2) (keyword.alpha (led_letters led).1) rest
  | other word nonempty letters _ rest _ => exact first nonempty letters rest

end Begins

section Texts

variable {U : UpperCase} {e : Effect} (q : Sql)

theorem further_edge (further : List Further) : Edge (further.flatMap Further.text) := by
  cases further with
  | nil => exact edge_nil
  | cons first rest =>
    simp only [flatMap_cons, Further.text, append_assoc]
    exact (triviaText_edge first.before).append (edge_cons (mark_of_known (by decide)))

def Sql.ending : List Char := triviaText q.trailing ++ (q.unended.map fun body => ['-', '-'] ++ body.1).getD []

theorem Sql.ending_edge : Edge q.ending := by
  refine (triviaText_edge q.trailing).append ?_
  cases q.unended with
  | none => exact edge_nil
  | some body => exact edge_cons (mark_of_known (by decide))

theorem Sql.body_eq : q.body = q.first.text ++ (q.further.flatMap Further.text ++ q.ending) := by
  simp [Sql.body, Sql.ending]

theorem Sql.begins : Begins q.first.led q.body := by
  rw [q.body_eq]
  exact q.first.begins ((further_edge q.further).append q.ending_edge)

theorem further_occurs (further : List Further) (sought : e.isSought = true)
    (made : e ∈ further.flatMap fun f => (f.statement.map Statement.effects).getD []) (before : List Char) {after : List Char}
    (edge : Edge after) : Occurs e (before ++ further.flatMap Further.text ++ after) := by
  induction further generalizing before with
  | nil => cases made
  | cons first rest ih =>
    rw [flatMap_cons] at made ⊢
    obtain here | later := mem_append.mp made
    · cases written : first.statement with
      | none => simp [written] at here
      | some statement =>
        rw [written] at here
        have closed : Closed (before ++ triviaText first.before ++ [';'] ++ triviaText first.after) :=
          (closed_concat (mark_of_known (by decide))).append_of_closed (triviaText_closed first.after)
        have inner := statement.occurs sought here _ _ closed ((further_edge rest).append edge)
        simpa [Further.text, written] using inner
    · simpa using ih later (before ++ first.text)

theorem Sql.occurs (sought : e.isSought = true) (made : e ∈ q.effects) {before : List Char} (closed : Closed before) :
    Occurs e (before ++ q.body) := by
  rw [q.body_eq]
  obtain made | made := mem_append.mp made
  · simpa using q.first.occurs sought made before _ closed ((further_edge q.further).append q.ending_edge)
  · simpa using further_occurs q.further sought made (before ++ q.first.text) q.ending_edge

theorem Effect.Written.last {words : List Char} (written : e.Written words) :
    ∃ (start : List Char) (c : Char), words = start ++ [c] ∧ Text.isWhiteSpace c = false := by
  have word {name : String} (keyword : Keyword name) (letters : name.toList.all Char.isUpper = true ∧ name.toList ≠ [])
      (before : List Char) : ∃ (start : List Char) (c : Char), before ++ keyword.text = start ++ [c] ∧ Text.isWhiteSpace c = false := by
    have nonempty := keyword.ne_nil letters.2
    refine ⟨before ++ keyword.text.dropLast, keyword.text.getLast nonempty, ?_, ?_⟩
    · rw [append_assoc, dropLast_append_getLast nonempty]
    · exact visible_of_word (word_of_isAlpha (keyword.alpha letters.1 _ (getLast_mem nonempty)))
  cases written with
  | rowLock keyword gap strength blank =>
    cases strength with
    | update last => exact word last (by decide) _
    | noKeyUpdate no first key second last =>
      simpa [Strength.text] using word last (by decide) (keyword.text ++ gap.text ++ no.text ++ first.text ++ key.text ++ second.text)
    | share last => exact word last (by decide) _
    | keyShare key between last =>
      simpa [Strength.text] using word last (by decide) (keyword.text ++ gap.text ++ key.text ++ between.text)
  | modify verb keyword => exact word keyword (verb_letters verb) []

theorem Occurs.trimmed {text : List Char} (occurs : Occurs e text) : Occurs e (text.rdropWhile Text.isWhiteSpace) := by
  obtain ⟨a, words, b, rfl, closed, edge, written⟩ := occurs
  obtain ⟨start, c, same, visible⟩ := written.last
  refine ⟨a, words, b.rdropWhile Text.isWhiteSpace, ?_, closed, edge_rdropWhile edge, written⟩
  rw [same, show a ++ (start ++ [c]) ++ b = (a ++ start) ++ c :: b by simp, Text.rdropWhile_visible visible]
  simp

theorem Sql.trim_body : Text.trim q.body = q.body.rdropWhile Text.isWhiteSpace := by
  obtain ⟨c, more, same, letter⟩ := q.begins.cons
  have visible := visible_of_word (word_of_isAlpha letter)
  rw [same]
  exact (Text.trim_append visible [] more).trans (Text.rdropWhile_visible visible [] more).symm

theorem Sql.normalizeSql_text (read : q.IsRead) : normalizeSql q.text = Text.trim q.body := by
  obtain ⟨c, more, same, letter⟩ := q.begins.cons
  have range := toNat_of_isAlpha letter
  have visible := visible_of_word (word_of_isAlpha letter)
  have word : c ≠ '-' ∧ c ≠ '/' := by
    constructor
    · rintro rfl
      revert range
      decide
    · rintro rfl
      revert range
      decide
  have body : Text.trim q.body = c :: more.rdropWhile Text.isWhiteSpace := by
    rw [same]
    exact Text.trim_append visible [] more
  rw [body, normalizeSql, Sql.text, same, Text.trim_append visible]
  exact stripComments_leading visible word (rdropWhile_idempotent _ _) q.leading read

theorem Sql.tested (found : testsDataModifying (U.toUpperCase (Text.trim q.body)) = true) :
    testsDataModifying (U.toUpperCase q.text) = true := by
  obtain ⟨blank, whole⟩ := rdropWhile_prefix Text.isWhiteSpace q.body
  have spaces : ∀ c ∈ blank, Text.isWhiteSpace c = true := by
    have ends : blank = q.body.rtakeWhile Text.isWhiteSpace := by
      have both := rdropWhile_append_rtakeWhile (p := Text.isWhiteSpace) (l := q.body)
      exact append_cancel_left (whole.trans both.symm)
    intro c mem
    rw [ends] at mem
    exact mem_rtakeWhile_imp mem
  have after : (U.toUpperCase blank).head?.any isWordChar = false := by
    cases blank with
    | nil => rfl
    | cons c blank =>
      have white := spaces c mem_cons_self
      rw [UpperCase.toUpperCase, flatMap_cons, U.whiteSpace c white]
      by_contra word
      rw [Bool.not_eq_false] at word
      rw [visible_of_word (c := c) (by simpa using word)] at white
      cases white
  have found := Regex.test_wholeWord.mp found
  apply Regex.test_wholeWord.mpr
  rw [Sql.text, ← whole, ← q.trim_body, toUpperCase_append, toUpperCase_append, ← append_assoc]
  exact found.append (triviaText_closed q.leading).toUpperCase.unword after

end Texts

section Routing

variable {U : UpperCase} {sql : List Char}

theorem isReadQuery_iff : isReadQuery U sql = true ↔ Passes U sql (normalizeSql sql) := by
  simp only [isReadQuery, Passes]
  generalize U.toUpperCase (normalizeSql sql) = normalized
  split
  · rename_i none
    rw [none]
    simp [startsWith]
  · split
    · rename_i changes
      simp [changes]
    · rename_i kept
      split
      · rename_i begins
        split
        · rename_i locks
          simp [locks]
        · rename_i free
          exact iff_of_true rfl ⟨begins, kept, by simpa using free⟩
      · rename_i other
        simp [other]

theorem replica_of_query {selected : Option String} {answers : Bool} {name : String}
    (routed : .replica name ∈ query U sql selected answers) : isReadQuery U sql = true := by
  unfold query at routed
  split at routed
  · assumption
  · simp at routed

theorem Sql.passes_iff (q : Sql) : Passes U q.text (Text.trim q.body) ↔
    ∃ led, q.first.led = some led ∧ testsRowLock q.text = false ∧
      ¬ (led = .withList ∧ testsDataModifying (U.toUpperCase (Text.trim q.body)) = true) := by
  have select := q.begins.startsWith (U := U) .select
  have withList := q.begins.startsWith (U := U) .withList
  simp only [Led.word] at select withList
  simp only [Passes, select, withList]
  constructor
  · rintro ⟨begins | begins, kept, free⟩
    · exact ⟨.select, begins, free, nofun⟩
    · exact ⟨.withList, begins, free, fun changes => kept ⟨begins, changes.2⟩⟩
  · rintro ⟨led, begins, free, kept⟩
    refine ⟨?_, fun changes => kept ⟨Option.some.inj (begins.symm.trans changes.1), changes.2⟩, free⟩
    cases led with
    | select => exact .inl begins
    | withList => exact .inr begins

theorem Sql.seen (q : Sql) {led : Led} {e : Effect} (made : e ∈ q.effects) (seen : ¬ e.isUnseen led = true) :
    testsRowLock q.text = true ∨ led = .withList ∧ testsDataModifying (U.toUpperCase (Text.trim q.body)) = true := by
  cases e with
  | selectInto => exact absurd rfl seen
  | createTable => exact absurd rfl seen
  | rowLock blank =>
    have blank : blank = true := by simpa [Effect.isUnseen] using seen
    rw [blank] at made
    exact .inl (q.occurs rfl made (triviaText_closed q.leading)).rowLock
  | modify verb =>
    have tested : verb ≠ .merge ∧ led ≠ .select := by simpa [Effect.isUnseen] using seen
    have none : Closed [] := nofun
    have occurs := (q.occurs rfl made none).trimmed
    rw [nil_append, ← q.trim_body] at occurs
    refine .inr ⟨?_, occurs.modify tested.1⟩
    cases led with
    | select => exact absurd rfl tested.2
    | withList => rfl

theorem Sql.Plain.passes {q : Sql} (plain : q.Plain) (free : WordFree U q.text) : Passes U q.text (Text.trim q.body) := by
  rw [q.passes_iff]
  have led : ∃ led, q.first.led = some led := by
    have main := plain.1
    cases statement : q.first with
    | plain main' =>
      rw [statement] at main
      exact ⟨.select, main⟩
    | withList keyword ctes gap main' => exact ⟨.withList, rfl⟩
  obtain ⟨led, begins⟩ := led
  refine ⟨led, begins, free.1, fun changes => ?_⟩
  have found := q.tested changes.2
  rw [free.2] at found
  cases found

def asciiUpper : UpperCase where
  upper c := [c.toUpper]
  ascii _ _ := rfl
  whiteSpace c white := by
    rw [toUpper_of_not_word]
    by_contra word
    rw [Bool.not_eq_false] at word
    rw [visible_of_word word] at white
    cases white

def blank : Gap := ⟨.space ' ' (by decide), []⟩

def wordItem (text : List Char) (word : text ≠ [] ∧ (∀ c ∈ text, isIdentifierChar c = true) ∧
    text.map Char.toUpper ∉ ["INTO".toList, "FOR".toList]) (rest : Items) : Items :=
  .trivia blank.first (.token (.word ⟨text, word.1, word.2.1, word.2.2⟩) rest)

def selectThenDelete : Sql where
  leading := []
  first := .plain (.select ⟨"SELECT".toList, by decide +kernel⟩
    (wordItem "1".toList ⟨by decide, all_eq_true.mp (by decide +kernel), by decide +kernel⟩ .nil) none .nil .nil)
  further := [{
    before := []
    after := [blank.first]
    statement := some (.plain (.modify .delete ⟨"DELETE".toList, by decide⟩ none blank
      (.token (.word ⟨"FROM".toList, by decide, all_eq_true.mp (by decide +kernel), by decide +kernel⟩)
        (wordItem "t".toList ⟨by decide, all_eq_true.mp (by decide +kernel), by decide +kernel⟩ .nil)))) }]
  trailing := []
  unended := none

end Routing

end SubTrackr.QueryRouting
