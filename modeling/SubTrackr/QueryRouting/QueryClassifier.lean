import SubTrackr.Lib.Regex
import SubTrackr.Lib.Text

namespace SubTrackr.QueryRouting

open Lib

/-- The `toUpperCase` of the runtime, by character. Only what its table says of ASCII and of white space matters here. -/
structure UpperCase where
  upper : Char → List Char
  ascii (c : Char) : c.toNat < 128 → upper c = [c.toUpper]
  whiteSpace (c : Char) : Text.isWhiteSpace c = true → upper c = [c]

def UpperCase.toUpperCase (U : UpperCase) (text : List Char) : List Char := text.flatMap U.upper

def isWordChar (c : Char) : Bool := c.isAlphanum || c = '_'

def writePrefixes : List String :=
  ["INSERT", "UPDATE", "DELETE", "MERGE", "CREATE", "ALTER", "DROP", "TRUNCATE", "REFRESH", "GRANT", "REVOKE", "COPY",
    "VACUUM", "ANALYZE", "REINDEX", "CLUSTER", "COMMENT", "LOCK", "CALL", "DO", "SET"]

def startsWith (text : List Char) (start : String) : Bool := start.toList.isPrefixOf text

def indexOf (pattern : List Char) : List Char → Option ℕ
  | [] => if pattern.isEmpty then some 0 else none
  | c :: rest => if pattern.isPrefixOf (c :: rest) then some 0 else (indexOf pattern rest).map (· + 1)

def cutAfter (pattern text : List Char) : List Char :=
  match indexOf pattern text with
  | none => []
  | some i => Text.trim (text.drop (i + pattern.length))

def stripRound (text : List Char) : Option (List Char) :=
  if startsWith text "/*" ∨ startsWith text "--" then
    if startsWith text "--" then some (cutAfter ['\n'] text) else some (cutAfter ['*', '/'] text)
  else none

theorem length_trim_le (text : List Char) : (Text.trim text).length ≤ text.length :=
  (List.rdropWhile_prefix _ _).length_le.trans (List.length_dropWhile_le _ _)

theorem length_cutAfter_lt {pattern text : List Char} (some_ : text ≠ []) (long : pattern ≠ []) :
    (cutAfter pattern text).length < text.length := by
  have pos := List.length_pos_iff.mpr some_
  have reads := List.length_pos_iff.mpr long
  unfold cutAfter
  split
  · exact pos
  · rename_i i _
    have := length_trim_le (text.drop (i + pattern.length))
    rw [List.length_drop] at this
    omega

theorem length_stripRound_lt {text next : List Char} (round : stripRound text = some next) : next.length < text.length := by
  unfold stripRound at round
  split at round
  · rename_i comment
    have some_ : text ≠ [] := by
      rintro rfl
      simp [startsWith] at comment
    split at round
    · cases round
      exact length_cutAfter_lt some_ (by simp)
    · cases round
      exact length_cutAfter_lt some_ (by simp)
  · cases round

def stripComments (text : List Char) : List Char :=
  match round : stripRound text with
  | none => text
  | some next =>
    have := length_stripRound_lt round
    stripComments next
termination_by text.length

def normalizeSql (sql : List Char) : List Char := stripComments (Text.trim sql)

def dataModifyingKeywords : Regex :=
  .wholeWord Char.toUpper ["INSERT".toList, "UPDATE".toList, "DELETE".toList]

def phrase : List String → Regex
  | [] => .empty
  | [word] => .literal Char.toUpper word.toList
  | word :: rest => .seq (.literal Char.toUpper word.toList) (.seq (.plus Text.isWhiteSpace) (phrase rest))

def rowLock : Regex :=
  .seq .boundary (.seq (.literal Char.toUpper "FOR".toList) (.seq (.plus Text.isWhiteSpace)
    (.seq (.alt (phrase ["UPDATE"]) (.alt (phrase ["NO", "KEY", "UPDATE"]) (.alt (phrase ["SHARE"]) (phrase ["KEY", "SHARE"]))))
      .boundary)))

def testsDataModifying (text : List Char) : Bool := dataModifyingKeywords.test isWordChar text

def testsRowLock (text : List Char) : Bool := rowLock.test isWordChar text

def isReadQuery (U : UpperCase) (sql : List Char) : Bool :=
  let normalized := U.toUpperCase (normalizeSql sql)
  if normalized = [] then false
  else if startsWith normalized "WITH" ∧ testsDataModifying normalized then false
  else if startsWith normalized "SELECT" ∨ startsWith normalized "WITH" then
    if testsRowLock sql then false else true
  else if writePrefixes.any fun start => startsWith normalized start then false
  else false

inductive Target where
  | primary
  | replica (name : String)

/-- The pools that `ReadWritePool.query` asks, one after the other: `selected` is the replica that `selectReplica` gives, and
    `answers` says whether it answers. -/
def query (U : UpperCase) (sql : List Char) (selected : Option String) (answers : Bool) : List Target :=
  if isReadQuery U sql then
    match selected with
    | none => [.primary]
    | some name => if answers then [.replica name] else [.replica name, .primary]
  else [.primary]

def sqlSpaces : List Char := [' ', '\t', '\n', '\r', '\x0b', '\x0c']

def commentRest : ℕ → List Char → Option (List Char)
  | 0, text => some text
  | _ + 1, [] => none
  | _ + 1, [_] => none
  | depth + 1, c :: d :: rest =>
    if c = '/' ∧ d = '*' then commentRest (depth + 2) rest
    else if c = '*' ∧ d = '/' then commentRest depth rest
    else commentRest (depth + 1) (d :: rest)
termination_by _ text => text.length

inductive Trivia where
  | space (c : Char) (known : c ∈ sqlSpaces)
  | line (body : List Char) (single : '\n' ∉ body ∧ '\r' ∉ body) (feed : Bool)
  | block (body : List Char) (closed : commentRest 1 body = some [])

def Trivia.text : Trivia → List Char
  | .space c _ => [c]
  | .line body _ feed => ['-', '-'] ++ body ++ [if feed then '\n' else '\r']
  | .block body _ => ['/', '*'] ++ body

structure Gap where
  first : Trivia
  rest : List Trivia

def triviaText (trivia : List Trivia) : List Char := trivia.flatMap Trivia.text

def Gap.text (gap : Gap) : List Char := gap.first.text ++ triviaText gap.rest

def Trivia.IsBlank : Trivia → Bool
  | .space _ _ => true
  | .line _ _ _ => false
  | .block _ _ => false

def Gap.isBlank (gap : Gap) : Bool := (gap.first :: gap.rest).all Trivia.IsBlank

structure Keyword (name : String) where
  text : List Char
  same : text.map Char.toUpper = name.toList

def isIdentifierChar (c : Char) : Bool := isWordChar c || c = '$' || 128 ≤ c.toNat

/-- A name, a number or a key word that stands for no part of the grammar. -/
structure Word where
  text : List Char
  some : text ≠ []
  plain : ∀ c ∈ text, isIdentifierChar c = true
  free : text.map Char.toUpper ∉ ["INTO".toList, "FOR".toList]

inductive Token where
  | word (word : Word)
  /-- a string or a quoted name -/
  | quoted (mark : Char) (known : mark = '\'' ∨ mark = '"') (body : List Char) (inner : mark ∉ body)
  /-- operators and punctuation, which neither begin a comment nor end the statement -/
  | symbols (text : List Char) (known : ∀ c ∈ text, c ∈ "+-*/<>=~!@#%^&|?:,.[]".toList)
      (uncommented : ¬ ['-', '-'] <:+: text ∧ ¬ ['/', '*'] <:+: text)

def Token.text : Token → List Char
  | .word w => w.text
  | .quoted mark _ body _ => mark :: body ++ [mark]
  | .symbols text _ _ => text

inductive Verb where
  | insert | update | delete | merge
  deriving DecidableEq

def Verb.name : Verb → String
  | .insert => "INSERT"
  | .update => "UPDATE"
  | .delete => "DELETE"
  | .merge => "MERGE"

/-- How strong a row lock is: the words that follow `FOR`, with what stands between them. -/
inductive Strength where
  | update (update : Keyword "UPDATE")
  | noKeyUpdate (no : Keyword "NO") (first : Gap) (key : Keyword "KEY") (second : Gap) (update : Keyword "UPDATE")
  | share (share : Keyword "SHARE")
  | keyShare (key : Keyword "KEY") (gap : Gap) (share : Keyword "SHARE")

def Strength.text : Strength → List Char
  | .update last => last.text
  | .noKeyUpdate no first key second last => no.text ++ first.text ++ key.text ++ second.text ++ last.text
  | .share last => last.text
  | .keyShare key gap last => key.text ++ gap.text ++ last.text

def Strength.isBlank : Strength → Bool
  | .update _ => true
  | .noKeyUpdate _ first _ second _ => first.isBlank && second.isBlank
  | .share _ => true
  | .keyShare _ gap _ => gap.isBlank

structure Command where
  text : List Char
  some : text ≠ []
  letters : ∀ c ∈ text, c.isAlpha = true
  other : ∀ name ∈ ["SELECT", "WITH", "INSERT", "UPDATE", "DELETE", "MERGE", "CREATE"], ¬ name.toList <+: text.map Char.toUpper

mutual

/-- Pieces of a statement. A sub-query, and any other statement in parentheses, is a piece. -/
inductive Items where
  | nil
  | trivia (trivia : Trivia) (rest : Items)
  | token (token : Token) (rest : Items)
  | forWord (keyword : Keyword "FOR") (gap : Gap) (word : Word)
      (unlocked : word.text.map Char.toUpper ∉ ["UPDATE".toList, "NO".toList, "SHARE".toList, "KEY".toList]) (rest : Items)
  | paren (inside rest : Items)
  | query (leading : List Trivia) (statement : Statement) (trailing : List Trivia) (rest : Items)

inductive Tail where
  | none
  | some (gap : Gap) (items : Items)

inductive Ctes where
  | one (name : Items) (leading : List Trivia) (statement : Statement) (trailing : List Trivia)
  | more (name : Items) (leading : List Trivia) (statement : Statement) (trailing : List Trivia) (rest : Ctes)

inductive Statement where
  | plain (main : Main)
  | withList (keyword : Keyword "WITH") (ctes : Ctes) (gap : List Trivia) (main : Main)

inductive Main where
  | select (keyword : Keyword "SELECT") (targets : Items) (into : Option (Gap × Keyword "INTO" × Gap)) (source : Items)
      (locks : Locks)
  | modify (verb : Verb) (keyword : Keyword verb.name) (into : Option (Gap × Keyword "INTO")) (gap : Gap) (items : Items)
  | create (keyword : Keyword "CREATE") (gap : Gap) (modifiers : List (Word × Gap)) (object : Word) (tail : Tail)
  | other (command : Command) (tail : Tail)

inductive Locks where
  | nil
  | cons (before : Gap) (keyword : Keyword "FOR") (gap : Gap) (strength : Strength) (tail : Tail) (rest : Locks)

end

def intoText (into : Option (Gap × Keyword "INTO" × Gap)) : List Char :=
  match into with
  | none => []
  | some (before, keyword, after) => before.text ++ keyword.text ++ after.text

def verbIntoText (into : Option (Gap × Keyword "INTO")) : List Char :=
  match into with
  | none => []
  | some (before, keyword) => before.text ++ keyword.text

def modifiersText (modifiers : List (Word × Gap)) : List Char := modifiers.flatMap fun m => m.1.text ++ m.2.text

mutual

def Items.text : Items → List Char
  | .nil => []
  | .trivia trivia rest => trivia.text ++ rest.text
  | .token token rest => token.text ++ rest.text
  | .forWord keyword gap word _ rest => keyword.text ++ gap.text ++ word.text ++ rest.text
  | .paren inside rest => ['('] ++ inside.text ++ [')'] ++ rest.text
  | .query leading statement trailing rest =>
    ['('] ++ triviaText leading ++ statement.text ++ triviaText trailing ++ [')'] ++ rest.text

def Tail.text : Tail → List Char
  | .none => []
  | .some gap items => gap.text ++ items.text

def Ctes.text : Ctes → List Char
  | .one name leading statement trailing =>
    name.text ++ ['('] ++ triviaText leading ++ statement.text ++ triviaText trailing ++ [')']
  | .more name leading statement trailing rest =>
    name.text ++ ['('] ++ triviaText leading ++ statement.text ++ triviaText trailing ++ [')'] ++ rest.text

def Statement.text : Statement → List Char
  | .plain main => main.text
  | .withList keyword ctes gap main => keyword.text ++ ctes.text ++ triviaText gap ++ main.text

def Main.text : Main → List Char
  | .select keyword targets into source locks => keyword.text ++ targets.text ++ intoText into ++ source.text ++ locks.text
  | .modify _ keyword into gap items => keyword.text ++ verbIntoText into ++ gap.text ++ items.text
  | .create keyword gap modifiers object tail =>
    keyword.text ++ gap.text ++ modifiersText modifiers ++ object.text ++ tail.text
  | .other command tail => command.text ++ tail.text

def Locks.text : Locks → List Char
  | .nil => []
  | .cons before keyword gap strength tail rest =>
    before.text ++ keyword.text ++ gap.text ++ strength.text ++ tail.text ++ rest.text

end

inductive Effect where
  | selectInto
  /-- `blank` says whether only white space stands between the words of the lock -/
  | rowLock (blank : Bool)
  | modify (verb : Verb)
  | createTable
  deriving DecidableEq

mutual

def Items.effects : Items → List Effect
  | .nil => []
  | .trivia _ rest => rest.effects
  | .token _ rest => rest.effects
  | .forWord _ _ _ _ rest => rest.effects
  | .paren inside rest => inside.effects ++ rest.effects
  | .query _ statement _ rest => statement.effects ++ rest.effects

def Tail.effects : Tail → List Effect
  | .none => []
  | .some _ items => items.effects

def Ctes.effects : Ctes → List Effect
  | .one name _ statement _ => name.effects ++ statement.effects
  | .more name _ statement _ rest => name.effects ++ statement.effects ++ rest.effects

def Statement.effects : Statement → List Effect
  | .plain main => main.effects
  | .withList _ ctes _ main => ctes.effects ++ main.effects

def Main.effects : Main → List Effect
  | .select _ targets into source locks =>
    targets.effects ++ (if into.isSome then [.selectInto] else []) ++ source.effects ++ locks.effects
  | .modify verb _ _ _ items => .modify verb :: items.effects
  | .create _ _ _ object tail => (if object.text.map Char.toUpper = "TABLE".toList then [.createTable] else []) ++ tail.effects
  | .other _ tail => tail.effects

def Locks.effects : Locks → List Effect
  | .nil => []
  | .cons _ _ gap strength tail rest => .rowLock (gap.isBlank && strength.isBlank) :: (tail.effects ++ rest.effects)

end

structure Further where
  (before after : List Trivia)
  statement : Option Statement

def Further.text (further : Further) : List Char :=
  triviaText further.before ++ [';'] ++ triviaText further.after ++ (further.statement.map Statement.text).getD []

structure Sql where
  leading : List Trivia
  first : Statement
  further : List Further
  trailing : List Trivia
  unended : Option { body : List Char // '\n' ∉ body ∧ '\r' ∉ body }

def Sql.body (q : Sql) : List Char :=
  q.first.text ++ (q.further.flatMap Further.text ++ triviaText q.trailing ++ (q.unended.map fun body => ['-', '-'] ++ body.1).getD [])

def Sql.text (q : Sql) : List Char := triviaText q.leading ++ q.body

def Sql.effects (q : Sql) : List Effect :=
  q.first.effects ++ q.further.flatMap fun further => (further.statement.map Statement.effects).getD []

end SubTrackr.QueryRouting
