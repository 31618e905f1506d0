import SubTrackr.QueryRouting.Words

namespace SubTrackr.QueryRouting

open List Lib

def FirstAt (pattern text before after : List Char) : Prop :=
  text = before ++ pattern ++ after ∧
    ∀ before' after', text = before' ++ pattern ++ after' → before.length ≤ before'.length

/-- The text without its leading comments, where a block comment ends with the first end of a comment after its start, and a line
    comment with the first line feed. -/
inductive Left : List Char → List Char → Prop where
  | bare {text : List Char} : ¬ ['-', '-'] <+: text → ¬ ['/', '*'] <+: text → Left text text
  | line {text before after rest : List Char} : ['-', '-'] <+: text → FirstAt ['\n'] text before after →
      Left (Text.trim after) rest → Left text rest
  | lastLine {text : List Char} : ['-', '-'] <+: text → ¬ ['\n'] <:+: text → Left text []
  | block {text before after rest : List Char} : ['/', '*'] <+: text → FirstAt ['*', '/'] text before after →
      Left (Text.trim after) rest → Left text rest
  | lastBlock {text : List Char} : ['/', '*'] <+: text → ¬ ['*', '/'] <:+: text → Left text []

section Occurrences

variable {pattern text before after : List Char}

theorem indexOf_none (absent : indexOf pattern text = none) : ¬ pattern <:+: text := by
  induction text with
  | nil =>
    intro infixed
    rw [infix_nil.mp infixed] at absent
    simp [indexOf] at absent
  | cons c text ih =>
    unfold indexOf at absent
    split at absent
    · cases absent
    · rename_i other
      rw [infix_cons_iff]
      rintro (here | later)
      · exact other (List.isPrefixOf_iff_prefix.mpr here)
      · exact ih (Option.map_eq_none_iff.mp absent) later

theorem indexOf_some {i : ℕ} (found : indexOf pattern text = some i) :
    ∃ before after, FirstAt pattern text before after ∧ before.length = i := by
  induction text generalizing i with
  | nil =>
    unfold indexOf at found
    split at found
    · rename_i none
      cases found
      exact ⟨[], [], ⟨by simp [isEmpty_iff.mp none], by simp⟩, rfl⟩
    · cases found
  | cons c text ih =>
    unfold indexOf at found
    split at found
    · rename_i here
      obtain ⟨after, same⟩ := isPrefixOf_iff_prefix.mp here
      cases found
      exact ⟨[], after, ⟨by simp [same], by simp⟩, rfl⟩
    · rename_i other
      obtain ⟨j, later, rfl⟩ := Option.map_eq_some_iff.mp found
      obtain ⟨before, after, ⟨rfl, least⟩, rfl⟩ := ih later
      refine ⟨c :: before, after, ⟨by simp, ?_⟩, rfl⟩
      intro before' after' split
      cases before' with
      | nil =>
        refine absurd (List.isPrefixOf_iff_prefix.mpr ⟨after', ?_⟩) other
        rw [split]
        rfl
      | cons d before' =>
        simp only [cons_append] at split
        exact Nat.succ_le_succ (least before' after' (List.cons.inj split).2)

theorem cutAfter_of_absent (absent : ¬ pattern <:+: text) : cutAfter pattern text = [] := by
  unfold cutAfter
  split
  · rfl
  · rename_i i found
    obtain ⟨before, after, ⟨rfl, _⟩, _⟩ := indexOf_some found
    exact absurd ⟨before, after, rfl⟩ absent

theorem cutAfter_of_first (first : FirstAt pattern text before after) : cutAfter pattern text = Text.trim after := by
  unfold cutAfter
  split
  · rename_i absent
    exact absurd ⟨before, after, first.1.symm⟩ (indexOf_none absent)
  · rename_i i found
    obtain ⟨before', after', ⟨same, least⟩, rfl⟩ := indexOf_some found
    have long : before'.length = before.length := Nat.le_antisymm (least _ _ first.1) (first.2 _ _ same)
    have cut : (before ++ pattern).length = before'.length + pattern.length := by simp [long]
    rw [← cut, first.1, drop_left]

theorem first_or_absent (pattern text : List Char) :
    (∃ before after, FirstAt pattern text before after) ∨ ¬ pattern <:+: text := by
  cases found : indexOf pattern text with
  | none => exact .inr (indexOf_none found)
  | some i =>
    obtain ⟨before, after, first, _⟩ := indexOf_some found
    exact .inl ⟨before, after, first⟩

end Occurrences

section Rounds

variable {text next rest : List Char}

theorem startsWith_iff {start : String} : startsWith text start = true ↔ start.toList <+: text := isPrefixOf_iff_prefix

theorem stripComments_of_none (ended : stripRound text = none) : stripComments text = text := by
  rw [stripComments]
  split
  · rfl
  · rename_i round
    rw [ended] at round
    cases round

theorem stripComments_of_some (round : stripRound text = some next) : stripComments text = stripComments next := by
  rw [stripComments]
  split
  · rename_i ended
    rw [ended] at round
    cases round
  · rename_i other found
    rw [found] at round
    cases round
    rfl

theorem stripRound_line (line : ['-', '-'] <+: text) : stripRound text = some (cutAfter ['\n'] text) := by
  have starts : startsWith text "--" = true := startsWith_iff.mpr line
  simp [stripRound, starts]

theorem stripRound_block (block : ['/', '*'] <+: text) : stripRound text = some (cutAfter ['*', '/'] text) := by
  have starts : startsWith text "/*" = true := startsWith_iff.mpr block
  have other : startsWith text "--" = false := by
    obtain ⟨rest, rfl⟩ := block
    rfl
  simp [stripRound, starts, other]

theorem stripRound_bare (line : ¬ ['-', '-'] <+: text) (block : ¬ ['/', '*'] <+: text) : stripRound text = none := by
  have one : ¬ startsWith text "--" = true := startsWith_iff.not.mpr line
  have two : ¬ startsWith text "/*" = true := startsWith_iff.not.mpr block
  simp [stripRound, one, two]

theorem stripComments_nil : stripComments [] = [] := stripComments_of_none rfl

theorem left_stripComments (text : List Char) : Left text (stripComments text) := by
  induction text using stripComments.induct with
  | case1 text ended =>
    rw [stripComments_of_none ended]
    by_cases line : ['-', '-'] <+: text
    · rw [stripRound_line line] at ended
      cases ended
    · by_cases block : ['/', '*'] <+: text
      · rw [stripRound_block block] at ended
        cases ended
      · exact .bare line block
  | case2 text next round _ ih =>
    rw [stripComments_of_some round]
    by_cases line : ['-', '-'] <+: text
    · rw [stripRound_line line] at round
      cases round
      obtain ⟨before, after, first⟩ | absent := first_or_absent ['\n'] text
      · rw [cutAfter_of_first first] at ih ⊢
        exact .line line first ih
      · rw [cutAfter_of_absent absent, stripComments_nil]
        exact .lastLine line absent
    · by_cases block : ['/', '*'] <+: text
      · rw [stripRound_block block] at round
        cases round
        obtain ⟨before, after, first⟩ | absent := first_or_absent ['*', '/'] text
        · rw [cutAfter_of_first first] at ih ⊢
          exact .block block first ih
        · rw [cutAfter_of_absent absent, stripComments_nil]
          exact .lastBlock block absent
      · rw [stripRound_bare line block] at round
        cases round

theorem Left.same (left : Left text rest) : stripComments text = rest := by
  induction left with
  | bare line block => exact stripComments_of_none (stripRound_bare line block)
  | line line first _ ih => rw [stripComments_of_some (stripRound_line line), cutAfter_of_first first, ih]
  | lastLine line absent => rw [stripComments_of_some (stripRound_line line), cutAfter_of_absent absent, stripComments_nil]
  | block block first _ ih => rw [stripComments_of_some (stripRound_block block), cutAfter_of_first first, ih]
  | lastBlock block absent => rw [stripComments_of_some (stripRound_block block), cutAfter_of_absent absent, stripComments_nil]

theorem left_normalizeSql (sql : List Char) : Left (Text.trim sql) (normalizeSql sql) := left_stripComments _

def Trivia.IsRead : Trivia → Prop
  | .space _ _ => True
  | .line _ _ feed => feed = true
  | .block body _ => ∀ a b, ['/', '*'] ++ body = a ++ ['*', '/'] ++ b → b = []

variable {a b pattern : List Char} {c : Char}

theorem firstAt_end (split : text = a ++ pattern) (only : ∀ a' b', text = a' ++ pattern ++ b' → b' = []) (rest : List Char) :
    FirstAt pattern (text ++ rest) a rest := by
  refine ⟨by rw [split], fun before after same => ?_⟩
  by_contra short
  have inside : (before ++ pattern).length ≤ text.length := by
    rw [split, length_append, length_append]
    omega
  have start : before ++ pattern <+: text := by
    refine prefix_of_prefix_length_le ?_ (prefix_append text rest) inside
    exact ⟨after, same.symm⟩
  obtain ⟨b', whole⟩ := start
  have none := only before b' whole.symm
  rw [none, append_nil, split] at whole
  have long := congrArg List.length whole
  rw [length_append, length_append] at long
  omega

theorem firstAt_feed (single : '\n' ∉ a) (rest : List Char) : FirstAt ['\n'] (a ++ ['\n'] ++ rest) a rest := by
  refine firstAt_end rfl (fun a' b' same => ?_) rest
  by_contra some
  have split : a ++ ['\n'] = (a' ++ ['\n']) ++ b'.dropLast ++ [b'.getLast some] := by
    rw [append_assoc, dropLast_append_getLast some]
    exact same
  apply single
  rw [append_inj_left' split rfl]
  simp

theorem stripComments_leading (visible : Text.isWhiteSpace c = false) (word : c ≠ '-' ∧ c ≠ '/')
    (ended : b.rdropWhile Text.isWhiteSpace = b) (leading : List Trivia) (read : ∀ trivia ∈ leading, trivia.IsRead) :
    stripComments ((triviaText leading).dropWhile Text.isWhiteSpace ++ c :: b) = c :: b := by
  induction leading with
  | nil =>
    apply stripComments_of_none
    apply stripRound_bare
    · simp [triviaText, cons_prefix_cons, Ne.symm word.1]
    · simp [triviaText, cons_prefix_cons, Ne.symm word.2]
  | cons trivia leading ih =>
    have later := ih fun other mem => read other (mem_cons_of_mem _ mem)
    have cut : Text.trim (triviaText leading ++ c :: b) = (triviaText leading).dropWhile Text.isWhiteSpace ++ c :: b := by
      rw [Text.trim_append visible, ended]
    have here := read trivia mem_cons_self
    rw [triviaText, flatMap_cons]
    cases trivia with
    | space d known =>
      rw [Trivia.text, singleton_append, dropWhile_cons_of_pos (sqlSpaces_white known)]
      exact later
    | line body single feed =>
      have ended : feed = true := here
      have first := firstAt_feed (a := ['-', '-'] ++ body) (by simpa using single.1) (triviaText leading ++ c :: b)
      have start : ((Trivia.line body single feed).text ++ leading.flatMap Trivia.text).dropWhile Text.isWhiteSpace ++ c :: b =
          ['-', '-'] ++ body ++ ['\n'] ++ (triviaText leading ++ c :: b) := by
        rw [Trivia.text, ended, append_assoc, append_assoc, cons_append, dropWhile_cons_of_neg (by decide)]
        simp [triviaText]
      rw [start, stripComments_of_some (stripRound_line ⟨_, by simp; rfl⟩), cutAfter_of_first first, cut]
      exact later
    | block body closed =>
      have only : ∀ a' b', ['/', '*'] ++ body = a' ++ ['*', '/'] ++ b' → b' = [] := here
      obtain ⟨inner, same⟩ := commentRest_ends closed
      have first := firstAt_end (a := ['/', '*'] ++ inner) (by simp [same]) only (triviaText leading ++ c :: b)
      have start : ((Trivia.block body closed).text ++ leading.flatMap Trivia.text).dropWhile Text.isWhiteSpace ++ c :: b =
          ['/', '*'] ++ body ++ (triviaText leading ++ c :: b) := by
        rw [Trivia.text, append_assoc, cons_append, dropWhile_cons_of_neg (by decide)]
        simp [triviaText]
      rw [start, stripComments_of_some (stripRound_block ⟨_, by simp; rfl⟩), cutAfter_of_first first, cut]
      exact later

end Rounds

end SubTrackr.QueryRouting
