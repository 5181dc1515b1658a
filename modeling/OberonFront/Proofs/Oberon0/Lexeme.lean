import OberonFront.Proofs.Lexicon.Breaks
import OberonFront.Proofs.Lexicon.Print
import OberonFront.Proofs.Lexicon.Unclosed
import OberonFront.Oberon0.Lexicon

/-!
# The lexemes of Oberon-0

Words, numbers and operators as a class of their own, without the automaton and
its tables.  The automaton takes these lexemes and no others, and passes over
what may stand between them.
-/

namespace OberonFront.Oberon0

open Lexicon

/-- The words that are no identifiers. -/
def words : List (String × Kind) :=
  [("ARRAY", kwArray), ("BEGIN", kwBegin), ("CONST", kwConst), ("DIV", kwDiv), ("DO", kwDo),
    ("ELSE", kwElse), ("ELSIF", kwElsif), ("END", kwEnd), ("IF", kwIf), ("MOD", kwMod),
    ("MODULE", kwModule), ("OF", kwOf), ("OR", kwOr), ("PROCEDURE", kwProcedure),
    ("RECORD", kwRecord), ("REPEAT", kwRepeat), ("THEN", kwThen), ("TYPE", kwType),
    ("UNTIL", kwUntil), ("VAR", kwVar), ("WHILE", kwWhile)]

/-- Space, tab, line feed and carriage return, and nested comments in round brackets. -/
def layout : Layout where
  blanks := [' ', '\t', '\n', '\r']
  comments := [⟨('(', '*'), ('*', ')'), true⟩]

def operators : List (String × Kind) :=
  [(";", semicolon), (".", period), ("=", equal), (",", comma), ("(", leftParen),
    (")", rightParen), ("#", unequal), ("+", plus), ("-", minus), ("*", times), ("&", ampersand),
    ("~", tilde), ("[", leftBracket), ("]", rightBracket), (":", colon), (":=", becomes),
    ("<", less), ("<=", lessEqual), (">", greater), (">=", greaterEqual)]

/-- The lexemes by the first character.  Everything else is a lexeme of one character that is no
token of the language. -/
inductive Lexeme : LexemeClass where
  | word {c : Char} {kind : Kind} {run rest : List Char} (letter : c.isAlpha = true)
      (isRun : LongestRun Char.isAlphanum run rest)
      (isKind : WordKind words ident (c :: run) kind) : Lexeme kind (c :: run) rest
  | number {c : Char} {run rest : List Char} (digit : c.isDigit = true)
      (isRun : LongestRun Char.isDigit run rest) : Lexeme number (c :: run) rest
  | operator {kind : Kind} {chars rest : List Char}
      (isOperator : IsOperator operators kind chars rest) : Lexeme kind chars rest
  | other {c : Char} {rest : List Char} (noWord : c.isAlphanum = false)
      (noOperator : ¬ StartsOperator operators c) : Lexeme unknown [c] rest

theorem operators_fit : OperatorsFit operators := by decide +kernel

/-! ## The automaton -/

theorem toLayout_lexicon : lexicon.toLayout = layout := rfl

theorem keywords_perm : lexicon.keywords.Perm words := by decide +kernel

theorem startTable_fits : startTable.Fits 1 2 [] operators := by decide +kernel

variable {kind : Kind} {c : Char} {run chars rest : List Char}

theorem takes_number (digit : c.isDigit = true) (isRun : LongestRun Char.isDigit run rest) :
    lexicon.Takes number (c :: run) rest := by
  intro _ _ eq position
  obtain ⟨rfl, rfl⟩ := List.cons.inj eq
  have start : lexicon.start.stateFor c.toNat = 2 := startTable_fits.stateFor_of_isDigit digit
  have edge (d : Char) : lexicon.edge? 2 d.toNat =
      if d.isDigit = true then some (.take CharRange.digits 2) else none := by
    have digits : lexicon.state? 2 = some ⟨[.take CharRange.digits 2], .accept number⟩ := rfl
    rw [edge?_of_state?_cons digits, ← CharRange.any_digits]
    rfl
  have loops (d : Char) (h : d.isDigit = true) :
      lexicon.edge? 2 d.toNat = some (.take CharRange.digits 2) := by
    rw [edge, if_pos h]
  have stops (d : Char) (h : d ∈ rest.head?) : lexicon.edge? 2 d.toNat = none := by
    rw [edge, isRun.stops d h]
    rfl
  change lexicon.munch _ none [c] _ (run ++ rest) = _
  rw [start, munch_run loops isRun.all, munch_stop stops, finish_accept rfl]
  simp

theorem takesOperator : ∀ op ∈ operators, lexicon.takesOperator operators op = true := by
  decide +kernel

/-- The automaton takes the lexeme in front of a text. -/
theorem Lexeme.takes (h : Lexeme kind chars rest) : lexicon.Takes kind chars rest := by
  cases h with
  | word letter isRun isKind =>
      have unique : (words.map Prod.fst).Nodup := by decide +kernel
      have start := startTable_fits.stateFor_of_isAlpha letter
      exact takes_word keywords_perm unique rfl start isRun isKind
  | number digit isRun => exact takes_number digit isRun
  | operator isOperator => exact takes_operator takesOperator isOperator
  | other noWord noOperator =>
      exact takes_other (startTable_fits.stateFor_of_other noWord List.not_mem_nil noOperator)

theorem Lexeme.kind_ne_eof (h : Lexeme kind chars rest) : kind ≠ Kind.eof := by
  have reserved : ∀ entry ∈ words, entry.2 ≠ Kind.eof := by decide
  have symbols : ∀ op ∈ operators, op.2 ≠ Kind.eof := by decide
  cases h with
  | word letter isRun isKind =>
      rcases isKind with listed | ⟨rfl, -⟩
      · exact reserved _ listed
      · decide
  | operator isOperator => exact symbols _ isOperator.listed
  | _ => decide

/-- Every text starts with a lexeme. -/
theorem Lexeme.exists_append_eq (c : Char) (text : List Char) :
    ∃ kind chars rest, Lexeme kind chars rest ∧ chars ++ rest = c :: text := by
  by_cases letter : c.isAlpha = true
  · obtain ⟨run, rest, rfl, isRun⟩ := exists_longestRun Char.isAlphanum text
    obtain ⟨kind, isKind⟩ := exists_wordKind words ident (c :: run)
    exact ⟨kind, c :: run, rest, .word letter isRun isKind, rfl⟩
  by_cases digit : c.isDigit = true
  · obtain ⟨run, rest, rfl, isRun⟩ := exists_longestRun Char.isDigit text
    exact ⟨_, c :: run, rest, .number digit isRun, rfl⟩
  by_cases starts : StartsOperator operators c
  · obtain ⟨kind, chars, rest, isOperator, eq⟩ :=
      exists_isOperator operators_fit starts text
    exact ⟨kind, chars, rest, .operator isOperator, eq⟩
  · refine ⟨unknown, [c], text, .other ?_ starts, rfl⟩
    simp [Char.isAlphanum, letter, digit]

theorem spells : lexicon.Spells Lexeme where
  clear := by decide
  exists_lexeme := Lexeme.exists_append_eq
  takes := Lexeme.takes
  kind_ne_eof := Lexeme.kind_ne_eof

theorem Lexeme.apart {rest' : List Char} (h : Lexeme kind chars rest) (apart : StandsApart rest') :
    Lexeme kind chars rest' := by
  cases h with
  | word letter isRun isKind => exact .word letter (isRun.apart rfl apart) isKind
  | number digit isRun => exact .number digit (isRun.apart rfl apart)
  | operator isOperator => exact .operator (isOperator.apart operators_fit apart)
  | other noWord noOperator => exact .other noWord noOperator

theorem separable : lexicon.Separable Lexeme fun _ => True where
  spells := spells
  blank := by decide
  openers := by decide
  returns := by decide
  apart h _ apart := h.apart apart

/-- What is the same in front of a blank is the same in front of a comment. -/
theorem Lexeme.departs {rest' : List Char} (h : Lexeme kind chars rest)
    (departs : Departs '(' rest rest') : Lexeme kind chars rest' := by
  cases h with
  | word letter isRun isKind => exact .word letter (isRun.departs rfl departs) isKind
  | number digit isRun => exact .number digit (isRun.departs rfl departs)
  | operator isOperator => exact .operator (isOperator.departs operators_fit departs)
  | other noWord noOperator => exact .other noWord noOperator

theorem white : lexicon.White Lexeme .round where
  spells := spells
  listed := by decide
  openers := by decide
  plain := by decide
  departs := Lexeme.departs

/-- What is the same in front of a line feed is the same in front of a pair. -/
theorem Lexeme.addsReturns {rest' : List Char} (h : Lexeme kind chars rest)
    (adds : AddsReturns rest rest') : Lexeme kind chars rest' := by
  have solid : ∀ op ∈ operators, '\r' ∉ op.1.toList := by decide +kernel
  cases h with
  | word letter isRun isKind => exact .word letter (isRun.addsReturns rfl adds) isKind
  | number digit isRun => exact .number digit (isRun.addsReturns rfl adds)
  | operator isOperator => exact .operator (isOperator.addsReturns operators_fit solid adds)
  | other noWord noOperator => exact .other noWord noOperator

theorem pairsFeeds : lexicon.PairsFeeds Lexeme where
  spells := spells
  blank := by decide
  plain := by decide
  ends := Lexeme.addsReturns

/-- What is the same in front of a comment is the same at the end of a text. -/
theorem Lexeme.stops {same behind : List Char} (h : Lexeme kind chars (same ++ '(' :: behind)) :
    Lexeme kind chars same := by
  have front : same <+: same ++ '(' :: behind := List.prefix_append _ _
  cases h with
  | word letter isRun isKind => exact .word letter (isRun.truncated front) isKind
  | number digit isRun => exact .number digit (isRun.truncated front)
  | operator isOperator => exact .operator (isOperator.truncated front)
  | other noWord noOperator => exact .other noWord noOperator

theorem stopsBefore : lexicon.StopsBefore Lexeme .round where
  spells := spells
  listed := by decide
  plain := by decide
  stops := Lexeme.stops

end OberonFront.Oberon0
