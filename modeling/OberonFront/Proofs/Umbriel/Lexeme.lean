import OberonFront.Proofs.Lexicon.Breaks
import OberonFront.Proofs.Lexicon.Print
import OberonFront.Proofs.Lexicon.Unclosed
import OberonFront.Umbriel.Lexicon

/-!
# The lexemes of Umbriel

Words, numbers, quoted text and operators as a class of their own, without the
automaton.  Every text starts with a lexeme, and what it is depends on no more of
what follows than where the lexeme could have gone on.
-/

namespace OberonFront.Umbriel

open Lexicon

/-- The words that are no identifiers. -/
def words : List (String × Kind) :=
  [("AND", kwAnd), ("ARRAY", kwArray), ("BEGIN", kwBegin), ("BY", kwBy), ("CASE", kwCase),
    ("CONST", kwConst), ("DIV", kwDiv), ("DO", kwDo), ("ELSE", kwElse), ("ELSIF", kwElsif),
    ("END", kwEnd), ("EXIT", kwExit), ("FOR", kwFor), ("IF", kwIf), ("LOOP", kwLoop),
    ("MOD", kwMod), ("MODULE", kwModule), ("NOT", kwNot), ("OF", kwOf), ("OR", kwOr),
    ("PROCEDURE", kwProcedure), ("RECORD", kwRecord), ("REPEAT", kwRepeat),
    ("RETURN", kwReturn), ("THEN", kwThen), ("TO", kwTo), ("TYPE", kwType),
    ("UNTIL", kwUntil), ("VAR", kwVar), ("WHILE", kwWhile)]

/-- Space, tab, line feed, vertical tab, form feed and carriage return, and nested comments in
round brackets. -/
def layout : Layout where
  blanks := [' ', '\t', '\n', '\x0b', '\x0c', '\r']
  comments := [⟨('(', '*'), ('*', ')'), true⟩]

def operators : List (String × Kind) :=
  [(";", semicolon), ("=", equal), (",", comma), ("[", leftBracket), ("]", rightBracket),
    ("(", leftParen), (")", rightParen), ("|", bar), ("+", plus), ("-", minus), ("~", tilde),
    ("*", times), ("/", slash), ("&", ampersand), ("#", hash), (".", period), ("..", upTo),
    (":", colon), (":=", becomes), ("<", less), ("<>", diamond), ("<=", lessEqual),
    (">", greater), (">=", greaterEqual)]

def quotes : List Char := ['\'', '"']

theorem forall_mem_quotes {p : Char → Prop} (single : p '\'') (double : p '"') :
    ∀ quote ∈ quotes, p quote := by
  simp [quotes, single, double]

def IsNumeral (chars : List Char) : Prop := chars ≠ [] ∧ ∀ c ∈ chars, c.isDigit = true

/-- The lexemes by the first character, and numbers by what follows the digits.  Everything else is
a lexeme of one character that is no token of the language. -/
inductive Lexeme : LexemeClass where
  | word {c : Char} {kind : Kind} {run rest : List Char} (letter : c.isAlpha = true)
      (isRun : LongestRun Char.isAlphanum run rest)
      (isKind : WordKind words ident (c :: run) kind) : Lexeme kind (c :: run) rest
  | char {digits rest : List Char} (isNumeral : IsNumeral digits) :
      Lexeme char (digits ++ ['C']) rest
  | range {digits rest : List Char} (isNumeral : IsNumeral digits) :
      Lexeme integer digits ('.' :: '.' :: rest)
  | integer {digits rest : List Char} (isNumeral : IsNumeral digits)
      (ends : ∀ c ∈ rest.head?, c.isDigit = false ∧ c ≠ 'C' ∧ c ≠ '.') :
      Lexeme integer digits rest
  | real {digits fraction rest : List Char} (isNumeral : IsNumeral digits)
      (isRun : LongestRun Char.isDigit fraction rest)
      (ends : ∀ c ∈ rest.head?, c ≠ 'E' ∧ c ≠ 'e' ∧ (fraction = [] → c ≠ '.')) :
      Lexeme real (digits ++ '.' :: fraction) rest
  /-- A real number with an exponent. -/
  | scaled {digits fraction sign power rest : List Char} {mark : Char}
      (isNumeral : IsNumeral digits) (all : ∀ c ∈ fraction, c.isDigit = true)
      (isMark : mark ∈ ['E', 'e']) (isSign : sign ∈ [[], ['+'], ['-']]) (some : power ≠ [])
      (isRun : LongestRun Char.isDigit power rest) :
      Lexeme real (digits ++ '.' :: fraction ++ mark :: sign ++ power) rest
  /-- An exponent without digits. -/
  | unscaled {digits fraction sign rest : List Char} {mark : Char}
      (isNumeral : IsNumeral digits) (all : ∀ c ∈ fraction, c.isDigit = true)
      (isMark : mark ∈ ['E', 'e']) (isSign : sign ∈ [[], ['+'], ['-']])
      (ends : ∀ c ∈ rest.head?, c.isDigit = false ∧ (sign = [] → c ≠ '+' ∧ c ≠ '-')) :
      Lexeme unknown (digits ++ '.' :: fraction ++ mark :: sign) rest
  | quoted {quote : Char} {body rest : List Char} (isQuote : quote ∈ quotes)
      (plain : ∀ c ∈ body, c ≠ quote ∧ c ≠ '\r') : Lexeme string (quote :: body ++ [quote]) rest
  /-- Quoted text that is not closed before a carriage return or the end of the text. -/
  | unclosed {quote : Char} {body rest : List Char} (isQuote : quote ∈ quotes)
      (plain : ∀ c ∈ body, c ≠ quote ∧ c ≠ '\r') (ends : ∀ c ∈ rest.head?, c = '\r') :
      Lexeme unknown (quote :: body) rest
  | operator {kind : Kind} {chars rest : List Char}
      (isOperator : IsOperator operators kind chars rest) : Lexeme kind chars rest
  | other {c : Char} {rest : List Char} (noWord : c.isAlphanum = false) (noQuote : c ∉ quotes)
      (noOperator : ¬ StartsOperator operators c) : Lexeme unknown [c] rest

theorem operators_fit : OperatorsFit operators := by decide +kernel

variable {kind : Kind} {chars rest : List Char}

theorem Lexeme.kind_ne_eof (h : Lexeme kind chars rest) : kind ≠ Kind.eof := by
  have reserved : ∀ entry ∈ words, entry.2 ≠ Kind.eof := by decide
  have symbols : ∀ op ∈ operators, op.2 ≠ Kind.eof := by decide
  cases h with
  | word letter isRun isKind =>
      rcases isKind with listed | ⟨rfl, -⟩
      · exact reserved _ listed
      · decide
  | operator isOperator => exact symbols _ isOperator.listed
  | _ => decide

/-! ## Every text starts with a lexeme -/

/-- Behind the mark of an exponent. -/
theorem exists_sign (text : List Char) : ∃ sign rest, text = sign ++ rest ∧
    sign ∈ [[], ['+'], ['-']] ∧ ∀ c ∈ rest.head?, sign = [] → c ≠ '+' ∧ c ≠ '-' := by
  cases text with
  | nil => exact ⟨[], [], rfl, by decide, by simp⟩
  | cons c rest =>
      by_cases signed : c = '+' ∨ c = '-'
      · refine ⟨[c], rest, rfl, ?_, by simp⟩
        rcases signed with rfl | rfl <;> decide
      · refine ⟨[], c :: rest, rfl, by decide, fun d h _ => ?_⟩
        cases Option.mem_some_iff.mp h
        exact not_or.mp signed

/-- Behind the digits of the fraction. -/
theorem exists_real {digits fraction rest : List Char} (isNumeral : IsNumeral digits)
    (isRun : LongestRun Char.isDigit fraction rest)
    (noRange : fraction = [] → rest.head? ≠ some '.') :
    ∃ kind chars rest', Lexeme kind chars rest' ∧
      chars ++ rest' = digits ++ '.' :: (fraction ++ rest) := by
  by_cases marked : ∃ mark ∈ ['E', 'e'], rest.head? = some mark
  · obtain ⟨mark, isMark, head⟩ := marked
    obtain ⟨text, rfl⟩ := List.head?_eq_some_iff.mp head
    obtain ⟨sign, text, rfl, isSign, noSign⟩ := exists_sign text
    obtain ⟨power, rest, rfl, isPower⟩ := exists_longestRun Char.isDigit text
    by_cases none : power = []
    · subst none
      refine ⟨_, _, rest, .unscaled isNumeral isRun.all isMark isSign fun c h => ?_, by simp⟩
      exact ⟨isPower.stops c h, noSign c h⟩
    · exact ⟨_, _, rest, .scaled isNumeral isRun.all isMark isSign none isPower, by simp⟩
  · refine ⟨_, _, rest, .real isNumeral isRun fun c h => ?_, by simp⟩
    refine ⟨?_, ?_, fun none => ?_⟩ <;> rintro rfl
    · exact marked ⟨'E', by decide, h⟩
    · exact marked ⟨'e', by decide, h⟩
    · exact noRange none h

theorem exists_number {c : Char} (digit : c.isDigit = true) (text : List Char) :
    ∃ kind chars rest, Lexeme kind chars rest ∧ chars ++ rest = c :: text := by
  obtain ⟨digits, rest, eq, isRun⟩ := exists_longestRun Char.isDigit (c :: text)
  have isNumeral : IsNumeral digits := by
    refine ⟨?_, isRun.all⟩
    rintro rfl
    have stops := isRun.stops c (by rw [← List.nil_append rest, ← eq]; rfl)
    rw [digit] at stops
    cases stops
  rw [eq]
  by_cases suffix : rest.head? = some 'C'
  · obtain ⟨rest, rfl⟩ := List.head?_eq_some_iff.mp suffix
    exact ⟨char, digits ++ ['C'], rest, .char isNumeral, by simp⟩
  by_cases point : rest.head? = some '.'
  · obtain ⟨behind, rfl⟩ := List.head?_eq_some_iff.mp point
    by_cases again : behind.head? = some '.'
    · obtain ⟨rest, rfl⟩ := List.head?_eq_some_iff.mp again
      exact ⟨integer, digits, _, .range isNumeral, rfl⟩
    · obtain ⟨fraction, rest, rfl, isFraction⟩ := exists_longestRun Char.isDigit behind
      exact exists_real isNumeral isFraction fun none => by rwa [none] at again
  · refine ⟨integer, digits, rest, .integer isNumeral fun c h => ⟨isRun.stops c h, ?_, ?_⟩, rfl⟩
    · rintro rfl
      exact suffix h
    · rintro rfl
      exact point h

theorem exists_quoted {quote : Char} (isQuote : quote ∈ quotes) (text : List Char) :
    ∃ kind chars rest, Lexeme kind chars rest ∧ chars ++ rest = quote :: text := by
  obtain ⟨body, rest, rfl, isRun⟩ :=
    exists_longestRun (fun c => decide (c ≠ quote ∧ c ≠ '\r')) text
  have plain : ∀ c ∈ body, c ≠ quote ∧ c ≠ '\r' := fun c h => of_decide_eq_true (isRun.all c h)
  by_cases closed : rest.head? = some quote
  · obtain ⟨rest, rfl⟩ := List.head?_eq_some_iff.mp closed
    exact ⟨string, quote :: body ++ [quote], rest, .quoted isQuote plain, by simp⟩
  · refine ⟨unknown, quote :: body, rest, .unclosed isQuote plain fun c h => ?_, rfl⟩
    have stops := of_decide_eq_false (isRun.stops c h)
    by_contra other
    refine stops ⟨?_, other⟩
    rintro rfl
    exact closed h

theorem Lexeme.exists_append_eq (c : Char) (text : List Char) :
    ∃ kind chars rest, Lexeme kind chars rest ∧ chars ++ rest = c :: text := by
  by_cases letter : c.isAlpha = true
  · obtain ⟨run, rest, rfl, isRun⟩ := exists_longestRun Char.isAlphanum text
    obtain ⟨kind, isKind⟩ := exists_wordKind words ident (c :: run)
    exact ⟨kind, c :: run, rest, .word letter isRun isKind, rfl⟩
  by_cases digit : c.isDigit = true
  · exact exists_number digit text
  by_cases isQuote : c ∈ quotes
  · exact exists_quoted isQuote text
  by_cases starts : StartsOperator operators c
  · obtain ⟨kind, chars, rest, isOperator, eq⟩ :=
      exists_isOperator operators_fit starts text
    exact ⟨kind, chars, rest, .operator isOperator, eq⟩
  · refine ⟨unknown, [c], text, .other ?_ isQuote starts, rfl⟩
    simp [Char.isAlphanum, letter, digit]

/-! ## What follows -/

/-- In front of a blank a lexeme of the language is what it is in front of anything else. -/
theorem Lexeme.apart {rest' : List Char} (h : Lexeme kind chars rest) (known : kind ≠ unknown)
    (apart : StandsApart rest') : Lexeme kind chars rest' := by
  cases h with
  | word letter isRun isKind => exact .word letter (isRun.apart rfl apart) isKind
  | char isNumeral => exact .char isNumeral
  | range isNumeral =>
      refine .integer isNumeral fun c h => ?_
      rw [apart c h]
      decide
  | integer isNumeral =>
      refine .integer isNumeral fun c h => ?_
      rw [apart c h]
      decide
  | real isNumeral isRun =>
      refine .real isNumeral (isRun.apart rfl apart) fun c h => ?_
      rw [apart c h]
      exact ⟨by decide, by decide, fun _ => by decide⟩
  | scaled isNumeral all isMark isSign some isRun =>
      exact .scaled isNumeral all isMark isSign some (isRun.apart rfl apart)
  | quoted isQuote plain => exact .quoted isQuote plain
  | operator isOperator => exact .operator (isOperator.apart operators_fit apart)
  | unscaled => exact absurd rfl known
  | unclosed => exact absurd rfl known
  | other => exact absurd rfl known

/-- What is the same in front of a blank is the same in front of a comment. -/
theorem Lexeme.departs {rest' : List Char} (h : Lexeme kind chars rest)
    (departs : Departs '(' rest rest') : Lexeme kind chars rest' := by
  cases h with
  | word letter isRun isKind => exact .word letter (isRun.departs rfl departs) isKind
  | char isNumeral => exact .char isNumeral
  | range isNumeral =>
      obtain ⟨same, behind, behind', eq, rfl⟩ := departs
      match same with
      | [] => cases eq
      | [_] => cases eq
      | _ :: _ :: same =>
          cases eq
          exact .range isNumeral
  | integer isNumeral ends => exact .integer isNumeral (departs.forall_head (by decide) ends)
  | real isNumeral isRun ends =>
      refine .real isNumeral (isRun.departs rfl departs) (departs.forall_head ?_ ends)
      exact ⟨by decide, by decide, fun _ => by decide⟩
  | scaled isNumeral all isMark isSign some isRun =>
      exact .scaled isNumeral all isMark isSign some (isRun.departs rfl departs)
  | unscaled isNumeral all isMark isSign ends =>
      refine .unscaled isNumeral all isMark isSign (departs.forall_head ?_ ends)
      exact ⟨rfl, fun _ => by decide⟩
  | quoted isQuote plain => exact .quoted isQuote plain
  | unclosed isQuote plain ends =>
      obtain ⟨same, behind, behind', rfl, rfl⟩ := departs
      cases same with
      | nil => exact absurd (ends ' ' rfl) (by decide)
      | cons d same => exact .unclosed isQuote plain ends
  | operator isOperator => exact .operator (isOperator.departs operators_fit departs)
  | other noWord noQuote noOperator => exact .other noWord noQuote noOperator

/-- What is the same in front of a line feed is the same in front of a pair.  Quoted text that is
not closed takes in all line feeds, so none is behind it. -/
theorem Lexeme.addsReturns {rest' : List Char} (h : Lexeme kind chars rest)
    (adds : AddsReturns rest rest') : Lexeme kind chars rest' := by
  have solid : ∀ op ∈ operators, '\r' ∉ op.1.toList := by decide +kernel
  cases h with
  | word letter isRun isKind => exact .word letter (isRun.addsReturns rfl adds) isKind
  | char isNumeral => exact .char isNumeral
  | range isNumeral =>
      obtain ⟨_, rfl, behind⟩ := adds.exists_of_cons (by decide)
      obtain ⟨rest', rfl, -⟩ := behind.exists_of_cons (by decide)
      exact .range isNumeral
  | integer isNumeral ends => exact .integer isNumeral (adds.forall_head (by decide) ends)
  | real isNumeral isRun ends =>
      refine .real isNumeral (isRun.addsReturns rfl adds) (adds.forall_head ?_ ends)
      exact ⟨by decide, by decide, fun _ => by decide⟩
  | scaled isNumeral all isMark isSign some isRun =>
      exact .scaled isNumeral all isMark isSign some (isRun.addsReturns rfl adds)
  | unscaled isNumeral all isMark isSign ends =>
      refine .unscaled isNumeral all isMark isSign (adds.forall_head ?_ ends)
      exact ⟨rfl, fun _ => by decide⟩
  | quoted isQuote plain => exact .quoted isQuote plain
  | unclosed isQuote plain ends => exact .unclosed isQuote plain (adds.forall_head rfl ends)
  | operator isOperator => exact .operator (isOperator.addsReturns operators_fit solid adds)
  | other noWord noQuote noOperator => exact .other noWord noQuote noOperator

/-- What is the same in front of a comment is the same at the end of a text. -/
theorem Lexeme.stops {same behind : List Char} (h : Lexeme kind chars (same ++ '(' :: behind)) :
    Lexeme kind chars same := by
  have front : same <+: same ++ '(' :: behind := List.prefix_append _ _
  generalize eq : same ++ '(' :: behind = rest at h front
  cases h with
  | word letter isRun isKind => exact .word letter (isRun.truncated front) isKind
  | char isNumeral => exact .char isNumeral
  | range isNumeral =>
      match same with
      | [] => cases eq
      | [_] => cases eq
      | _ :: _ :: same =>
          cases eq
          exact .range isNumeral
  | integer isNumeral ends => exact .integer isNumeral (forall_head_truncated front ends)
  | real isNumeral isRun ends =>
      exact .real isNumeral (isRun.truncated front) (forall_head_truncated front ends)
  | scaled isNumeral all isMark isSign some isRun =>
      exact .scaled isNumeral all isMark isSign some (isRun.truncated front)
  | unscaled isNumeral all isMark isSign ends =>
      exact .unscaled isNumeral all isMark isSign (forall_head_truncated front ends)
  | quoted isQuote plain => exact .quoted isQuote plain
  | unclosed isQuote plain ends =>
      exact .unclosed isQuote plain (forall_head_truncated front ends)
  | operator isOperator => exact .operator (isOperator.truncated front)
  | other noWord noQuote noOperator => exact .other noWord noQuote noOperator

end OberonFront.Umbriel
