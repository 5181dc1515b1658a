import OberonFront.Oberon0.Lexicon
import OberonFront.Oberon0.Productions
import OberonFront.Proofs.Lexicon.Tokens
import OberonFront.Proofs.Machine.Check
import OberonFront.Proofs.Machine.Verdict

/-!
# The grammar of Oberon-0

The rules of the language as phrases, and what one token of lookahead tells about
them.  The productions are checked against the rules here, and their pace is
bounded.
-/

namespace OberonFront.Oberon0

open Ebnf Nonterminal

def bodyPhrase : Ebnf Nonterminal := opt (chain [kwBegin, statementSequence])

def constantDeclaration : List (Ebnf Nonterminal) := [ident, equal, expression]

def typeDeclaration : List (Ebnf Nonterminal) := [ident, equal, type]

def variableDeclaration : List (Ebnf Nonterminal) := [identList, colon, type]

/-- A part of the declarations: a reserved word, and declarations that end in a semicolon each. -/
def part (keyword : Kind) (declaration : List (Ebnf Nonterminal)) : Ebnf Nonterminal :=
  opt (chain [keyword, many (chain (declaration ++ [.terminal semicolon]))])

def rule : Nonterminal → Ebnf Nonterminal
  | .module =>
      chain [kwModule, ident, semicolon, declarations, bodyPhrase, kwEnd, ident, period]
  | .declarations =>
      chain [part kwConst constantDeclaration, part kwType typeDeclaration,
        part kwVar variableDeclaration, many (chain [procedureDeclaration, semicolon])]
  | .procedureDeclaration =>
      chain [kwProcedure, ident, opt formalParameters, semicolon, declarations, bodyPhrase, kwEnd,
        ident]
  | .formalParameters =>
      chain [leftParen, opt (chain [fpSection, many (chain [semicolon, fpSection])]), rightParen]
  | .fpSection => chain [opt kwVar, identList, colon, type]
  | .type =>
      choice [ident, chain [kwArray, expression, kwOf, type],
        chain [kwRecord, fieldList, many (chain [semicolon, fieldList]), kwEnd]]
  | .fieldList => opt (chain [identList, colon, type])
  | .identList => chain [ident, many (chain [comma, ident])]
  | .statementSequence => chain [statement, many (chain [semicolon, statement])]
  | .statement =>
      opt (choice [
        chain [ident, selector, choice [chain [becomes, expression], opt actualParameters]],
        ifStatement, whileStatement, repeatStatement])
  | .ifStatement =>
      chain [kwIf, expression, kwThen, statementSequence,
        many (chain [kwElsif, expression, kwThen, statementSequence]),
        opt (chain [kwElse, statementSequence]), kwEnd]
  | .whileStatement => chain [kwWhile, expression, kwDo, statementSequence, kwEnd]
  | .repeatStatement => chain [kwRepeat, statementSequence, kwUntil, expression]
  | .actualParameters =>
      chain [leftParen, opt (chain [expression, many (chain [comma, expression])]), rightParen]
  | .selector =>
      many (choice [chain [period, ident], chain [leftBracket, expression, rightBracket]])
  | .expression => chain [simpleExpression, opt (chain [relation, simpleExpression])]
  | .relation => choice [equal, unequal, less, lessEqual, greater, greaterEqual]
  | .simpleExpression =>
      chain [opt (choice [plus, minus]), term, many (chain [addOperator, term])]
  | .addOperator => choice [plus, minus, kwOr]
  | .term => chain [factor, many (chain [mulOperator, factor])]
  | .mulOperator => choice [times, kwDiv, kwMod, ampersand]
  | .factor =>
      choice [chain [ident, selector], number, chain [leftParen, expression, rightParen],
        chain [tilde, factor]]

def nullable : Nonterminal → Bool
  | .declarations | .fieldList | .statementSequence | .statement | .selector => true
  | _ => false

def first : Nonterminal → List Kind
  | .module => [kwModule]
  | .declarations => [kwConst, kwType, kwVar, kwProcedure]
  | .procedureDeclaration => [kwProcedure]
  | .formalParameters | .actualParameters => [leftParen]
  | .fpSection => [kwVar, ident]
  | .type => [ident, kwArray, kwRecord]
  | .fieldList | .identList => [ident]
  | .statementSequence => [semicolon, ident, kwIf, kwWhile, kwRepeat]
  | .statement => [ident, kwIf, kwWhile, kwRepeat]
  | .ifStatement => [kwIf]
  | .whileStatement => [kwWhile]
  | .repeatStatement => [kwRepeat]
  | .selector => [period, leftBracket]
  | .expression | .simpleExpression => [plus, minus, ident, number, leftParen, tilde]
  | .relation => [equal, unequal, less, lessEqual, greater, greaterEqual]
  | .addOperator => [plus, minus, kwOr]
  | .term | .factor => [ident, number, leftParen, tilde]
  | .mulOperator => [times, kwDiv, kwMod, ampersand]

def sequenceFollow : List Kind := [kwEnd, kwElsif, kwElse, kwUntil]

/-- What may stand behind a declaration or a statement, or behind the semicolon that ends it. -/
def sentenceFollow : List Kind :=
  [semicolon, ident, kwIf, kwWhile, kwRepeat, kwType, kwVar, kwProcedure, kwBegin] ++
    sequenceFollow

/-- What may stand behind an expression, or behind a semicolon behind it. -/
def expressionFollow : List Kind :=
  [kwOf, rightParen, kwThen, kwDo, comma, rightBracket] ++ sentenceFollow

/-- What may stand behind a nonterminal.  Behind an expression, a type or a compound statement the
parser does not mind if a semicolon is missing. -/
def follow : Nonterminal → List Kind
  | .module => [Kind.eof]
  | .declarations => [kwBegin, kwEnd]
  | .procedureDeclaration => [semicolon, kwProcedure, kwBegin, kwEnd]
  | .formalParameters => [semicolon, kwConst, kwType, kwVar, kwProcedure, kwBegin, kwEnd]
  | .fpSection => [semicolon, rightParen]
  | .type => rightParen :: sentenceFollow
  | .fieldList => [semicolon, kwEnd]
  | .identList => [colon]
  | .statementSequence => sequenceFollow
  | .statement => semicolon :: sequenceFollow
  | .ifStatement | .whileStatement | .repeatStatement | .actualParameters => sentenceFollow
  | .selector => becomes :: leftParen ::
      [times, kwDiv, kwMod, ampersand, plus, minus, kwOr, equal, unequal, less, lessEqual,
        greater, greaterEqual] ++ expressionFollow
  | .expression => expressionFollow
  | .relation | .addOperator => [plus, minus, ident, number, leftParen, tilde]
  | .simpleExpression =>
      [equal, unequal, less, lessEqual, greater, greaterEqual] ++ expressionFollow
  | .term =>
      [plus, minus, kwOr, equal, unequal, less, lessEqual, greater, greaterEqual] ++
        expressionFollow
  | .mulOperator => [ident, number, leftParen, tilde]
  | .factor =>
      [times, kwDiv, kwMod, ampersand, plus, minus, kwOr, equal, unequal, less, lessEqual,
        greater, greaterEqual] ++ expressionFollow

def guide : Guide Nonterminal := ⟨tables, rule, nullable, first, follow⟩

theorem agrees : guide.Agrees where
  nullable n := by cases n <;> decide +kernel
  first n := by cases n <;> decide +kernel

theorem right : guide.Right grammar :=
  Guide.right_of_checks agrees fun n => by cases n <;> decide +kernel

/-! ## Pace -/

def pace : Pace Nonterminal where
  tables := tables
  weight
    | .addOperator | .fieldList | .identList | .mulOperator | .relation | .selector
    | .statement => 3
    | .statementSequence => 6
    | .factor => 7
    | .term => 10
    | .declarations => 15
    | .simpleExpression => 20
    | .expression | .type => 25
    | .fpSection | .ifStatement | .whileStatement | .repeatStatement => 50
    | .formalParameters | .actualParameters => 75
    | _ => 125
  eager n :=
    match n with
    | .procedureDeclaration | .identList | .statement | .ifStatement | .whileStatement
    | .repeatStatement | .relation | .addOperator | .mulOperator => first n
    | _ => []
  gain
    | .statement => 700
    | _ => 800

theorem sound : pace.Sound grammar where
  paced n := by cases n <;> decide +kernel
  worst n := by cases n <;> decide +kernel
  eager n := by cases n <;> decide +kernel
  gain n := by cases n <;> decide +kernel

theorem unknown_not_mentioned (n : Nonterminal) : mentions unknown (rule n) = false := by
  cases n <;> decide

theorem inhabited : ∀ e, ∃ w, w ∈ lang rule e :=
  exists_mem_lang 6 fun n => by cases n <;> decide +kernel

def analysis : Analysis grammar where
  guide := guide
  pace := pace
  same := rfl
  right := right
  sound := sound
  closes := by decide
  paced := by decide +kernel
  bounded := by decide +kernel
  named := by decide
  inhabited := inhabited

/-- The parser sees all tokens of the language. -/
theorem visible : ∀ k ∈ lexicon.kinds, k ≤ analysis.guide.tables.maxKind := by decide +kernel

end OberonFront.Oberon0
