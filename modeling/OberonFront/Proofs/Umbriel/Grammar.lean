import OberonFront.Umbriel.Lexicon
import OberonFront.Umbriel.Productions
import OberonFront.Proofs.Lexicon.Tokens
import OberonFront.Proofs.Machine.Check
import OberonFront.Proofs.Machine.Verdict

/-!
# The grammar of Umbriel

The rules of the language as phrases, and what one token of lookahead tells about
them.  The productions are checked against the rules here, and their pace is
bounded.
-/

namespace OberonFront.Umbriel

open Ebnf Nonterminal

/-- A reserved word and declarations that end in a semicolon each. -/
def part (keyword : Kind) (declaration : List (Ebnf Nonterminal)) : Ebnf Nonterminal :=
  chain [keyword, many (chain (declaration ++ [.terminal semicolon]))]

def parenthesized : Ebnf Nonterminal := chain [leftParen, opt actualParameters, rightParen]

def rule : Nonterminal → Ebnf Nonterminal
  | .module => chain [kwModule, ident, semicolon, block, ident, period]
  | .block => chain [many declaration, opt (chain [kwBegin, statementSequence]), kwEnd]
  | .declaration =>
      choice [part kwConst [ident, equal, expression], part kwType [ident, equal, type],
        part kwVar [identList, colon, ident], chain [procedureDeclaration, semicolon]]
  | .procedureDeclaration =>
      chain [kwProcedure, ident, opt parameterDeclarations, semicolon, block, ident]
  | .parameterDeclarations =>
      chain [leftParen, opt (chain [formalParameter, many (chain [semicolon, formalParameter])]),
        rightParen, opt (chain [colon, ident])]
  | .formalParameter => chain [opt kwVar, identList, colon, ident]
  | .type => choice [ident, arrayType, recordType]
  | .arrayType => chain [kwArray, indexType, many (chain [comma, indexType]), kwOf, type]
  | .indexType => chain [leftBracket, expression, upTo, expression, rightBracket]
  | .recordType => chain [kwRecord, fieldList, many (chain [semicolon, fieldList]), kwEnd]
  | .fieldList => opt (chain [identList, colon, type])
  | .identList => chain [ident, many (chain [comma, ident])]
  | .statementSequence => chain [statement, many (chain [semicolon, statement])]
  | .statement =>
      opt (choice [assignmentOrCall, ifStatement, caseStatement, whileStatement, repeatStatement,
        forStatement, chain [kwLoop, statementSequence, kwEnd], kwExit,
        chain [kwReturn, opt expression]])
  | .assignmentOrCall =>
      chain [ident, choice [chain [many selector, becomes, expression], opt parenthesized]]
  | .ifStatement =>
      chain [kwIf, expression, kwThen, statementSequence,
        many (chain [kwElsif, expression, kwThen, statementSequence]),
        opt (chain [kwElse, statementSequence]), kwEnd]
  | .caseStatement =>
      chain [kwCase, expression, kwOf, case, many (chain [bar, case]),
        opt (chain [kwElse, statementSequence]), kwEnd]
  | .case =>
      opt (chain [caseLabels, many (chain [comma, caseLabels]), colon, statementSequence])
  | .caseLabels => chain [expression, opt (chain [upTo, expression])]
  | .whileStatement => chain [kwWhile, expression, kwDo, statementSequence, kwEnd]
  | .repeatStatement => chain [kwRepeat, statementSequence, kwUntil, expression]
  | .forStatement =>
      chain [kwFor, ident, becomes, expression, kwTo, expression,
        opt (chain [kwBy, expression]), kwDo, statementSequence, kwEnd]
  | .selector =>
      choice [chain [period, ident],
        chain [leftBracket, expression, many (chain [comma, expression]), rightBracket]]
  | .actualParameters =>
      chain [expression, opt format, many (chain [comma, expression, opt format])]
  | .format => chain [colon, expression, opt (chain [colon, expression])]
  | .expression => chain [simpleExpression, opt (chain [relation, simpleExpression])]
  | .relation => choice [equal, hash, diamond, less, lessEqual, greater, greaterEqual]
  | .simpleExpression =>
      chain [opt (choice [plus, minus]), term, many (chain [addOperator, term])]
  | .addOperator => choice [plus, minus, kwOr]
  | .term => chain [factor, many (chain [mulOperator, factor])]
  | .mulOperator => choice [times, slash, kwDiv, kwMod, andOperator]
  | .andOperator => choice [kwAnd, ampersand]
  | .factor =>
      choice [literal, chain [ident, choice [many selector, parenthesized]],
        chain [notOperator, factor], chain [leftParen, expression, rightParen]]
  | .literal => choice [char, integer, real, string]
  | .notOperator => choice [kwNot, tilde]

def nullable : Nonterminal → Bool
  | .fieldList | .statementSequence | .statement | .case => true
  | _ => false

/-- What may come first in an expression behind its sign. -/
def operandStart : List Kind := [char, integer, real, string, ident, kwNot, tilde, leftParen]

def first : Nonterminal → List Kind
  | .module => [kwModule]
  | .block => [kwConst, kwType, kwVar, kwProcedure, kwBegin, kwEnd]
  | .declaration => [kwConst, kwType, kwVar, kwProcedure]
  | .procedureDeclaration => [kwProcedure]
  | .parameterDeclarations => [leftParen]
  | .formalParameter => [kwVar, ident]
  | .type => [ident, kwArray, kwRecord]
  | .arrayType => [kwArray]
  | .indexType => [leftBracket]
  | .recordType => [kwRecord]
  | .fieldList | .identList | .assignmentOrCall => [ident]
  | .statementSequence =>
      [semicolon, ident, kwIf, kwCase, kwWhile, kwRepeat, kwFor, kwLoop, kwExit, kwReturn]
  | .statement => [ident, kwIf, kwCase, kwWhile, kwRepeat, kwFor, kwLoop, kwExit, kwReturn]
  | .ifStatement => [kwIf]
  | .caseStatement => [kwCase]
  | .whileStatement => [kwWhile]
  | .repeatStatement => [kwRepeat]
  | .forStatement => [kwFor]
  | .selector => [period, leftBracket]
  | .format => [colon]
  | .case | .caseLabels | .actualParameters | .expression | .simpleExpression =>
      [plus, minus] ++ operandStart
  | .relation => [equal, hash, diamond, less, lessEqual, greater, greaterEqual]
  | .addOperator => [plus, minus, kwOr]
  | .term | .factor => operandStart
  | .mulOperator => [times, slash, kwDiv, kwMod, kwAnd, ampersand]
  | .andOperator => [kwAnd, ampersand]
  | .literal => [char, integer, real, string]
  | .notOperator => [kwNot, tilde]

def statementFollow : List Kind := [semicolon, kwEnd, kwElsif, kwElse, bar, kwUntil]

def expressionFollow : List Kind :=
  [kwOf, comma, rightBracket, upTo, colon, rightParen, kwThen, kwDo, kwTo, kwBy] ++
    statementFollow

def termFollow : List Kind :=
  [plus, minus, kwOr, equal, hash, diamond, less, lessEqual, greater, greaterEqual] ++
    expressionFollow

def factorFollow : List Kind := [times, slash, kwDiv, kwMod, kwAnd, ampersand] ++ termFollow

def follow : Nonterminal → List Kind
  | .module => [Kind.eof]
  | .block => [ident]
  | .declaration => [kwConst, kwType, kwVar, kwProcedure, kwBegin, kwEnd]
  | .procedureDeclaration | .parameterDeclarations => [semicolon]
  | .formalParameter => [semicolon, rightParen]
  | .type | .arrayType | .recordType | .fieldList => [semicolon, kwEnd]
  | .indexType => [comma, kwOf]
  | .identList => [colon]
  | .statementSequence => [kwEnd, kwElsif, kwElse, bar, kwUntil]
  | .statement | .assignmentOrCall | .ifStatement | .caseStatement | .whileStatement
  | .repeatStatement | .forStatement => statementFollow
  | .case => [bar, kwElse, kwEnd]
  | .caseLabels => [comma, colon]
  | .selector => [period, leftBracket, becomes] ++ factorFollow
  | .actualParameters => [rightParen]
  | .format => [comma, rightParen]
  | .expression => expressionFollow
  | .relation => [plus, minus] ++ operandStart
  | .simpleExpression =>
      [equal, hash, diamond, less, lessEqual, greater, greaterEqual] ++ expressionFollow
  | .addOperator | .mulOperator | .andOperator | .notOperator => operandStart
  | .term => termFollow
  | .factor | .literal => factorFollow

def guide : Guide Nonterminal := ⟨tables, rule, nullable, first, follow⟩

theorem agrees : guide.Agrees where
  nullable n := by cases n <;> decide +kernel
  first n := by cases n <;> decide +kernel

theorem right : guide.Right grammar :=
  Guide.right_of_checks agrees fun n => by cases n <;> decide +kernel

/-! ## Pace -/

def pace : Pace Nonterminal where
  tables := tables
  weight
    | .addOperator | .andOperator | .declaration | .fieldList | .formalParameter | .identList
    | .literal | .mulOperator | .notOperator | .relation | .selector | .statement | .type => 5
    | .factor | .statementSequence => 8
    | .block => 10
    | .term => 12
    | .recordType => 15
    | .simpleExpression => 20
    | .expression => 25
    | .caseLabels | .format => 40
    | .case | .indexType | .ifStatement | .parameterDeclarations => 60
    | _ => 130
  eager n :=
    match n with
    | .declaration | .procedureDeclaration | .arrayType | .recordType | .identList | .statement
    | .assignmentOrCall | .ifStatement | .caseStatement | .whileStatement | .repeatStatement
    | .forStatement | .selector | .relation | .addOperator | .mulOperator | .andOperator
    | .notOperator => first n
    | _ => []
  gain
    | .declaration | .mulOperator | .statement => 700
    | _ => 800

theorem sound : pace.Sound grammar where
  paced n := by cases n <;> decide +kernel
  worst n := by cases n <;> decide +kernel
  eager n := by cases n <;> decide +kernel
  gain n := by cases n <;> decide +kernel

theorem unknown_not_mentioned (n : Nonterminal) : mentions unknown (rule n) = false := by
  cases n <;> decide

theorem inhabited : ∀ e, ∃ w, w ∈ lang rule e :=
  exists_mem_lang 6 fun n => by cases n <;> decide +kernel

def analysis : Analysis grammar where
  guide := guide
  pace := pace
  same := rfl
  right := right
  sound := sound
  closes := by decide
  paced := by decide +kernel
  bounded := by decide +kernel
  named := by decide
  inhabited := inhabited

/-- The parser sees all tokens of the language. -/
theorem visible : ∀ k ∈ lexicon.kinds, k ≤ analysis.guide.tables.maxKind := by decide +kernel

end OberonFront.Umbriel
