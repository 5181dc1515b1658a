import OberonFront.Parser.Machine
import OberonFront.Umbriel.Tables

/-!
# The productions of Umbriel

```text
Umbriel               = "MODULE" ident ";" Block ident "." .
Block                 = {Declaration} ["BEGIN" StatementSequence] "END" .
Declaration           = "CONST" {ident "=" Expression ";"}
                      | "TYPE" {ident "=" Type ";"}
                      | "VAR" {IdentList ":" ident ";"}
                      | ProcedureDeclaration ";" .
ProcedureDeclaration  = "PROCEDURE" ident [ParameterDeclarations] ";" Block ident .
ParameterDeclarations = "(" [FormalParameter {";" FormalParameter}] ")" [":" ident] .
FormalParameter       = ["VAR"] IdentList ":" ident .
Type                  = ident | ArrayType | RecordType .
ArrayType             = "ARRAY" IndexType {"," IndexType} "OF" Type .
IndexType             = "[" Expression ".." Expression "]" .
RecordType            = "RECORD" FieldList {";" FieldList} "END" .
FieldList             = [IdentList ":" Type] .
IdentList             = ident {"," ident} .
StatementSequence     = Statement {";" Statement} .
Statement             = [ AssignmentOrCall | IfStatement | CaseStatement
                        | WhileStatement | RepeatStatement | ForStatement
                        | "LOOP" StatementSequence "END" | "EXIT"
                        | "RETURN" [Expression] ] .
AssignmentOrCall      = ident ( {Selector} ":=" Expression
                              | ["(" [ActualParameters] ")"] ) .
IfStatement           = "IF" Expression "THEN" StatementSequence
                        {"ELSIF" Expression "THEN" StatementSequence}
                        ["ELSE" StatementSequence] "END" .
CaseStatement         = "CASE" Expression "OF" Case {"|" Case}
                        ["ELSE" StatementSequence] "END" .
Case                  = [CaseLabels {"," CaseLabels} ":" StatementSequence] .
CaseLabels            = Expression [".." Expression] .
WhileStatement        = "WHILE" Expression "DO" StatementSequence "END" .
RepeatStatement       = "REPEAT" StatementSequence "UNTIL" Expression .
ForStatement          = "FOR" ident ":=" Expression "TO" Expression
                        ["BY" Expression] "DO" StatementSequence "END" .
Selector              = "." ident | "[" Expression {"," Expression} "]" .
ActualParameters      = Expression [Format] {"," Expression [Format]} .
Format                = ":" Expression [":" Expression] .
Expression            = SimpleExpression [Relation SimpleExpression] .
Relation              = "=" | "#" | "<>" | "<" | "<=" | ">" | ">=" .
SimpleExpression      = ["+" | "-"] Term {AddOperator Term} .
AddOperator           = "+" | "-" | "OR" .
Term                  = Factor {MulOperator Factor} .
MulOperator           = "*" | "/" | "DIV" | "MOD" | AndOperator .
AndOperator           = "AND" | "&" .
Factor                = Literal
                      | ident ( {Selector} | "(" [ActualParameters] ")" )
                      | NotOperator Factor | "(" Expression ")" .
Literal               = char | integer | real | string .
NotOperator           = "NOT" | "~" .
```
-/

namespace OberonFront.Umbriel

open OberonFront.Action

inductive Nonterminal where
  | module
  | block
  | declaration
  | procedureDeclaration
  | parameterDeclarations
  | formalParameter
  | type
  | arrayType
  | indexType
  | recordType
  | fieldList
  | identList
  | statementSequence
  | statement
  | assignmentOrCall
  | ifStatement
  | caseStatement
  | case
  | caseLabels
  | whileStatement
  | repeatStatement
  | forStatement
  | selector
  | actualParameters
  | format
  | expression
  | relation
  | simpleExpression
  | addOperator
  | term
  | mulOperator
  | andOperator
  | factor
  | literal
  | notOperator
deriving DecidableEq, Repr

/-- A reserved word and any number of declarations that start with an identifier and end in a
semicolon. -/
def declarationPart (declaration : List (Action Nonterminal)) : Action Nonterminal :=
  .block [get, whileDo (.sees [ident]) (.block (declaration ++ [expect semicolon]))]

def parenthesizedParameters : Action Nonterminal :=
  .block [get, when (.starts expressionStart) (call .actualParameters), expect rightParen]

def production : Nonterminal → Action Nonterminal
  | .module =>
      .block [expect kwModule, expect ident, expect semicolon, call .block, expect ident,
        expect period]
  | .block =>
      .block [
        whileDo (.starts declarationStart) (call .declaration),
        when (.sees [kwBegin]) (.block [get, call .statementSequence]),
        expect kwEnd]
  | .declaration =>
      choose [
        (.sees [kwConst], declarationPart [get, expect equal, call .expression]),
        (.sees [kwType], declarationPart [get, expect equal, call .type]),
        (.sees [kwVar], declarationPart [call .identList, expect colon, expect ident]),
        (.sees [kwProcedure], .block [call .procedureDeclaration, expect semicolon])]
        (fail invalidDeclaration)
  | .procedureDeclaration =>
      .block [expect kwProcedure, expect ident,
        when (.sees [leftParen]) (call .parameterDeclarations),
        expect semicolon, call .block, expect ident]
  | .parameterDeclarations =>
      .block [expect leftParen,
        when (.sees [ident, kwVar])
          (.block [call .formalParameter,
            whileDo (.sees [semicolon]) (.block [get, call .formalParameter])]),
        expect rightParen,
        when (.sees [colon]) (.block [get, expect ident])]
  | .formalParameter =>
      choose [
        (.sees [ident], .block [call .identList, expect colon, expect ident]),
        (.sees [kwVar], .block [get, call .identList, expect colon, expect ident])]
        (fail invalidFormalParameter)
  | .type =>
      choose [
        (.sees [ident], get),
        (.sees [kwArray], call .arrayType),
        (.sees [kwRecord], call .recordType)]
        (fail invalidType)
  | .arrayType =>
      .block [expect kwArray, call .indexType,
        whileDo (.sees [comma]) (.block [get, call .indexType]),
        expect kwOf, call .type]
  | .indexType =>
      .block [expect leftBracket, call .expression, expect upTo, call .expression,
        expect rightBracket]
  | .recordType =>
      .block [expect kwRecord, call .fieldList,
        whileDo (.sees [semicolon]) (.block [get, call .fieldList]),
        expect kwEnd]
  | .fieldList =>
      when (.sees [ident]) (.block [call .identList, expect colon, call .type])
  | .identList =>
      .block [expect ident, whileDo (.sees [comma]) (.block [get, expect ident])]
  | .statementSequence =>
      .block [call .statement,
        whileDo (.sees [semicolon]) (.block [get, call .statement])]
  | .statement =>
      when (.starts statementStart)
        (choose [
          (.sees [ident], call .assignmentOrCall),
          (.sees [kwIf], call .ifStatement),
          (.sees [kwCase], call .caseStatement),
          (.sees [kwWhile], call .whileStatement),
          (.sees [kwRepeat], call .repeatStatement),
          (.sees [kwFor], call .forStatement),
          (.sees [kwLoop], .block [get, call .statementSequence, expect kwEnd]),
          (.sees [kwExit], get)]
          (.block [expect kwReturn, when (.starts expressionStart) (call .expression)]))
  | .assignmentOrCall =>
      .block [expect ident,
        choose [
          (.sees [period, leftBracket, becomes],
            .block [whileDo (.sees [period, leftBracket]) (call .selector),
              expect becomes, call .expression]),
          (.starts callTail, when (.sees [leftParen]) parenthesizedParameters)]
          (fail invalidAssignmentOrCall)]
  | .ifStatement =>
      .block [expect kwIf, call .expression, expect kwThen, call .statementSequence,
        whileDo (.sees [kwElsif])
          (.block [get, call .expression, expect kwThen, call .statementSequence]),
        when (.sees [kwElse]) (.block [get, call .statementSequence]),
        expect kwEnd]
  | .caseStatement =>
      .block [expect kwCase, call .expression, expect kwOf, call .case,
        whileDo (.sees [bar]) (.block [get, call .case]),
        when (.sees [kwElse]) (.block [get, call .statementSequence]),
        expect kwEnd]
  | .case =>
      when (.starts expressionStart)
        (.block [call .caseLabels,
          whileDo (.sees [comma]) (.block [get, call .caseLabels]),
          expect colon, call .statementSequence])
  | .caseLabels =>
      .block [call .expression, when (.sees [upTo]) (.block [get, call .expression])]
  | .whileStatement =>
      .block [expect kwWhile, call .expression, expect kwDo, call .statementSequence,
        expect kwEnd]
  | .repeatStatement =>
      .block [expect kwRepeat, call .statementSequence, expect kwUntil, call .expression]
  | .forStatement =>
      .block [expect kwFor, expect ident, expect becomes, call .expression, expect kwTo,
        call .expression,
        when (.sees [kwBy]) (.block [get, call .expression]),
        expect kwDo, call .statementSequence, expect kwEnd]
  | .selector =>
      choose [
        (.sees [period], .block [get, expect ident]),
        (.sees [leftBracket],
          .block [get, call .expression,
            whileDo (.sees [comma]) (.block [get, call .expression]),
            expect rightBracket])]
        (fail invalidSelector)
  | .actualParameters =>
      .block [call .expression,
        when (.sees [colon]) (call .format),
        whileDo (.sees [comma])
          (.block [get, call .expression, when (.sees [colon]) (call .format)])]
  | .format =>
      .block [expect colon, call .expression,
        when (.sees [colon]) (.block [get, call .expression])]
  | .expression =>
      .block [call .simpleExpression,
        when (.starts relations) (.block [call .relation, call .simpleExpression])]
  | .relation =>
      ifElse (.sees [equal, hash, diamond, less, lessEqual, greater, greaterEqual]) get
        (fail invalidRelation)
  | .simpleExpression =>
      .block [when (.sees [plus, minus]) get, call .term,
        whileDo (.sees [plus, minus, kwOr]) (.block [call .addOperator, call .term])]
  | .addOperator =>
      ifElse (.sees [plus, minus, kwOr]) get (fail invalidAddOperator)
  | .term =>
      .block [call .factor,
        whileDo (.starts mulOperators) (.block [call .mulOperator, call .factor])]
  | .mulOperator =>
      choose [
        (.sees [times, slash, kwDiv, kwMod], get),
        (.sees [kwAnd, ampersand], call .andOperator)]
        (fail invalidMulOperator)
  | .andOperator =>
      ifElse (.sees [kwAnd, ampersand]) get (fail invalidAndOperator)
  | .factor =>
      choose [
        (.starts literals, call .literal),
        (.sees [ident],
          .block [get,
            choose [
              (.starts designatorTail,
                whileDo (.sees [period, leftBracket]) (call .selector)),
              (.sees [leftParen], parenthesizedParameters)]
              (fail invalidDesignator)]),
        (.sees [kwNot, tilde], .block [call .notOperator, call .factor]),
        (.sees [leftParen], .block [get, call .expression, expect rightParen])]
        (fail invalidFactor)
  | .literal =>
      ifElse (.sees [integer, real, char, string]) get (fail invalidLiteral)
  | .notOperator =>
      ifElse (.sees [kwNot, tilde]) get (fail invalidNotOperator)

def grammar : Grammar Nonterminal := ⟨.module, production⟩

end OberonFront.Umbriel
