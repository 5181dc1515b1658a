import OberonFront.Oberon0.Tables
import OberonFront.Parser.Machine

/-!
# The productions of Oberon-0

```text
Oberon0              = "MODULE" ident ";" Declarations
                       ["BEGIN" StatementSequence] "END" ident "." .
Declarations         = ["CONST" {ident "=" Expression WEAK ";"}]
                       ["TYPE" {ident "=" Type WEAK ";"}]
                       ["VAR" {IdentList ":" Type WEAK ";"}]
                       {ProcedureDeclaration ";"} .
ProcedureDeclaration = "PROCEDURE" ident [FormalParameters] ";"
                       Declarations ["BEGIN" StatementSequence] "END" ident .
FormalParameters     = "(" [FPSection {";" FPSection}] ")" .
FPSection            = ["VAR"] IdentList ":" Type .
Type                 = ident | "ARRAY" Expression "OF" Type
                     | "RECORD" FieldList {";" FieldList} "END" .
FieldList            = [IdentList ":" Type] .
IdentList            = ident {"," ident} .
StatementSequence    = Statement {WEAK ";" Statement} .
Statement            = [ ident Selector (":=" Expression | [ActualParameters])
                       | IfStatement | WhileStatement | RepeatStatement ] .
IfStatement          = "IF" Expression "THEN" StatementSequence
                       {"ELSIF" Expression "THEN" StatementSequence}
                       ["ELSE" StatementSequence] "END" .
WhileStatement       = "WHILE" Expression "DO" StatementSequence "END" .
RepeatStatement      = "REPEAT" StatementSequence "UNTIL" Expression .
ActualParameters     = "(" [Expression {"," Expression}] ")" .
Selector             = {"." ident | "[" Expression "]"} .
Expression           = SimpleExpression [Relation SimpleExpression] .
Relation             = "=" | "#" | "<" | "<=" | ">" | ">=" .
SimpleExpression     = ["+" | "-"] Term {AddOperator Term} .
AddOperator          = "+" | "-" | "OR" .
Term                 = Factor {MulOperator Factor} .
MulOperator          = "*" | "DIV" | "MOD" | "&" .
Factor               = ident Selector | number | "(" Expression ")" | "~" Factor .
```
-/

namespace OberonFront.Oberon0

open OberonFront.Action

inductive Nonterminal where
  | module
  | declarations
  | procedureDeclaration
  | formalParameters
  | fpSection
  | type
  | fieldList
  | identList
  | statementSequence
  | statement
  | ifStatement
  | whileStatement
  | repeatStatement
  | actualParameters
  | selector
  | expression
  | relation
  | simpleExpression
  | addOperator
  | term
  | mulOperator
  | factor
deriving DecidableEq, Repr

open Nonterminal

/-- A kind of declaration: a reserved word and any number of declarations that start with an
identifier and end in a semicolon. -/
def declarationPart (keyword : Kind) (declaration : List (Action Nonterminal)) :
    Action Nonterminal :=
  when (.sees [keyword])
    (block [get,
      whileDo (.sees [ident])
        (block (declaration ++ [expectWeak semicolon declarationSync]))])

/-- The statements of a module or procedure, which may be left out. -/
def body : Action Nonterminal :=
  when (.sees [kwBegin]) (block [get, call statementSequence])

def production : Nonterminal → Action Nonterminal
  | .module =>
      block [expect kwModule, expect ident, expect semicolon, call declarations, body,
        expect kwEnd, expect ident, expect period]
  | .declarations =>
      block [
        declarationPart kwConst [get, expect equal, call expression],
        declarationPart kwType [get, expect equal, call type],
        declarationPart kwVar [call identList, expect colon, call type],
        whileDo (.sees [kwProcedure]) (block [call procedureDeclaration, expect semicolon])]
  | .procedureDeclaration =>
      block [expect kwProcedure, expect ident,
        when (.sees [leftParen]) (call formalParameters),
        expect semicolon, call declarations, body, expect kwEnd, expect ident]
  | .formalParameters =>
      block [expect leftParen,
        when (.sees [kwVar, ident])
          (block [call fpSection,
            whileDo (.sees [semicolon]) (block [get, call fpSection])]),
        expect rightParen]
  | .fpSection =>
      block [when (.sees [kwVar]) get, call identList, expect colon, call type]
  | .type =>
      choose [
        (.sees [ident], get),
        (.sees [kwArray], block [get, call expression, expect kwOf, call type]),
        (.sees [kwRecord],
          block [get, call fieldList,
            whileDo (.sees [semicolon]) (block [get, call fieldList]),
            expect kwEnd])]
        (fail invalidType)
  | .fieldList =>
      when (.sees [ident]) (block [call identList, expect colon, call type])
  | .identList =>
      block [expect ident, whileDo (.sees [comma]) (block [get, expect ident])]
  | .statementSequence =>
      block [call statement,
        separated semicolon statementStart statementFollow (call statement)]
  | .statement =>
      when (.starts statementStart)
        (choose [
          (.sees [ident],
            block [get, call selector,
              choose [
                (.sees [becomes], block [get, call expression]),
                (.starts callTail,
                  when (.sees [leftParen]) (call actualParameters))]
                (fail invalidStatement)]),
          (.sees [kwIf], call ifStatement),
          (.sees [kwWhile], call whileStatement)]
          (call repeatStatement))
  | .ifStatement =>
      block [expect kwIf, call expression, expect kwThen, call statementSequence,
        whileDo (.sees [kwElsif])
          (block [get, call expression, expect kwThen, call statementSequence]),
        when (.sees [kwElse]) (block [get, call statementSequence]),
        expect kwEnd]
  | .whileStatement =>
      block [expect kwWhile, call expression, expect kwDo, call statementSequence,
        expect kwEnd]
  | .repeatStatement =>
      block [expect kwRepeat, call statementSequence, expect kwUntil, call expression]
  | .actualParameters =>
      block [expect leftParen,
        when (.starts expressionStart)
          (block [call expression,
            whileDo (.sees [comma]) (block [get, call expression])]),
        expect rightParen]
  | .selector =>
      whileDo (.sees [period, leftBracket])
        (ifElse (.sees [period])
          (block [get, expect ident])
          (block [get, call expression, expect rightBracket]))
  | .expression =>
      block [call simpleExpression,
        when (.starts relations) (block [call relation, call simpleExpression])]
  | .relation =>
      ifElse (.sees [equal, unequal, less, lessEqual, greater, greaterEqual]) get
        (fail invalidRelation)
  | .simpleExpression =>
      block [when (.sees [plus, minus]) get, call term,
        whileDo (.sees [plus, minus, kwOr]) (block [call addOperator, call term])]
  | .addOperator =>
      ifElse (.sees [plus, minus, kwOr]) get (fail invalidAddOperator)
  | .term =>
      block [call factor,
        whileDo (.starts mulOperators) (block [call mulOperator, call factor])]
  | .mulOperator =>
      ifElse (.sees [times, kwDiv, kwMod, ampersand]) get (fail invalidMulOperator)
  | .factor =>
      choose [
        (.sees [ident], block [get, call selector]),
        (.sees [number], get),
        (.sees [leftParen], block [get, call expression, expect rightParen]),
        (.sees [tilde], block [get, call factor])]
        (fail invalidFactor)

def grammar : Grammar Nonterminal := ⟨.module, production⟩

end OberonFront.Oberon0
