import OberonFront.Oberon0.Terminal
import OberonFront.Parser.Tables

/-!
# The tables of Oberon-0

The sets by which the productions decide and recover, and the messages.
-/

namespace OberonFront.Oberon0

/-- What starts a statement that is not empty. -/
abbrev statementStart : Nat := 1
abbrev statementFollow : Nat := 2
/-- What may follow the name of a procedure where it is called. -/
abbrev callTail : Nat := 3
/-- Where a declaration that lacks its semicolon is given up. -/
abbrev declarationSync : Nat := 4
abbrev relations : Nat := 5
abbrev mulOperators : Nat := 6
abbrev expressionStart : Nat := 7

def sets : List KindSet :=
  [.singleton Kind.eof,
    .ofList [ident, kwIf, kwWhile, kwRepeat],
    .ofList [kwEnd, kwElsif, kwElse, kwUntil],
    .ofList [leftParen, semicolon, kwEnd, kwElsif, kwElse, kwUntil],
    .ofList [Kind.eof, ident, kwConst, kwType, kwVar, kwProcedure, kwBegin, kwEnd],
    .insertRange (.ofList [equal, unequal]) less greaterEqual,
    .ofList [times, kwDiv, kwMod, ampersand],
    .ofList [ident, number, leftParen, tilde, plus, minus]]

abbrev invalidStatement : Nat := 45
abbrev invalidType : Nat := 46
abbrev invalidRelation : Nat := 47
abbrev invalidAddOperator : Nat := 48
abbrev invalidMulOperator : Nat := 49
abbrev invalidFactor : Nat := 50

/-- The messages, by number: for each kind that it was expected, and then what is invalid. -/
def messages : List String :=
  terminalNames.map (· ++ " expected") ++
    ["invalid Statement", "invalid Type", "invalid Relation", "invalid AddOperator",
      "invalid MulOperator", "invalid Factor"]

def tables : Tables where
  name := "Oberon-0"
  maxKind := maxKind
  sets := sets
  messages := messages

end OberonFront.Oberon0
