import OberonFront.Parser.Tables
import OberonFront.Umbriel.Terminal

/-!
# The tables of Umbriel

The sets by which the productions decide, and the messages.
-/

namespace OberonFront.Umbriel

abbrev declarationStart : Nat := 1
abbrev relations : Nat := 2
/-- What starts a statement that is not empty. -/
abbrev statementStart : Nat := 3
/-- What may follow the name of a procedure where it is called. -/
abbrev callTail : Nat := 4
abbrev expressionStart : Nat := 5
abbrev mulOperators : Nat := 6
abbrev literals : Nat := 7
/-- What may follow the name of a variable or constant within an expression. -/
abbrev designatorTail : Nat := 8

def sets : List KindSet :=
  [.singleton Kind.eof,
    .ofList [kwConst, kwType, kwVar, kwProcedure],
    .insertRange (.singleton equal) hash greaterEqual,
    .ofList [ident, kwIf, kwCase, kwWhile, kwRepeat, kwFor, kwLoop, kwExit, kwReturn],
    .ofList [semicolon, kwEnd, leftParen, kwElsif, kwElse, bar, kwUntil],
    .ofList [ident, char, integer, real, string, leftParen, plus, minus, kwNot, tilde],
    .insertRange .empty times ampersand,
    .insertRange .empty char string,
    .insertRange
      (.ofList [semicolon, period, kwEnd, equal, comma, kwOf, leftBracket, upTo, rightBracket,
        colon, rightParen, kwThen, kwElsif, kwElse, bar, kwDo, kwUntil, kwTo, kwBy, plus,
        minus])
      times greaterEqual]

abbrev invalidDeclaration : Nat := 61
abbrev invalidType : Nat := 62
abbrev invalidFormalParameter : Nat := 63
abbrev invalidAssignmentOrCall : Nat := 64
abbrev invalidSelector : Nat := 65
abbrev invalidRelation : Nat := 66
abbrev invalidAddOperator : Nat := 67
/-- Something behind an identifier in an expression that cannot stand there. -/
abbrev invalidDesignator : Nat := 68
abbrev invalidFactor : Nat := 69
abbrev invalidMulOperator : Nat := 70
abbrev invalidLiteral : Nat := 71
abbrev invalidNotOperator : Nat := 72
abbrev invalidAndOperator : Nat := 73

/-- The messages, by number: for each kind that it was expected, and then what is invalid. -/
def messages : List String :=
  terminalNames.map (· ++ " expected") ++
    ["invalid Declaration", "invalid Type", "invalid FormalParameter",
      "invalid AssignmentOrCall", "invalid Selector", "invalid Relation", "invalid AddOperator",
      "invalid Factor", "invalid Factor", "invalid MulOperator", "invalid ConstantLiteral",
      "invalid NotOperator", "invalid AndOperator"]

def tables : Tables where
  name := "Umbriel"
  maxKind := maxKind
  sets := sets
  messages := messages

end OberonFront.Umbriel
