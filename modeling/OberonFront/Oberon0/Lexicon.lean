import OberonFront.Lexicon.Basic
import OberonFront.Oberon0.Terminal

/-!
# The words and symbols of Oberon-0

Identifiers and reserved words, numbers of decimal digits, and operators of one
or two characters.  Blanks and nested comments stand between them.
-/

namespace OberonFront.Oberon0

/-- The automaton.  Its states are numbered in this order, from the trap on. -/
def states : List State :=
  [ -- 0: the trap
    .final Kind.eof,
    -- 1: letters and digits behind a letter
    ⟨[.take CharRange.lettersAndDigits 1], .identifier ident⟩,
    -- 2: digits
    ⟨[.take CharRange.digits 2], .accept number⟩,
    -- 3 to 9
    .final semicolon, .final period, .final equal, .final comma, .final leftParen,
    .final rightParen, .final unequal,
    -- 10 and 11: the second character of an operator
    .final lessEqual, .final greaterEqual,
    -- 12 to 18
    .final plus, .final minus, .final times, .final ampersand, .final tilde,
    .final leftBracket, .final rightBracket,
    -- 19: the second character of an operator
    .final becomes,
    -- 20 to 22: operators that an equals sign makes longer
    ⟨[.take [.single '='] 19], .accept colon⟩,
    ⟨[.take [.single '='] 10], .accept less⟩,
    ⟨[.take [.single '='] 11], .accept greater⟩]

def startTable : StartTable :=
  .ofList
    [(⟨'A', 'Z'⟩, 1), (⟨'a', 'z'⟩, 1), (⟨'0', '9'⟩, 2), (.single ';', 3), (.single '.', 4),
      (.single '=', 5), (.single ',', 6), (.single '(', 7), (.single ')', 8), (.single '#', 9),
      (.single '+', 12), (.single '-', 13), (.single '*', 14), (.single '&', 15),
      (.single '~', 16), (.single '[', 17), (.single ']', 18), (.single ':', 20),
      (.single '<', 21), (.single '>', 22)]

def lexicon : Lexicon where
  maxKind := maxKind
  unknown := unknown
  start := startTable
  states := states
  keywords := reservedWords
  blanks := [' ', '\t', '\n', '\r']
  comments := [⟨('(', '*'), ('*', ')'), true⟩]

end OberonFront.Oberon0
