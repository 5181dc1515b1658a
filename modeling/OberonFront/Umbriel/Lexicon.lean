import OberonFront.Lexicon.Basic
import OberonFront.Umbriel.Terminal

/-!
# The words and symbols of Umbriel

Identifiers and reserved words, numbers, quoted text, and operators of one or
two characters.  Blanks and nested comments stand between them.

Behind the digits of a number a point may be the decimal point or the first of
two points that make a range.  The automaton looks at it and at what follows;
if it sees two points it gives both back.
-/

namespace OberonFront.Umbriel

/-- The characters that quoted text may hold, less the quote.  A carriage return ends the text. -/
def quotable (quote : Char) : List CharRange :=
  [⟨'\x00', '\x0c'⟩, ⟨'\x0e', Char.ofNat (quote.toNat - 1)⟩,
    ⟨Char.ofNat (quote.toNat + 1), Char.ofNat 0x10ffff⟩]

def exponentMarks : List CharRange := [.single 'E', .single 'e']

def signs : List CharRange := [.single '+', .single '-']

/-- The automaton.  Its states are numbered in this order, from the trap on. -/
def states : List State :=
  [ -- 0: the trap
    .final Kind.eof,
    -- 1: letters and digits behind a letter
    ⟨[.take CharRange.lettersAndDigits 1], .identifier ident⟩,
    -- 2: digits and the letter that makes them a character
    .final char,
    -- 3: digits and two points, which are given back
    ⟨[], .rewind integer⟩,
    -- 4: digits behind the decimal point
    ⟨[.take CharRange.digits 4, .take exponentMarks 5], .accept real⟩,
    -- 5 to 7: the exponent
    ⟨[.take CharRange.digits 7, .take signs 6], .reject⟩,
    ⟨[.take CharRange.digits 7], .reject⟩,
    ⟨[.take CharRange.digits 7], .accept real⟩,
    -- 8 to 10: text in single or double quotes
    ⟨[.take (quotable '\'') 8, .take [.single '\''] 10], .reject⟩,
    ⟨[.take (quotable '"') 9, .take [.single '"'] 10], .reject⟩,
    .final string,
    -- 11: digits
    ⟨[.take CharRange.digits 11, .take [.single 'C'] 2, .look [.single '.'] 12],
      .accept integer⟩,
    -- 12: digits and a point
    ⟨[.take CharRange.digits 4, .look [.single '.'] 3, .take exponentMarks 5], .accept real⟩,
    -- 13 to 20
    .final semicolon, .final equal, .final comma, .final leftBracket, .final upTo,
    .final rightBracket, .final leftParen, .final rightParen,
    -- 21 to 29
    .final becomes, .final bar, .final plus, .final minus, .final tilde, .final times,
    .final slash, .final ampersand, .final hash,
    -- 30 to 32: the second character of an operator
    .final diamond, .final lessEqual, .final greaterEqual,
    -- 33 to 36: operators that a second character makes longer
    ⟨[.take [.single '.'] 17], .accept period⟩,
    ⟨[.take [.single '='] 21], .accept colon⟩,
    ⟨[.take [.single '>'] 30, .take [.single '='] 31], .accept less⟩,
    ⟨[.take [.single '='] 32], .accept greater⟩]

def startTable : StartTable :=
  .ofList
    [(⟨'A', 'Z'⟩, 1), (⟨'a', 'z'⟩, 1), (⟨'0', '9'⟩, 11), (.single '\'', 8), (.single '"', 9),
      (.single ';', 13), (.single '=', 14), (.single ',', 15), (.single '[', 16),
      (.single ']', 18), (.single '(', 19), (.single ')', 20), (.single '|', 22),
      (.single '+', 23), (.single '-', 24), (.single '~', 25), (.single '*', 26),
      (.single '/', 27), (.single '&', 28), (.single '#', 29), (.single '.', 33),
      (.single ':', 34), (.single '<', 35), (.single '>', 36)]

def lexicon : Lexicon where
  maxKind := maxKind
  unknown := unknown
  start := startTable
  states := states
  keywords := reservedWords
  blanks := [' ', '\t', '\n', '\x0b', '\x0c', '\r']
  comments := [⟨('(', '*'), ('*', ')'), true⟩]

end OberonFront.Umbriel
