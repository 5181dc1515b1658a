import OberonFront.Lexicon.Automaton

/-!
# Lexicons

Everything that tells the tokens of one language from each other: an automaton,
reserved words, blanks and comment brackets.  Where a list is searched, the
first entry that fits decides.
-/

namespace OberonFront

/-- A pair of two-character brackets around a comment. -/
structure Comment where
  opener : Char × Char
  closer : Char × Char
  /-- Whether a comment may hold further ones. -/
  nested : Bool
deriving DecidableEq, Repr

/-- What may stand between the tokens of one language. -/
structure Layout where
  /-- The characters that separate tokens and mean nothing else. -/
  blanks : List Char
  comments : List Comment
deriving DecidableEq, Repr

structure Lexicon extends Layout where
  /-- The last kind that a parser of the language sees. -/
  maxKind : Kind
  /-- The kind of characters that are no token of the language. -/
  unknown : Kind
  start : StartTable
  states : List State
  /-- Reserved words and their kinds. -/
  keywords : List (String × Kind)

namespace Lexicon

def isBlank (x : Lexicon) (s : Symbol) : Bool := x.blanks.any (·.toNat == s)

def keyword? (x : Lexicon) (text : String) : Option Kind :=
  (x.keywords.find? (·.1 == text)).map (·.2)

/-- The comment whose opening bracket starts with the symbol. -/
def comment? (x : Lexicon) (s : Symbol) : Option Comment :=
  x.comments.find? (·.opener.1.toNat == s)

/-- The state of a number.  The trap has none, nor has a number past the last state. -/
def state? (x : Lexicon) (index : Nat) : Option State :=
  if index = 0 then none else x.states[index]?

def edge? (x : Lexicon) (index : Nat) (s : Symbol) : Option Edge :=
  (x.state? index).bind (·.step s)

def exit (x : Lexicon) (index : Nat) : Exit :=
  ((x.state? index).map (·.exit)).getD .reject

end Lexicon

end OberonFront
