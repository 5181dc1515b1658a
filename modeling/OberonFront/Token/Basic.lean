import OberonFront.Text.Position
import OberonFront.Text.Quoted

/-!
# Tokens

A language numbers its terminal symbols from zero upward; zero is the end of the
text in every language.  A token is one of these kinds with the characters it
was read from and the place where they start.
-/

namespace OberonFront

/-- A terminal symbol, by its number in the language it belongs to. -/
abbrev Kind := Nat

def Kind.eof : Kind := 0

def Kind.display (kind : Kind) : String := s!"#{kind}"

structure Token where
  kind : Kind
  text : String
  start : Position
deriving DecidableEq, Repr

namespace Token

/-- The token that stands for the end of a text. -/
def endAt (position : Position) : Token := ⟨Kind.eof, "EOF", position⟩

/-- What a parser holds before it has seen any token: no text, and no place in the text. -/
def sentinel : Token := ⟨Kind.eof, "", ⟨0, 0, 0⟩⟩

def isEof (t : Token) : Bool := t.kind == Kind.eof

def length (t : Token) : Nat := t.text.length

/-- Line, column, kind and quoted text, as one line without its end. -/
def display (t : Token) : String :=
  s!"{t.start.line}:{t.start.column} {t.kind.display} {quote t.text}"

end Token

end OberonFront
