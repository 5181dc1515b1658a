/-!
# Reading a text by offset

A cursor stands at an offset of a text that does not change.  It hands out
symbols: code points, and one symbol above them all for the end of the text.
-/

namespace OberonFront

/-- What a cursor or an automaton reads: a code point, or the end of the text. -/
abbrev Symbol := Nat

/-- The end of a text.  It is one past the largest code point, so no character is equal to it. -/
def Symbol.eof : Symbol := 0x110000

structure Cursor where
  text : Array Char
  offset : Nat
  offset_le : offset ≤ text.size

namespace Cursor

def ofText (text : Array Char) : Cursor := ⟨text, 0, Nat.zero_le _⟩

/-- Moves to an offset, or to the end of the text if the offset lies past it. -/
def seek (c : Cursor) (offset : Nat) : Cursor :=
  ⟨c.text, min offset c.text.size, Nat.min_le_right _ _⟩

def isAtEnd (c : Cursor) : Bool := c.offset == c.text.size

def peek (c : Cursor) : Symbol :=
  match c.text[c.offset]? with
  | some char => char.toNat
  | none => Symbol.eof

/-- The symbol at the cursor, and the cursor behind it.  At the end nothing moves. -/
def read (c : Cursor) : Symbol × Cursor :=
  (c.peek, c.seek (c.offset + 1))

/-- The characters from `offset` on, at most `length` of them, wherever the cursor stands. -/
def substring (c : Cursor) (offset length : Nat) : String :=
  String.ofList (c.text.extract offset (offset + length)).toList

end Cursor

end OberonFront
