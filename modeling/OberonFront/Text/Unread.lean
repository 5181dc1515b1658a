import OberonFront.Text.LineEnd
import OberonFront.Text.Position

/-!
# The unread part of a text

A reader moves over a text from front to back.  What it has not read yet is a
list of characters and the position of the first of them.
-/

namespace OberonFront

/-- The characters still to be read, and where the first of them stands. -/
structure Unread where
  position : Position
  rest : List Char
deriving DecidableEq, Repr

namespace Unread

/-- A whole text, its line ends made alike.  It may be of any length: the limit of `2 ^ 32 - 1`
characters, behind which a text with offsets of 32 bits is cut off, is left out. -/
def ofText (text : String) : Unread := ⟨.start, unifyLineEnds text.toList⟩

def toEnd (u : Unread) : Unread := ⟨u.position.after u.rest, []⟩

@[simp] theorem rest_toEnd (u : Unread) : u.toEnd.rest = [] := rfl

end Unread

end OberonFront
