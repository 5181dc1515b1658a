import OberonFront.Fault
import OberonFront.Token.KindSet

/-!
# Parser tables

What a parser knows of its language besides the productions: sets of kinds by
which it decides and recovers, and the texts of its messages.  Both are numbered
from zero.
-/

namespace OberonFront

structure Tables where
  /-- The name of the language. -/
  name : String
  /-- The last kind that the parser sees.  Tokens of later kinds are passed over. -/
  maxKind : Kind
  /-- Set zero holds the end of the text, at which every recovery stops. -/
  sets : List KindSet
  /-- The message of a kind says that a token of the kind was expected.  Further messages follow. -/
  messages : List String
deriving DecidableEq, Repr

namespace Tables

/-- The text of a message.  A number without a text stands for itself. -/
def message (t : Tables) (code : Nat) : String :=
  t.messages[code]?.getD s!"error {code}"

def set (t : Tables) (index : Nat) : Except Fault KindSet := entryAt t.sets index

def startOf (t : Tables) (index : Nat) (kind : Kind) : Except Fault Bool :=
  (t.set index).map (·.contains kind)

end Tables

end OberonFront
