import OberonFront.Text.Cursor
import OberonFront.Token.Basic

/-!
# Token automata

A finite automaton over characters whose states are numbered from zero.  State
zero is the trap: a token that arrives there is no token of the language.  Edges
are tried in the order in which they are listed.
-/

namespace OberonFront

/-- The characters from `lo` to `hi`, both included. -/
structure CharRange where
  lo : Char
  hi : Char
deriving DecidableEq, Repr

namespace CharRange

def single (c : Char) : CharRange := ⟨c, c⟩

def contains (r : CharRange) (s : Symbol) : Bool :=
  decide (r.lo.toNat ≤ s) && decide (s ≤ r.hi.toNat)

def digits : List CharRange := [⟨'0', '9'⟩]

def lettersAndDigits : List CharRange := [⟨'0', '9'⟩, ⟨'A', 'Z'⟩, ⟨'a', 'z'⟩]

end CharRange

/-- A way out of a state.  Characters from the first of a run of context edges on are only looked
at: the token may give them back. -/
structure Edge where
  on : List CharRange
  target : Nat
  context : Bool
deriving DecidableEq, Repr

namespace Edge

/-- An edge whose character becomes part of the token. -/
def take (on : List CharRange) (target : Nat) : Edge := ⟨on, target, false⟩

/-- An edge whose character may be given back. -/
def look (on : List CharRange) (target : Nat) : Edge := ⟨on, target, true⟩

def admits (e : Edge) (s : Symbol) : Bool := e.on.any (·.contains s)

end Edge

/-- What a token is when no edge leads on. -/
inductive Exit where
  /-- A token of this kind. -/
  | accept (kind : Kind)
  /-- A reserved word if the text is one, and else a token of this kind. -/
  | identifier (kind : Kind)
  /-- No token of the language. -/
  | reject
  /-- A token of this kind, less what was only looked at. -/
  | rewind (kind : Kind)
deriving DecidableEq, Repr

structure State where
  edges : List Edge
  exit : Exit
deriving DecidableEq, Repr

namespace State

/-- A state without edges in which a token of the given kind is complete. -/
def final (kind : Kind) : State := ⟨[], .accept kind⟩

def step (q : State) (s : Symbol) : Option Edge := q.edges.find? (·.admits s)

end State

/-- Where tokens start, by their first character: ranges of characters with the state each leads
to, of which a later one hides an earlier one.  Only the first 256 characters start anything. -/
structure StartTable where
  newestFirst : List (CharRange × Nat)
deriving DecidableEq, Repr

namespace StartTable

/-- The table of the given entries, oldest first. -/
def ofList (entries : List (CharRange × Nat)) : StartTable := ⟨entries.reverse⟩

def stateFor (t : StartTable) (s : Symbol) : Nat :=
  if s < 256 then ((t.newestFirst.find? (·.1.contains s)).map (·.2)).getD 0 else 0

end StartTable

end OberonFront
