import OberonFront.Fault
import OberonFront.Token.Basic

/-!
# Token sequences

The tokens of one text, closed by an end-of-text token.  The successor of the
last index is that index itself, so reading on past the end stays at the end.
-/

namespace OberonFront

/-- Tokens of which the last one, and perhaps others before it, is an end of text. -/
structure TokenList where
  toList : List Token
  ne_nil : toList ≠ []
  eof_last : (toList.getLast ne_nil).kind = Kind.eof

namespace TokenList

/-- The end of text that closes `tokens` if they do not end in one: right behind the last token,
on its line.  The sums do not wrap around, wherever the last token says that it stands. -/
def closing (tokens : List Token) : Token :=
  match tokens.getLast? with
  | some t => .endAt ⟨t.start.offset + t.length, t.start.line, t.start.column + t.length⟩
  | none => .endAt .start

theorem closing_kind (tokens : List Token) : (closing tokens).kind = Kind.eof := by
  unfold closing
  split <;> rfl

/-- The sequence of the given tokens, closed if need be. -/
def ofTokens (tokens : List Token) : TokenList :=
  if h : ∃ ne : tokens ≠ [], (tokens.getLast ne).kind = Kind.eof then
    ⟨tokens, h.choose, h.choose_spec⟩
  else
    ⟨tokens ++ [closing tokens], by simp, by simp [closing_kind]⟩

def length (l : TokenList) : Nat := l.toList.length

def last (l : TokenList) : Token := l.toList.getLast l.ne_nil

theorem last_kind (l : TokenList) : l.last.kind = Kind.eof := l.eof_last

theorem length_pos (l : TokenList) : 0 < l.length :=
  List.length_pos_iff.mpr l.ne_nil

def get? (l : TokenList) (index : Nat) : Option Token := l.toList[index]?

def get (l : TokenList) (index : Nat) : Except Fault Token := entryAt l.toList index

/-- The index behind `index`, but never past the last one. -/
def nextIndex (l : TokenList) (index : Nat) : Nat := min (index + 1) (l.length - 1)

def kinds (l : TokenList) : List Kind := l.toList.map Token.kind

end TokenList

end OberonFront
