import OberonFront.Token.Sequence

/-!
# Reading a token sequence

A stream hands out the tokens of a sequence one by one and can look ahead of
the last one it handed out.  Both ways of reading end at the closing token and
repeat it.
-/

namespace OberonFront

/-- A reading position in `tokens`: what is still to be scanned, and what a look ahead has not
passed yet. -/
structure TokenStream where
  tokens : TokenList
  rest : List Token
  ahead : List Token

namespace TokenStream

def ofTokens (tokens : TokenList) : TokenStream := ⟨tokens, tokens.toList, tokens.toList⟩

/-- Moves to the next token.  The look ahead starts again behind it. -/
def scan (s : TokenStream) : Token × TokenStream :=
  match s.rest with
  | t :: rest => (t, ⟨s.tokens, rest, rest⟩)
  | [] => (s.tokens.last, ⟨s.tokens, [], []⟩)

/-- Moves to the next token whose kind is at most `maxKind`, passing over the others. -/
def scanVisible (s : TokenStream) (maxKind : Kind) : Token × TokenStream :=
  ({ s with rest := s.rest.dropWhile (maxKind < ·.kind) } : TokenStream).scan

/-- Moving on leaves fewer tokens, until it arrives at the end of the text. -/
theorem length_scanVisible_lt (s : TokenStream) (maxKind : Kind) :
    (s.scanVisible maxKind).2.rest.length < s.rest.length ∨
      (s.scanVisible maxKind).2.rest = [] ∧ (s.scanVisible maxKind).1.kind = Kind.eof := by
  have le := (List.dropWhile_sublist (p := fun t : Token => maxKind < t.kind)
    (l := s.rest)).length_le
  unfold scanVisible scan
  cases h : s.rest.dropWhile (maxKind < ·.kind) with
  | nil => exact .inr ⟨rfl, s.tokens.last_kind⟩
  | cons t rest =>
      rw [h, List.length_cons] at le
      exact .inl le

/-- Looks at the next token whose kind is at most `maxKind`, behind the one looked at before. -/
def peek (s : TokenStream) (maxKind : Kind) : Token × TokenStream :=
  match s.ahead.dropWhile (maxKind < ·.kind) with
  | t :: ahead => (t, { s with ahead })
  | [] => (s.tokens.last, { s with ahead := [] })

def resetPeek (s : TokenStream) : TokenStream := { s with ahead := s.rest }

end TokenStream

end OberonFront
