import OberonFront.Proofs.Machine.Simulation

/-!
# Offsets of tokens

A parser passes on the line and the column of its lookahead and never looks at
the offset.  With other offsets it does the same.
-/

namespace OberonFront

/-- The token as if it were the first of its text, in the line and column where it is. -/
def Token.withoutOffset (t : Token) : Token := { t with start := { t.start with offset := 0 } }

namespace TokenList

def withoutOffsets (l : TokenList) : TokenList where
  toList := l.toList.map Token.withoutOffset
  ne_nil := by simpa using l.ne_nil
  eof_last := by simpa [Token.withoutOffset] using l.eof_last

theorem last_withoutOffsets (l : TokenList) :
    l.withoutOffsets.last = l.last.withoutOffset :=
  List.getLast_map _

end TokenList

namespace TokenStream

def withoutOffsets (s : TokenStream) : TokenStream where
  tokens := s.tokens.withoutOffsets
  rest := s.rest.map Token.withoutOffset
  ahead := s.ahead.map Token.withoutOffset

theorem scanVisible_withoutOffsets (s : TokenStream) (maxKind : Kind) :
    s.withoutOffsets.scanVisible maxKind =
      ((s.scanVisible maxKind).1.withoutOffset, (s.scanVisible maxKind).2.withoutOffsets) := by
  have seen : (s.rest.map Token.withoutOffset).dropWhile (maxKind < ·.kind) =
      (s.rest.dropWhile (maxKind < ·.kind)).map Token.withoutOffset :=
    List.dropWhile_map
  simp only [scanVisible, scan, withoutOffsets, seen, TokenList.last_withoutOffsets]
  cases s.rest.dropWhile (maxKind < ·.kind) <;> rfl

end TokenStream

namespace Parser

def withoutOffsets (p : Parser) : Parser :=
  { p with
    stream := p.stream.withoutOffsets
    token := p.token.withoutOffset
    lookahead := p.lookahead.withoutOffset }

theorem withoutOffsets_get (p : Parser) : p.withoutOffsets.get = p.get.withoutOffsets := by
  simp only [get, withoutOffsets, TokenStream.scanVisible_withoutOffsets]

theorem withoutOffsets_report (p : Parser) (severity : Severity) (message : String) :
    p.withoutOffsets.report severity message = (p.report severity message).withoutOffsets := rfl

structure SameButOffsets (p q : Parser) : Prop where
  eq : p.withoutOffsets = q.withoutOffsets

/-- Offsets make no difference to any operation. -/
theorem simulation_sameButOffsets : Simulation SameButOffsets where
  tables h := (congrArg Parser.tables h.eq :)
  kind h := congrArg (·.lookahead.kind) h.eq
  get h := ⟨by rw [← withoutOffsets_get, h.eq, withoutOffsets_get]⟩
  report h severity message := ⟨by rw [← withoutOffsets_report, h.eq, withoutOffsets_report]⟩

theorem SameButOffsets.length_rest {p q : Parser} (h : p.SameButOffsets q) :
    p.stream.rest.length = q.stream.rest.length := by
  have rest := congrArg (·.stream.rest.length) h.eq
  simpa only [withoutOffsets, TokenStream.withoutOffsets, List.length_map] using rest

/-- A parse of tokens with other offsets makes the same reports. -/
theorem queue_parse_eq {N : Type} (g : Grammar N) (tables : Tables) {l l' : TokenList} (q : Queue)
    (same : l.withoutOffsets = l'.withoutOffsets) :
    (g.parse (ofTokens tables l q)).1.queue = (g.parse (ofTokens tables l' q)).1.queue := by
  have fresh : SameButOffsets (ofTokens tables l q) (ofTokens tables l' q) :=
    ⟨congrArg (ofTokens tables · q) same⟩
  have started : SameButOffsets (ofTokens tables l q).start (ofTokens tables l' q).start :=
    simulation_sameButOffsets.get fresh
  have done := simulation_sameButOffsets.exec started started.length_rest g g.whole
  exact (congrArg Parser.queue done.parser.eq :)

end Parser

end OberonFront
