import OberonFront.Proofs.Machine.Simulation

/-!
# Tokens that a parser does not see

A parser passes over tokens of later kinds than it knows, both when it consumes
and when it looks ahead.  With such tokens left out of the sequence from the
beginning it does the same.
-/

namespace OberonFront

namespace TokenList

variable (l : TokenList) (maxKind : Kind)

theorem dropLast_append_last : l.toList.dropLast ++ [l.last] = l.toList :=
  List.dropLast_concat_getLast l.ne_nil

/-- The end of the text is of the first kind, so it is always seen. -/
theorem filter_visible : l.toList.filter (·.kind ≤ maxKind) =
    l.toList.dropLast.filter (·.kind ≤ maxKind) ++ [l.last] := by
  have last : l.last.kind ≤ maxKind := by
    rw [l.last_kind]
    exact Nat.zero_le maxKind
  calc
    l.toList.filter (·.kind ≤ maxKind)
      = (l.toList.dropLast ++ [l.last]).filter (·.kind ≤ maxKind) := by
        rw [l.dropLast_append_last]
    _ = l.toList.dropLast.filter (·.kind ≤ maxKind) ++ [l.last] := by
        rw [List.filter_append, List.filter_cons_of_pos (by simpa using last), List.filter_nil]

def visible : TokenList where
  toList := l.toList.filter (·.kind ≤ maxKind)
  ne_nil := by simp [l.filter_visible]
  eof_last := by simp [l.filter_visible, l.last_kind]

theorem last_visible : (l.visible maxKind).last = l.last := by
  simp [last, visible, l.filter_visible]

end TokenList

namespace TokenStream

def visible (s : TokenStream) (maxKind : Kind) : TokenStream where
  tokens := s.tokens.visible maxKind
  rest := s.rest.filter (·.kind ≤ maxKind)
  ahead := s.ahead.filter (·.kind ≤ maxKind)

/-- The next token that is seen stays the next one. -/
theorem dropWhile_filter (ts : List Token) (maxKind : Kind) :
    (ts.filter (·.kind ≤ maxKind)).dropWhile (maxKind < ·.kind) =
      (ts.dropWhile (maxKind < ·.kind)).filter (·.kind ≤ maxKind) := by
  induction ts with
  | nil => rfl
  | cons t ts ih =>
      by_cases hidden : maxKind < t.kind
      · rw [List.filter_cons_of_neg (by simpa using hidden),
          List.dropWhile_cons_of_pos (by simpa using hidden), ih]
      · rw [List.filter_cons_of_pos (by simpa using hidden),
          List.dropWhile_cons_of_neg (by simpa using hidden),
          List.dropWhile_cons_of_neg (by simpa using hidden),
          List.filter_cons_of_pos (by simpa using hidden)]

variable (s : TokenStream) (maxKind : Kind)

theorem filter_dropWhile_cons {ts us : List Token} {t : Token}
    (h : ts.dropWhile (maxKind < ·.kind) = t :: us) :
    (t :: us).filter (·.kind ≤ maxKind) = t :: us.filter (·.kind ≤ maxKind) := by
  apply List.filter_cons_of_pos
  have seen := List.head_dropWhile_not (maxKind < ·.kind) (l := ts) (by simp [h])
  simpa [h] using seen

theorem scanVisible_visible :
    (s.visible maxKind).scanVisible maxKind =
      ((s.scanVisible maxKind).1, (s.scanVisible maxKind).2.visible maxKind) := by
  simp only [scanVisible, scan, visible, dropWhile_filter, TokenList.last_visible]
  cases h : s.rest.dropWhile (maxKind < ·.kind) with
  | nil => rfl
  | cons t ts => simp only [filter_dropWhile_cons maxKind h]

theorem peek_visible :
    (s.visible maxKind).peek maxKind =
      ((s.peek maxKind).1, (s.peek maxKind).2.visible maxKind) := by
  simp only [peek, visible, dropWhile_filter, TokenList.last_visible]
  cases h : s.ahead.dropWhile (maxKind < ·.kind) with
  | nil => rfl
  | cons t ts => simp only [filter_dropWhile_cons maxKind h]

end TokenStream

namespace Parser

def visible (p : Parser) : Parser := { p with stream := p.stream.visible p.tables.maxKind }

theorem visible_get (p : Parser) : p.visible.get = p.get.visible := by
  simp only [get, visible, TokenStream.scanVisible_visible]

theorem visible_peek (p : Parser) : p.visible.peek = (p.peek.1, p.peek.2.visible) := by
  simp only [peek, visible, TokenStream.peek_visible]

theorem visible_ofTokens (tables : Tables) (l : TokenList) (q : Queue) :
    (ofTokens tables l q).visible = ofTokens tables (l.visible tables.maxKind) q := rfl

/-- A parser that has the given tables and sees its lookahead, and the same parser without the
tokens that it does not see. -/
structure Unveils (tables : Tables) (p q : Parser) : Prop where
  tables_eq : p.tables = tables
  sees : p.lookahead.kind ≤ tables.maxKind
  eq : q = p.visible

/-- Tokens that are not seen make no difference to any operation. -/
theorem simulation_unveils (tables : Tables) : Simulation (Unveils tables) where
  tables h := by
    rw [h.eq]
    rfl
  kind h := by
    rw [h.eq]
    rfl
  get h := ⟨h.tables_eq, h.tables_eq ▸ kind_get_le _, by rw [h.eq, visible_get]⟩
  report h severity message := ⟨h.tables_eq, h.sees, by
    rw [h.eq]
    rfl⟩

end Parser

end OberonFront
