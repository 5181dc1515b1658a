import OberonFront.Proofs.FrontEnd.Lexeme
import OberonFront.Proofs.FrontEnd.Spacing
import OberonFront.Proofs.Text.Listing

/-!
# Tokens and diagnostics in a listing

The scanner and the listing agree on where things are.  The first character of a
token stands in its line at its column, and the end of the text behind the last
character of a line or behind the last line.  So the caret of a diagnostic stands
under the line it belongs to, unless it is about the end of the text.
-/

namespace OberonFront

open Position (OnLine)

variable {source : String}

namespace Lexicon

variable {x : Lexicon}

/-- Where a token starts: at the end of the text, or in front of a character that is no blank. -/
theorem Spells.start_of_mem_lex {lexeme : LexemeClass} (spells : x.Spells lexeme) {t : Token}
    (h : t ∈ (x.lex source).toList) :
    t.kind = Kind.eof ∧ t.start = Position.start.after (unifyLineEnds source.toList) ∨
      t.kind ≠ Kind.eof ∧
        t.start = Position.start.after ((unifyLineEnds source.toList).take t.start.offset) ∧
        ∃ c, c ∉ x.blanks ∧ (unifyLineEnds source.toList)[t.start.offset]? = some c := by
  rw [toList_lex] at h
  obtain ⟨u, moves, rfl⟩ := exists_eq_nextToken h
  rcases spells.front u with trailing | ⟨kind, gap, chars, rest, text, isGap, atToken, isLexeme⟩
  · rw [nextToken_trailing spells.clear trailing]
    exact .inl ⟨rfl, (moves.trans (.toEnd u)).position_eq (List.append_nil _).symm⟩
  · have next := spells.nextToken_eq isGap atToken isLexeme u.position
    rw [← text] at next
    rw [next]
    have atStart : (Unread.ofText source).MovesTo ⟨u.position.after gap, chars ++ rest⟩ :=
      moves.trans ⟨gap, text, rfl⟩
    obtain ⟨c, behind, eq, solid, -⟩ := atToken
    refine .inr ⟨spells.kind_ne_eof isLexeme, atStart.position_eq_take, c, solid, ?_⟩
    have drop := atStart.drop_offset
    change _ = chars ++ rest at drop
    rw [eq] at drop
    rw [← Nat.add_zero (Position.offset _), ← List.getElem?_drop, drop]
    rfl

end Lexicon

/-! ## Tokens -/

/-- The lines of a listing have the first character of a token where the token says. -/
def Token.Shown (source : String) (t : Token) : Prop :=
  ∃ line column l c, t.start.line = line + 1 ∧ t.start.column = column + 1 ∧
    (linesOf source.toList)[line]? = some l ∧ l[column]? = some c ∧
    source.toList[t.start.offset]? = some c

/-- The token stands behind the last character of a line, or behind the last line. -/
def Token.ShownLast (source : String) (t : Token) : Prop :=
  (∃ line l, t.start.line = line + 1 ∧ (linesOf source.toList)[line]? = some l ∧
    t.start.column = l.length + 1) ∨
  EndsLine source.toList ∧ t.start.line = (linesOf source.toList).length + 1 ∧ t.start.column = 1

/-- A character of a text that is read as no line end is that character. -/
theorem getElem?_of_unifyLineEnds {text : List Char} {i : Nat} {c : Char}
    (h : (unifyLineEnds text)[i]? = some c) (inner : c ≠ '\n') : text[i]? = some c := by
  rw [getElem?_unifyLineEnds, symbolAt] at h
  split at h
  · cases h
    contradiction
  · exact h

namespace FrontEnd

variable (e : FrontEnd)

theorem shown_of_mem_lex {t : Token} (h : t ∈ (e.lex source).toList) :
    (t.kind = Kind.eof → t.ShownLast source) ∧ (t.kind ≠ Kind.eof → t.Shown source) := by
  have column : Position.start.column = ([] : List Char).length + 1 := rfl
  rcases e.spells.start_of_mem_lex h with ⟨eof, start⟩ | ⟨further, start, c, solid, read⟩
  · refine ⟨fun _ => ?_, absurd eof⟩
    rw [Token.ShownLast, start]
    rcases onLine_end source.toList column with
      ⟨l, ⟨i, below, isLine⟩, last⟩ | ⟨ends, below, first⟩
    · exact .inl ⟨i, l, by rw [below, Nat.add_comm]; rfl, isLine, last⟩
    · exact .inr ⟨ends, by rw [below, Nat.add_comm]; rfl, first⟩
  · refine ⟨fun eof => absurd eof further, fun _ => ?_⟩
    have inner : c ≠ '\n' ∧ c ≠ '\r' := by
      refine ⟨?_, ?_⟩ <;> rintro rfl
      · exact solid e.lineEnds_blank.1
      · exact solid e.lineEnds_blank.2
    have here := getElem?_of_unifyLineEnds read inner.1
    obtain ⟨l, ⟨i, below, isLine⟩, shown⟩ := onLine_take source.toList here inner column
    rw [← start] at below shown
    have column := (Lexicon.start_pos_of_mem_lex h).2
    exact ⟨i, t.start.column - 1, l, c, by rw [below, Nat.add_comm]; rfl, by omega, isLine, shown,
      here⟩

end FrontEnd

/-! ## Diagnostics -/

namespace Diagnostic

/-- In the listing of a text with some diagnostics this one is right below its line, and its caret
is as far from the left as its column says. -/
def Marked (source : String) (ds : List Diagnostic) (d : Diagnostic) : Prop :=
  ∃ line column pad, column ≤ line.length ∧
    Listing.MarkedBelow (linesOf source.toList) ds d d.line line ∧ Listing.Caret line d column pad

/-- No line begins where this diagnostic is, so it follows the last line, if there is one. -/
structure Trails (source : String) (ds : List Diagnostic) (d : Diagnostic) : Prop where
  endsLine : EndsLine source.toList
  line_eq : d.line = (linesOf source.toList).length
  column_eq : d.column? = some 0
  last : ∀ line, (linesOf source.toList).getLast? = some line →
    Listing.MarkedBelow (linesOf source.toList) ds d ((linesOf source.toList).length - 1) line

variable {ds : List Diagnostic} {d : Diagnostic} {t : Token}

theorem marked_of_standsAt (mem : d ∈ ds) (stands : d.StandsAt t) {line column : Nat}
    {l : List Char} (isLine : (linesOf source.toList)[line]? = some l) (le : column ≤ l.length)
    (start : t.start.line = line + 1 ∧ t.start.column = column + 1) : d.Marked source ds := by
  obtain ⟨line_eq, column_eq⟩ := stands
  obtain rfl : d.line = line := by omega
  have here : column ∈ d.column? := by
    obtain ⟨c, hc, eq⟩ := Option.map_eq_some_iff.mp column_eq
    obtain rfl : c = column := by omega
    exact hc
  obtain ⟨pad, caret⟩ := Listing.exists_caret here le
  have lt := (List.getElem?_eq_some_iff.mp isLine).1
  exact ⟨l, column, pad, le, Listing.markedBelow isLine mem (by omega), caret⟩

theorem trails_of_standsAt (mem : d ∈ ds) (stands : d.StandsAt t) (ends : EndsLine source.toList)
    (start : t.start.line = (linesOf source.toList).length + 1 ∧ t.start.column = 1) :
    d.Trails source ds := by
  obtain ⟨line_eq, column_eq⟩ := stands
  have below : d.line = (linesOf source.toList).length := by omega
  refine ⟨ends, below, ?_, fun line last => ?_⟩
  · obtain ⟨c, hc, eq⟩ := Option.map_eq_some_iff.mp column_eq
    obtain rfl : c = 0 := by omega
    exact hc
  · rw [List.getLast?_eq_getElem?] at last
    exact Listing.markedBelow last mem (by omega)

end Diagnostic

namespace FrontEnd

/-- A pair of line ends starts one line, and the one that closes the text none. -/
example : linesOf "a\r\nb\r".toList = [['a'], ['b']] ∧
    (FrontEnd.oberon0.lex "a\r\nb\r").toList.map Token.start =
      [⟨0, 1, 1⟩, ⟨3, 2, 1⟩, ⟨5, 3, 1⟩] := by
  decide +kernel

end FrontEnd

end OberonFront
