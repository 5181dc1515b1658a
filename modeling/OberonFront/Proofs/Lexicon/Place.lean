import OberonFront.Proofs.Lexicon.Cover
import OberonFront.Umbriel.Lexicon

/-!
# Where tokens start

The line and column of a token are those of its offset in the text, however the
scanner got there.  Where line feeds are blanks no token starts at the end of a
line, so a column is counted from a line that has already begun.
-/

namespace OberonFront

open Unread (MovesTo)

/-- The place of an offset in a text. -/
theorem Unread.MovesTo.position_eq_place {source : String} {u : Unread}
    (h : (ofText source).MovesTo u) :
    u.position = ⟨u.position.offset, 1 + (lineEnds source.toList u.position.offset).length,
      u.position.offset - lineStart source.toList u.position.offset + 1⟩ := by
  have le : u.position.offset ≤ source.toList.length := by
    rw [String.length_toList, ← h.offset_add_length]
    exact Nat.le_add_right _ _
  rw [← after_take_unifyLineEnds source.toList le]
  exact h.position_eq_take

namespace Lexicon

/-- The line of every token that is ever handed out is one more than the line ends before it, and
its column counts from the last of them.  The character at which it starts ends no line. -/
theorem line_column_nthToken (x : Lexicon) (feed : '\n' ∈ x.blanks) (source : String)
    (calls : Nat) :
    (x.nthToken source calls).start.line =
        1 + (lineEnds source.toList (x.nthToken source calls).start.offset).length ∧
      (x.nthToken source calls).start.column =
        (x.nthToken source calls).start.offset -
          lineStart source.toList (x.nthToken source calls).start.offset + 1 ∧
      lineStart source.toList ((x.nthToken source calls).start.offset + 1) ≤
        (x.nthToken source calls).start.offset := by
  have moves := (x.moves_unreadAfter source calls).trans (x.moves_skipBlanks _)
  have place := moves.position_eq_place
  rw [nthToken, start_nextToken]
  generalize x.unreadAfter source calls = u at moves place ⊢
  refine ⟨congrArg Position.line place, congrArg Position.column place, ?_⟩
  by_cases ends : IsLineEnd source.toList (x.skipBlanks u).position.offset
  · exfalso
    rw [isLineEnd_iff, ← Nat.add_zero (Position.offset _), ← List.getElem?_drop,
      moves.drop_offset] at ends
    cases text : (x.skipBlanks u).rest with
    | nil => simp [text] at ends
    | cons c rest =>
        rw [text] at ends
        cases ends
        exact not_mem_blanks_of_skipBlanks text feed
  · rw [lineStart_succ_of_not_isLineEnd ends]
    exact lineStart_le _ _

/-- A range behind a comment of several lines: the point that was looked at is given back. -/
theorem line_column_nthToken_range :
    '\n' ∈ Umbriel.lexicon.blanks ∧
      Umbriel.lexicon.nthToken "(* 1\r2\r\n(* 3 *) *)\n (3..5" 2 =
        ⟨Umbriel.upTo, "..", ⟨22, 4, 4⟩⟩ ∧
      4 = 1 + (lineEnds "(* 1\r2\r\n(* 3 *) *)\n (3..5".toList 22).length ∧
      4 = 22 - lineStart "(* 1\r2\r\n(* 3 *) *)\n (3..5".toList 22 + 1 ∧
      lineStart "(* 1\r2\r\n(* 3 *) *)\n (3..5".toList 23 ≤ 22 := by
  have feed : '\n' ∈ Umbriel.lexicon.blanks := by decide
  have token : Umbriel.lexicon.nthToken "(* 1\r2\r\n(* 3 *) *)\n (3..5" 2 =
      ⟨Umbriel.upTo, "..", ⟨22, 4, 4⟩⟩ := by decide +kernel
  have place := line_column_nthToken Umbriel.lexicon feed "(* 1\r2\r\n(* 3 *) *)\n (3..5" 2
  rw [token] at place
  exact ⟨feed, token, place⟩

end Lexicon

/-! ## Order -/

def Position.Precedes (p q : Position) : Prop :=
  p.line < q.line ∨ p.line = q.line ∧ p.column < q.column

namespace Lexicon

theorem precedes_of_offset_lt {source : String} {u v : Unread}
    (hu : (Unread.ofText source).MovesTo u) (hv : (Unread.ofText source).MovesTo v)
    (h : u.position.offset < v.position.offset) : u.position.Precedes v.position := by
  rw [hu.position_eq_place, hv.position_eq_place]
  rcases line_column_lt source.toList h with above | ⟨same, left⟩
  · exact .inl (Nat.add_lt_add_left above 1)
  · exact .inr ⟨congrArg (1 + ·) same, Nat.succ_lt_succ left⟩

/-- The tokens of a text are in the order of lines and columns. -/
theorem pairwise_precedes (x : Lexicon) (source : String) :
    (x.lex source).toList.Pairwise fun s t => s.start.Precedes t.start := by
  have apart : (x.lex source).toList.Pairwise fun s t =>
      s.start.offset < s.stop ∧ s.stop ≤ t.start.offset := by
    rw [toList_lex]
    exact pairwise_tokens (.refl _)
  refine apart.imp_of_mem fun {s t} hs ht between => ?_
  obtain ⟨u, hu, su⟩ := exists_start_of_mem_lex hs
  obtain ⟨v, hv, tv⟩ := exists_start_of_mem_lex ht
  have lt := Nat.lt_of_lt_of_le between.1 between.2
  rw [su, tv] at lt ⊢
  exact precedes_of_offset_lt hu hv lt

end Lexicon

end OberonFront
