import OberonFront.Proofs.Lexicon.Comment

/-!
# Texts that end inside a comment

A comment that is never closed goes on to the end of the text, and nothing is said
about it: the tokens are those of the text in front of the comment.  Where lexemes
end they can do without the bracket that opens a comment.
-/

namespace OberonFront

/-! ## In front of less text -/

section

variable {rest rest' : List Char}

theorem forall_head_truncated {p : Char → Prop} (front : rest' <+: rest)
    (all : ∀ c ∈ rest.head?, p c) : ∀ c ∈ rest'.head?, p c := by
  obtain ⟨behind, rfl⟩ := front
  cases rest' with
  | nil => simp
  | cons d rest' => exact all

theorem LongestRun.truncated {p : Char → Bool} {run : List Char} (h : LongestRun p run rest)
    (front : rest' <+: rest) : LongestRun p run rest' where
  all := h.all
  stops := forall_head_truncated front h.stops

theorem IsOperator.truncated {operators : List (String × Kind)} {kind : Kind} {chars : List Char}
    (h : IsOperator operators kind chars rest) (front : rest' <+: rest) :
    IsOperator operators kind chars rest' where
  listed := h.listed
  longest op listed short :=
    h.longest op listed (short.trans ((List.prefix_append_right_inj chars).mpr front))

end

namespace Lexicon

variable {x : Lexicon} {source : String}

/-! ## Up to the end of the text -/

/-- After some calls there is a gap in front of the scanner, and all that follows from an offset on
has a form. -/
def EndsInside (x : Lexicon) (source : String) (offset : Nat) (form : List Char → Prop) : Prop :=
  ∃ calls gap last, (x.unreadAfter source calls).rest = gap ++ last ∧ x.Gap gap ∧ form last ∧
    (x.unreadAfter source calls).position.offset + gap.length = offset

namespace Spells

variable {lexeme : LexemeClass} (spells : x.Spells lexeme)

include spells

/-- What holds where the scanner comes by before the end of the text, and in front of a token if it
holds behind the token, holds where the scanner starts. -/
theorem run_induction {motive : Unread → Prop} {v : Unread} (ne : v.rest ≠ []) (here : motive v)
    (token : ∀ {position gap chars rest kind}, x.Gap gap → x.AtToken (chars ++ rest) →
      lexeme kind chars rest → motive ⟨position.after (gap ++ chars), rest⟩ →
        motive ⟨position, gap ++ (chars ++ rest)⟩)
    {calls : Nat} {u : Unread} (run : (fun u => (x.nextToken u).2)^[calls] u = v) : motive u := by
  induction calls generalizing u with
  | zero =>
      cases run
      exact here
  | succ calls ih =>
      rw [Function.iterate_succ_apply] at run
      rcases spells.front u with trailing | ⟨kind, gap, chars, rest, text, isGap, atToken, isLexeme⟩
      · -- Behind the end of the text there is nothing.
        have stays : (x.nextToken u.toEnd).2 = u.toEnd := by
          rw [nextToken_of_rest_eq_nil u.rest_toEnd]
        rw [nextToken_trailing spells.clear trailing, Function.iterate_fixed stays] at run
        rw [← run] at ne
        exact absurd u.rest_toEnd ne
      · obtain ⟨position, whole⟩ := u
        change whole = _ at text
        subst text
        rw [spells.nextToken_eq isGap atToken isLexeme] at run
        exact token isGap atToken isLexeme (ih run)

/-- A token that is handed out before the end of the text is among those of the text. -/
theorem nthToken_mem_lex {calls : Nat} (ne : (x.unreadAfter source calls).rest ≠ []) :
    x.nthToken source calls ∈ (x.lex source).toList := by
  rw [toList_lex]
  refine spells.run_induction (motive := (x.nthToken source calls ∈ x.tokens ·)) ne ?_ ?_ rfl
  · rw [tokens_eq]
    split
    · exact List.mem_singleton_self _
    · exact List.mem_cons_self
  · intro position gap chars rest kind isGap atToken isLexeme mem
    rw [tokens_eq, spells.nextToken_eq isGap atToken isLexeme,
      if_neg (spells.kind_ne_eof isLexeme)]
    exact List.mem_cons_of_mem _ mem

end Spells

/-! ## Without the comment -/

/-- A comment before which lexemes stop as they do before the end of the text. -/
structure StopsBefore (x : Lexicon) (lexeme : LexemeClass) (k : Comment) : Prop where
  spells : x.Spells lexeme
  listed : k ∈ x.comments
  plain : k.Plain
  stops : ∀ {kind chars same behind}, lexeme kind chars (same ++ k.opener.1 :: behind) →
    lexeme kind chars same

namespace StopsBefore

variable {lexeme : LexemeClass} {k : Comment} (stops : x.StopsBefore lexeme k)

include stops

theorem exists_reads {last : List Char} (unclosed : k.Unclosed last) {gap : List Char}
    (isGap : x.Gap gap) {v : Unread} (text : v.rest = gap ++ last) {calls : Nat} {u : Unread}
    (run : (fun u => (x.nextToken u).2)^[calls] u = v) :
    ∃ before spellings, u.rest = before ++ last ∧ x.Reads lexeme before spellings ∧
      x.Reads lexeme (before ++ last) spellings := by
  have opens : ∃ inside, last = k.opener.1 :: inside := by
    obtain ⟨inside, rfl, -⟩ := unclosed
    exact ⟨_, rfl⟩
  obtain ⟨inside, eq⟩ := opens
  have ne : v.rest ≠ [] := by simp [text, eq]
  refine stops.spells.run_induction (motive := fun u => ∃ before spellings,
    u.rest = before ++ last ∧ x.Reads lexeme before spellings ∧
      x.Reads lexeme (before ++ last) spellings) ne ?_ ?_ run
  · refine ⟨gap, _, text, .ends ⟨gap, [], by simp, isGap, .inl rfl⟩, .ends ?_⟩
    exact ⟨gap, last, rfl, isGap, .inr ⟨k, stops.listed, unclosed⟩⟩
  · rintro position front chars _ kind isFront atToken isLexeme
      ⟨before, spellings, rfl, reads, both⟩
    have isLexeme' : lexeme kind chars before := stops.stops (eq ▸ isLexeme)
    have atToken' : x.AtToken (chars ++ before) := by
      have ne := stops.spells.ne_nil isLexeme atToken
      rw [← List.append_assoc] at atToken
      rw [← List.append_nil (chars ++ before)]
      exact atToken.of_append (List.append_ne_nil_of_left_ne_nil ne before) (by simp)
    refine ⟨front ++ (chars ++ before), _, by simp, .token isFront atToken' isLexeme' reads, ?_⟩
    simpa only [List.append_assoc] using Layout.Reads.token isFront atToken isLexeme both

/-- A comment that is never closed may be left out. -/
theorem spellings_lex {a c : String} (h : x.EndsInside (a ++ c) a.length k.Unclosed) :
    (x.lex (a ++ c)).spellings = (x.lex a).spellings := by
  obtain ⟨calls, gap, last, text, isGap, unclosed, offset⟩ := h
  obtain ⟨before, spellings, whole, reads, both⟩ := stops.exists_reads unclosed isGap text rfl
  change unifyLineEnds (a ++ c).toList = before ++ last at whole
  have length : before.length = a.toList.length := by
    have all := (x.moves_unreadAfter (a ++ c) calls).offset_add_length
    have parts := congrArg List.length whole
    rw [text, List.length_append] at all
    rw [length_unifyLineEnds, String.length_toList, List.length_append] at parts
    rw [String.length_toList]
    omega
  -- The bracket is no line feed, so what is in front of it is read as it is without it.
  have apart : c.toList.head? ≠ some '\n' := by
    obtain ⟨inside, rfl, -⟩ := unclosed
    intro feed
    obtain ⟨behind, eq⟩ := List.head?_eq_some_iff.mp feed
    have read := getElem?_unifyLineEnds (a ++ c).toList a.toList.length
    rw [whole, ← length, String.toList_append, eq, symbolAt] at read
    simp [length] at read
    exact (stops.plain k.opener.1 (by simp)).1 read
  rw [String.toList_append, unifyLineEnds_append (.inr apart)] at whole
  obtain ⟨rfl, -⟩ := List.append_inj whole (by rw [length_unifyLineEnds, length])
  rw [stops.spells.spellings_lex_eq_iff.mpr reads, stops.spells.spellings_lex_eq_iff,
    String.toList_append, unifyLineEnds_append (.inr apart), whole]
  exact both

end StopsBefore

end Lexicon

end OberonFront
