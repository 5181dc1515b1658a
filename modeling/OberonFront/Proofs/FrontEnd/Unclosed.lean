import OberonFront.Proofs.FrontEnd.Comment

/-!
# What is never closed

Quoted text that is not closed before the end is no token of the language, and so
always a problem.  A comment that is not closed is no more than the end of the
text.  Behind a program it goes unnoticed.
-/

namespace OberonFront

/-- Quoted text without the quote that would close it. -/
def Umbriel.OpenQuote (text : List Char) : Prop :=
  ∃ quote ∈ quotes, ∃ body, text = quote :: body ∧ ∀ c ∈ body, c ≠ quote ∧ c ≠ '\r'

/-- A comment of which there is nothing but the bracket that opens it. -/
theorem Comment.unclosed_opener (k : Comment) : k.Unclosed [k.opener.1, k.opener.2] := by
  refine ⟨[], rfl, fun c front closes => ?_⟩
  cases List.prefix_nil.mp front
  cases closes

namespace FrontEnd

theorem stopsBefore (e : FrontEnd) : e.lexicon.StopsBefore e.lexeme .round := by
  cases e with
  | oberon0 => exact Oberon0.stopsBefore
  | umbriel => exact Umbriel.stopsBefore

/-- The token at a quote that is not closed before the end of the text. -/
theorem kind_of_openQuote {source : String} {calls : Nat} {gap last : List Char}
    (text : (umbriel.lexicon.unreadAfter source calls).rest = gap ++ last)
    (isGap : umbriel.lexicon.Gap gap) (opens : Umbriel.OpenQuote last) :
    (umbriel.lexicon.nthToken source calls).kind = Umbriel.unknown := by
  obtain ⟨quote, isQuote, body, rfl, plain⟩ := opens
  have solid : ∀ quote ∈ Umbriel.quotes, quote ∉ umbriel.lexicon.blanks ∧
      ∀ k ∈ umbriel.lexicon.comments, k.opener.1 ≠ quote :=
    Umbriel.forall_mem_quotes (by decide) (by decide)
  have atToken : umbriel.lexicon.AtToken (quote :: body ++ []) := by
    refine ⟨quote, _, rfl, (solid quote isQuote).1, fun k listed opens => ?_⟩
    exact (solid quote isQuote).2 k listed (List.cons_prefix_cons.mp opens).1
  have isLexeme : Umbriel.Lexeme Umbriel.unknown (quote :: body) [] :=
    .unclosed isQuote plain (by simp)
  have next := Umbriel.spells.nextToken_eq isGap atToken isLexeme
    (umbriel.lexicon.unreadAfter source calls).position
  rw [List.append_nil, ← text] at next
  exact congrArg (·.1.kind) next

/-- A text that ends in a comment has a problem if and only if the text in front of the comment has
one.  A text that ends in quoted text always has. -/
theorem check_of_endsInside (e : FrontEnd) (a c : String) :
    (e.lexicon.EndsInside (a ++ c) a.length Comment.round.Unclosed →
      (e.lex (a ++ c)).spellings = (e.lex a).spellings ∧
        (e.check (a ++ c) ≠ [] ↔ e.check a ≠ [])) ∧
    (umbriel.lexicon.EndsInside (a ++ c) a.length Umbriel.OpenQuote →
      umbriel.check (a ++ c) ≠ []) := by
  constructor
  · intro ends
    have same : (e.lex (a ++ c)).spellings = (e.lex a).spellings := e.stopsBefore.spellings_lex ends
    refine ⟨same, not_congr ?_⟩
    rw [check_eq_nil_iff, check_eq_nil_iff, TokenList.kinds_eq_map_spellings,
      TokenList.kinds_eq_map_spellings, same]
  · rintro ⟨calls, gap, last, text, isGap, opens, -⟩
    have kind := kind_of_openQuote text isGap opens
    have ne : (umbriel.lexicon.unreadAfter (a ++ c) calls).rest ≠ [] := by
      obtain ⟨quote, -, body, rfl, -⟩ := opens
      simp [text]
    have mem := umbriel.spells.nthToken_mem_lex ne
    exact umbriel.check_ne_nil_of_unknown (List.mem_map.mpr ⟨_, mem, kind⟩)

/-- A comment behind the heading of a module, and a quote instead of its name. -/
theorem check_of_endsInside_heading :
    oberon0.lexicon.EndsInside ("MODULE m;" ++ "(*") "MODULE m;".length
        Comment.round.Unclosed ∧
      (oberon0.check ("MODULE m;" ++ "(*") ≠ [] ↔ oberon0.check "MODULE m;" ≠ []) ∧
      umbriel.lexicon.EndsInside ("MODULE " ++ "'m;") "MODULE ".length Umbriel.OpenQuote ∧
      umbriel.check ("MODULE " ++ "'m;") ≠ [] := by
  have comment : oberon0.lexicon.EndsInside ("MODULE m;" ++ "(*") "MODULE m;".length
      Comment.round.Unclosed :=
    ⟨3, [], _, by decide +kernel, .nil, Comment.unclosed_opener _, by decide +kernel⟩
  have quoted : umbriel.lexicon.EndsInside ("MODULE " ++ "'m;") "MODULE ".length
      Umbriel.OpenQuote :=
    ⟨1, [' '], _, by decide +kernel, .blank (by decide) .nil,
      ⟨'\'', by decide, ['m', ';'], rfl, by simp⟩, by decide +kernel⟩
  exact ⟨comment, ((check_of_endsInside .oberon0 _ _).1 comment).2, quoted,
    (check_of_endsInside .umbriel _ _).2 quoted⟩

/-- Behind a program a comment that is never closed is not reported. -/
theorem not_check_of_endsInside :
    ¬ ∀ (e : FrontEnd) (source : String) (offset : Nat),
      e.lexicon.EndsInside source offset Comment.round.Unclosed → e.check source ≠ [] := by
  intro reported
  have ends : oberon0.lexicon.EndsInside "MODULE m; END m. (*" 17 Comment.round.Unclosed :=
    ⟨6, [' '], _, by decide +kernel, .blank (by decide) .nil, Comment.unclosed_opener _,
      by decide +kernel⟩
  exact reported .oberon0 _ _ ends (by decide +kernel)

end FrontEnd

end OberonFront
