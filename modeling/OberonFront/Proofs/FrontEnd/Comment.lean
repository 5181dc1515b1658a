import OberonFront.Proofs.FrontEnd.Lexeme
import OberonFront.Proofs.FrontEnd.Verdict

/-!
# Comments are white space

A closed comment is read as a blank is, whatever it says.
-/

namespace OberonFront.FrontEnd

theorem white (e : FrontEnd) : e.lexicon.White e.lexeme .round := by
  cases e with
  | oberon0 => exact Oberon0.white
  | umbriel => exact Umbriel.white

/-- Instead of a blank that is in no token and no comment there may as well be a closed comment. The
tokens are the same, and so is whether the text is accepted. -/
theorem lex_comment (e : FrontEnd) (a b c : String) (closed : Comment.round.Closed c.toList)
    (noToken : ¬ e.lexicon.InToken (a ++ " " ++ b) a.length)
    (noComment : ¬ e.lexicon.InComment (a ++ " " ++ b) a.length) :
    (e.lex (a ++ c ++ b)).spellings = (e.lex (a ++ " " ++ b)).spellings ∧
      (e.check (a ++ c ++ b) = [] ↔ e.check (a ++ " " ++ b) = []) := by
  have same := e.white.spellings_lex closed noToken noComment
  change (e.lex _).spellings = (e.lex _).spellings at same
  refine ⟨same, ?_⟩
  rw [check_eq_nil_iff, check_eq_nil_iff, TokenList.kinds_eq_map_spellings,
    TokenList.kinds_eq_map_spellings, same]

/-- A comment over two lines with another one in it, between a real number and a point. -/
theorem lex_comment_real :
    Comment.round.Closed "(*'\r(*)*)**)".toList ∧
      ¬ umbriel.lexicon.InToken ("3." ++ " " ++ ".5") "3.".length ∧
      ¬ umbriel.lexicon.InComment ("3." ++ " " ++ ".5") "3.".length ∧
      (umbriel.lex ("3." ++ "(*'\r(*)*)**)" ++ ".5")).spellings =
        (umbriel.lex ("3." ++ " " ++ ".5")).spellings ∧
      (umbriel.check ("3." ++ "(*'\r(*)*)**)" ++ ".5") = [] ↔
        umbriel.check ("3." ++ " " ++ ".5") = []) := by
  have closed : Comment.round.Closed "(*'\r(*)*)**)".toList := by decide +kernel
  have noToken : ¬ umbriel.lexicon.InToken ("3." ++ " " ++ ".5") "3.".length := by decide +kernel
  have noOpener : ∀ start ≤ "3.".length, ∀ k ∈ umbriel.lexicon.comments,
      (unifyLineEnds ("3." ++ " " ++ ".5").toList)[start]? ≠ some k.opener.1 := by decide +kernel
  have noComment : ¬ umbriel.lexicon.InComment ("3." ++ " " ++ ".5") "3.".length := by
    intro inside
    obtain ⟨start, le, k, known, opens⟩ := inside.exists_opener
    exact noOpener start le k known opens
  exact ⟨closed, noToken, noComment, lex_comment .umbriel _ _ _ closed noToken noComment⟩

end OberonFront.FrontEnd
