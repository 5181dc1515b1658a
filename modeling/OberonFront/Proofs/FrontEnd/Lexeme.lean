import OberonFront.FrontEnd
import OberonFront.Proofs.Oberon0.Lexeme
import OberonFront.Proofs.Umbriel.Automaton

/-!
# The lexemes of the front ends

The automaton of each front end takes the lexemes of its language, so what holds
of every lexicon that spells a class of lexemes holds of both.  A text that is
printed token by token has the tokens it had before.  In Umbriel no token may be
unknown for that, as a lone quote takes in what is printed behind it.
-/

namespace OberonFront.FrontEnd

def lexeme : FrontEnd → LexemeClass
  | .oberon0 => Oberon0.Lexeme
  | .umbriel => Umbriel.Lexeme

theorem spells (e : FrontEnd) : e.lexicon.Spells e.lexeme := by
  cases e with
  | oberon0 => exact Oberon0.spells
  | umbriel => exact Umbriel.spells

/-- Line ends are blanks. -/
theorem lineEnds_blank (e : FrontEnd) : '\n' ∈ e.lexicon.blanks ∧ '\r' ∈ e.lexicon.blanks := by
  cases e <;> decide

/-- The tokens of a text, printed with single blanks between them, are read back. -/
theorem lex_print (e : FrontEnd) (source : String)
    (known : e = .umbriel → ∀ t ∈ (e.lex source).toList, t.kind ≠ Umbriel.unknown) :
    (e.lex (e.lex source).print).spellings = (e.lex source).spellings := by
  cases e with
  | oberon0 => exact Oberon0.separable.spellings_lex_print fun _ _ => trivial
  | umbriel => exact Umbriel.separable.spellings_lex_print (known rfl)

/-- A range, a real number without a fraction and text over two lines. -/
theorem lex_print_range :
    (∀ t ∈ (umbriel.lex "3..5(3.(**)'a\r(*b'").toList, t.kind ≠ Umbriel.unknown) ∧
      (umbriel.lex "3..5(3.(**)'a\r(*b'").print = "3 .. 5 ( 3. 'a\n(*b'" ∧
      (umbriel.lex "3 .. 5 ( 3. 'a\n(*b'").spellings =
        (umbriel.lex "3..5(3.(**)'a\r(*b'").spellings := by
  have known : ∀ t ∈ (umbriel.lex "3..5(3.(**)'a\r(*b'").toList, t.kind ≠ Umbriel.unknown := by
    decide +kernel
  have printed : (umbriel.lex "3..5(3.(**)'a\r(*b'").print = "3 .. 5 ( 3. 'a\n(*b'" := by
    decide +kernel
  have same := lex_print .umbriel "3..5(3.(**)'a\r(*b'" fun _ => known
  rw [printed] at same
  exact ⟨known, printed, same⟩

end OberonFront.FrontEnd
