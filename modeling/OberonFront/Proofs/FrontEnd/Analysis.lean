import OberonFront.FrontEnd
import OberonFront.Proofs.Oberon0.Grammar
import OberonFront.Proofs.Umbriel.Grammar

/-!
# The grammars of the front ends

Each front end runs the grammar of its language, of which all is known that makes
up an analysis.  What holds of every grammar with an analysis holds of both.
-/

namespace OberonFront.FrontEnd

def Nonterminal : FrontEnd → Type
  | .oberon0 => Oberon0.Nonterminal
  | .umbriel => Umbriel.Nonterminal

def grammar : (e : FrontEnd) → Grammar e.Nonterminal
  | .oberon0 => Oberon0.grammar
  | .umbriel => Umbriel.grammar

def analysis : (e : FrontEnd) → Analysis e.grammar
  | .oberon0 => Oberon0.analysis
  | .umbriel => Umbriel.analysis

variable (e : FrontEnd)

theorem tables_guide : e.analysis.guide.tables = e.tables := by
  cases e <;> rfl

theorem tables_pace : e.analysis.pace.tables = e.tables :=
  e.analysis.same.trans e.tables_guide

/-- The parser sees all tokens of the language. -/
theorem visible : ∀ k ∈ e.lexicon.kinds, k ≤ e.analysis.guide.tables.maxKind := by
  cases e with
  | oberon0 => exact Oberon0.visible
  | umbriel => exact Umbriel.visible

theorem parse_eq (p : Parser) : e.parse p = e.grammar.parse p := by
  cases e <;> rfl

theorem execStart_eq (p : Parser) : e.execStart p = e.grammar.exec (.call e.grammar.start) p := by
  cases e <;> rfl

end OberonFront.FrontEnd
