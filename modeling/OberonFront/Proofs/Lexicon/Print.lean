import OberonFront.Proofs.Lexicon.Cut
import OberonFront.Proofs.Lexicon.Lexeme

/-!
# Printing tokens

The texts of some tokens with single blanks between them.  Where a lexeme in
front of a blank is the same lexeme as in front of what stood there before, the
printed tokens are read back.
-/

namespace OberonFront

def printed (spellings : List (Kind × String)) : List String :=
  (spellings.filter (·.1 ≠ Kind.eof)).map Prod.snd

theorem printed_cons {kind : Kind} (h : kind ≠ Kind.eof) (text : String)
    (spellings : List (Kind × String)) :
    printed ((kind, text) :: spellings) = text :: printed spellings := by
  simp [printed, h]

/-- The texts of all tokens, with single blanks between them. -/
def TokenList.print (l : TokenList) : String := " ".intercalate (printed l.spellings)

/-! ## Before a blank -/

def StandsApart (rest : List Char) : Prop := ∀ c ∈ rest.head?, c = ' '

def behindBlanks (words : List String) : List Char := words.flatMap (' ' :: ·.toList)

theorem standsApart_behindBlanks (words : List String) : StandsApart (behindBlanks words) := by
  cases words <;> simp [StandsApart, behindBlanks]

theorem toList_intercalate_cons (word : String) (words : List String) :
    (" ".intercalate (word :: words)).toList = word.toList ++ behindBlanks words := by
  induction words generalizing word with
  | nil => simp [behindBlanks]
  | cons next words ih =>
      have further := ih next
      rw [String.toList_intercalate, List.map_cons] at further ⊢
      rw [List.map_cons, List.intercalate_cons_cons, further]
      simp [behindBlanks]

theorem return_not_mem_behindBlanks {words : List String} (h : ∀ word ∈ words, '\r' ∉ word.toList) :
    '\r' ∉ behindBlanks words := by
  simpa [behindBlanks] using h

variable {rest rest' : List Char}

theorem return_not_mem_intercalate {words : List String}
    (free : ∀ word ∈ words, '\r' ∉ word.toList) : '\r' ∉ (" ".intercalate words).toList := by
  cases words with
  | nil => simp
  | cons word words =>
      rw [List.forall_mem_cons] at free
      rw [toList_intercalate_cons, List.mem_append, not_or]
      exact free.imp_right return_not_mem_behindBlanks

theorem LongestRun.apart {p : Char → Bool} {run : List Char} (h : LongestRun p run rest)
    (solid : p ' ' = false) (apart : StandsApart rest') : LongestRun p run rest' where
  all := h.all
  stops c hc := by rw [apart c hc, solid]

theorem IsOperator.apart {operators : List (String × Kind)} {kind : Kind} {chars : List Char}
    (h : IsOperator operators kind chars rest) (fit : OperatorsFit operators)
    (apart : StandsApart rest') : IsOperator operators kind chars rest' := by
  refine .of_append [] h fit fun op listed c first => ?_
  rw [apart c first]
  exact (fit op listed).2.1.1

/-! ## Reading back -/

namespace Lexicon

variable {x : Lexicon}

/-- Tokens of some kinds can be read back from in front of a blank. -/
structure Separable (x : Lexicon) (lexeme : LexemeClass) (known : Kind → Prop) : Prop where
  spells : x.Spells lexeme
  blank : ' ' ∈ x.blanks
  openers : ∀ k ∈ x.comments, k.opener.2 ≠ ' '
  /-- No token has a carriage return in it. -/
  returns : '\r' ∈ x.blanks ∧ ∀ q ∈ x.states, q.step '\r'.toNat = none
  apart : ∀ {kind chars rest rest'}, lexeme kind chars rest → known kind → StandsApart rest' →
    lexeme kind chars rest'

namespace Separable

variable {lexeme : LexemeClass} {known : Kind → Prop} (separable : x.Separable lexeme known)

include separable

theorem atToken_apart {kind : Kind} {chars : List Char} (isLexeme : lexeme kind chars rest)
    (atToken : x.AtToken (chars ++ rest)) (apart : StandsApart rest') :
    x.AtToken (chars ++ rest') := by
  refine atToken.of_append (separable.spells.ne_nil isLexeme atToken) fun k listed c first => ?_
  rw [apart c first]
  exact separable.openers k listed

theorem return_not_mem_printed {text : List Char} {spellings : List (Kind × String)}
    (h : x.Reads lexeme text spellings) : ∀ word ∈ printed spellings, '\r' ∉ word.toList := by
  induction h with
  | token isGap atToken isLexeme _ ih =>
      have solid := separable.spells.kind_ne_eof isLexeme
      rw [printed_cons solid, List.forall_mem_cons, String.toList_ofList]
      exact ⟨separable.spells.not_mem_chars separable.returns isLexeme atToken, ih⟩
  | ends => simp [printed]

/-- The tokens of a text, each behind a blank, are read back. -/
theorem reads_behindBlanks {text : List Char} {spellings : List (Kind × String)}
    (h : x.Reads lexeme text spellings) (all : ∀ s ∈ spellings, known s.1) :
    x.Reads lexeme (behindBlanks (printed spellings)) spellings := by
  induction h with
  | @token gap chars rest kind spellings isGap atToken isLexeme _ ih =>
      obtain ⟨isKnown, all⟩ := List.forall_mem_cons.mp all
      have one : x.Gap [' '] := .blank separable.blank .nil
      have apart := standsApart_behindBlanks (printed spellings)
      have atToken' := separable.atToken_apart isLexeme atToken apart
      have reads :=
        Layout.Reads.token one atToken' (separable.apart isLexeme isKnown apart) (ih all)
      rw [printed_cons (separable.spells.kind_ne_eof isLexeme)]
      simpa [behindBlanks] using reads
  | ends => exact .ends ⟨[], [], rfl, .nil, .inl rfl⟩

/-- So are they with blanks only between them. -/
theorem reads_intercalate {text : List Char} {spellings : List (Kind × String)}
    (h : x.Reads lexeme text spellings) (all : ∀ s ∈ spellings, known s.1) :
    x.Reads lexeme (" ".intercalate (printed spellings)).toList spellings := by
  cases h with
  | @token gap chars rest kind spellings isGap atToken isLexeme next =>
      obtain ⟨isKnown, all⟩ := List.forall_mem_cons.mp all
      have apart := standsApart_behindBlanks (printed spellings)
      have atToken' := separable.atToken_apart isLexeme atToken apart
      have isLexeme' := separable.apart isLexeme isKnown apart
      rw [printed_cons (separable.spells.kind_ne_eof isLexeme), toList_intercalate_cons,
        String.toList_ofList]
      exact .token .nil atToken' isLexeme' (separable.reads_behindBlanks next all)
  | ends => exact .ends ⟨[], [], rfl, .nil, .inl rfl⟩

/-- Printed tokens are read back. -/
theorem spellings_lex_print {source : String}
    (all : ∀ t ∈ (x.lex source).toList, known t.kind) :
    (x.lex (x.lex source).print).spellings = (x.lex source).spellings := by
  have reads := separable.spells.spellings_lex_eq_iff.mp (rfl : (x.lex source).spellings = _)
  have alike : unifyLineEnds (x.lex source).print.toList = (x.lex source).print.toList :=
    unifyLineEnds_of_not_mem (return_not_mem_intercalate (separable.return_not_mem_printed reads))
  rw [separable.spells.spellings_lex_eq_iff, alike]
  exact separable.reads_intercalate reads (List.forall_mem_map.mpr all)

end Separable

end Lexicon

end OberonFront
