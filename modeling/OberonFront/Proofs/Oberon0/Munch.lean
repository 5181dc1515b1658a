import OberonFront.Proofs.Oberon0.Lexeme

/-!
# Maximal munch in Oberon-0

What spells a token is told without regard to what stands behind it: letters and
digits behind a letter, digits, and the operators.  The scanner always takes the
longest of the prefixes that spell a token, and where there is none it takes one
character, which is no token of the language.
-/

namespace OberonFront.Oberon0

open Lexicon

inductive Spelled : Kind → List Char → Prop where
  | word {c : Char} {kind : Kind} {run : List Char} (letter : c.isAlpha = true)
      (all : ∀ d ∈ run, d.isAlphanum = true)
      (isKind : WordKind words ident (c :: run) kind) : Spelled kind (c :: run)
  | number {c : Char} {run : List Char} (digit : c.isDigit = true)
      (all : ∀ d ∈ run, d.isDigit = true) : Spelled number (c :: run)
  | operator {kind : Kind} {chars : List Char}
      (listed : (String.ofList chars, kind) ∈ operators) : Spelled kind chars

/-- What is taken from the front of a text: the longest of the prefixes that spell a token, or one
character if none does. -/
inductive Munched : LexemeClass where
  | longest {kind : Kind} {chars rest : List Char} (spelled : Spelled kind chars)
      (longest : ∀ {kind' chars'}, Spelled kind' chars' → chars' <+: chars ++ rest →
        chars'.length ≤ chars.length) : Munched kind chars rest
  | single {c : Char} {rest : List Char}
      (none : ∀ {kind chars}, Spelled kind chars → ¬ chars <+: c :: rest) :
      Munched unknown [c] rest

/-! ## By the first character -/

namespace Spelled

variable {kind kind' : Kind} {c : Char} {chars run : List Char}

/-- Nothing in an operator is a letter, a digit or a line end. -/
theorem plain_of_listed (listed : (String.ofList chars, kind) ∈ operators) :
    chars ≠ [] ∧ ∀ c ∈ chars, c.isAlphanum = false ∧ c ≠ '\r' := by
  have plain : ∀ op ∈ operators, op.1.toList ≠ [] ∧
      op.1.toList.all (fun c => !c.isAlphanum && c != '\r') = true := by
    decide +kernel
  have own := plain _ listed
  rw [String.toList_ofList] at own
  simpa using own

theorem ne_nil (h : Spelled kind chars) : chars ≠ [] := by
  cases h with
  | word | number => exact List.cons_ne_nil _ _
  | operator listed => exact (plain_of_listed listed).1

theorem all_of_isAlpha (h : Spelled kind (c :: run)) (letter : c.isAlpha = true) :
    (∀ d ∈ run, d.isAlphanum = true) ∧ WordKind words ident (c :: run) kind := by
  cases h with
  | word _ all isKind => exact ⟨all, isKind⟩
  | number digit =>
      rw [isAlpha_of_isDigit digit] at letter
      cases letter
  | operator listed =>
      have other := ((plain_of_listed listed).2 c List.mem_cons_self).1
      rw [isAlphanum_of_isAlpha letter] at other
      cases other

theorem all_of_isDigit (h : Spelled kind (c :: run)) (digit : c.isDigit = true) :
    (∀ d ∈ run, d.isDigit = true) ∧ kind = Oberon0.number := by
  cases h with
  | word letter =>
      rw [isAlpha_of_isDigit digit] at letter
      cases letter
  | number _ all => exact ⟨all, rfl⟩
  | operator listed =>
      have other := ((plain_of_listed listed).2 c List.mem_cons_self).1
      rw [isAlphanum_of_isDigit digit] at other
      cases other

theorem listed_of_isAlphanum (h : Spelled kind (c :: run)) (other : c.isAlphanum = false) :
    (String.ofList (c :: run), kind) ∈ operators := by
  cases h with
  | word letter =>
      rw [isAlphanum_of_isAlpha letter] at other
      cases other
  | number digit =>
      rw [isAlphanum_of_isDigit digit] at other
      cases other
  | operator listed => exact listed

/-- The characters spell one token only. -/
theorem kind_unique (h : Spelled kind chars) (h' : Spelled kind' chars) : kind = kind' := by
  cases h with
  | word letter _ isKind =>
      have unique : (words.map Prod.fst).Nodup := by decide +kernel
      exact isKind.unique unique (h'.all_of_isAlpha letter).2
  | number digit => exact (h'.all_of_isDigit digit).2.symm
  | operator listed =>
      have unique : (operators.map Prod.fst).Nodup := by decide +kernel
      obtain ⟨ne, plain⟩ := plain_of_listed listed
      obtain ⟨c, run, rfl⟩ := List.exists_cons_of_ne_nil ne
      have listed' := h'.listed_of_isAlphanum (plain c List.mem_cons_self).1
      exact congrArg Prod.snd (List.inj_on_of_nodup_map unique listed listed' rfl)

end Spelled

/-! ## The lexemes -/

variable {kind kind' : Kind} {chars chars' rest rest' : List Char}

/-- A lexeme is the longest prefix that spells a token. -/
theorem Lexeme.munched (h : Lexeme kind chars rest) : Munched kind chars rest := by
  cases h with
  | @word c _ run _ letter isRun isKind =>
      refine .longest (.word letter isRun.all isKind) fun {_ chars'} spelled front => ?_
      cases chars' with
      | nil => exact Nat.zero_le _
      | cons d run' =>
          obtain ⟨rfl, behind⟩ := List.cons_prefix_cons.mp front
          exact Nat.succ_le_succ (isRun.length_le (spelled.all_of_isAlpha letter).1 behind)
  | @number c run _ digit isRun =>
      refine .longest (.number digit isRun.all) fun {_ chars'} spelled front => ?_
      cases chars' with
      | nil => exact Nat.zero_le _
      | cons d run' =>
          obtain ⟨rfl, behind⟩ := List.cons_prefix_cons.mp front
          exact Nat.succ_le_succ (isRun.length_le (spelled.all_of_isDigit digit).1 behind)
  | operator isOperator =>
      refine .longest (.operator isOperator.listed) fun {kind' chars'} spelled front => ?_
      cases chars' with
      | nil => exact Nat.zero_le _
      | cons d run' =>
          obtain ⟨ne, plain⟩ := Spelled.plain_of_listed isOperator.listed
          obtain ⟨c, run, rfl⟩ := List.exists_cons_of_ne_nil ne
          obtain ⟨rfl, -⟩ := List.cons_prefix_cons.mp front
          have listed := spelled.listed_of_isAlphanum (plain d List.mem_cons_self).1
          have length := isOperator.longest _ listed
          rw [String.toList_ofList] at length
          exact length front
  | other noWord noOperator =>
      refine .single fun {_ chars'} spelled front => ?_
      obtain ⟨d, run, rfl⟩ := List.exists_cons_of_ne_nil spelled.ne_nil
      obtain ⟨rfl, -⟩ := List.cons_prefix_cons.mp front
      exact noOperator ⟨_, spelled.listed_of_isAlphanum noWord, by simp⟩

/-- What is taken from the front of a text is told by the text. -/
theorem Munched.unique (h : Munched kind chars rest) (h' : Munched kind' chars' rest')
    (same : chars ++ rest = chars' ++ rest') : kind = kind' ∧ chars = chars' ∧ rest = rest' := by
  have front : chars <+: chars' ++ rest' := same ▸ List.prefix_append chars rest
  have front' : chars' <+: chars ++ rest := same ▸ List.prefix_append chars' rest'
  cases h with
  | longest spelled longest =>
      cases h' with
      | longest spelled' longest' =>
          have length := Nat.le_antisymm (longest' spelled front) (longest spelled' front')
          obtain ⟨rfl, rfl⟩ := List.append_inj same length
          exact ⟨spelled.kind_unique spelled', rfl, rfl⟩
      | single none => exact absurd front (none spelled)
  | single none =>
      cases h' with
      | longest spelled' => exact absurd front' (none spelled')
      | single =>
          cases same
          exact ⟨rfl, rfl, rfl⟩

theorem Munched.ne_nil (h : Munched kind chars rest) : chars ≠ [] := by
  cases h with
  | longest spelled => exact spelled.ne_nil
  | single => exact List.cons_ne_nil _ _

/-- The lexemes are the prefixes that are taken. -/
theorem lexeme_iff_munched : Lexeme kind chars rest ↔ Munched kind chars rest := by
  refine ⟨Lexeme.munched, fun munched => ?_⟩
  obtain ⟨c, run, rfl⟩ := List.exists_cons_of_ne_nil munched.ne_nil
  obtain ⟨kind', chars', rest', isLexeme, eq⟩ := Lexeme.exists_append_eq c (run ++ rest)
  obtain ⟨rfl, rfl, rfl⟩ := isLexeme.munched.unique munched eq
  exact isLexeme

/-! ## In the text itself -/

theorem Spelled.return_not_mem (h : Spelled kind chars) : '\r' ∉ chars := by
  intro mem
  cases h with
  | word letter all =>
      rcases List.mem_cons.mp mem with rfl | mem
      · cases letter
      · cases all _ mem
  | number digit all =>
      rcases List.mem_cons.mp mem with rfl | mem
      · cases digit
      · cases all _ mem
  | operator listed => exact ((plain_of_listed listed).2 _ mem).2 rfl

/-- Carriage returns that are read as line feeds make no difference. -/
theorem Munched.of_unifyLineEnds (h : Munched kind chars (unifyLineEnds rest))
    (noReturn : '\r' ∉ chars) : Munched kind chars rest := by
  have keeps {kind' : Kind} {front : List Char} (spelled : Spelled kind' front)
      (isFront : front <+: chars ++ rest) : front <+: chars ++ unifyLineEnds rest := by
    obtain ⟨more, eq⟩ := isFront
    refine ⟨unifyLineEnds more, ?_⟩
    rw [← unifyLineEnds_append_of_not_mem noReturn, ← eq,
      unifyLineEnds_append_of_not_mem spelled.return_not_mem]
  generalize unifyLineEnds rest = read at h keeps
  cases h with
  | longest spelled longest =>
      exact .longest spelled fun spelled' front => longest spelled' (keeps spelled' front)
  | single none => exact .single fun spelled front => none spelled (keeps spelled front)

/-- Each token starts at the first place behind blanks and comments, where it is the longest of the
prefixes that spell a token, and a single character if none does. -/
theorem lex_eq_iff_munched (source : String) (ts : List Token) :
    ((lexicon.lex source).toList = ts ↔ layout.CutInto Munched (.ofText source) ts) ∧
      ∀ t ∈ (lexicon.lex source).toList, t.kind ≠ Kind.eof →
        ∃ rest, source.toList.drop t.start.offset = t.text.toList ++ rest ∧
          Munched t.kind t.text.toList rest := by
  have same : Lexeme = Munched := by
    ext kind chars rest
    exact lexeme_iff_munched
  constructor
  · rw [toList_lex, ← same, ← toLayout_lexicon]
    exact spells.tokens_eq_iff
  · intro t mem inner
    obtain ⟨rest, text, atToken, isLexeme⟩ := spells.lexeme_of_mem_lex mem inner
    have noFeed := spells.not_mem_chars (c := '\n') (by decide +kernel) isLexeme atToken
    have noReturn := spells.not_mem_chars (c := '\r') (by decide +kernel) isLexeme atToken
    have plain : ∀ c ∈ t.text.toList, c ≠ '\n' ∧ c ≠ '\r' := fun c mem =>
      ⟨fun feed => noFeed (feed ▸ mem), fun ret => noReturn (ret ▸ mem)⟩
    rw [drop_unifyLineEnds] at text
    obtain ⟨rest', raw, rfl⟩ := exists_of_unifyLineEnds_eq_append plain text
    exact ⟨rest', raw, isLexeme.munched.of_unifyLineEnds noReturn⟩

example : (lexicon.lex "END1:=2x<=>.@").spellings =
    [(ident, "END1"), (becomes, ":="), (number, "2"), (ident, "x"), (lessEqual, "<="),
      (greater, ">"), (period, "."), (unknown, "@"), (Kind.eof, "EOF")] := by
  decide +kernel

end OberonFront.Oberon0
