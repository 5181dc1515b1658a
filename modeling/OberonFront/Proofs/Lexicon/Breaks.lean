import OberonFront.Proofs.Lexicon.Comment
import OberonFront.Proofs.Text.Breaks

/-!
# Tokens however line ends are written

Where line ends are blanks and lexemes end in front of a pair as they do in front
of a line feed, a text with pairs instead of line feeds is cut into the same
tokens.  Nothing but the offsets tells the difference, as long as no line feed
is inside a token.
-/

namespace OberonFront

/-! ## Without offsets -/

/-- What a token says, and the line and the column where it starts. -/
def Token.entry (t : Token) : Kind × String × Nat × Nat :=
  (t.kind, t.text, t.start.line, t.start.column)

def TokenList.entries (l : TokenList) : List (Kind × String × Nat × Nat) :=
  l.toList.map Token.entry

def TokenList.WithinLines (l : TokenList) : Prop := ∀ t ∈ l.toList, '\n' ∉ t.text.toList

instance (l : TokenList) : Decidable l.WithinLines :=
  inferInstanceAs (Decidable (∀ t ∈ l.toList, _))

/-! ## Lexemes in front of a pair -/

section

variable {rest rest' : List Char}

theorem LongestRun.addsReturns {p : Char → Bool} {run : List Char} (h : LongestRun p run rest)
    (solid : p '\r' = false) (adds : AddsReturns rest rest') : LongestRun p run rest' where
  all := h.all
  stops := adds.forall_head solid h.stops

theorem IsOperator.addsReturns {operators : List (String × Kind)} {kind : Kind} {chars : List Char}
    (h : IsOperator operators kind chars rest) (fit : OperatorsFit operators)
    (solid : ∀ op ∈ operators, '\r' ∉ op.1.toList) (adds : AddsReturns rest rest') :
    IsOperator operators kind chars rest' := by
  rcases adds.eq_or_exists_pair with rfl | ⟨same, rest, rest', rfl, rfl⟩
  · exact h
  · refine .of_append same h fit fun op listed c first => ?_
    cases Option.mem_some_iff.mp first
    exact fun mem => solid op listed (List.mem_of_mem_tail mem)

end

/-! ## Inside comments -/

namespace Comment

variable {k : Comment} {level : Nat} {c c' : List Char}

/-- A line end is no part of a bracket. -/
theorem Plain.passes (plain : k.Plain) {a b d : Char} (feed : d = '\n' ∨ d = '\r')
    (among : a = d ∨ b = d) : (a, b) ≠ k.closer ∧ ¬ k.Nests a b := by
  have other : ∀ e ∈ [k.opener.1, k.opener.2, k.closer.1, k.closer.2], d ≠ e := by
    rintro _ mem rfl
    exact feed.elim (plain _ mem).1 (plain _ mem).2
  have split (bracket : Char × Char) (first : d ≠ bracket.1) (second : d ≠ bracket.2) :
      (a, b) ≠ bracket := by
    rintro rfl
    exact among.elim (first ·.symm) (second ·.symm)
  have opens := split k.opener (other _ (by simp)) (other _ (by simp))
  exact ⟨split _ (other _ (by simp)) (other _ (by simp)), fun nests => opens nests.opens⟩

/-- A line end may be put in front of what closes a comment. -/
theorem Closes.cons_feed (plain : k.Plain) (h : k.Closes level c) {d : Char}
    (feed : d = '\n' ∨ d = '\r') : k.Closes level (d :: c) := by
  cases c with
  | nil => cases h
  | cons b c =>
      obtain ⟨stays, inert⟩ := plain.passes (b := b) feed (.inl rfl)
      exact .pass stays inert h

theorem Plain.of_nests (plain : k.Plain) {a b : Char} (h : k.Nests a b) :
    (a ≠ '\n' ∧ a ≠ '\r') ∧ b ≠ '\n' ∧ b ≠ '\r' := by
  have first : a = k.opener.1 := congrArg Prod.fst h.opens
  have second : b = k.opener.2 := congrArg Prod.snd h.opens
  rw [first, second]
  exact ⟨plain k.opener.1 (by simp), plain k.opener.2 (by simp)⟩

/-- Pairs instead of line feeds close no comment and leave none open. -/
theorem Closes.addsReturns (plain : k.Plain) (h : k.Closes level c) (adds : AddsReturns c c') :
    k.Closes level c' := by
  have closer₁ := (plain k.closer.1 (by simp)).1
  have closer₂ := (plain k.closer.2 (by simp)).1
  induction h generalizing c' with
  | last =>
      rw [adds.eq_of_not_mem (by simp [closer₁.symm, closer₂.symm])]
      exact .last
  | leave _ ih =>
      obtain ⟨_, rfl, tail⟩ := adds.exists_of_cons closer₁
      obtain ⟨_, rfl, next⟩ := tail.exists_of_cons closer₂
      exact .leave (ih next)
  | enter opens _ ih =>
      obtain ⟨first, second⟩ := plain.of_nests opens
      obtain ⟨_, rfl, tail⟩ := adds.exists_of_cons first.1
      obtain ⟨_, rfl, next⟩ := tail.exists_of_cons second.1
      exact .enter opens (ih next)
  | @pass level a b c stays inert _ ih =>
      cases adds with
      | pair next => exact ((ih next).cons_feed plain (.inl rfl)).cons_feed plain (.inr rfl)
      | keep noReturn next =>
          have closes := ih next
          cases next with
          | keep => exact .pass stays inert closes
          | pair =>
              obtain ⟨stays, inert⟩ := plain.passes (a := a) (.inr rfl) (.inr rfl)
              exact .pass stays inert closes

theorem Closes.of_addsReturns (plain : k.Plain) (h : k.Closes level c') (adds : AddsReturns c c') :
    k.Closes level c := by
  have closer₁ := (plain k.closer.1 (by simp)).2
  have closer₂ := (plain k.closer.2 (by simp)).2
  induction h generalizing c with
  | last =>
      obtain ⟨_, rfl, tail⟩ := adds.exists_of_cons_right closer₁
      obtain ⟨rest, rfl, next⟩ := tail.exists_of_cons_right closer₂
      obtain rfl : rest = [] := by cases next; rfl
      exact .last
  | leave _ ih =>
      obtain ⟨_, rfl, tail⟩ := adds.exists_of_cons_right closer₁
      obtain ⟨_, rfl, next⟩ := tail.exists_of_cons_right closer₂
      exact .leave (ih next)
  | enter opens _ ih =>
      obtain ⟨first, second⟩ := plain.of_nests opens
      obtain ⟨_, rfl, tail⟩ := adds.exists_of_cons_right first.2
      obtain ⟨_, rfl, next⟩ := tail.exists_of_cons_right second.2
      exact .enter opens (ih next)
  | @pass level a b c stays inert _ ih =>
      cases adds with
      | pair next => exact ih (.keep (by decide) next)
      | keep noReturn next =>
          have closes := ih next
          cases next with
          | keep => exact .pass stays inert closes
          | pair =>
              obtain ⟨stays, inert⟩ := plain.passes (a := a) (.inl rfl) (.inr rfl)
              exact .pass stays inert closes

theorem Closed.addsReturns (plain : k.Plain) (h : k.Closed c) (adds : AddsReturns c c') :
    k.Closed c' := by
  obtain ⟨inside, rfl, closes⟩ := h
  obtain ⟨_, rfl, tail⟩ := adds.exists_of_cons (plain k.opener.1 (by simp)).1
  obtain ⟨inside', rfl, next⟩ := tail.exists_of_cons (plain k.opener.2 (by simp)).1
  exact ⟨inside', rfl, closes.addsReturns plain next⟩

theorem Unclosed.addsReturns (plain : k.Plain) (h : k.Unclosed c) (adds : AddsReturns c c') :
    k.Unclosed c' := by
  obtain ⟨inside, rfl, opens⟩ := h
  obtain ⟨_, rfl, tail⟩ := adds.exists_of_cons (plain k.opener.1 (by simp)).1
  obtain ⟨inside', rfl, next⟩ := tail.exists_of_cons (plain k.opener.2 (by simp)).1
  refine ⟨inside', rfl, ?_⟩
  rintro closed ⟨behind, rfl⟩ closes
  have whole : closed.getLast? ≠ some '\r' := by
    obtain ⟨front, rfl⟩ := closes.exists_append_eq
    simpa using (plain k.closer.2 (by simp)).2
  obtain ⟨closed', _, rfl, same, -⟩ := next.exists_of_append_right whole
  exact opens closed' (List.prefix_append _ _) (closes.of_addsReturns plain same)

end Comment

/-! ## Between tokens -/

namespace Lexicon

/-- A lexicon for whose lexemes a pair does what a line feed does. -/
structure PairsFeeds (x : Lexicon) (lexeme : LexemeClass) : Prop where
  spells : x.Spells lexeme
  blank : '\n' ∈ x.blanks ∧ '\r' ∈ x.blanks
  plain : ∀ k ∈ x.comments, k.Plain
  ends : ∀ {kind chars rest rest'}, lexeme kind chars rest → AddsReturns rest rest' →
    lexeme kind chars rest'

namespace PairsFeeds

variable {x : Lexicon} {lexeme : LexemeClass} (pairs : x.PairsFeeds lexeme)

include pairs

theorem gap {gap gap' : List Char} (h : x.Gap gap) (adds : AddsReturns gap gap') : x.Gap gap' := by
  induction h generalizing gap' with
  | nil =>
      cases adds
      exact .nil
  | blank blank _ ih =>
      cases adds with
      | keep _ next => exact .blank blank (ih next)
      | pair next => exact .blank pairs.blank.2 (.blank pairs.blank.1 (ih next))
  | comment known closed _ ih =>
      obtain ⟨comment, rest, rfl, first, next⟩ := adds.exists_of_append
      exact .comment known (closed.addsReturns (pairs.plain _ known) first) (ih next)

theorem trailing {text text' : List Char} (h : x.Trailing text) (adds : AddsReturns text text') :
    x.Trailing text' := by
  obtain ⟨gap, open', rfl, isGap, last⟩ := h
  obtain ⟨gap', open'', rfl, first, next⟩ := adds.exists_of_append
  refine ⟨gap', open'', rfl, pairs.gap isGap first, ?_⟩
  rcases last with rfl | ⟨k, known, unclosed⟩
  · cases next
    exact .inl rfl
  · exact .inr ⟨k, known, unclosed.addsReturns (pairs.plain k known) next⟩

theorem atToken {text text' : List Char} (h : x.AtToken text) (adds : AddsReturns text text') :
    x.AtToken text' := by
  obtain ⟨c, rest, rfl, solid, starts⟩ := h
  have noFeed : c ≠ '\n' := fun feed => solid (feed ▸ pairs.blank.1)
  obtain ⟨rest', rfl, next⟩ := adds.exists_of_cons noFeed
  refine ⟨c, rest', rfl, solid, fun k known opens => starts k known ?_⟩
  obtain ⟨rfl, behind, rfl⟩ := List.cons_prefix_cons.mp opens
  obtain ⟨rest, rfl, -⟩ := next.exists_of_cons_right (pairs.plain k known k.opener.2 (by simp)).2
  exact ⟨rest, rfl⟩

/-! ## The whole text -/

theorem cutInto {u : Unread} {ts : List Token} (h : x.CutInto lexeme u ts)
    (inner : ∀ t ∈ ts, '\n' ∉ t.text.toList) (u' : Unread) (adds : AddsReturns u.rest u'.rest)
    (same : u.position.SamePlace u'.position) :
    ∃ ts', x.CutInto lexeme u' ts' ∧ ts'.map Token.entry = ts.map Token.entry := by
  induction h generalizing u' with
  | @token position gap chars rest kind ts isGap atToken isLexeme _ ih =>
      obtain ⟨position', text'⟩ := u'
      obtain ⟨noFeed, others⟩ := List.forall_mem_cons.mp inner
      rw [String.toList_ofList] at noFeed
      obtain ⟨gap', text', rfl, first, behind⟩ := adds.exists_of_append
      obtain ⟨chars', rest', rfl, second, next⟩ := behind.exists_of_append
      obtain rfl := second.eq_of_not_mem noFeed
      have start := first.samePlace same
      have place : ((position.after gap).after chars').SamePlace
          ((position'.after gap').after chars') := second.samePlace start
      rw [← Position.after_append, ← Position.after_append] at place
      obtain ⟨ts', cut, entries⟩ := ih others ⟨_, rest'⟩ next place
      refine ⟨_, .token (pairs.gap isGap first) (pairs.atToken atToken behind)
        (pairs.ends isLexeme next) cut, ?_⟩
      rw [List.map_cons, List.map_cons, entries]
      simp only [Token.entry, start.line, start.column]
  | @ends u trailing =>
      have place := adds.samePlace same
      refine ⟨_, .ends (pairs.trailing trailing adds), ?_⟩
      simp only [List.map_cons, List.map_nil, Token.entry, Token.endAt, Unread.toEnd, place.line,
        place.column]

/-- Texts of which one has pairs instead of line feeds have the same tokens but for the offsets. -/
theorem entries_lex {source source' : String}
    (adds : AddsReturns (unifyLineEnds source.toList) (unifyLineEnds source'.toList))
    (inner : (x.lex source).WithinLines) :
    (x.lex source').entries = (x.lex source).entries := by
  rw [TokenList.WithinLines, toList_lex] at inner
  obtain ⟨ts, cut, entries⟩ := pairs.cutInto (pairs.spells.cutInto_tokens (.ofText source)) inner
    (.ofText source') adds ⟨rfl, rfl⟩
  rw [TokenList.entries, TokenList.entries, toList_lex, toList_lex,
    pairs.spells.tokens_eq_of_cutInto cut, entries]

end PairsFeeds

end Lexicon

end OberonFront
