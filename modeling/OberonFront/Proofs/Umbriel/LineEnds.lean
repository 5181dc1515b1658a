import OberonFront.Proofs.FrontEnd.LineEnds

/-!
# Quoted text over several lines

Quoted text may hold line feeds and no carriage return.  So a text of Umbriel may
have pairs instead of line feeds unless one of its tokens is quoted over a line
end.  The first carriage return in there ends the token, which is then unclosed.
-/

namespace OberonFront

namespace Umbriel

open Lexicon
open FrontEnd (umbriel)

theorem feed_ne_quote : ∀ quote ∈ quotes, '\n' ≠ quote :=
  forall_mem_quotes (by decide) (by decide)

/-- Only quoted text goes over a line end. -/
theorem Lexeme.exists_line {kind : Kind} {chars rest : List Char} (h : Lexeme kind chars rest)
    (atToken : lexicon.AtToken (chars ++ rest)) (across : '\n' ∈ chars) :
    ∃ quote ∈ quotes, ∃ line behind, chars = quote :: line ++ '\n' :: behind ∧ '\n' ∉ line ∧
      ∀ c ∈ line, c ≠ quote ∧ c ≠ '\r' := by
  have noDigit {digits : List Char} (all : ∀ c ∈ digits, c.isDigit = true) : '\n' ∉ digits :=
    fun mem => absurd (all _ mem) (by decide)
  have noMark : ∀ mark ∈ ['E', 'e'], '\n' ≠ mark := by simp
  have noSign : ∀ sign ∈ [[], ['+'], ['-']], '\n' ∉ sign := by decide
  have noOperator : ∀ op ∈ operators, '\n' ∉ op.1.toList := by decide +kernel
  have first {quote : Char} {body : List Char} (plain : ∀ c ∈ body, c ≠ quote ∧ c ≠ '\r')
      (mem : '\n' ∈ body) : ∃ line behind, body = line ++ '\n' :: behind ∧ '\n' ∉ line ∧
        ∀ c ∈ line, c ≠ quote ∧ c ≠ '\r' := by
    obtain ⟨line, behind, rfl, noFeed⟩ := List.eq_append_cons_of_mem mem
    exact ⟨line, behind, rfl, noFeed, fun c mem => plain c (List.mem_append_left _ mem)⟩
  cases h with
  | word letter isRun =>
      rcases List.mem_cons.mp across with rfl | mem
      · cases letter
      · cases isRun.all _ mem
  | char isNumeral => simp [noDigit isNumeral.2] at across
  | range isNumeral | integer isNumeral => exact absurd across (noDigit isNumeral.2)
  | real isNumeral isRun => simp [noDigit isNumeral.2, noDigit isRun.all] at across
  | scaled isNumeral all isMark isSign _ isRun =>
      simp [noDigit isNumeral.2, noDigit all, noMark _ isMark, noSign _ isSign,
        noDigit isRun.all] at across
  | unscaled isNumeral all isMark isSign =>
      simp [noDigit isNumeral.2, noDigit all, noMark _ isMark, noSign _ isSign] at across
  | @quoted quote body _ isQuote plain =>
      have inside : '\n' ∈ body := by simpa [feed_ne_quote quote isQuote] using across
      obtain ⟨line, behind, rfl, noFeed, within⟩ := first plain inside
      exact ⟨quote, isQuote, line, behind ++ [quote], by simp, noFeed, within⟩
  | @unclosed quote body _ isQuote plain =>
      have inside : '\n' ∈ body := by simpa [feed_ne_quote quote isQuote] using across
      obtain ⟨line, behind, rfl, noFeed, within⟩ := first plain inside
      exact ⟨quote, isQuote, line, behind, rfl, noFeed, within⟩
  | operator isOperator =>
      have noFeed := noOperator _ isOperator.listed
      rw [String.toList_ofList] at noFeed
      exact absurd across noFeed
  | other =>
      obtain ⟨_, _, eq, solid, -⟩ := atToken
      cases List.mem_singleton.mp across
      cases eq
      exact absurd (by decide) solid

/-- With pairs instead of line feeds quoted text stops, unclosed, in front of the first one. -/
theorem Lexeme.exists_unclosed {kind : Kind} {chars rest : List Char} (h : Lexeme kind chars rest)
    (atToken : lexicon.AtToken (chars ++ rest)) (noReturn : '\r' ∉ chars) (across : '\n' ∈ chars) :
    ∃ line behind rest', chars = line ++ '\n' :: behind ∧ '\n' ∉ line ∧
      withPairs (chars ++ rest) = line ++ '\r' :: rest' ∧ Lexeme unknown line ('\r' :: rest') := by
  obtain ⟨quote, isQuote, line, behind, rfl, noFeed, within⟩ := h.exists_line atToken across
  have inner : '\n' ∉ quote :: line :=
    List.not_mem_cons_of_ne_of_not_mem (feed_ne_quote quote isQuote) noFeed
  have plain : withPairs (quote :: line) = quote :: line :=
    withPairs_of_not_mem (fun mem => noReturn (List.mem_append_left _ mem)) inner
  refine ⟨quote :: line, behind, '\n' :: withPairs (behind ++ rest), rfl, inner, ?_, ?_⟩
  · rw [List.append_assoc, withPairs_append, plain]
    rfl
  · exact .unclosed isQuote within (by simp)

/-- In the text `text'` a carriage return ends the token `t'`, which is no token of the language,
in the place of the line feed that the token `t` goes over. -/
structure CutShort (text' : List Char) (t t' : Token) : Prop where
  kind_eq : t'.kind = unknown
  start : t.start.SamePlace t'.start
  text_eq : ∃ behind, t.text.toList = t'.text.toList ++ '\n' :: behind
  inner : '\n' ∉ t'.text.toList
  ends : ∃ behind, text'.drop t'.start.offset = t'.text.toList ++ '\r' :: behind

/-- Where a token goes over a line end the tokens with pairs are others, and one is cut short. -/
theorem exists_cutInto_withPairs {u : Unread} {ts : List Token} (h : lexicon.CutInto Lexeme u ts)
    (noReturn : '\r' ∉ u.rest) (across : ∃ t ∈ ts, '\n' ∈ t.text.toList) {text' : List Char}
    {position' : Position} (same : u.position.SamePlace position')
    (left : text'.drop position'.offset = withPairs u.rest) :
    ∃ ts', lexicon.CutInto Lexeme ⟨position', withPairs u.rest⟩ ts' ∧
      ts'.map Token.entry ≠ ts.map Token.entry ∧ ∃ t ∈ ts, ∃ t' ∈ ts', CutShort text' t t' := by
  induction h generalizing position' with
  | @token position gap chars rest kind ts isGap atToken isLexeme _ ih =>
      simp only [List.mem_append, not_or] at noReturn
      obtain ⟨freeGap, freeChars, freeRest⟩ := noReturn
      have isGap' := pairsFeeds.gap isGap (addsReturns_withPairs freeGap)
      have atToken' := pairsFeeds.atToken atToken
        (addsReturns_withPairs (List.not_mem_append freeChars freeRest))
      have start := (addsReturns_withPairs freeGap).samePlace same
      have leftHere := Position.drop_after (left.trans (withPairs_append gap (chars ++ rest)))
      rw [withPairs_append]
      by_cases crosses : '\n' ∈ chars
      · obtain ⟨line, behind, rest', rfl, noFeed, split, isLexeme'⟩ :=
          isLexeme.exists_unclosed atToken freeChars crosses
        rw [split] at atToken' leftHere ⊢
        refine ⟨_, .token isGap' atToken' isLexeme' (spells.cutInto_tokens _), fun eq => ?_,
          _, List.mem_cons_self, _, List.mem_cons_self, {
            kind_eq := rfl
            start := start
            text_eq := ⟨behind, by simp only [String.toList_ofList]⟩
            inner := by rwa [String.toList_ofList]
            ends := ⟨rest', by rwa [String.toList_ofList]⟩ }⟩
        have text := congrArg (·.2.1) (List.cons.inj eq).1
        exact noFeed (String.ofList_injective text ▸ crosses)
      · have whole := withPairs_of_not_mem freeChars crosses
        have others : ∃ t ∈ ts, '\n' ∈ t.text.toList := by
          rw [List.exists_mem_cons_iff, String.toList_ofList] at across
          exact across.resolve_left crosses
        have place := (addsReturns_withPairs freeChars).samePlace start
        rw [whole, ← Position.after_append, ← Position.after_append] at place
        rw [withPairs_append, whole] at atToken' leftHere ⊢
        have leftBehind := Position.drop_after leftHere
        rw [← Position.after_append] at leftBehind
        obtain ⟨ts', cut, differ, t, mem, t', mem', short⟩ := ih freeRest others place leftBehind
        have isLexeme' := isLexeme.addsReturns (addsReturns_withPairs freeRest)
        exact ⟨_, .token isGap' atToken' isLexeme' cut, fun eq => differ (List.cons.inj eq).2,
          t, List.mem_cons_of_mem _ mem, t', List.mem_cons_of_mem _ mem', short⟩
  | ends =>
      obtain ⟨t, mem, feed⟩ := across
      cases List.mem_singleton.mp mem
      exact absurd feed (by decide : '\n' ∉ "EOF".toList)

/-- A token that goes over a line end starts with a quote. -/
theorem head_of_feed {u : Unread} {ts : List Token} (h : lexicon.CutInto Lexeme u ts) :
    ∀ t ∈ ts, '\n' ∈ t.text.toList → ∃ quote ∈ quotes, t.text.toList.head? = some quote := by
  induction h with
  | token _ atToken isLexeme _ ih =>
      refine List.forall_mem_cons.mpr ⟨fun across => ?_, ih⟩
      rw [String.toList_ofList] at across ⊢
      obtain ⟨quote, isQuote, line, behind, rfl, -⟩ := isLexeme.exists_line atToken across
      exact ⟨quote, isQuote, rfl⟩
  | ends =>
      refine List.forall_mem_singleton.mpr fun across => ?_
      exact absurd across (by decide : '\n' ∉ "EOF".toList)

/-- Pairs instead of line feeds leave the tokens where they are and as they are, and the problems
too, unless a token goes over a line end.  That is quoted text, and with pairs it is an error, as
the first carriage return in it ends the token before it is closed. -/
theorem lex_withPairs (source : String) (noReturn : '\r' ∉ source.toList) :
    let paired := String.ofList (withPairs source.toList)
    ((umbriel.lex paired).entries = (umbriel.lex source).entries ↔
        (umbriel.lex source).WithinLines) ∧
      ((umbriel.lex source).WithinLines → umbriel.check paired = umbriel.check source) ∧
      (¬ (umbriel.lex source).WithinLines → umbriel.check paired ≠ [] ∧
        ∃ t ∈ (umbriel.lex source).toList, ∃ t' ∈ (umbriel.lex paired).toList,
          CutShort paired.toList t t') ∧
      ∀ t ∈ (umbriel.lex source).toList, '\n' ∈ t.text.toList →
        ∃ quote ∈ quotes, t.text.toList.head? = some quote := by
  intro paired
  have adds : AddsReturns source.toList paired.toList := by
    rw [String.toList_ofList]
    exact addsReturns_withPairs noReturn
  have cut : lexicon.CutInto Lexeme ⟨.start, source.toList⟩ (umbriel.lex source).toList := by
    have text := spells.cutInto_tokens (.ofText source)
    rwa [← toList_lex, Unread.ofText, unifyLineEnds_of_not_mem noReturn] at text
  have same (inner : (umbriel.lex source).WithinLines) :
      (umbriel.lex paired).entries = (umbriel.lex source).entries := by
    refine pairsFeeds.entries_lex ?_ inner
    rwa [unifyLineEnds_of_not_mem noReturn, adds.unifyLineEnds_eq]
  have other (crosses : ¬ (umbriel.lex source).WithinLines) :
      (umbriel.lex paired).entries ≠ (umbriel.lex source).entries ∧
        ∃ t ∈ (umbriel.lex source).toList, ∃ t' ∈ (umbriel.lex paired).toList,
          CutShort paired.toList t t' := by
    have across : ∃ t ∈ (umbriel.lex source).toList, '\n' ∈ t.text.toList := by
      simpa only [TokenList.WithinLines, not_forall, not_not, exists_prop] using crosses
    have left : paired.toList.drop Position.start.offset = withPairs source.toList :=
      String.toList_ofList
    obtain ⟨ts', cut', differ, short⟩ :=
      exists_cutInto_withPairs cut noReturn across ⟨rfl, rfl⟩ left
    have text : Unread.ofText paired = ⟨.start, withPairs source.toList⟩ := by
      rw [Unread.ofText, adds.unifyLineEnds_eq, String.toList_ofList]
    have tokens : (umbriel.lex paired).toList = ts' :=
      (toList_lex _ _).trans (spells.tokens_eq_of_cutInto (text ▸ cut'))
    rw [← tokens] at differ short
    exact ⟨differ, short⟩
  refine ⟨⟨fun eq => ?_, same⟩, fun inner => umbriel.check_eq_of_entries (same inner),
    fun crosses => ⟨?_, (other crosses).2⟩, head_of_feed cut⟩
  · by_contra crosses
    exact (other crosses).1 eq
  · obtain ⟨t, -, t', mem, short⟩ := (other crosses).2
    exact umbriel.check_ne_nil_of_unknown (List.mem_map.mpr ⟨t', mem, short.kind_eq⟩)

/-- Line ends in a comment and behind quoted text, and a line end in quoted text. -/
theorem lex_withPairs_quoted :
    ('\r' ∉ "(*\n*)'a'\n".toList ∧ (umbriel.lex "(*\n*)'a'\n").WithinLines ∧
      (umbriel.lex (String.ofList (withPairs "(*\n*)'a'\n".toList))).entries =
        (umbriel.lex "(*\n*)'a'\n").entries ∧
      umbriel.check (String.ofList (withPairs "(*\n*)'a'\n".toList)) =
        umbriel.check "(*\n*)'a'\n") ∧
    '\r' ∉ "'a\nb'".toList ∧ ¬ (umbriel.lex "'a\nb'").WithinLines ∧
      (umbriel.lex (String.ofList (withPairs "'a\nb'".toList))).entries ≠
        (umbriel.lex "'a\nb'").entries ∧
      umbriel.check (String.ofList (withPairs "'a\nb'".toList)) ≠ [] := by
  have within := lex_withPairs "(*\n*)'a'\n" (by decide)
  have inner : (umbriel.lex "(*\n*)'a'\n").WithinLines := by decide +kernel
  have quoted := lex_withPairs "'a\nb'" (by decide)
  have across : ¬ (umbriel.lex "'a\nb'").WithinLines := by decide +kernel
  exact ⟨⟨by decide, inner, within.1.mpr inner, within.2.1 inner⟩,
    by decide, across, mt quoted.1.mp across, (quoted.2.2.1 across).1⟩

/-- In quoted text a pair is not a line feed: a program can be one with line feeds only. -/
theorem not_check_withPairs :
    ¬ ∀ source : String, '\r' ∉ source.toList →
      (umbriel.lex (String.ofList (withPairs source.toList))).entries =
          (umbriel.lex source).entries ∧
        umbriel.check (String.ofList (withPairs source.toList)) = umbriel.check source := by
  intro alike
  have program : umbriel.check "MODULE m; BEGIN a := 'x\ny' END m." = [] := by decide +kernel
  have same := (alike "MODULE m; BEGIN a := 'x\ny' END m." (by decide)).2
  rw [program] at same
  exact absurd same (by decide +kernel)

end Umbriel

end OberonFront
