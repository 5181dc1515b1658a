import OberonFront.Proofs.FrontEnd.Lexeme
import OberonFront.Proofs.FrontEnd.Verdict
import OberonFront.Proofs.Parser.Offsets

/-!
# Programs however line ends are written

A parser looks at no offset, so texts whose tokens are the same but for offsets
have the same problems.  In Oberon-0 no token goes over a line end: what a text
means is told by its lines.
-/

namespace OberonFront

theorem TokenList.withoutOffsets_eq {l l' : TokenList} (same : l.entries = l'.entries) :
    l.withoutOffsets = l'.withoutOffsets := by
  let place (entry : Kind × String × Nat × Nat) : Token :=
    ⟨entry.1, entry.2.1, ⟨0, entry.2.2.1, entry.2.2.2⟩⟩
  have each (l : TokenList) : l.toList.map Token.withoutOffset = l.entries.map place := by
    rw [entries, List.map_map]
    rfl
  simp only [withoutOffsets, each, same]

namespace FrontEnd

theorem pairsFeeds (e : FrontEnd) : e.lexicon.PairsFeeds e.lexeme := by
  cases e with
  | oberon0 => exact Oberon0.pairsFeeds
  | umbriel => exact Umbriel.pairsFeeds

/-- Texts whose tokens are the same but for offsets have the same problems. -/
theorem check_eq_of_entries (e : FrontEnd) {source source' : String}
    (same : (e.lex source).entries = (e.lex source').entries) :
    e.check source = e.check source' := by
  rw [check_eq_retained, check_eq_retained, parse_eq, parse_eq,
    Parser.queue_parse_eq _ _ _ (TokenList.withoutOffsets_eq same)]

/-- The line ends of a text may be line feeds alone if no token goes over them. -/
theorem entries_lex_withFeeds (e : FrontEnd) (source : String)
    (inner : (e.lex (String.ofList (withFeeds source.toList))).WithinLines) :
    (e.lex source).entries = (e.lex (String.ofList (withFeeds source.toList))).entries := by
  refine e.pairsFeeds.entries_lex ?_ inner
  rw [String.toList_ofList, unifyLineEnds_of_not_mem (return_not_mem_withFeeds _)]
  exact addsReturns_withFeeds _

end FrontEnd

theorem Oberon0.withinLines_lex (source : String) :
    (FrontEnd.oberon0.lex source).WithinLines := by
  have refuses : lexicon.Refuses '\n' := by decide +kernel
  have cut := spells.cutInto_tokens (.ofText source)
  rw [← Lexicon.toList_lex] at cut
  exact spells.not_mem_text refuses (by decide) cut

/-- It makes no difference how line ends are written.  Carriage returns instead of line feeds leave
the tokens of any language as they are.  Whatever ends the lines of an Oberon-0 text, its tokens
have the same lines and columns, and the same problems are found. -/
theorem FrontEnd.lex_lineEnds :
    (∀ (x : Lexicon) (source : String), '\r' ∉ source.toList →
      x.lex (String.ofList (withReturns source.toList)) = x.lex source) ∧
    ∀ source source' : String, SameLines source.toList source'.toList →
      (oberon0.lex source).entries = (oberon0.lex source').entries ∧
        oberon0.check source = oberon0.check source' := by
  refine ⟨fun x source noReturn => ?_, fun source source' same => ?_⟩
  · have alike : Unread.ofText (String.ofList (withReturns source.toList)) =
        Unread.ofText source := by
      rw [Unread.ofText, String.toList_ofList, unifyLineEnds_withReturns noReturn, Unread.ofText,
        unifyLineEnds_of_not_mem noReturn]
    rw [Lexicon.lex, alike, ← Lexicon.lex]
  · have feeds (source : String) := oberon0.entries_lex_withFeeds source (Oberon0.withinLines_lex _)
    have entries : (oberon0.lex source).entries = (oberon0.lex source').entries := by
      rw [feeds source, feeds source', same.withFeeds_eq]
    exact ⟨entries, oberon0.check_eq_of_entries entries⟩

/-- Lines that end with a line feed each, or with a pair, a carriage return alone and a pair in a
comment, and a carriage return. -/
theorem FrontEnd.lex_lineEnds_comment :
    '\r' ∉ "'a\nb'".toList ∧
      umbriel.lexicon.lex (String.ofList (withReturns "'a\nb'".toList)) =
        umbriel.lexicon.lex "'a\nb'" ∧
      SameLines "MODULE m;\n(*\n\n*)END x\n".toList "MODULE m;\r\n(*\r\r\n*)END x\r".toList ∧
      (oberon0.lex "MODULE m;\n(*\n\n*)END x\n").entries =
        (oberon0.lex "MODULE m;\r\n(*\r\r\n*)END x\r").entries ∧
      oberon0.check "MODULE m;\n(*\n\n*)END x\n" =
        oberon0.check "MODULE m;\r\n(*\r\r\n*)END x\r" := by
  have noReturn : '\r' ∉ "'a\nb'".toList := by decide
  have same : SameLines "MODULE m;\n(*\n\n*)END x\n".toList
      "MODULE m;\r\n(*\r\r\n*)END x\r".toList :=
    ⟨by decide +kernel, by decide +kernel⟩
  exact ⟨noReturn, lex_lineEnds.1 _ _ noReturn, same, lex_lineEnds.2 _ _ same⟩

end OberonFront
