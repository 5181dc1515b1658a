import OberonFront.Proofs.Diagnostic.Record
import OberonFront.Proofs.FrontEnd.Spacing
import OberonFront.Proofs.Text.Breaks
import OberonFront.Proofs.Text.Rows

/-!
# What a listing holds

A listing has all lines of a text and all problems that it is given, and nothing
twice.  The problems found in the text come in the order in which they were
reported.
-/

namespace OberonFront

namespace FrontEnd

/-- The problems of a text are in the order of their lines. -/
theorem pairwise_line_check (e : FrontEnd) (source : String) :
    (e.check source).Pairwise (·.line ≤ ·.line) := by
  obtain ⟨reports, eq, apart⟩ := e.exists_reports source
  rw [eq, List.pairwise_map]
  refine apart.imp fun {r s} between => ?_
  have later : r.place < s.place :=
    Nat.lt_of_lt_of_le (Nat.lt_add_of_pos_right Nat.two_pos) between
  have precedes := List.pairwise_iff_getElem.mp (e.lexicon.pairwise_precedes source) _ _
    r.place.isLt s.place.isLt later
  exact Nat.sub_le_sub_right (precedes.elim Nat.le_of_lt fun same => Nat.le_of_eq same.1) 1

/-- The markers for the problems of a text are in the order in which these were reported. -/
theorem markers_check (e : FrontEnd) (source : String) (lines : List (List Char)) :
    (Listing.entries lines (e.check source)).filterMap Listing.Row.diagnostic? =
      e.check source := by
  rw [Listing.filterMap_diagnostic?_entries]
  refine List.mergeSort_of_pairwise ((e.pairwise_line_check source).imp fun le => ?_)
  exact decide_eq_true (min_le_min_right _ le)

end FrontEnd

namespace Listing

/-- Nothing is lost in a listing, and nothing is repeated.  The text has its lines, of which each
one has a row behind its number, which is aligned in four places.  The problems are sorted stably
by the line that they follow, and each marker stands between its line and the next one, with a
caret under its column. -/
theorem render_lossless (source : String) (ds : List Diagnostic) (errors : Nat) :
    let lines := linesOf source.toList
    let listed := entries lines ds
    render source ds errors =
      String.join (listed.map Row.text) ++ "\n" ++ toString errors ++ " errors detected\n" ∧
    (lines.flatMap (· ++ ['\n']) = withFeeds source.toList ++ missingFeed source.toList ∧
      ∀ line ∈ lines, ∀ c ∈ line, c ≠ '\n' ∧ c ≠ '\r') ∧
    listed.filterMap Row.source? = lines.zipIdx 1 ∧
    (∀ number line, ∃ field, Aligned 4 number field ∧
      Row.text (.source number line) = field ++ " " ++ String.ofList line ++ "\n") ∧
    listed.filterMap Row.diagnostic? = ds.mergeSort (place lines · ≤ place lines ·) ∧
    (lines = [] → listed.filterMap Row.diagnostic? = ds) ∧
    (∀ above line d below, listed = above ++ .marker line d :: below →
      above.filterMap Row.source? = (lines.zipIdx 1).take (place lines d + 1) ∧
        line = lines[place lines d]?.getD [] ∧
        ∃ pad, Pads line (d.column?.getD 0) pad ∧
          Row.text (.marker line d) =
            "**** " ++ String.ofList pad ++ "^ " ++ d.message ++ "\n") ∧
    ∀ e : FrontEnd,
      (entries lines (e.check source)).filterMap Row.diagnostic? = e.check source := by
  intro lines listed
  refine ⟨?text, ⟨flatMap_linesOf _, ?inner⟩, filterMap_source?_entries lines ds,
    fun number line => ⟨_, aligned_lineNumber number, rfl⟩, filterMap_diagnostic?_entries lines ds,
    ?alone, ?markers, fun e => e.markers_check source lines⟩
  case text =>
    rw [map_text_entries, render, errorTotal_eq, ← String.append_assoc]
  case inner => exact fun line => inner_of_mem_linesOf_go source.toList (by simp)
  case alone =>
    intro none
    change (entries lines ds).filterMap Row.diagnostic? = ds
    rw [entries, if_pos none, filterMap_diagnostic?_markers]
  case markers =>
    intro above line d below eq
    obtain ⟨lines, here⟩ := of_entries_eq_append eq
    exact ⟨lines, here, _, pads_padding line _, rfl⟩

end Listing

end OberonFront
