import OberonFront.Proofs.FrontEnd.Consumption
import OberonFront.Proofs.Lexicon.Place
import OberonFront.Proofs.Parser.Spacing

/-!
# Where diagnostics stand

The diagnostics of a text stand at tokens, in their order, and at no two tokens
that are next to each other.
-/

namespace OberonFront

namespace Diagnostic

/-- One diagnostic stands in a line above another, or to the left of it in the same line. -/
def Before (d d' : Diagnostic) : Prop :=
  d.line < d'.line ∨ d.line = d'.line ∧ ∃ c ∈ d.column?, ∃ c' ∈ d'.column?, c < c'

theorem Before.place_ne {d d' : Diagnostic} (h : d.Before d') :
    (d.line, d.column?) ≠ (d'.line, d'.column?) := by
  intro same
  obtain ⟨line, column⟩ := Prod.mk.inj same
  rcases h with above | ⟨-, c, hc, c', hc', left⟩
  · exact Nat.ne_of_lt above line
  · rw [column] at hc
    cases Option.mem_unique hc hc'
    exact Nat.lt_irrefl c left

/-- Diagnostics at tokens are in the order of the tokens. -/
theorem before_of_standsAt {d d' : Diagnostic} {t t' : Token} (h : d.StandsAt t)
    (h' : d'.StandsAt t') (precedes : t.start.Precedes t'.start) : d.Before d' := by
  obtain ⟨line, column⟩ := h
  obtain ⟨line', column'⟩ := h'
  rcases precedes with above | ⟨same, left⟩
  · exact .inl (by omega)
  · obtain ⟨c, hc, eq⟩ := Option.map_eq_some_iff.mp column
    obtain ⟨c', hc', eq'⟩ := Option.map_eq_some_iff.mp column'
    exact .inr ⟨by omega, c, hc, c', hc', by omega⟩

end Diagnostic

namespace FrontEnd

variable (e : FrontEnd) (source : String)

/-- The diagnostics of a text are reports that stand apart. -/
theorem exists_reports : ∃ reports : List (Report (e.lex source).toList),
    e.check source = reports.map Report.diagnostic ∧ reports.Pairwise Report.Apart := by
  have begun := e.begun_start_reader source (.keeping "")
  have start : Spaced (e.lex source).toList (e.reader source (.keeping "")).start 0 [] := {
    ahead := e.ahead_start_reader source _
    keeps := rfl
    retained := rfl
    apart := .nil
    behind := fun r hr => absurd hr List.not_mem_nil }
  obtain ⟨i, reports, spaced⟩ := start.replay begun.closed (e.sparesEnd_startEvents source _)
  rw [replay_startEvents] at spaced
  obtain ⟨reports', retained, apart⟩ := spaced.expect Kind.eof
  refine ⟨reports', ?_, apart⟩
  rw [check_eq_retained, ← retained]
  change (e.parse (e.reader source (.keeping ""))).1.queue.retained = _
  rw [← replay_tail_history, history_eq, List.tail_cons, Parser.replay_append,
    replay_startEvents]
  rfl

/-- All diagnostics of a text are errors at the start of a token, and no two of these tokens are
next to each other.  So they are in the order of lines and columns, no two are at one place, and
no more than every other token has one. -/
theorem check_spaced :
    ∃ places : List (Fin (e.lex source).toList.length),
      List.Forall₂ (fun d k => d.isError = true ∧ d.StandsAt (e.lex source).toList[k])
        (e.check source) places ∧
      places.Pairwise (fun j k => j.val + 2 ≤ k.val) ∧
      (e.check source).Pairwise Diagnostic.Before ∧
      ((e.check source).map fun d => (d.line, d.column?)).Nodup ∧
      2 * (e.check source).length ≤ (e.lex source).toList.length + 1 := by
  obtain ⟨reports, eq, apart⟩ := e.exists_reports source
  have stands (r : Report (e.lex source).toList) :
      r.diagnostic.StandsAt (e.lex source).toList[r.place] :=
    Token.standsAt_problem _ (Lexicon.start_pos_of_mem_lex (List.getElem_mem _))
  have before : (e.check source).Pairwise Diagnostic.Before := by
    rw [eq, List.pairwise_map]
    refine apart.imp fun {r s} between => ?_
    have later : r.place < s.place :=
      Nat.lt_of_lt_of_le (Nat.lt_add_of_pos_right Nat.two_pos) between
    exact Diagnostic.before_of_standsAt (stands r) (stands s)
      (List.pairwise_iff_getElem.mp (e.lexicon.pairwise_precedes source) _ _ _ _ later)
  refine ⟨reports.map Report.place, ?_, ?_, before, ?_, ?_⟩
  · rw [eq, List.forall₂_map_left_iff, List.forall₂_map_right_iff, List.forall₂_same]
    exact fun r _ => ⟨rfl, stands r⟩
  · rw [List.pairwise_map]
    exact apart
  · rw [List.Nodup, List.pairwise_map]
    exact before.imp Diagnostic.Before.place_ne
  · rw [eq, List.length_map]
    exact Report.length_le_of_apart apart

end FrontEnd

end OberonFront
