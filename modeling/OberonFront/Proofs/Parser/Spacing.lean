import OberonFront.Proofs.Diagnostic.Record
import OberonFront.Proofs.Parser.Events

/-!
# Reports stand apart

A parser counts the tokens consumed since its last report.  As long as the end of
the text is not consumed each of them is another one, so the reports that are
passed on stand at tokens that are at least two apart.
-/

namespace OberonFront

structure Report (tokens : List Token) where
  place : Fin tokens.length
  message : String

namespace Report

variable {tokens : List Token}

def diagnostic (r : Report tokens) : Diagnostic := tokens[r.place].problem r.message

/-- The tokens between two reports and the first of the two are as many as have to be consumed. -/
def Apart (r s : Report tokens) : Prop := r.place + Parser.minDistance ≤ s.place

end Report

/-- A parser has consumed `i` of the tokens.  Its queue keeps reports that stand apart, and it
remembers how far it is behind the last one, or less. -/
structure Spaced (tokens : List Token) (p : Parser) (i : Nat) (reports : List (Report tokens)) :
    Prop where
  ahead : p.ahead = tokens.drop i
  keeps : p.queue.isAnnouncing = false
  retained : p.queue.retained = reports.map Report.diagnostic
  apart : reports.Pairwise Report.Apart
  behind : ∀ r ∈ reports, r.place + p.distance ≤ i

namespace Spaced

variable {tokens : List Token} {p : Parser} {i : Nat} {reports : List (Report tokens)}

theorem get (spaced : Spaced tokens p i reports) (next : p.ahead = p.lookahead :: p.get.ahead) :
    Spaced tokens p.get (i + 1) reports where
  ahead := by
    rw [← List.tail_drop, ← spaced.ahead, next, List.tail_cons]
  keeps := spaced.keeps
  retained := spaced.retained
  apart := spaced.apart
  behind r hr := by
    have := spaced.behind r hr
    rw [Parser.distance_get]
    omega

theorem getElem?_eq (spaced : Spaced tokens p i reports) : tokens[i]? = some p.lookahead := by
  have first := congrArg (·[0]?) spaced.ahead
  rw [List.getElem?_drop] at first
  exact first.symm

theorem fail (spaced : Spaced tokens p i reports) (code : Nat) :
    ∃ reports, Spaced tokens (p.fail code) i reports := by
  by_cases h : p.distance < Parser.minDistance
  · -- The report is dropped, but the count starts anew, so the parser only believes to be closer.
    have same := Parser.queue_fail_of_lt h code
    exact ⟨reports, {
      ahead := spaced.ahead
      keeps := same ▸ spaced.keeps
      retained := same ▸ spaced.retained
      apart := spaced.apart
      behind := fun r hr => Nat.le_of_add_right_le (spaced.behind r hr) }⟩
  · obtain ⟨lt, here⟩ := List.getElem?_eq_some_iff.mp spaced.getElem?_eq
    have queue := Parser.queue_fail (Nat.not_lt.mp h) code
    let report : Report tokens := ⟨⟨i, lt⟩, p.tables.message code⟩
    have diagnostic : report.diagnostic = p.lookahead.problem (p.tables.message code) :=
      congrArg (·.problem (p.tables.message code)) here
    refine ⟨reports ++ [report], {
      ahead := spaced.ahead
      keeps := ?keeps
      retained := ?retained
      apart := ?apart
      behind := ?behind }⟩
    case keeps => rw [queue, Queue.isAnnouncing_record, spaced.keeps]
    case retained =>
      rw [queue, Queue.retained_record_of_keeping spaced.keeps, spaced.retained, List.map_append,
        ← diagnostic]
      rfl
    case apart =>
      refine List.pairwise_append.mpr ⟨spaced.apart, List.pairwise_singleton _ _, ?_⟩
      intro r hr s hs
      cases List.mem_singleton.mp hs
      have := spaced.behind r hr
      change r.place + Parser.minDistance ≤ i
      omega
    case behind =>
      intro r hr
      rw [Parser.distance_fail, Nat.add_zero]
      rcases List.mem_append.mp hr with earlier | now
      · exact Nat.le_of_add_right_le (spaced.behind r earlier)
      · cases List.mem_singleton.mp now
        exact Nat.le_refl i

/-- Reports stay apart as long as the end of the text is not consumed. -/
theorem replay (spaced : Spaced tokens p i reports) (closed : p.Closed) {events : List Event}
    (spares : p.SparesEnd events) : ∃ i reports, Spaced tokens (p.replay events) i reports := by
  induction events generalizing p i reports with
  | nil => exact ⟨i, reports, spaced⟩
  | cons event events ih =>
      cases event with
      | consume =>
          obtain ⟨real, spares⟩ := List.forall_mem_cons.mp spares
          obtain ⟨closed', next⟩ := closed.get real
          exact ih (spaced.get next) closed' spares
      | report code =>
          obtain ⟨reports', spaced'⟩ := spaced.fail code
          exact ih spaced' closed spares

/-- The end of the text may be consumed in the end, as nothing is reported any more. -/
theorem expect (spaced : Spaced tokens p i reports) (kind : Kind) :
    ∃ reports : List (Report tokens),
      (p.expect kind).queue.retained = reports.map Report.diagnostic ∧
        reports.Pairwise Report.Apart := by
  rw [Parser.expect_eq]
  split
  · exact ⟨reports, spaced.retained, spaced.apart⟩
  · obtain ⟨reports', spaced'⟩ := spaced.fail kind
    exact ⟨reports', spaced'.retained, spaced'.apart⟩

end Spaced

namespace Report

variable {tokens : List Token} {reports : List (Report tokens)}

theorem add_length_le_of_apart (apart : reports.Pairwise Apart) {first : Nat}
    (behind : ∀ r ∈ reports, first ≤ r.place) (within : first ≤ tokens.length + 1) :
    first + 2 * reports.length ≤ tokens.length + 1 := by
  induction reports generalizing first with
  | nil => exact within
  | cons r rs ih =>
      obtain ⟨apart_r, apart_rs⟩ := List.pairwise_cons.mp apart
      have le := behind r (List.mem_cons_self ..)
      have lt := r.place.isLt
      have rest : r.place + 2 + 2 * rs.length ≤ tokens.length + 1 :=
        ih apart_rs apart_r (by omega)
      rw [List.length_cons]
      omega

/-- Reports that stand apart take up two tokens each, but for the last one. -/
theorem length_le_of_apart (apart : reports.Pairwise Apart) :
    2 * reports.length ≤ tokens.length + 1 := by
  have bound := add_length_le_of_apart apart (fun r _ => Nat.zero_le r.place) (Nat.zero_le _)
  rwa [Nat.zero_add] at bound

end Report

end OberonFront
