import OberonFront.Proofs.FrontEnd.Calls
import OberonFront.Proofs.Parser.Deeds

/-!
# The throttle

Calls of a parser are a number of deeds each, those of the loops inside them and
of whole productions included.  So it holds for any calls in any order that an
attempt to report is passed on if it is the first one, or if at least two tokens
were consumed since the one before.
-/

namespace OberonFront

open Deed (Due Quiet)

namespace FrontEnd

open Classical in
/-- What the start production of a front end makes a parser do until it ends, if it ever does. -/
noncomputable def startEvents? (e : FrontEnd) (p : Parser) : List Event :=
  let m : Machine e.Nonterminal := ⟨p, [.call e.grammar.start], none⟩
  if h : ∃ n, (e.grammar.step^[n] m).pending = [] then e.grammar.log h.choose m else []

theorem replay_startEvents? {e : FrontEnd} {p q : Parser} {answer : Except Fault Unit}
    (h : e.startFinal? p = some (q, answer)) : p.replay (e.startEvents? p) = q := by
  unfold startFinal? Grammar.final? at h
  unfold startEvents?
  split at h
  · rename_i ends
    have parser := e.grammar.parser_iterate ends.choose ⟨p, [.call e.grammar.start], none⟩
    rw [dif_pos ends, ← parser]
    obtain ⟨m, final, outcome⟩ := Option.map_eq_some_iff.mp h
    cases final
    have first := congrArg Prod.fst outcome
    rw [Machine.outcome] at first
    split at first <;> exact first
  · cases h

end FrontEnd

noncomputable def Call.deeds (c : Call) (p : Parser) : List Deed :=
  match c with
  | .get => [.consume]
  | .expect kind => (p.expectEvents kind).map (·.deed p.tables)
  | .expectWeak kind follow => (p.expectWeakEvents kind follow).map (·.deed p.tables)
  | .weakSeparator kind element behind =>
      (p.weakSeparatorEvents kind element behind).map (·.deed p.tables)
  | .startOf _ | .sees _ => []
  | .fail code => [.attempt .error (p.tables.message code)]
  | .report severity message => [.attempt severity message]
  | .peek => [.peek]
  | .resetPeek => [.resetPeek]
  | .start e => (e.startEvents? p).map (·.deed p.tables)

theorem Call.after_deeds {c : Call} {p q : Parser} {answer : Except Fault Reply}
    (h : c.perform p = some (q, answer)) : p.after (c.deeds p) = q := by
  cases c with
  | get | fail | report | peek | resetPeek | startOf | sees =>
      cases h
      rfl
  | expect | expectWeak | weakSeparator =>
      rw [deeds, Parser.after_map_deed]
      exact (Prod.mk.inj (Option.some.inj h)).1
  | start e =>
      obtain ⟨⟨r, answer⟩, final, eq⟩ := Option.map_eq_some_iff.mp h
      cases eq
      rw [deeds, Parser.after_map_deed, FrontEnd.replay_startEvents? final]

namespace Parser

noncomputable def deeds (p : Parser) : List Call → List Deed
  | [] => []
  | c :: calls =>
      match c.perform p with
      | some (q, .ok _) => c.deeds p ++ q.deeds calls
      | some (_, .error _) => c.deeds p
      | none => []

noncomputable def afterCalls (p : Parser) (calls : List Call) : Parser :=
  ((p.trace calls).map Prod.fst).getLastD p

theorem after_deeds (p : Parser) (calls : List Call) :
    p.after (p.deeds calls) = p.afterCalls calls := by
  induction calls generalizing p with
  | nil => rfl
  | cons c calls ih =>
      unfold afterCalls deeds trace
      rcases h : c.perform p with _ | ⟨q, fault | reply⟩
      · rfl
      · exact Call.after_deeds h
      · rw [after_append, Call.after_deeds h, ih]
        exact (List.getLastD_cons ..).symm

/-- Whatever a fresh parser has done, in the course of calls or not, an attempt to report is passed
on if and only if it is due, which takes two tokens.  What is passed on in the course of some calls
are the problems of the attempts that are due, in order, each at the lookahead that it was attempted
at.  So the first attempt is passed on, and if it is an error the parser is not successful any more.
The count that decides may be kept in a word. -/
theorem throttled (tables : Tables) (l : TokenList) (q : Queue) (calls : List Call) :
    let p := ofTokens tables l q
    minDistance = 2 ∧
    p.after (p.deeds calls) = p.afterCalls calls ∧
    (∀ before severity message,
      (p.after (before ++ [.attempt severity message])).queue =
        if Due before then
          (p.after before).queue.record ((p.after before).problem severity message)
        else (p.after before).queue) ∧
    (p.afterCalls calls).queue = q.recordAll (p.passedOn [] (p.deeds calls)) ∧
    (∀ before message later, p.deeds calls = before ++ .attempt .error message :: later →
      Quiet before → (p.afterCalls calls).successful = false) ∧
    ∀ before, Due before ↔ minDistance ≤ (Deed.wordCount before).toNat := by
  intro p
  have far : minDistance ≤ p.distance := Nat.le_refl _
  have run := p.after_deeds calls
  refine ⟨rfl, run, ?attempts, ?queue, ?first, ?word⟩
  case attempts =>
    intro before severity message
    rw [after_concat, queue_attempt far]
  case queue => exact run ▸ queue_after far (p.deeds calls)
  case first =>
    intro before message later eq quiet
    rw [← run, eq]
    exact successful_after_error far rfl quiet message later
  case word =>
    intro before
    rw [toNat_wordCount (p := p) rfl, ← minDistance_le_iff_due far, Nat.le_min]
    exact (and_iff_left (by decide)).symm

end Parser

end OberonFront
