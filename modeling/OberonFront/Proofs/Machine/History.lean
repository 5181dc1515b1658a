import OberonFront.Proofs.Machine.Pace
import OberonFront.Proofs.Parser.Events

/-!
# The history of a run

Every step of the machine is a number of events of its parser, so a run has a
history from which its parser can be told.  The history of a machine that gets
done does not depend on how many further steps it is given.
-/

namespace OberonFront

variable {N : Type}

def Action.events (p : Parser) : Action N → List Event
  | .get => [.consume]
  | .expect kind => p.expectEvents kind
  | .expectWeak kind follow => p.expectWeakEvents kind follow
  | .fail code => [.report code]
  | .separated kind element behind _ => p.weakSeparatorEvents kind element behind
  | .skip | .seq _ _ | .call _ | .ifElse _ _ _ | .whileDo _ _ => []

def Machine.events (m : Machine N) : List Event :=
  match m.pending with
  | [] => []
  | a :: _ => a.events m.parser

namespace Grammar

/-- What the parser of a machine does in a number of steps. -/
def log (g : Grammar N) : Nat → Machine N → List Event
  | 0, _ => []
  | steps + 1, m => m.events ++ g.log steps (g.step m)

def events (g : Grammar N) (a : Action N) (p : Parser) : List Event :=
  g.log (budget p) ⟨p, [a], none⟩

/-- What a parser does with a whole text.  It consumes first what is before the text. -/
def history (g : Grammar N) (p : Parser) : List Event := .consume :: g.events g.whole p.start

variable {g : Grammar N} {m : Machine N} {p q : Parser}

theorem parser_perform (g : Grammar N) (a : Action N) (p : Parser) (rest : List (Action N)) :
    (g.perform a p rest).parser = p.replay (a.events p) := by
  cases a with
  | skip | seq | call | get | fail => rfl
  | expect kind => rfl
  | expectWeak kind follow =>
      change _ = (p.expectWeak kind follow).1
      rw [perform]
      rcases p.expectWeak kind follow with ⟨q, answer⟩
      cases answer <;> rfl
  | ifElse test yes no => exact parser_branch _ _ _
  | whileDo test body => exact parser_branch _ _ _
  | separated kind element behind body => exact parser_branch _ _ _

theorem parser_step (g : Grammar N) (m : Machine N) :
    (g.step m).parser = m.parser.replay m.events := by
  obtain ⟨p, pending, f⟩ := m
  cases pending with
  | nil => rfl
  | cons a rest => exact g.parser_perform a p rest

theorem parser_iterate (g : Grammar N) (n : Nat) (m : Machine N) :
    (g.step^[n] m).parser = m.parser.replay (g.log n m) := by
  induction n generalizing m with
  | zero => rfl
  | succ n ih => rw [Function.iterate_succ_apply, ih, parser_step, log, Parser.replay_append]

theorem log_add (g : Grammar N) (i j : Nat) (m : Machine N) :
    g.log (i + j) m = g.log i m ++ g.log j (g.step^[i] m) := by
  induction i generalizing m with
  | zero => rw [Nat.zero_add, log, List.nil_append, Function.iterate_zero_apply]
  | succ i ih =>
      rw [Nat.succ_add_eq_add_succ, Nat.add_succ, log, ih, log, List.append_assoc,
        Function.iterate_succ_apply]

theorem log_of_done (h : m.pending = []) (n : Nat) : g.log n m = [] := by
  induction n with
  | zero => rfl
  | succ n ih =>
      rw [log, step_of_done h, ih, List.append_nil, Machine.events]
      split
      · rfl
      · rename_i eq
        rw [h] at eq
        cases eq

theorem log_eq_of_done {i j : Nat} (hi : (g.step^[i] m).pending = [])
    (hj : (g.step^[j] m).pending = []) : g.log i m = g.log j m := by
  rcases Nat.le_total i j with h | h
  · obtain ⟨d, rfl⟩ := Nat.exists_eq_add_of_le h
    rw [log_add, log_of_done hi, List.append_nil]
  · obtain ⟨d, rfl⟩ := Nat.exists_eq_add_of_le h
    rw [log_add, log_of_done hj, List.append_nil]

theorem replay_events (g : Grammar N) (a : Action N) (p : Parser) :
    p.replay (g.events a p) = (g.exec a p).1 := by
  have parser := g.parser_iterate (budget p) ⟨p, [a], none⟩
  rw [events, ← parser, exec, ← run_eq_iterate]
  split <;> rfl

/-- Replaying its history parses the text. -/
theorem replay_history (g : Grammar N) (p : Parser) :
    ({ p with lookahead := .sentinel } : Parser).replay (g.history p) = (g.parse p).1 :=
  g.replay_events g.whole p.start

end Grammar

namespace Pace

open Grammar (budget stepsPerToken)

variable {g : Grammar N} {pace : Pace N} {p q : Parser} {a : Action N} {as : List (Action N)}
  {n : Nat}

/-- What is done with more pending below is the same. -/
theorem iterate_append (sound : pace.Sound g) (going : Going pace ⟨p, as, none⟩)
    (h : g.step^[n] ⟨p, as, none⟩ = ⟨q, [], none⟩) (below : List (Action N)) :
    ∃ i, g.step^[i] ⟨p, as ++ below, none⟩ = ⟨q, below, none⟩ ∧
      g.log i ⟨p, as ++ below, none⟩ = g.log n ⟨p, as, none⟩ := by
  induction n generalizing p as with
  | zero =>
      cases h
      exact ⟨0, rfl, rfl⟩
  | succ n ih =>
      cases as with
      | nil =>
          rw [Grammar.iterate_step_of_done rfl] at h
          cases h
          exact ⟨0, rfl, (Grammar.log_of_done rfl _).symm⟩
      | cons a rest =>
          have going' := (step_going sound going).1
          have eq : g.step ⟨p, a :: rest, none⟩ = g.perform a p rest := rfl
          rw [Function.iterate_succ_apply] at h
          generalize next : g.step ⟨p, a :: rest, none⟩ = m at h eq going'
          obtain ⟨p', left, fault⟩ := m
          -- A fault would drop what is pending below as well.
          cases going'.faultless
          obtain ⟨i, reached, same⟩ := ih going' h
          have step : g.step ⟨p, a :: rest ++ below, none⟩ = ⟨p', left ++ below, none⟩ :=
            Grammar.perform_append below eq.symm
          refine ⟨i + 1, ?_, ?_⟩
          · rw [Function.iterate_succ_apply, step, reached]
          · rw [Grammar.log, step, same, Grammar.log, next]
            rfl

/-- An action is done within the budget. -/
theorem iterate_budget (sound : pace.Sound g) (going : Going pace ⟨p, [a], none⟩)
    (h : pace.worst a ≤ stepsPerToken) :
    g.step^[budget p] ⟨p, [a], none⟩ = ⟨(g.exec a p).1, [], none⟩ := by
  obtain ⟨going', done⟩ := iterate_done sound going (potential_le_budget going.visible h)
  rw [going'.eq_of_done done, g.parser_iterate, ← g.replay_events]
  rfl

theorem Going.start (going : Going pace ⟨p, [g.whole], none⟩) :
    Going pace ⟨p, [.call g.start], none⟩ :=
  ⟨going.tables_eq, going.visible, by simp [Pace.paced], rfl⟩

theorem worst_start_le (h : pace.worst g.whole ≤ stepsPerToken) :
    pace.worst (.call g.start) ≤ stepsPerToken := by
  simp only [Grammar.whole, worst] at h ⊢
  omega

/-- A text is parsed by the start production, and then its end is expected. -/
theorem events_whole (sound : pace.Sound g) (going : Going pace ⟨p, [g.whole], none⟩)
    (h : pace.worst g.whole ≤ stepsPerToken) :
    g.events g.whole p = g.events (.call g.start) p ++
      (g.exec (.call g.start) p).1.expectEvents Kind.eof := by
  have started := iterate_budget sound going.start (worst_start_le h)
  obtain ⟨i, reached, same⟩ := iterate_append sound going.start started [.expect Kind.eof]
  change g.step^[i] (g.step ⟨p, [g.whole], none⟩) = _ at reached
  rw [← Function.iterate_succ_apply] at reached
  have log : g.log (i + 1) ⟨p, [g.whole], none⟩ = g.events (.call g.start) p := same
  have done : (g.step^[i + 1 + 1] ⟨p, [g.whole], none⟩).pending = [] := by
    rw [Function.iterate_succ_apply', reached]
    rfl
  have done' : (g.step^[budget p] ⟨p, [g.whole], none⟩).pending = [] := by
    rw [iterate_budget sound going h]
  rw [Grammar.events, Grammar.log_eq_of_done done' done, Grammar.log_add, log, reached]
  exact congrArg (g.events (.call g.start) p ++ ·) (List.append_nil _)

end Pace

end OberonFront
