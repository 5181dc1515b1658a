import OberonFront.Proofs.Machine.Steps

/-!
# Parsers that cannot be told apart

A grammar knows of a parser only its tables and the kind of its lookahead.  So a
relation of parsers with the same tables and lookaheads of the same kind, kept
when both consume and when both report, is kept by everything that a grammar
does.  The machines take the same steps, and one is done when the other is.
-/

namespace OberonFront

/-- A relation of parsers that no operation ends. -/
structure Simulation (R : Parser → Parser → Prop) : Prop where
  tables : ∀ {p q}, R p q → p.tables = q.tables
  kind : ∀ {p q}, R p q → p.lookahead.kind = q.lookahead.kind
  get : ∀ {p q}, R p q → R p.get q.get
  report : ∀ {p q}, R p q → ∀ severity message,
    R (p.report severity message) (q.report severity message)

structure Agree (R : Parser → Parser → Prop) {α : Type} (x y : Parser × α) : Prop where
  parser : R x.1 y.1
  answer : x.2 = y.2

structure Machine.Alike {N : Type} (R : Parser → Parser → Prop) (m m' : Machine N) : Prop where
  parser : R m.parser m'.parser
  pending : m.pending = m'.pending
  fault : m.fault? = m'.fault?

/-- The parser of a machine that is done, and whether it is done without a fault. -/
def Machine.outcome {N : Type} (m : Machine N) : Parser × Except Fault Unit :=
  match m.fault? with
  | some fault => (m.parser, .error fault)
  | none => (m.parser, .ok ())

namespace Grammar

variable {N : Type}

theorem exec_eq_outcome (g : Grammar N) (a : Action N) (p : Parser) :
    g.exec a p = (g.step^[budget p] ⟨p, [a], none⟩).outcome := by
  simp only [exec, run_eq_iterate]
  generalize g.step^[budget p] ⟨p, [a], none⟩ = m
  rfl

open Classical in
noncomputable def final? (g : Grammar N) (m : Machine N) : Option (Machine N) :=
  if h : ∃ n, (g.step^[n] m).pending = [] then some (g.step^[h.choose] m) else none

variable {g : Grammar N} {m m' : Machine N}

theorem final?_of_done {n : Nat} (h : (g.step^[n] m).pending = []) :
    g.final? m = some (g.step^[n] m) := by
  have done : ∃ n, (g.step^[n] m).pending = [] := ⟨n, h⟩
  rw [final?, dif_pos done, eq_of_done done.choose_spec h]

theorem final?_of_never (h : ∀ n, (g.step^[n] m).pending ≠ []) : g.final? m = none :=
  dif_neg fun ⟨n, done⟩ => h n done

end Grammar

namespace Simulation

variable {R : Parser → Parser → Prop} (sim : Simulation R) {p q : Parser} (h : R p q)

include sim h

/-! ## The operations of a parser -/

theorem fail (code : Nat) : R (p.fail code) (q.fail code) := by
  rw [Parser.fail, Parser.fail, sim.tables h]
  exact sim.report h .error _

theorem expect (kind : Kind) : R (p.expect kind) (q.expect kind) := by
  rw [Parser.expect_eq, Parser.expect_eq, sim.kind h]
  split
  · exact sim.get h
  · exact sim.fail h kind

theorem skipTo (stop : KindSet) : R (p.skipTo stop) (q.skipTo stop) := by
  induction p using Parser.skip_induction stop generalizing q with
  | stops p stops =>
      rw [p.skipTo_eq, if_pos stops, q.skipTo_eq, if_pos (sim.kind h ▸ stops)]
      exact h
  | goes p goes ih =>
      rw [p.skipTo_eq, if_neg goes, q.skipTo_eq, if_neg (sim.kind h ▸ goes)]
      exact ih (sim.get h)

theorem startOf (index : Nat) : p.startOf index = q.startOf index := by
  rw [Parser.startOf, Parser.startOf, sim.tables h, sim.kind h]

theorem separatorStop (element behind : Nat) :
    p.separatorStop element behind = q.separatorStop element behind := by
  rw [Parser.separatorStop, Parser.separatorStop, sim.tables h]

theorem expectWeak (kind : Kind) (follow : Nat) :
    Agree R (p.expectWeak kind follow) (q.expectWeak kind follow) := by
  rw [Parser.expectWeak_eq, Parser.expectWeak_eq, sim.kind h, sim.tables h]
  split
  · exact ⟨sim.get h, rfl⟩
  · split
    · exact ⟨sim.skipTo (sim.fail h kind) _, rfl⟩
    · exact ⟨sim.fail h kind, rfl⟩

theorem weakSeparator (kind : Kind) (element behind : Nat) :
    Agree R (p.weakSeparator kind element behind) (q.weakSeparator kind element behind) := by
  rw [Parser.weakSeparator_eq, Parser.weakSeparator_eq, sim.kind h, sim.startOf h,
    sim.separatorStop h]
  split
  · exact ⟨sim.get h, rfl⟩
  · split
    · exact ⟨h, rfl⟩
    · exact ⟨h, rfl⟩
    · split
      · exact ⟨h, rfl⟩
      · have skipped := sim.skipTo (sim.fail h kind) ‹KindSet›
        exact ⟨skipped, sim.startOf skipped element⟩

/-! ## The steps of a machine -/

variable {N : Type}

theorem holds (test : Test) : test.holds p = test.holds q := by
  cases test with
  | sees kinds => exact congrArg (fun kind => Except.ok (kinds.contains kind)) (sim.kind h)
  | starts set => exact sim.startOf h set

omit sim in
theorem branch (answer : Except Fault Bool) (yes no : List (Action N)) :
    (Machine.branch p answer yes no).Alike R (Machine.branch q answer yes no) := by
  match answer with
  | .ok true | .ok false | .error _ => exact ⟨h, rfl, rfl⟩

theorem perform (g : Grammar N) (a : Action N) (rest : List (Action N)) :
    (g.perform a p rest).Alike R (g.perform a q rest) := by
  cases a with
  | skip | seq | call => exact ⟨h, rfl, rfl⟩
  | get => exact ⟨sim.get h, rfl, rfl⟩
  | expect kind => exact ⟨sim.expect h kind, rfl, rfl⟩
  | fail code => exact ⟨sim.fail h code, rfl, rfl⟩
  | expectWeak kind follow =>
      obtain ⟨parser, answer⟩ := sim.expectWeak h kind follow
      simp only [Grammar.perform]
      generalize p.expectWeak kind follow = x at parser answer ⊢
      generalize q.expectWeak kind follow = y at parser answer ⊢
      obtain ⟨p', verdict⟩ := x
      obtain ⟨q', _⟩ := y
      cases answer
      cases verdict with
      | ok => exact ⟨parser, rfl, rfl⟩
      | error fault => exact ⟨parser, rfl, rfl⟩
  | ifElse test yes no =>
      simp only [Grammar.perform, sim.holds h]
      exact branch h _ _ _
  | whileDo test body =>
      simp only [Grammar.perform, sim.holds h]
      exact branch h _ _ _
  | separated kind element behind body =>
      obtain ⟨parser, answer⟩ := sim.weakSeparator h kind element behind
      simp only [Grammar.perform, answer]
      exact branch parser _ _ _

end Simulation

namespace Machine.Alike

variable {R : Parser → Parser → Prop} {N : Type} {g : Grammar N} {m m' : Machine N}

theorem step (sim : Simulation R) (alike : m.Alike R m') : (g.step m).Alike R (g.step m') := by
  obtain ⟨p, pending, f⟩ := m
  obtain ⟨q, _, _⟩ := m'
  obtain ⟨parser, rfl, rfl⟩ := alike
  cases pending with
  | nil => exact ⟨parser, rfl, rfl⟩
  | cons a rest => exact sim.perform parser g a rest

theorem iterate (sim : Simulation R) (alike : m.Alike R m') (n : Nat) :
    (g.step^[n] m).Alike R (g.step^[n] m') := by
  induction n generalizing m m' with
  | zero => exact alike
  | succ n ih => exact ih (alike.step sim)

theorem outcome (alike : m.Alike R m') : Agree R m.outcome m'.outcome := by
  rw [Machine.outcome, Machine.outcome, alike.fault]
  split
  · exact ⟨alike.parser, rfl⟩
  · exact ⟨alike.parser, rfl⟩

/-- Two machines that are alike both come to an end, and to the same one, or both never do. -/
theorem final? (sim : Simulation R) (alike : m.Alike R m') :
    Option.Rel (Alike R) (g.final? m) (g.final? m') := by
  by_cases ends : ∃ n, (g.step^[n] m).pending = []
  · obtain ⟨n, done⟩ := ends
    have reached := alike.iterate (g := g) sim n
    rw [Grammar.final?_of_done done, Grammar.final?_of_done (reached.pending ▸ done)]
    exact .some reached
  · have never := not_exists.mp ends
    rw [Grammar.final?_of_never never, Grammar.final?_of_never fun n done =>
      never n ((alike.iterate (g := g) sim n).pending ▸ done)]
    exact .none

end Machine.Alike

/-- What is done within the same budget comes to the same. -/
theorem Simulation.exec {R : Parser → Parser → Prop} (sim : Simulation R) {N : Type}
    {p q : Parser} (h : R p q) (left : p.stream.rest.length = q.stream.rest.length)
    (g : Grammar N) (a : Action N) : Agree R (g.exec a p) (g.exec a q) := by
  have alike : Machine.Alike R (N := N) ⟨p, [a], none⟩ ⟨q, [a], none⟩ := ⟨h, rfl, rfl⟩
  have budget : Grammar.budget p = Grammar.budget q := by
    rw [Grammar.budget, Grammar.budget, left]
  rw [Grammar.exec_eq_outcome, Grammar.exec_eq_outcome, budget]
  exact (alike.iterate sim _).outcome

end OberonFront
