import Mathlib.Data.List.Forall2
import OberonFront.Proofs.FrontEnd.Analysis
import OberonFront.Proofs.Machine.History
import OberonFront.Proofs.Parser.Visible

/-!
# Calls of a parser

What the operations of a parser show when they are called one after the other,
in any order and with any tables.  It is the same whether or not there are tokens
among the others that the parser does not see.
-/

namespace OberonFront

inductive Call where
  | get
  | expect (kind : Kind)
  | expectWeak (kind : Kind) (follow : Nat)
  | weakSeparator (kind : Kind) (element behind : Nat)
  | startOf (set : Nat)
  | sees (kind : Kind)
  | fail (code : Nat)
  | report (severity : Severity) (message : String)
  | peek
  | resetPeek
  /-- The start production of a front end, which may be made for other tables. -/
  | start (e : FrontEnd)
deriving DecidableEq, Repr

inductive Reply where
  | done
  | verdict (holds : Bool)
  | token (t : Token)
deriving DecidableEq, Repr

/-- What the start production of a front end comes to, if it ever ends.  With tables of another
language it may go on for ever. -/
noncomputable def FrontEnd.startFinal? (e : FrontEnd) (p : Parser) :
    Option (Parser × Except Fault Unit) :=
  (e.grammar.final? ⟨p, [.call e.grammar.start], none⟩).map Machine.outcome

/-- What a call makes of a parser, and its answer.  There is neither if the call never ends. -/
noncomputable def Call.perform (c : Call) (p : Parser) : Option (Parser × Except Fault Reply) :=
  match c with
  | .get => some (p.get, .ok .done)
  | .expect kind => some (p.expect kind, .ok .done)
  | .expectWeak kind follow =>
      let (q, answer) := p.expectWeak kind follow
      some (q, answer.map fun _ => .done)
  | .weakSeparator kind element behind =>
      let (q, answer) := p.weakSeparator kind element behind
      some (q, answer.map .verdict)
  | .startOf set => some (p, (p.startOf set).map .verdict)
  | .sees kind => some (p, .ok (.verdict (p.sees kind)))
  | .fail code => some (p.fail code, .ok .done)
  | .report severity message => some (p.report severity message, .ok .done)
  | .peek =>
      let (t, q) := p.peek
      some (q, .ok (.token t))
  | .resetPeek => some (p.resetPeek, .ok .done)
  | .start e => (e.startFinal? p).map fun (q, answer) => (q, answer.map fun _ => .done)

structure View where
  reply : Except Fault Reply
  token : Token
  lookahead : Token
  distance : Nat
  queue : Queue

namespace Parser

/-- The parser behind each of some calls, and the answers.  After a fault there are no more
calls, nor if a call never ends. -/
noncomputable def trace (p : Parser) : List Call → List (Parser × Except Fault Reply)
  | [] => []
  | c :: calls =>
      match c.perform p with
      | some (q, .ok reply) => (q, .ok reply) :: q.trace calls
      | some (q, .error fault) => [(q, .error fault)]
      | none => []

def view (p : Parser) (reply : Except Fault Reply) : View :=
  ⟨reply, p.token, p.lookahead, p.distance, p.queue⟩

noncomputable def views (p : Parser) (calls : List Call) : List View :=
  (p.trace calls).map fun (q, reply) => q.view reply

end Parser

/-- The start production of a front end ends where the tables are its own. -/
theorem FrontEnd.startFinal?_eq (e : FrontEnd) {p : Parser} (tables_eq : p.tables = e.tables)
    (sees : p.lookahead.kind ≤ e.tables.maxKind) :
    e.startFinal? p = some (e.execStart p) := by
  have going : Pace.Going e.analysis.pace ⟨p, [.call e.grammar.start], none⟩ := {
    tables_eq := tables_eq.trans e.tables_pace.symm
    visible := by rwa [e.tables_pace]
    paced := List.forall_mem_singleton.mpr rfl
    faultless := rfl }
  obtain ⟨r, exec, n, reached⟩ :=
    Pace.exec_eq e.analysis.sound going (Pace.worst_start_le e.analysis.bounded)
  -- The bound on the steps shows that there is an end, and no end differs from this one.
  have done : (e.grammar.step^[n] ⟨p, [.call e.grammar.start], none⟩).pending = [] := by
    rw [reached]
  rw [startFinal?, Grammar.final?_of_done done, reached, execStart_eq, exec]
  rfl

/-! ## Calls of related parsers -/

section

variable {R : Parser → Parser → Prop} {p q : Parser}

theorem Agree.map {α β : Type} {x y : Parser × Except Fault α} (agree : Agree R x y)
    (f : α → β) : Agree R (x.1, x.2.map f) (y.1, y.2.map f) :=
  ⟨agree.parser, congrArg (Except.map f) agree.answer⟩

theorem FrontEnd.startFinal?_rel (e : FrontEnd) (sim : Simulation R) (h : R p q) :
    Option.Rel (Agree R) (e.startFinal? p) (e.startFinal? q) := by
  have alike : Machine.Alike R (N := e.Nonterminal)
      ⟨p, [.call e.grammar.start], none⟩ ⟨q, [.call e.grammar.start], none⟩ := ⟨h, rfl, rfl⟩
  have final := alike.final? (g := e.grammar) sim
  unfold startFinal?
  generalize e.grammar.final? ⟨p, [.call e.grammar.start], none⟩ = x at final ⊢
  generalize e.grammar.final? ⟨q, [.call e.grammar.start], none⟩ = y at final ⊢
  cases final with
  | none => exact .none
  | some alike => exact .some alike.outcome

/-- Related parsers remain so in the course of calls if every single call keeps them related. -/
theorem Parser.trace_rel
    (performs : ∀ {p q}, R p q → ∀ c : Call, Option.Rel (Agree R) (c.perform p) (c.perform q))
    (h : R p q) (calls : List Call) :
    List.Forall₂ (Agree R) (p.trace calls) (q.trace calls) := by
  induction calls generalizing p q with
  | nil => exact .nil
  | cons c calls ih =>
      have next := performs h c
      rw [trace, trace]
      generalize c.perform p = x at next ⊢
      generalize c.perform q = y at next ⊢
      cases next with
      | none => exact .nil
      | @some x y agree =>
          obtain ⟨p', answer⟩ := x
          obtain ⟨q', _⟩ := y
          obtain ⟨parser, rfl⟩ := agree
          cases answer with
          | ok reply => exact .cons ⟨parser, rfl⟩ (ih parser)
          | error fault => exact .cons ⟨parser, rfl⟩ .nil

end

/-! ## Tokens that are not seen -/

namespace Parser.Unveils

variable {tables : Tables} {p q : Parser}

theorem perform (h : Unveils tables p q) (c : Call) :
    Option.Rel (Agree (Unveils tables)) (c.perform p) (c.perform q) := by
  have sim := simulation_unveils tables
  cases c with
  | get => exact .some ⟨sim.get h, rfl⟩
  | expect kind => exact .some ⟨sim.expect h kind, rfl⟩
  | expectWeak kind follow => exact .some ((sim.expectWeak h kind follow).map _)
  | weakSeparator kind element behind =>
      exact .some ((sim.weakSeparator h kind element behind).map _)
  | startOf set => exact .some ⟨h, congrArg (Except.map Reply.verdict) (sim.startOf h set)⟩
  | sees kind =>
      have same : p.sees kind = q.sees kind := congrArg (· == kind) (sim.kind h)
      exact .some ⟨h, congrArg (fun answer => Except.ok (Reply.verdict answer)) same⟩
  | fail code => exact .some ⟨sim.fail h code, rfl⟩
  | report severity message => exact .some ⟨sim.report h severity message, rfl⟩
  | peek =>
      rw [Call.perform, Call.perform, h.eq, visible_peek]
      exact .some ⟨⟨h.tables_eq, h.sees, rfl⟩, rfl⟩
  | resetPeek =>
      refine .some ⟨⟨h.tables_eq, h.sees, ?_⟩, rfl⟩
      rw [h.eq]
      rfl
  | start e =>
      have final := e.startFinal?_rel sim h
      rw [Call.perform, Call.perform]
      generalize e.startFinal? p = x at final ⊢
      generalize e.startFinal? q = y at final ⊢
      cases final with
      | none => exact .none
      | some agree => exact .some (agree.map _)

theorem view_eq {x y : Parser × Except Fault Reply} (agree : Agree (Unveils tables) x y) :
    x.1.view x.2 = y.1.view y.2 := by
  rw [agree.answer, agree.parser.eq]
  rfl

end Parser.Unveils

namespace Parser

/-- Tokens of kinds that the tables do not know cannot be noticed by any calls: without them every
answer is the same, and so are the token, the lookahead, the distance and the queue behind every
call.  A start production whose own tables these are always ends in its result. -/
theorem views_visible (tables : Tables) (l : TokenList) (q : Queue) (calls : List Call) :
    (ofTokens tables (l.visible tables.maxKind) q).views calls =
      (ofTokens tables l q).views calls ∧
    ∀ e : FrontEnd, let p := ofTokens e.tables l q
      ∀ r ∈ p :: (p.trace calls).map Prod.fst, e.startFinal? r = some (e.execStart r) := by
  -- The lookahead of a fresh parser is no token of the text, and of the first kind.
  have start (tables : Tables) :
      Unveils tables (ofTokens tables l q) (ofTokens tables (l.visible tables.maxKind) q) :=
    ⟨rfl, Nat.zero_le _, (visible_ofTokens tables l q).symm⟩
  refine ⟨?_, fun e => ?_⟩
  · have same := trace_rel Unveils.perform (start tables) calls
    have views := same.imp fun _ _ agree => (Unveils.view_eq agree).symm
    exact (List.forall₂_eq_eq_eq ▸
      List.forall₂_map_left_iff.mpr (List.forall₂_map_right_iff.mpr views.flip) :)
  · have ends {p p' : Parser} (h : Unveils e.tables p p') :
        e.startFinal? p = some (e.execStart p) := e.startFinal?_eq h.tables_eq h.sees
    have own := (trace_rel Unveils.perform (start e.tables) calls).imp fun r _ agree =>
      And.intro (ends agree.parser) agree
    exact List.forall_mem_cons.mpr
      ⟨ends (start e.tables), List.forall_mem_map.mpr ((List.forall₂_and_left _ _).mp own).1⟩

end Parser

end OberonFront
