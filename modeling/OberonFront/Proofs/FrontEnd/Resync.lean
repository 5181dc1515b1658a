import OberonFront.Proofs.FrontEnd.Consumption
import OberonFront.Proofs.Machine.Loop

/-!
# Recovery at a token

Where a parser may go on behind a missing token is decided by the sets of its
tables, whatever these are.
-/

namespace OberonFront

namespace Parser

/-- Whoever expects a token weakly, or asks for a separator, consumes it if it is there.
Otherwise one report is attempted, and just the tokens in front of the next place to go on are
consumed.  A loop over the elements of a list comes to an end, whether its rounds are given as
deeds or as an action of a machine. -/
theorem resynchronizes {tables : Tables} {follow element behind : Nat} {F E B Z : KindSet}
    (hF : tables.set follow = .ok F) (hE : tables.set element = .ok E)
    (hB : tables.set behind = .ok B) (hZ : tables.set 0 = .ok Z) (kind : Kind) :
    (∀ p : Parser, p.tables = tables → p.AtToken →
      ExpectsWeakly p kind follow F ∧ SeparatesWeakly p kind element behind E B Z) ∧
    (kind ≠ Kind.eof → E.contains Kind.eof = false →
      (∀ body : Nat → Parser → List Deed,
        (∀ i p, p.tables = tables → E.contains p.lookahead.kind = true → .consume ∈ body i p) →
          ∀ i p, p.tables = tables → ∃ q, Separated kind element behind body i p q) ∧
      ∀ {N : Type} (g : Grammar N) (body : Action N), g.Reads body tables E →
        ∀ p, p.tables = tables → g.Halts ⟨p, [.separated kind element behind body], none⟩) := by
  refine ⟨?once, fun real inner => ⟨?deeds, ?machine⟩⟩
  case once =>
    rintro p rfl here
    exact ⟨here.closed.expectsWeakly hF kind, here.closed.separatesWeakly hE hB hZ kind⟩
  case deeds =>
    rintro body consumes i p rfl
    exact exists_separated real hE hB hZ inner consumes i
  case machine =>
    rintro N g body reads p rfl
    exact Grammar.halts_separated real hE hB hZ inner reads

end Parser

namespace FrontEnd

open Oberon0 (declarationSync semicolon sets statementFollow statementStart)

/-- The parser that has a token as its lookahead for the first time. -/
theorem atToken_reader (e : FrontEnd) (source : String) (q : Queue) :
    (e.reader source q).get.AtToken := by
  have consumes : Deed.consume ∈ [Deed.consume] := List.mem_singleton_self _
  exact Parser.atToken_after e.tables (e.lex source) q consumes

/-- Three tokens that start no statement, in front of one that does. -/
theorem resynchronizes_statement :
    let p := (oberon0.reader "= 1 ] x" (.keeping "")).get
    let events : List Event := [.report semicolon, .consume, .consume, .consume]
    (oberon0.tables.set declarationSync = .ok sets[declarationSync] ∧
      oberon0.tables.set statementStart = .ok sets[statementStart] ∧
      oberon0.tables.set statementFollow = .ok sets[statementFollow] ∧
      oberon0.tables.set 0 = .ok sets[0]) ∧
    p.AtToken ∧
    p.expectWeak semicolon declarationSync = (p.replay events, .ok ()) ∧
    p.weakSeparator semicolon statementStart statementFollow = (p.replay events, .ok true) ∧
    (∃ q, Parser.Separated semicolon statementStart statementFollow (fun _ _ => [.consume]) 0 p q) ∧
    Oberon0.grammar.Halts ⟨p, [.separated semicolon statementStart statementFollow .get], none⟩ := by
  intro p events
  have hF : oberon0.tables.set declarationSync = .ok sets[declarationSync] := rfl
  have hE : oberon0.tables.set statementStart = .ok sets[statementStart] := rfl
  have hB : oberon0.tables.set statementFollow = .ok sets[statementFollow] := rfl
  have hZ : oberon0.tables.set 0 = .ok sets[0] := rfl
  have here : p.AtToken := oberon0.atToken_reader _ _
  have missing : p.lookahead.kind ≠ semicolon := by decide +kernel
  obtain ⟨once, loops⟩ := Parser.resynchronizes hF hE hB hZ semicolon
  obtain ⟨deeds, machine⟩ := loops (by decide) (by decide +kernel)
  obtain ⟨expects, separates⟩ := once p rfl here
  refine ⟨⟨hF, hE, hB, hZ⟩, here, ?expects, ?separates, ?deeds, ?machine⟩
  case expects =>
    obtain ⟨q, eq, resyncs⟩ := expects.resyncs missing
    have three : (p.skipped sets[declarationSync]).length = 3 := by decide +kernel
    rw [eq, ← resyncs.replay_eq, resyncs.events_eq, three]
    rfl
  case separates =>
    obtain ⟨q, eq, resyncs⟩ := separates.resyncs missing (by decide +kernel)
    have three :
        (p.skipped (sets[statementStart] ∪ sets[statementFollow] ∪ sets[0])).length = 3 := by
      decide +kernel
    have starts : sets[statementStart].contains (p.replay events).lookahead.kind = true := by
      decide +kernel
    have same : p.replay events = q := by
      rw [← resyncs.replay_eq, resyncs.events_eq, three]
      rfl
    rw [eq, ← same, starts]
  case deeds => exact deeds _ (fun _ _ _ _ => List.mem_singleton_self _) 0 p rfl
  case machine =>
    exact machine _ _ (fun q _ => ⟨1, rfl, fun _ => List.mem_singleton_self _⟩) p rfl

end FrontEnd

end OberonFront
