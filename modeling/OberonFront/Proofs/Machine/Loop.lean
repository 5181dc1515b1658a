import OberonFront.Proofs.Machine.History
import OberonFront.Proofs.Parser.Resync

/-!
# Loops over the elements of a list

A machine works off a loop in rounds: the parser decides whether another element
follows, and then the body reads it.  As every round leaves less to be consumed,
the machine gets done with the loop if it gets done with the body each time.
-/

namespace OberonFront

variable {N : Type}

namespace Grammar

def Halts (g : Grammar N) (m : Machine N) : Prop := ∃ n, (g.step^[n] m).pending = []

variable {g : Grammar N} {p : Parser} {a : Action N} {rest as : List (Action N)}
  {m m' : Machine N}

theorem Reaches.halts (reaches : g.Reaches m m') (h : g.Halts m') : g.Halts m := by
  obtain ⟨i, rfl⟩ := reaches
  obtain ⟨n, done⟩ := h
  refine ⟨n + i, ?_⟩
  rwa [Function.iterate_add_apply]

/-- Where an action ends in a fault, it does so whatever is pending behind it. -/
theorem pending_perform_of_fault (h : (g.perform a p rest).fault? ≠ none)
    (below : List (Action N)) : (g.perform a p below).pending = [] := by
  have branch {r : Parser} {answer : Except Fault Bool} {yes no yes' no' : List (Action N)}
      (h : (Machine.branch r answer yes no).fault? ≠ none) :
      (Machine.branch r answer yes' no').pending = [] := by
    rcases answer with fault | _ | _
    · rfl
    · exact absurd rfl h
    · exact absurd rfl h
  cases a with
  | skip | seq | get | expect | fail | call => exact absurd rfl h
  | expectWeak kind follow =>
      simp only [perform] at h ⊢
      rcases answer : p.expectWeak kind follow with ⟨q, fault | _⟩
      · rfl
      · rw [answer] at h
        exact absurd rfl h
  | ifElse | whileDo | separated => exact branch h

/-- What is done with more pending below is the same, unless all of it is given up. -/
theorem halts_or_reaches {n : Nat} (h : (g.step^[n] ⟨p, as, none⟩).pending = [])
    (below : List (Action N)) : g.Halts ⟨p, as ++ below, none⟩ ∨
      g.Reaches ⟨p, as ++ below, none⟩ ⟨p.replay (g.log n ⟨p, as, none⟩), below, none⟩ := by
  induction n generalizing p as with
  | zero =>
      cases h
      exact .inr (.refl _)
  | succ n ih =>
      cases as with
      | nil =>
          rw [log_of_done rfl]
          exact .inr (.refl _)
      | cons a rest =>
          rw [Function.iterate_succ_apply] at h
          have events := parser_step g ⟨p, a :: rest, none⟩
          rw [log, Parser.replay_append, ← events]
          rw [step_cons] at h ⊢
          rcases next : g.perform a p rest with ⟨q, left, _ | fault⟩
          · rw [next] at h
            have step : g.step ⟨p, a :: rest ++ below, none⟩ = ⟨q, left ++ below, none⟩ :=
              perform_append below next
            refine (ih h).imp (fun halts => ?_) fun reaches => ?_
            · exact (Reaches.of_step step).halts halts
            · exact (Reaches.of_step step).trans reaches
          · have stops : (g.perform a p rest).fault? ≠ none := by simp [next]
            exact .inl ⟨1, pending_perform_of_fault stops _⟩

/-- From whichever parser on, the machine gets done with an action, and it consumes something
where one of a set is the lookahead. -/
def Reads (g : Grammar N) (a : Action N) (tables : Tables) (start : KindSet) : Prop :=
  ∀ p : Parser, p.tables = tables → ∃ n, (g.step^[n] ⟨p, [a], none⟩).pending = [] ∧
    (start.contains p.lookahead.kind = true → .consume ∈ g.log n ⟨p, [a], none⟩)

/-- A machine gets done with a loop over the elements of a list if it reads an element where one
starts. -/
theorem halts_separated {kind : Kind} {element behind : Nat} {body : Action N} {E B Z : KindSet}
    (real : kind ≠ Kind.eof) (hE : p.tables.set element = .ok E)
    (hB : p.tables.set behind = .ok B) (hZ : p.tables.set 0 = .ok Z)
    (inner : E.contains Kind.eof = false) (reads : g.Reads body p.tables E) :
    g.Halts ⟨p, [.separated kind element behind body], none⟩ := by
  induction left : p.remaining using Nat.strong_induction_on generalizing p with
  | _ n ih =>
      subst left
      obtain ⟨q, answer, eq, tables, less⟩ := Parser.weakSeparator_progress real hE hB hZ inner
      have step : g.step ⟨p, [.separated kind element behind body], none⟩ =
          .branch q (.ok answer) [body, .separated kind element behind body] [] := by
        rw [step_cons, perform, eq]
      cases answer with
      | false => exact ⟨1, by rw [Function.iterate_one, step]; rfl⟩
      | true =>
          refine (Reaches.of_step step).halts ?_
          obtain ⟨n, done, consumes⟩ := reads q tables
          refine (halts_or_reaches done _).elim id fun reaches => reaches.halts ?_
          have fewer := less rfl ((g.log n ⟨q, [body], none⟩).map (·.deed q.tables))
            fun starts => List.mem_map.mpr ⟨.consume, consumes starts, rfl⟩
          rw [q.after_map_deed] at fewer
          have same : (q.replay (g.log n ⟨q, [body], none⟩)).tables = p.tables := by
            rw [← q.after_map_deed, Parser.tables_after, tables]
          exact ih _ fewer (same ▸ hE) (same ▸ hB) (same ▸ hZ) (same ▸ reads) rfl

end Grammar

end OberonFront
