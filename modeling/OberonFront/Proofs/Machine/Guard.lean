import OberonFront.Proofs.Machine.History

/-!
# What productions rely on

A production consumes some tokens without a question, as the lookahead is known
there.  It can be read off the productions that this is never the end of the
text, and that the sets they ask for are there.
-/

namespace OberonFront

variable {N : Type}

/-! ## Sets -/

def Test.sets : Test → List Nat
  | sees _ => []
  | starts set => [set]

def Action.sets : Action N → List Nat
  | .expectWeak _ follow => [follow]
  | .seq a b => a.sets ++ b.sets
  | .ifElse test a b => test.sets ++ (a.sets ++ b.sets)
  | .whileDo test body => test.sets ++ body.sets
  | .separated _ element behind body => [element, behind, 0] ++ body.sets
  | .skip | .get | .expect _ | .fail _ | .call _ => []

theorem Test.lt_of_mem_sets {tables : Tables} {test : Test} (h : test.defined tables = true)
    {set : Nat} (mem : set ∈ test.sets) : set < tables.sets.length := by
  cases test with
  | sees kinds => cases mem
  | starts index =>
      cases List.mem_singleton.mp mem
      exact of_decide_eq_true h

theorem Pace.lt_of_mem_sets {pace : Pace N} {a : Action N} (h : pace.paced a = true) {set : Nat}
    (mem : set ∈ a.sets) : set < pace.tables.sets.length := by
  induction a with
  | skip | get | expect | fail | call => cases mem
  | expectWeak kind follow =>
      cases List.mem_singleton.mp mem
      exact of_decide_eq_true h
  | seq a b iha ihb =>
      simp only [paced, Bool.and_eq_true] at h
      exact (List.mem_append.mp mem).elim (iha h.1) (ihb h.2)
  | ifElse test a b iha ihb =>
      simp only [paced, Bool.and_eq_true] at h
      rcases List.mem_append.mp mem with asked | mem
      · exact Test.lt_of_mem_sets h.1.1 asked
      · exact (List.mem_append.mp mem).elim (iha h.1.2) (ihb h.2)
  | whileDo test body ih =>
      simp only [paced, Bool.and_eq_true] at h
      exact (List.mem_append.mp mem).elim (Test.lt_of_mem_sets h.1.1) (ih h.1.2)
  | separated kind element behind body ih =>
      simp only [paced, Bool.and_eq_true, decide_eq_true_eq] at h
      obtain ⟨⟨⟨⟨⟨-, element_lt⟩, behind_lt⟩, body_paced⟩, -⟩, -⟩ := h
      simp only [Action.sets, List.cons_append, List.nil_append, List.mem_cons] at mem
      rcases mem with rfl | rfl | rfl | mem
      · exact element_lt
      · exact behind_lt
      · exact Nat.zero_lt_of_lt element_lt
      · exact ih body_paced mem

/-! ## The end of the text -/

namespace Action

/-- Whether an action leaves the end of the text alone.  Where it begins the lookahead may be the
end of the text only if `ended`, but behind its first part it may be so in any case. -/
def sparesEnd (tables : Tables) (ended : Bool) : Action N → Bool
  | .get => !ended
  | .expect kind | .expectWeak kind _ => kind != Kind.eof
  | .seq a b => a.sparesEnd tables ended && b.sparesEnd tables true
  | .ifElse test a b =>
      a.sparesEnd tables (ended && test.admits tables Kind.eof) &&
        b.sparesEnd tables (ended && !test.admits tables Kind.eof)
  | .whileDo test body => body.sparesEnd tables (test.admits tables Kind.eof)
  | .separated kind _ _ body => kind != Kind.eof && body.sparesEnd tables true
  | .skip | .fail _ | .call _ => true

variable {tables : Tables} {a : Action N} {ended ended' : Bool}

theorem sparesEnd_of_le (h : a.sparesEnd tables ended = true) (le : ended' = true → ended = true) :
    a.sparesEnd tables ended' = true := by
  induction a generalizing ended ended' with
  | skip | fail | call | expect | expectWeak | whileDo | separated => exact h
  | get =>
      simp only [sparesEnd, Bool.not_eq_true'] at h ⊢
      exact Bool.eq_false_iff.mpr fun eof => by simp [le eof] at h
  | seq a b iha ihb =>
      simp only [sparesEnd, Bool.and_eq_true] at h ⊢
      exact ⟨iha h.1 le, h.2⟩
  | ifElse test a b iha ihb =>
      simp only [sparesEnd, Bool.and_eq_true] at h ⊢
      refine ⟨iha h.1 fun both => ?_, ihb h.2 fun both => ?_⟩
      · rw [Bool.and_eq_true] at both ⊢
        exact ⟨le both.1, both.2⟩
      · rw [Bool.and_eq_true] at both ⊢
        exact ⟨le both.1, both.2⟩

end Action

def Machine.SparesEnd (tables : Tables) (m : Machine N) : Prop :=
  ∀ a rest, m.pending = a :: rest →
    a.sparesEnd tables (m.parser.lookahead.kind == Kind.eof) = true ∧
      ∀ b ∈ rest, b.sparesEnd tables true = true

namespace Machine

variable {tables : Tables} {p : Parser} {a : Action N} {rest left : List (Action N)}
  {f : Option Fault}

theorem sparesEnd_cons (first : a.sparesEnd tables (p.lookahead.kind == Kind.eof) = true)
    (others : ∀ b ∈ rest, b.sparesEnd tables true = true) :
    SparesEnd tables ⟨p, a :: rest, f⟩ := by
  rintro b bs eq
  cases eq
  exact ⟨first, others⟩

theorem sparesEnd_of_forall (h : ∀ b ∈ left, b.sparesEnd tables true = true) :
    SparesEnd tables ⟨p, left, f⟩ := by
  rintro b bs eq
  cases eq
  obtain ⟨first, others⟩ := List.forall_mem_cons.mp h
  exact ⟨Action.sparesEnd_of_le first fun _ => rfl, others⟩

theorem sparesEnd_branch (answer : Except Fault Bool)
    (yes : ∀ b ∈ rest, b.sparesEnd tables true = true)
    (no : ∀ b ∈ left, b.sparesEnd tables true = true) :
    SparesEnd tables (branch p answer rest left) := by
  match answer with
  | .ok true => exact sparesEnd_of_forall yes
  | .ok false => exact sparesEnd_of_forall no
  | .error fault => exact sparesEnd_of_forall fun _ mem => absurd mem List.not_mem_nil

end Machine

namespace Pace

open Machine (sparesEnd_cons sparesEnd_of_forall sparesEnd_branch)

variable {g : Grammar N} {pace : Pace N} {p : Parser} {a : Action N} {rest : List (Action N)}
  {f : Option Fault}

/-- One step leaves the end of the text alone, and so will the next ones. -/
theorem sparesEnd_step (productions : ∀ n, (g.body n).sparesEnd pace.tables true = true)
    (going : Going pace ⟨p, a :: rest, f⟩)
    (spares : Machine.SparesEnd pace.tables ⟨p, a :: rest, f⟩) :
    p.SparesEnd (a.events p) ∧ (g.step ⟨p, a :: rest, f⟩).SparesEnd pace.tables := by
  obtain ⟨first, others⟩ := spares a rest rfl
  have paced := going.paced a (List.mem_cons_self ..)
  have tables : p.tables = pace.tables := going.tables_eq
  rw [Grammar.step_cons]
  cases a with
  | skip => exact ⟨p.sparesEnd_nil, sparesEnd_of_forall others⟩
  | seq a b =>
      simp only [Action.sparesEnd, Bool.and_eq_true] at first
      exact ⟨p.sparesEnd_nil,
        sparesEnd_cons first.1 (List.forall_mem_cons.mpr ⟨first.2, others⟩)⟩
  | get =>
      have real : p.lookahead.kind ≠ Kind.eof := by simpa [Action.sparesEnd] using first
      exact ⟨Parser.sparesEnd_consume real, sparesEnd_of_forall others⟩
  | expect kind =>
      have real : kind ≠ Kind.eof := by simpa [Action.sparesEnd] using first
      exact ⟨p.sparesEnd_expectEvents real, sparesEnd_of_forall others⟩
  | expectWeak kind follow =>
      have real : kind ≠ Kind.eof := by simpa [Action.sparesEnd] using first
      refine ⟨p.sparesEnd_expectWeakEvents real follow, ?_⟩
      simp only [Grammar.perform]
      split
      · exact sparesEnd_of_forall others
      · exact sparesEnd_of_forall fun _ mem => absurd mem List.not_mem_nil
  | fail code => exact ⟨p.sparesEnd_report code, sparesEnd_of_forall others⟩
  | call n =>
      exact ⟨p.sparesEnd_nil,
        sparesEnd_of_forall (List.forall_mem_cons.mpr ⟨productions n, others⟩)⟩
  | ifElse test a b =>
      simp only [Pace.paced, Bool.and_eq_true] at paced
      simp only [Action.sparesEnd, Bool.and_eq_true] at first
      refine ⟨p.sparesEnd_nil, ?_⟩
      rw [Grammar.perform_ifElse (tables ▸ paced.1.1), tables]
      refine sparesEnd_cons ?_ others
      -- The branch is chosen by the kind of the lookahead, so the answer for the end is known.
      split
      · rename_i admitted
        refine Action.sparesEnd_of_le first.1 fun eof => ?_
        rwa [eof, Bool.true_and, ← eq_of_beq eof]
      · rename_i refused
        refine Action.sparesEnd_of_le first.2 fun eof => ?_
        rwa [eof, Bool.true_and, ← eq_of_beq eof, Bool.not_eq_true', ← Bool.not_eq_true]
  | whileDo test body =>
      simp only [Pace.paced, Bool.and_eq_true] at paced
      refine ⟨p.sparesEnd_nil, ?_⟩
      rw [Grammar.perform_whileDo (tables ▸ paced.1.1), tables]
      split
      · rename_i admitted
        -- A later round asks again, so the loop itself may be pending at the end of the text.
        refine sparesEnd_cons (Action.sparesEnd_of_le first fun eof => ?_)
          (List.forall_mem_cons.mpr ⟨first, others⟩)
        rwa [← eq_of_beq eof]
      · exact sparesEnd_of_forall others
  | separated kind element behind body =>
      have all := first
      simp only [Action.sparesEnd, Bool.and_eq_true, bne_iff_ne] at first
      refine ⟨p.sparesEnd_weakSeparatorEvents first.1 element behind, ?_⟩
      exact sparesEnd_branch _
        (List.forall_mem_cons.mpr ⟨first.2, List.forall_mem_cons.mpr ⟨all, others⟩⟩) others

/-- However many steps are taken, the end of the text is not consumed. -/
theorem sparesEnd_log (sound : pace.Sound g)
    (productions : ∀ n, (g.body n).sparesEnd pace.tables true = true) {m : Machine N}
    (going : Going pace m) (spares : m.SparesEnd pace.tables) (n : Nat) :
    m.parser.SparesEnd (g.log n m) := by
  induction n generalizing m with
  | zero => exact m.parser.sparesEnd_nil
  | succ n ih =>
      obtain ⟨p, pending, f⟩ := m
      cases pending with
      | nil =>
          rw [Grammar.log_of_done rfl]
          exact p.sparesEnd_nil
      | cons a rest =>
          obtain ⟨now, spares'⟩ := sparesEnd_step productions going spares
          have later := ih (step_going sound going).1 spares'
          rw [Grammar.parser_step] at later
          exact Parser.sparesEnd_append.mpr ⟨now, later⟩

end Pace

end OberonFront
