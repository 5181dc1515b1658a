import OberonFront.Proofs.Machine.Check
import OberonFront.Proofs.Machine.History

/-!
# What a grammar can report

Which problems a production can report depends on the lookaheads at which it is
called.  A check goes through the production with the lookaheads that are
possible there: a test leaves fewer of them, and behind the first part of a
sequence any of them is possible again.  Where the check passes, no run attempts
any other report, whether or not it would be passed on.
-/

namespace OberonFront

variable {N : Type}

/-- Some problems, and the nonterminals that are called only where they can start. -/
structure Repertoire (N : Type) where
  guide : Guide N
  guarded : N → Bool
  codes : List Nat

namespace Repertoire

def calls (r : Repertoire N) (n : N) : List Kind :=
  if r.guarded n then r.guide.first n else r.guide.kinds

/-- Whether an action reports none but the problems of the repertoire, and calls nonterminals only
where this is allowed, if it begins at one of the lookaheads `look`. -/
def covers (r : Repertoire N) (look : List Kind) : Action N → Bool
  | .skip | .get => true
  | .expect kind | .expectWeak kind _ => look.all (· == kind) || r.codes.contains kind
  | .fail code => look.isEmpty || r.codes.contains code
  | .call n => look.all (r.calls n).contains
  | .seq a b => r.covers look a && r.covers r.guide.kinds b
  | .ifElse test a b =>
      r.covers (look.filter (test.admits r.guide.tables ·)) a &&
        r.covers (look.filter (!test.admits r.guide.tables ·)) b
  | .whileDo test body => r.covers (r.guide.kinds.filter (test.admits r.guide.tables ·)) body
  | .separated kind _ _ body => r.codes.contains kind && r.covers r.guide.kinds body

def Sound (r : Repertoire N) (g : Grammar N) : Prop :=
  ∀ n, r.covers (r.calls n) (g.body n) = true

/-- Pending actions keep to the repertoire, the first one at the present lookahead and the others
at any. -/
def Awaits (r : Repertoire N) (m : Machine N) : Prop :=
  ∀ a rest, m.pending = a :: rest →
    (∃ look, m.parser.lookahead.kind ∈ look ∧ r.covers look a = true) ∧
      ∀ b ∈ rest, r.covers r.guide.kinds b = true

section

variable {r : Repertoire N} {p q : Parser} {a : Action N} {rest left : List (Action N)}
  {look : List Kind} {f : Option Fault}

theorem awaits_cons (here : p.lookahead.kind ∈ look) (first : r.covers look a = true)
    (others : ∀ b ∈ rest, r.covers r.guide.kinds b = true) : r.Awaits ⟨p, a :: rest, f⟩ := by
  rintro b bs eq
  cases eq
  exact ⟨⟨look, here, first⟩, others⟩

theorem awaits_of_forall (visible : p.lookahead.kind ≤ r.guide.tables.maxKind)
    (h : ∀ b ∈ left, r.covers r.guide.kinds b = true) : r.Awaits ⟨p, left, f⟩ := by
  rintro b bs eq
  cases eq
  obtain ⟨first, others⟩ := List.forall_mem_cons.mp h
  exact ⟨⟨_, Guide.mem_kinds.mpr visible, first⟩, others⟩

theorem awaits_branch (visible : p.lookahead.kind ≤ r.guide.tables.maxKind)
    (answer : Except Fault Bool) (yes : ∀ b ∈ rest, r.covers r.guide.kinds b = true)
    (no : ∀ b ∈ left, r.covers r.guide.kinds b = true) :
    r.Awaits (.branch p answer rest left) := by
  match answer with
  | .ok true => exact awaits_of_forall visible yes
  | .ok false => exact awaits_of_forall visible no
  | .error fault => exact awaits_of_forall visible fun _ mem => absurd mem List.not_mem_nil

theorem codes_of_covers (here : p.lookahead.kind ∈ look) (h : r.covers look a = true) {code : Nat}
    (mem : .report code ∈ a.events p) : code ∈ r.codes := by
  cases a with
  | skip | seq | call | ifElse | whileDo => exact absurd mem List.not_mem_nil
  | get => simp [Action.events] at mem
  | fail c =>
      simp only [covers, Bool.or_eq_true, List.isEmpty_iff, List.contains_iff_mem] at h
      cases List.mem_singleton.mp mem
      exact h.resolve_left (List.ne_nil_of_mem here)
  | expect kind =>
      simp only [covers, Bool.or_eq_true, List.all_eq_true, List.contains_iff_mem] at h
      obtain ⟨rfl, missing⟩ := Parser.of_report_mem_expectEvents mem
      exact h.resolve_left fun all => missing (eq_of_beq (all _ here))
  | expectWeak kind follow =>
      simp only [covers, Bool.or_eq_true, List.all_eq_true, List.contains_iff_mem] at h
      obtain ⟨rfl, missing⟩ := Parser.of_report_mem_expectWeakEvents mem
      exact h.resolve_left fun all => missing (eq_of_beq (all _ here))
  | separated kind element behind body =>
      simp only [covers, Bool.and_eq_true, List.contains_iff_mem] at h
      rw [Parser.eq_of_report_mem_weakSeparatorEvents mem]
      exact h.1

end

/-! ## Runs -/

section

open Pace (Going)

variable {r : Repertoire N} {g : Grammar N} {pace : Pace N} {p : Parser} {a : Action N}
  {rest : List (Action N)} {f : Option Fault}

/-- One step keeps to the repertoire, and so will the next ones. -/
theorem awaits_step (sound : r.Sound g) (paceSound : pace.Sound g)
    (same : pace.tables = r.guide.tables) (going : Going pace ⟨p, a :: rest, f⟩)
    (awaits : r.Awaits ⟨p, a :: rest, f⟩) : r.Awaits (g.step ⟨p, a :: rest, f⟩) := by
  obtain ⟨⟨look, here, first⟩, others⟩ := awaits a rest rfl
  have paced := going.paced a (List.mem_cons_self ..)
  have tables : p.tables = r.guide.tables := going.tables_eq.trans same
  have visible : p.lookahead.kind ≤ r.guide.tables.maxKind := same ▸ going.visible
  have visible' : (g.step ⟨p, a :: rest, f⟩).parser.lookahead.kind ≤ r.guide.tables.maxKind :=
    same ▸ (Pace.step_going paceSound going).1.visible
  rw [Grammar.step_cons] at visible' ⊢
  cases a with
  | skip | get | expect | fail => exact awaits_of_forall visible' others
  | seq a b =>
      simp only [covers, Bool.and_eq_true] at first
      exact awaits_cons here first.1 (List.forall_mem_cons.mpr ⟨first.2, others⟩)
  | expectWeak kind follow =>
      simp only [Grammar.perform] at visible' ⊢
      split at visible'
      · exact awaits_of_forall visible' others
      · exact awaits_of_forall visible' fun _ mem => absurd mem List.not_mem_nil
  | call n =>
      simp only [covers, List.all_eq_true, List.contains_iff_mem] at first
      exact awaits_cons (first _ here) (sound n) others
  | ifElse test a b =>
      simp only [Pace.paced, Bool.and_eq_true] at paced
      simp only [covers, Bool.and_eq_true] at first
      rw [Grammar.perform_ifElse (going.tables_eq ▸ paced.1.1), tables]
      split
      · rename_i admitted
        exact awaits_cons (List.mem_filter.mpr ⟨here, admitted⟩) first.1 others
      · rename_i refused
        exact awaits_cons (List.mem_filter.mpr ⟨here, by simpa using refused⟩) first.2 others
  | whileDo test body =>
      simp only [Pace.paced, Bool.and_eq_true] at paced
      rw [Grammar.perform_whileDo (going.tables_eq ▸ paced.1.1), tables]
      split
      · rename_i admitted
        exact awaits_cons (List.mem_filter.mpr ⟨Guide.mem_kinds.mpr visible, admitted⟩) first
          (List.forall_mem_cons.mpr ⟨first, others⟩)
      · exact awaits_of_forall visible others
  | separated kind element behind body =>
      have all := first
      simp only [covers, Bool.and_eq_true] at first
      simp only [Grammar.perform, Grammar.parser_branch] at visible' ⊢
      exact awaits_branch visible' _
        (List.forall_mem_cons.mpr ⟨first.2, List.forall_mem_cons.mpr ⟨all, others⟩⟩) others

/-- However many steps are taken, no report but those of the repertoire is attempted. -/
theorem mem_codes_of_mem_log (sound : r.Sound g) (paceSound : pace.Sound g)
    (same : pace.tables = r.guide.tables) {m : Machine N} (going : Going pace m)
    (awaits : r.Awaits m) {n code : Nat} (mem : .report code ∈ g.log n m) : code ∈ r.codes := by
  induction n generalizing m with
  | zero => exact absurd mem List.not_mem_nil
  | succ n ih =>
      obtain ⟨p, pending, f⟩ := m
      cases pending with
      | nil =>
          rw [Grammar.log_of_done rfl] at mem
          exact absurd mem List.not_mem_nil
      | cons a rest =>
          rcases List.mem_append.mp mem with now | later
          · obtain ⟨⟨look, here, first⟩, -⟩ := awaits a rest rfl
            exact codes_of_covers here first now
          · exact ih (Pace.step_going paceSound going).1
              (awaits_step sound paceSound same going awaits) later

end

end Repertoire

end OberonFront
