import OberonFront.Parser.Machine
import OberonFront.Proofs.Parser.Operations

/-!
# Single steps and runs of the machine

What each action does in one step where the tables have the sets it asks for,
and how steps compose.  A run with fuel is a number of steps, and a machine that
is done stays as it is, so the fuel does not matter once it suffices.  What is
pending below the present work has no influence on it.
-/

namespace OberonFront

namespace Test

/-- Whether the tables have the set that is asked for. -/
def defined (tables : Tables) : Test → Bool
  | sees _ => true
  | starts set => decide (set < tables.sets.length)

def admits (tables : Tables) (kind : Kind) : Test → Bool
  | sees kinds => kinds.contains kind
  | starts set => tables.admits set kind

theorem holds_eq {test : Test} {p : Parser} (h : test.defined p.tables = true) :
    test.holds p = .ok (test.admits p.tables p.lookahead.kind) := by
  cases test with
  | sees kinds => rfl
  | starts set => exact Tables.startOf_eq_admits (of_decide_eq_true h) _

end Test

namespace Grammar

variable {N : Type} {g : Grammar N} {p : Parser} {rest : List (Action N)}

theorem step_cons (a : Action N) (f : Option Fault) :
    g.step ⟨p, a :: rest, f⟩ = g.perform a p rest := rfl

theorem step_of_done {m : Machine N} (h : m.pending = []) : g.step m = m := by
  unfold step
  rw [h]

theorem perform_expect_of_eq {k : Kind} (h : p.lookahead.kind = k) :
    g.perform (.expect k) p rest = ⟨p.get, rest, none⟩ := by
  simp only [perform, Parser.expect_eq, if_pos h]

theorem perform_expect_of_ne {k : Kind} (h : p.lookahead.kind ≠ k) :
    g.perform (.expect k) p rest = ⟨p.fail k, rest, none⟩ := by
  simp only [perform, Parser.expect_eq, if_neg h]

theorem perform_expectWeak_of_eq {k : Kind} {set : Nat} (h : p.lookahead.kind = k) :
    g.perform (.expectWeak k set) p rest = ⟨p.get, rest, none⟩ := by
  simp only [perform, Parser.expectWeak_eq, if_pos h]

theorem perform_expectWeak_of_ne {k : Kind} {set : Nat} (h : p.lookahead.kind ≠ k)
    (hs : set < p.tables.sets.length) :
    g.perform (.expectWeak k set) p rest =
      ⟨(p.fail k).skipTo p.tables.sets[set], rest, none⟩ := by
  simp only [perform, Parser.expectWeak_eq, if_neg h, Tables.set_of_lt hs]

theorem perform_ifElse {test : Test} {a b : Action N} (h : test.defined p.tables = true) :
    g.perform (.ifElse test a b) p rest =
      ⟨p, (if test.admits p.tables p.lookahead.kind then a else b) :: rest, none⟩ := by
  simp only [perform, Test.holds_eq h]
  cases test.admits p.tables p.lookahead.kind <;> rfl

theorem perform_whileDo {test : Test} {body : Action N} (h : test.defined p.tables = true) :
    g.perform (.whileDo test body) p rest =
      ⟨p, if test.admits p.tables p.lookahead.kind then body :: .whileDo test body :: rest
        else rest, none⟩ := by
  simp only [perform, Test.holds_eq h]
  cases test.admits p.tables p.lookahead.kind <;> rfl

section separated

variable {k : Kind} {element behind : Nat} {body : Action N}

theorem perform_separated_of_eq (h : p.lookahead.kind = k) :
    g.perform (.separated k element behind body) p rest =
      ⟨p.get, body :: .separated k element behind body :: rest, none⟩ := by
  simp only [perform, Parser.weakSeparator_eq, if_pos h]
  rfl

theorem perform_separated_of_behind (h : p.lookahead.kind ≠ k)
    (hb : behind < p.tables.sets.length)
    (admitted : p.tables.admits behind p.lookahead.kind = true) :
    g.perform (.separated k element behind body) p rest = ⟨p, rest, none⟩ := by
  simp only [perform, Parser.weakSeparator_eq, if_neg h, Parser.startOf,
    Tables.startOf_eq_admits hb, admitted]
  rfl

def separatorStop (tables : Tables) (element behind : Nat) : KindSet :=
  tables.sets[element]?.getD ∅ ∪ tables.sets[behind]?.getD ∅ ∪ tables.sets[0]?.getD ∅

theorem perform_separated_of_missing (h : p.lookahead.kind ≠ k)
    (he : element < p.tables.sets.length) (hb : behind < p.tables.sets.length)
    (missing : p.tables.admits behind p.lookahead.kind = false) :
    let q := (p.fail k).skipTo (separatorStop p.tables element behind)
    g.perform (.separated k element behind body) p rest =
      ⟨q, if p.tables.admits element q.lookahead.kind then
          body :: .separated k element behind body :: rest
        else rest, none⟩ := by
  have h0 : 0 < p.tables.sets.length := Nat.zero_lt_of_lt hb
  have stop : p.separatorStop element behind =
      .ok (separatorStop p.tables element behind) := by
    simp only [Parser.separatorStop, Tables.set_of_lt he, Tables.set_of_lt hb,
      Tables.set_of_lt h0, separatorStop, List.getElem?_eq_getElem he,
      List.getElem?_eq_getElem hb, List.getElem?_eq_getElem h0]
    rfl
  intro q
  have answer : q.startOf element = .ok (p.tables.admits element q.lookahead.kind) := by
    have tables : q.tables = p.tables := by simp [q]
    rw [Parser.startOf, tables]
    exact Tables.startOf_eq_admits he _
  simp only [perform, Parser.weakSeparator_eq, if_neg h, Parser.startOf,
    Tables.startOf_eq_admits hb, missing, stop]
  change Machine.branch q (q.startOf element) _ _ = _
  rw [answer]
  cases p.tables.admits element q.lookahead.kind <;> rfl

end separated

/-- What is pending below does not matter, unless everything is given up. -/
theorem perform_append {a : Action N} (below : List (Action N)) {q : Parser}
    {left : List (Action N)} (h : g.perform a p rest = ⟨q, left, none⟩) :
    g.perform a p (rest ++ below) = ⟨q, left ++ below, none⟩ := by
  have branch {answer : Except Fault Bool} {yes no : List (Action N)} {r : Parser}
      (h : Machine.branch r answer yes no = ⟨q, left, none⟩) :
      Machine.branch r answer (yes ++ below) (no ++ below) = ⟨q, left ++ below, none⟩ := by
    match answer with
    | .ok true | .ok false =>
        cases h
        rfl
    | .error _ => cases h
  cases a with
  | skip | seq | get | expect | fail | call =>
      cases h
      rfl
  | expectWeak k set =>
      simp only [perform] at h ⊢
      match hk : p.expectWeak k set with
      | (r, .ok ()) =>
          rw [hk] at h
          cases h
          rfl
      | (r, .error fault) =>
          rw [hk] at h
          cases h
  | ifElse test a b => exact branch h
  | whileDo test body => exact branch h
  | separated k element behind body =>
      simp only [perform] at h ⊢
      exact branch h

/-! ## What is reported stays -/

@[simp] theorem parser_branch (answer : Except Fault Bool) (yes no : List (Action N)) :
    (Machine.branch p answer yes no).parser = p := by
  match answer with
  | .ok true | .ok false | .error _ => rfl

theorem retained_expectWeak (p : Parser) (k : Kind) (set : Nat) :
    p.queue.retained <+: (p.expectWeak k set).1.queue.retained := by
  rw [Parser.expectWeak_eq]
  split
  · exact List.prefix_refl _
  · split
    · rw [Parser.queue_skipTo]
      exact p.retained_fail k
    · exact p.retained_fail k

theorem retained_weakSeparator (p : Parser) (k : Kind) (element behind : Nat) :
    p.queue.retained <+: (p.weakSeparator k element behind).1.queue.retained := by
  rw [Parser.weakSeparator_eq]
  split
  · exact List.prefix_refl _
  · split
    · exact List.prefix_refl _
    · exact List.prefix_refl _
    · split
      · exact List.prefix_refl _
      · dsimp only
        rw [Parser.queue_skipTo]
        exact p.retained_fail k

theorem retained_perform (g : Grammar N) (a : Action N) (p : Parser) (rest : List (Action N)) :
    p.queue.retained <+: (g.perform a p rest).parser.queue.retained := by
  cases a with
  | skip | seq | get | call => exact List.prefix_refl _
  | fail code => exact p.retained_fail code
  | expect k =>
      by_cases h : p.lookahead.kind = k
      · rw [perform_expect_of_eq h]
        exact List.prefix_refl _
      · rw [perform_expect_of_ne h]
        exact p.retained_fail k
  | expectWeak k set =>
      have kept := retained_expectWeak p k set
      simp only [perform]
      split
      · rename_i eq
        rwa [eq] at kept
      · rename_i eq
        rwa [eq] at kept
  | ifElse test a b =>
      simp only [perform, parser_branch]
      exact List.prefix_refl _
  | whileDo test body =>
      simp only [perform, parser_branch]
      exact List.prefix_refl _
  | separated k element behind body =>
      simp only [perform, parser_branch]
      exact retained_weakSeparator p k element behind

theorem retained_iterate (g : Grammar N) (n : Nat) (m : Machine N) :
    m.parser.queue.retained <+: (g.step^[n] m).parser.queue.retained := by
  induction n generalizing m with
  | zero => exact List.prefix_refl _
  | succ n ih =>
      refine List.IsPrefix.trans ?_ (ih (g.step m))
      unfold step
      split
      · exact List.prefix_refl _
      · exact g.retained_perform _ _ _

/-! ## Runs -/

def Reaches (g : Grammar N) (m m' : Machine N) : Prop := ∃ n, g.step^[n] m = m'

namespace Reaches

variable {m m' m'' : Machine N}

theorem refl (m : Machine N) : g.Reaches m m := ⟨0, rfl⟩

theorem trans (h : g.Reaches m m') (h' : g.Reaches m' m'') : g.Reaches m m'' := by
  obtain ⟨n, rfl⟩ := h
  obtain ⟨n', rfl⟩ := h'
  exact ⟨n' + n, Function.iterate_add_apply _ _ _ _⟩

theorem step (h : g.Reaches (g.step m) m') : g.Reaches m m' := by
  obtain ⟨n, rfl⟩ := h
  exact ⟨n + 1, rfl⟩

theorem of_step (h : g.step m = m') : g.Reaches m m' := ⟨1, h⟩

end Reaches

theorem iterate_step_of_done {m : Machine N} (h : m.pending = []) (n : Nat) :
    g.step^[n] m = m :=
  Function.iterate_fixed (step_of_done h) n

theorem run_eq_iterate (g : Grammar N) (fuel : Nat) (m : Machine N) :
    g.run fuel m = g.step^[fuel] m := by
  induction fuel generalizing m with
  | zero => rfl
  | succ fuel ih =>
      by_cases h : m.pending = []
      · rw [run, if_pos (by simp [h]), iterate_step_of_done h]
      · rw [run, if_neg (by simpa using h), ih]
        rfl

theorem eq_of_done {m : Machine N} {i j : Nat} (hi : (g.step^[i] m).pending = [])
    (hj : (g.step^[j] m).pending = []) : g.step^[i] m = g.step^[j] m := by
  rcases Nat.le_total i j with h | h
  · obtain ⟨d, rfl⟩ := Nat.exists_eq_add_of_le' h
    rw [Function.iterate_add_apply, iterate_step_of_done hi]
  · obtain ⟨d, rfl⟩ := Nat.exists_eq_add_of_le' h
    rw [Function.iterate_add_apply, iterate_step_of_done hj]

end Grammar

end OberonFront
