import Mathlib.Algebra.Order.BigOperators.Group.List
import Mathlib.Algebra.Ring.Int.Defs
import OberonFront.Proofs.Machine.Steps

/-!
# The pace of the machine

How many steps an action takes is bounded by what it takes before the first
token is consumed and a constant for each token consumed.  The bound of an
action counts a consumed token as a gain, so that a loop is sound if each round
costs nothing, and a recursion is sound if it consumes before it recurs.  From
this the machine is done within its budget, whatever the tokens are.
-/

namespace OberonFront

/-- For each nonterminal a bound on its steps, and lookaheads at which it consumes and gains at
least so much by it.  The tables are those that tests look up. -/
structure Pace (N : Type) where
  tables : Tables
  weight : N → Nat
  eager : N → List Kind
  gain : N → Nat

namespace Pace

open Grammar (stepsPerToken)

variable {N : Type}

/-- The greatest of the costs at the kinds that the parser sees, but not less than zero. -/
def greatest (pace : Pace N) (cost : Kind → Int) : Int :=
  ((List.range (pace.tables.maxKind + 1)).map cost).foldr max 0

mutual

def worst (pace : Pace N) : Action N → Int
  | .seq a b => 1 + worst pace a + worst pace b
  | .call n => 1 + pace.weight n
  | .ifElse test a b =>
      1 + pace.greatest fun k =>
        if test.admits pace.tables k then cost pace k a else cost pace k b
  | _ => 1

def cost (pace : Pace N) (k : Kind) : Action N → Int
  | .get => if k = Kind.eof then 1 else 1 - stepsPerToken
  | .expect j | .expectWeak j _ => if k = j ∧ k ≠ Kind.eof then 1 - stepsPerToken else 1
  | .seq a b => 1 + cost pace k a + worst pace b
  | .call n => if k ∈ pace.eager n then 1 - pace.gain n else 1 + pace.weight n
  | .ifElse test a b =>
      1 + if test.admits pace.tables k then cost pace k a else cost pace k b
  | _ => 1

end

/-- Whether no round of a loop in the action costs anything, and the sets that it asks for are
there. -/
def paced (pace : Pace N) : Action N → Bool
  | .expectWeak _ set => decide (set < pace.tables.sets.length)
  | .seq a b => paced pace a && paced pace b
  | .ifElse test a b => test.defined pace.tables && paced pace a && paced pace b
  | .whileDo test body =>
      test.defined pace.tables && paced pace body &&
        (List.range (pace.tables.maxKind + 1)).all fun k =>
          !test.admits pace.tables k || decide (pace.cost k body + 1 ≤ 0)
  | .separated k element behind body =>
      decide (k ≠ Kind.eof) && decide (element < pace.tables.sets.length) &&
        decide (behind < pace.tables.sets.length) && paced pace body &&
        decide (pace.worst body + 1 ≤ stepsPerToken) &&
        (List.range (pace.tables.maxKind + 1)).all fun k =>
          !pace.tables.admits element k || decide (pace.cost k body + 1 ≤ 0)
  | _ => true

structure Sound (pace : Pace N) (g : Grammar N) : Prop where
  paced : ∀ n, pace.paced (g.body n) = true
  worst : ∀ n, pace.worst (g.body n) ≤ pace.weight n
  eager : ∀ n, ∀ k ∈ pace.eager n, k ≠ Kind.eof ∧ pace.cost k (g.body n) + pace.gain n ≤ 0
  gain : ∀ n, pace.gain n ≤ stepsPerToken

variable (pace : Pace N) {k : Kind}

theorem greatest_nonneg (cost : Kind → Int) : 0 ≤ pace.greatest cost := by
  unfold greatest
  induction (List.range (pace.tables.maxKind + 1)).map cost with
  | nil => exact Int.le_refl 0
  | cons c cs ih => exact Int.le_trans ih (Int.le_max_right _ _)

theorem le_greatest (cost : Kind → Int) (hk : k ≤ pace.tables.maxKind) :
    cost k ≤ pace.greatest cost := by
  have mem : k ∈ List.range (pace.tables.maxKind + 1) := List.mem_range.mpr (Nat.lt_succ_of_le hk)
  unfold greatest
  generalize List.range (pace.tables.maxKind + 1) = kinds at mem
  induction kinds with
  | nil => cases mem
  | cons j js ih =>
      rcases List.mem_cons.mp mem with rfl | h
      · exact Int.le_max_left _ _
      · exact Int.le_trans (ih h) (Int.le_max_right _ _)

theorem one_le_worst (a : Action N) : 1 ≤ pace.worst a := by
  induction a with
  | seq a b iha ihb => simp only [worst]; omega
  | call n => simp only [worst]; omega
  | ifElse test a b iha ihb =>
      simp only [worst]
      have := pace.greatest_nonneg fun k =>
        if test.admits pace.tables k then pace.cost k a else pace.cost k b
      omega
  | skip | get | expect | expectWeak | fail | whileDo | separated =>
      simp only [worst]
      exact Int.le_refl 1

theorem cost_le_worst (hk : k ≤ pace.tables.maxKind) (a : Action N) :
    pace.cost k a ≤ pace.worst a := by
  induction a with
  | get | expect | expectWeak | call =>
      simp only [cost, worst]
      split <;> omega
  | seq a b iha ihb => simp only [cost, worst]; omega
  | ifElse test a b iha ihb =>
      simp only [cost, worst]
      have := pace.le_greatest
        (fun k => if test.admits pace.tables k then pace.cost k a else pace.cost k b) hk
      omega
  | skip | fail | whileDo | separated =>
      simp only [cost, worst]
      exact Int.le_refl 1

variable {g : Grammar N} {pace}

theorem cost_body_le (sound : pace.Sound g) (hk : k ≤ pace.tables.maxKind) (n : N) :
    pace.cost k (g.body n) + 1 ≤ pace.cost k (.call n) := by
  simp only [cost]
  split
  · rename_i h
    have := (sound.eager n k h).2
    omega
  · have := pace.cost_le_worst hk (g.body n)
    have := sound.worst n
    omega

def load (pace : Pace N) (k : Kind) : List (Action N) → Int
  | [] => 0
  | a :: as => pace.cost k a + (as.map pace.worst).sum

theorem load_le (hk : k ≤ pace.tables.maxKind) (as : List (Action N)) :
    pace.load k as ≤ (as.map pace.worst).sum := by
  cases as with
  | nil => exact Int.le_refl 0
  | cons a as =>
      have := pace.cost_le_worst hk a
      simp only [load, List.map_cons, List.sum_cons]
      omega

structure Going (pace : Pace N) (m : Machine N) : Prop where
  tables_eq : m.parser.tables = pace.tables
  visible : m.parser.lookahead.kind ≤ pace.tables.maxKind
  paced : ∀ a ∈ m.pending, pace.paced a = true
  faultless : m.fault? = none

/-- A bound on the steps that a machine still takes. -/
def potential (pace : Pace N) (m : Machine N) : Int :=
  pace.load m.parser.lookahead.kind m.pending + stepsPerToken * m.parser.remaining

theorem potential_le {m : Machine N} (visible : m.parser.lookahead.kind ≤ pace.tables.maxKind) :
    pace.potential m ≤ (m.pending.map pace.worst).sum + stepsPerToken * m.parser.remaining :=
  Int.add_le_add_right (load_le visible _) _

private theorem remaining_pos {p : Parser} (h : p.lookahead.kind ≠ Kind.eof) : 1 ≤ p.remaining := by
  unfold Parser.remaining
  rw [if_neg h]
  omega

theorem one_le_cost_add (sound : pace.Sound g) (p : Parser) (a : Action N) :
    1 ≤ pace.cost p.lookahead.kind a + stepsPerToken * p.remaining := by
  have gain (h : p.lookahead.kind ≠ Kind.eof) :
      (stepsPerToken : Int) ≤ stepsPerToken * p.remaining := by
    have := remaining_pos h
    simp only [stepsPerToken]
    omega
  have zero : (0 : Int) ≤ stepsPerToken * p.remaining := by
    simp only [stepsPerToken]
    omega
  induction a with
  | get =>
      simp only [cost]
      split
      · omega
      · have := gain ‹_›
        omega
  | expect | expectWeak =>
      simp only [cost]
      split
      · have := gain (And.right ‹_›)
        omega
      · omega
  | seq a b iha _ =>
      have := pace.one_le_worst b
      simp only [cost]
      omega
  | call n =>
      simp only [cost]
      split
      · have := gain (sound.eager n _ ‹_›).1
        have := sound.gain n
        omega
      · omega
  | ifElse test a b iha ihb =>
      simp only [cost]
      split <;> omega
  | skip | fail | whileDo | separated =>
      simp only [cost]
      omega

section steps

variable {p q : Parser} {a : Action N} {rest left : List (Action N)} {f : Option Fault}

private theorem potential_cons :
    pace.potential ⟨p, a :: rest, f⟩ =
      pace.cost p.lookahead.kind a + (rest.map pace.worst).sum +
        stepsPerToken * p.remaining := rfl

/-- A step that consumes nothing has to cost what it leaves pending and one more. -/
private theorem going_of_le (going : Going pace ⟨p, a :: rest, f⟩)
    (same : q.tables = p.tables) (visible : q.lookahead.kind ≤ p.tables.maxKind)
    (fewer : q.remaining ≤ p.remaining) (paced : ∀ b ∈ left, pace.paced b = true)
    (le : pace.load q.lookahead.kind left + 1 ≤
      pace.cost p.lookahead.kind a + (rest.map pace.worst).sum) :
    Going pace ⟨q, left, none⟩ ∧
      pace.potential ⟨q, left, none⟩ + 1 ≤ pace.potential ⟨p, a :: rest, f⟩ := by
  have htables : p.tables = pace.tables := going.tables_eq
  refine ⟨⟨same.trans htables, htables ▸ visible, paced, rfl⟩, ?_⟩
  rw [potential_cons]
  simp only [potential, stepsPerToken]
  omega

private theorem going_of_one_le (going : Going pace ⟨p, a :: rest, f⟩)
    (same : q.tables = p.tables) (visible : q.lookahead.kind ≤ p.tables.maxKind)
    (fewer : q.remaining ≤ p.remaining) (le : 1 ≤ pace.cost p.lookahead.kind a) :
    Going pace ⟨q, rest, none⟩ ∧
      pace.potential ⟨q, rest, none⟩ + 1 ≤ pace.potential ⟨p, a :: rest, f⟩ := by
  have htables : p.tables = pace.tables := going.tables_eq
  have := load_le (htables ▸ visible) rest
  exact going_of_le going same visible fewer
    (fun b hb => going.paced b (List.mem_cons_of_mem _ hb)) (by omega)

/-- A step that consumes a token may leave pending what costs a token more. -/
private theorem going_of_get (going : Going pace ⟨p, a :: rest, f⟩)
    (paced : ∀ b ∈ left, pace.paced b = true)
    (le : (left.map pace.worst).sum + 1 ≤
      pace.cost p.lookahead.kind a + (rest.map pace.worst).sum +
        if p.lookahead.kind = Kind.eof then 0 else stepsPerToken) :
    Going pace ⟨p.get, left, none⟩ ∧
      pace.potential ⟨p.get, left, none⟩ + 1 ≤ pace.potential ⟨p, a :: rest, f⟩ := by
  have htables : p.tables = pace.tables := going.tables_eq
  have visible : p.get.lookahead.kind ≤ pace.tables.maxKind := htables ▸ p.kind_get_le
  refine ⟨⟨htables, visible, paced, rfl⟩, ?_⟩
  have := load_le visible left
  rw [potential_cons]
  simp only [potential, stepsPerToken] at le ⊢
  by_cases h : p.lookahead.kind = Kind.eof
  · have := p.remaining_get_le
    rw [if_pos h] at le
    omega
  · have := Parser.remaining_get_lt h
    rw [if_neg h] at le
    omega

private theorem going_of_expected (going : Going pace ⟨p, a :: rest, f⟩)
    (le : pace.cost p.lookahead.kind a =
      if p.lookahead.kind = Kind.eof then (1 : Int) else 1 - stepsPerToken) :
    Going pace ⟨p.get, rest, none⟩ ∧
      pace.potential ⟨p.get, rest, none⟩ + 1 ≤ pace.potential ⟨p, a :: rest, f⟩ := by
  refine going_of_get going (fun b hb => going.paced b (List.mem_cons_of_mem _ hb)) ?_
  rw [le]
  split <;> omega

private theorem going_of_same (going : Going pace ⟨p, a :: rest, f⟩) (same : q.tables = p.tables)
    (lookahead : q.lookahead = p.lookahead) (fewer : q.remaining ≤ p.remaining)
    (le : 1 ≤ pace.cost p.lookahead.kind a) :
    Going pace ⟨q, rest, none⟩ ∧
      pace.potential ⟨q, rest, none⟩ + 1 ≤ pace.potential ⟨p, a :: rest, f⟩ := by
  have htables : p.tables = pace.tables := going.tables_eq
  have visible : q.lookahead.kind ≤ p.tables.maxKind := by
    rw [lookahead, htables]
    exact going.visible
  exact going_of_one_le going same visible fewer le

private theorem going_of_skipTo (going : Going pace ⟨p, a :: rest, f⟩) (code : Nat)
    (stop : KindSet) (le : 1 ≤ pace.cost p.lookahead.kind a) :
    Going pace ⟨(p.fail code).skipTo stop, rest, none⟩ ∧
      pace.potential ⟨(p.fail code).skipTo stop, rest, none⟩ + 1 ≤
        pace.potential ⟨p, a :: rest, f⟩ := by
  have htables : p.tables = pace.tables := going.tables_eq
  have visible : (p.fail code).lookahead.kind ≤ (p.fail code).tables.maxKind :=
    htables ▸ going.visible
  exact going_of_one_le going (by simp) (Parser.kind_skipTo_le visible stop)
    (Parser.remaining_skipTo_le _ stop) le

private theorem going_whileDo {test : Test} {body : Action N}
    (going : Going pace ⟨p, .whileDo test body :: rest, f⟩) :
    Going pace (g.perform (.whileDo test body) p rest) ∧
      pace.potential (g.perform (.whileDo test body) p rest) + 1 ≤
        pace.potential ⟨p, .whileDo test body :: rest, f⟩ := by
  have htables : p.tables = pace.tables := going.tables_eq
  have ha := going.paced _ (List.mem_cons_self ..)
  simp only [Pace.paced, Bool.and_eq_true, List.all_eq_true, List.mem_range, Bool.or_eq_true,
    Bool.not_eq_true', decide_eq_true_eq] at ha
  obtain ⟨⟨defined, hbody⟩, rounds⟩ := ha
  rw [Grammar.perform_whileDo (htables ▸ defined), htables]
  by_cases enters : test.admits pace.tables p.lookahead.kind = true
  · have hleft : ∀ b ∈ body :: .whileDo test body :: rest, pace.paced b = true := by
      intro b hb
      rcases List.mem_cons.mp hb with rfl | hb
      · exact hbody
      · exact going.paced b hb
    have round := rounds p.lookahead.kind (Nat.lt_succ_of_le going.visible)
    rw [if_pos enters]
    apply going_of_le going rfl (htables ▸ going.visible) (Nat.le_refl _) hleft
    simp only [enters, Bool.true_eq_false, false_or] at round
    simp only [load, cost, worst, List.map_cons, List.sum_cons]
    omega
  · rw [if_neg enters]
    apply going_of_same going rfl rfl (Nat.le_refl _)
    simp only [cost]
    omega

private theorem going_separated {k : Kind} {element behind : Nat} {body : Action N}
    (going : Going pace ⟨p, .separated k element behind body :: rest, f⟩) :
    Going pace (g.perform (.separated k element behind body) p rest) ∧
      pace.potential (g.perform (.separated k element behind body) p rest) + 1 ≤
        pace.potential ⟨p, .separated k element behind body :: rest, f⟩ := by
  have htables : p.tables = pace.tables := going.tables_eq
  have ha := going.paced _ (List.mem_cons_self ..)
  simp only [Pace.paced, Bool.and_eq_true, List.all_eq_true, List.mem_range, Bool.or_eq_true,
    Bool.not_eq_true', decide_eq_true_eq] at ha
  obtain ⟨⟨⟨⟨⟨real, helement⟩, hbehind⟩, hbody⟩, round⟩, rounds⟩ := ha
  have hleft : ∀ b ∈ body :: .separated k element behind body :: rest, pace.paced b = true := by
    intro b hb
    rcases List.mem_cons.mp hb with rfl | hb
    · exact hbody
    · exact going.paced b hb
  have one : 1 ≤ pace.cost p.lookahead.kind (.separated k element behind body) := by
    simp only [cost]
    omega
  by_cases h : p.lookahead.kind = k
  · rw [Grammar.perform_separated_of_eq h]
    apply going_of_get going hleft
    simp only [h, real, if_false, cost, worst, List.map_cons, List.sum_cons]
    omega
  · by_cases admitted : p.tables.admits behind p.lookahead.kind = true
    · rw [Grammar.perform_separated_of_behind h (htables ▸ hbehind) admitted]
      exact going_of_same going rfl rfl (Nat.le_refl _) one
    · rw [Grammar.perform_separated_of_missing h (htables ▸ helement) (htables ▸ hbehind)
        (Bool.eq_false_iff.mpr admitted), htables]
      by_cases enters : pace.tables.admits element ((p.fail k).skipTo
          (Grammar.separatorStop pace.tables element behind)).lookahead.kind = true
      · have low := Parser.kind_skipTo_le (p := p.fail k) (htables ▸ going.visible)
          (Grammar.separatorStop pace.tables element behind)
        have round := rounds _ (Nat.lt_succ_of_le (htables ▸ low))
        rw [if_pos enters]
        apply going_of_le going (by simp) low (Parser.remaining_skipTo_le _ _) hleft
        simp only [enters, Bool.true_eq_false, false_or] at round
        simp only [load, cost, worst, List.map_cons, List.sum_cons]
        omega
      · rw [if_neg enters]
        exact going_of_skipTo going k _ one

/-- Every step keeps a machine going and costs something. -/
theorem step_going (sound : pace.Sound g) (going : Going pace ⟨p, a :: rest, f⟩) :
    Going pace (g.step ⟨p, a :: rest, f⟩) ∧
      pace.potential (g.step ⟨p, a :: rest, f⟩) + 1 ≤ pace.potential ⟨p, a :: rest, f⟩ := by
  have ha := going.paced a (List.mem_cons_self ..)
  have hrest : ∀ b ∈ rest, pace.paced b = true :=
    fun b hb => going.paced b (List.mem_cons_of_mem _ hb)
  have htables : p.tables = pace.tables := going.tables_eq
  have visible : p.lookahead.kind ≤ p.tables.maxKind := htables ▸ going.visible
  have reported (code : Nat) :=
    going_of_same (q := p.fail code) going rfl rfl (Nat.le_refl _)
  rw [Grammar.step_cons]
  cases a with
  | skip =>
      apply going_of_same going rfl rfl (Nat.le_refl _)
      simp only [cost]
      omega
  | seq a b =>
      simp only [Pace.paced, Bool.and_eq_true] at ha
      apply going_of_le going rfl visible (Nat.le_refl _) (by simpa [ha] using hrest)
      simp only [load, cost, List.map_cons, List.sum_cons]
      omega
  | get =>
      apply going_of_expected going
      simp only [cost]
  | expect k =>
      by_cases h : p.lookahead.kind = k
      · rw [Grammar.perform_expect_of_eq h]
        apply going_of_expected going
        subst h
        by_cases eof : p.lookahead.kind = Kind.eof <;> simp [cost, eof]
      · rw [Grammar.perform_expect_of_ne h]
        apply reported k
        simp [cost, h]
  | expectWeak k set =>
      by_cases h : p.lookahead.kind = k
      · rw [Grammar.perform_expectWeak_of_eq h]
        apply going_of_expected going
        subst h
        by_cases eof : p.lookahead.kind = Kind.eof <;> simp [cost, eof]
      · have hset : set < p.tables.sets.length := by
          rw [htables]
          simpa [Pace.paced] using ha
        rw [Grammar.perform_expectWeak_of_ne h hset]
        apply going_of_skipTo going
        simp [cost, h]
  | fail code =>
      apply reported code
      simp only [cost]
      omega
  | call n =>
      have body := cost_body_le sound (htables ▸ visible) n
      apply going_of_le going rfl visible (Nat.le_refl _) (by simpa [sound.paced n] using hrest)
      simp only [load]
      omega
  | ifElse test a b =>
      simp only [Pace.paced, Bool.and_eq_true] at ha
      rw [Grammar.perform_ifElse (htables ▸ ha.1.1), htables]
      apply going_of_le going rfl visible (Nat.le_refl _)
      · split
        · simpa [ha] using hrest
        · simpa [ha] using hrest
      · simp only [load, cost]
        split <;> omega
  | whileDo test body => exact going_whileDo going
  | separated k element behind body => exact going_separated going

end steps

/-! ## Runs -/

theorem done_of_potential_le_zero (sound : pace.Sound g) {m : Machine N}
    (h : pace.potential m ≤ 0) : m.pending = [] := by
  obtain ⟨p, pending, f⟩ := m
  cases pending with
  | nil => rfl
  | cons a rest =>
      have pos := one_le_cost_add sound p a
      have : 0 ≤ (rest.map pace.worst).sum := by
        refine List.sum_nonneg fun c hc => ?_
        obtain ⟨b, -, rfl⟩ := List.mem_map.mp hc
        exact Int.le_trans Int.one_nonneg (pace.one_le_worst b)
      rw [potential_cons] at h
      omega

/-- A machine that is given as many steps as its bound is done, and without a fault. -/
theorem iterate_done (sound : pace.Sound g) {m : Machine N}
    (going : Going pace m) {n : Nat} (h : pace.potential m ≤ n) :
    Going pace (g.step^[n] m) ∧ (g.step^[n] m).pending = [] := by
  induction n generalizing m with
  | zero => exact ⟨going, done_of_potential_le_zero sound h⟩
  | succ n ih =>
      obtain ⟨p, pending, f⟩ := m
      cases pending with
      | nil =>
          rw [Grammar.iterate_step_of_done rfl]
          exact ⟨going, rfl⟩
      | cons a rest =>
          obtain ⟨going', less⟩ := step_going sound going
          exact ih going' (by omega)

theorem exists_iterate_done (sound : pace.Sound g) {m : Machine N}
    (going : Going pace m) : ∃ n, (g.step^[n] m).pending = [] :=
  ⟨_, (iterate_done sound going (Int.self_le_toNat _)).2⟩

theorem potential_le_budget {p : Parser} {a : Action N}
    (visible : p.lookahead.kind ≤ pace.tables.maxKind) (h : pace.worst a ≤ stepsPerToken) :
    pace.potential ⟨p, [a], none⟩ ≤ (Grammar.budget p : Nat) := by
  have bound := potential_le (m := ⟨p, [a], none⟩) visible
  have : p.remaining ≤ p.stream.rest.length + 1 := by
    unfold Parser.remaining
    split <;> omega
  simp only [List.map_cons, List.map_nil, List.sum_cons, List.sum_nil, stepsPerToken,
    Grammar.budget, Int.natCast_mul] at bound h ⊢
  omega

theorem Going.eq_of_done {m : Machine N} (going : Going pace m) (h : m.pending = []) :
    m = ⟨m.parser, [], none⟩ := by
  obtain ⟨p, pending, f⟩ := m
  cases h
  cases going.faultless
  rfl

theorem exec_eq (sound : pace.Sound g) {p : Parser} {a : Action N}
    (going : Going pace ⟨p, [a], none⟩) (h : pace.worst a ≤ stepsPerToken) :
    ∃ q, g.exec a p = (q, .ok ()) ∧ g.Reaches ⟨p, [a], none⟩ ⟨q, [], none⟩ := by
  obtain ⟨end_going, done⟩ := iterate_done sound going
    (potential_le_budget going.visible h)
  refine ⟨(g.step^[Grammar.budget p] ⟨p, [a], none⟩).parser, ?_, Grammar.budget p, ?_⟩
  · simp only [Grammar.exec, Grammar.run_eq_iterate, end_going.faultless]
  · exact end_going.eq_of_done done

/-- What a machine comes to in the end is what it does within the budget. -/
theorem exec_of_reaches (sound : pace.Sound g) {p q : Parser} {a : Action N}
    (going : Going pace ⟨p, [a], none⟩) (h : pace.worst a ≤ stepsPerToken)
    (reaches : g.Reaches ⟨p, [a], none⟩ ⟨q, [], none⟩) : g.exec a p = (q, .ok ()) := by
  obtain ⟨q', hexec, n', hn'⟩ := exec_eq sound going h
  obtain ⟨n, hn⟩ := reaches
  have same := Grammar.eq_of_done (g := g) (m := ⟨p, [a], none⟩) (i := n) (j := n')
    (by rw [hn]) (by rw [hn'])
  rw [hn, hn'] at same
  cases same
  exact hexec

end Pace

end OberonFront
