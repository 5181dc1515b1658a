import Mathlib.Data.Finset.Card
import Mathlib.Order.Interval.Finset.Nat
import OberonFront.Token.KindSet

/-!
# Bits and members

A set of kinds is told by its members.  Each operation on the bits does to the
members what its name says, the number of bits that are set is the number of
members, and to clear the lowest bit is to take the least member out.  So a set
built by any expression is the set that the expression denotes.
-/

namespace OberonFront

/-! ## Bits -/

/-- A number whose lowest set bit is known, as an odd multiple of a power of two. -/
theorem exists_eq_two_pow_mul {n k : Nat} (low : ∀ i < k, n.testBit i = false)
    (set : n.testBit k = true) : ∃ m, n = 2 ^ k * (2 * m + 1) := by
  have zero : n % 2 ^ k = 0 := by
    apply Nat.eq_of_testBit_eq
    intro i
    rw [Nat.testBit_mod_two_pow, Nat.zero_testBit]
    by_cases lt : i < k
    · rw [low i lt, Bool.and_false]
    · simp [lt]
  have odd : n / 2 ^ k % 2 = 1 := by
    rw [Nat.testBit_eq_decide_div_mod_eq] at set
    exact of_decide_eq_true set
  refine ⟨n / 2 ^ k / 2, ?_⟩
  have half : 2 * (n / 2 ^ k / 2) + 1 = n / 2 ^ k := by omega
  rw [half]
  have parts := Nat.div_add_mod n (2 ^ k)
  omega

/-- A number and the one before it have the same bits above the lowest one that is set. -/
theorem testBit_and_sub_one {n k : Nat} (low : ∀ i < k, n.testBit i = false)
    (set : n.testBit k = true) (i : Nat) :
    (n &&& (n - 1)).testBit i = (n.testBit i && decide (i ≠ k)) := by
  obtain ⟨m, rfl⟩ := exists_eq_two_pow_mul low set
  have pos : 0 < 2 ^ k := Nat.two_pow_pos k
  have before : 2 ^ k * (2 * m + 1) - 1 = 2 ^ k * (2 * m) + (2 ^ k - 1) := by
    rw [Nat.mul_add_one]
    omega
  rw [before, Nat.testBit_and, Nat.testBit_two_pow_mul_add (2 * m) (by omega),
    Nat.testBit_two_pow_mul]
  -- Now both numbers are cut at bit `k`: below it one has no bits, at it the other has none.
  rcases Nat.lt_trichotomy i k with less | rfl | greater
  · simp [Nat.not_le.mpr less]
  · simp
  · obtain ⟨j, rfl⟩ := Nat.exists_eq_add_of_lt greater
    have index : k + j + 1 - k = j + 1 := by omega
    have inner : ¬ k + j + 1 < k := by omega
    have apart : k + j + 1 ≠ k := by omega
    have half : (2 * m + 1) / 2 = m := by omega
    simp [index, inner, apart, Nat.testBit_succ, half]

/-- The number of bits that are set among the lowest ones. -/
theorem cpopNatRec_eq_card {w : Nat} (x : BitVec w) (n : Nat) :
    x.cpopNatRec n 0 = ((Finset.range n).filter (x.getLsbD · = true)).card := by
  induction n with
  | zero => rfl
  | succ n ih =>
      rw [BitVec.cpopNatRec_succ, BitVec.cpopNatRec_add, ih, Finset.range_add_one,
        Finset.filter_insert]
      cases x.getLsbD n with
      | false => simp
      | true => simp

namespace KindSet

/-! ## Members -/

def members (s : KindSet) : Finset Kind := (Finset.range 128).filter (s.contains · = true)

theorem lt_of_contains {s : KindSet} {kind : Kind} (h : s.contains kind = true) : kind < 128 := by
  apply Nat.lt_of_not_le
  intro le
  rw [contains_of_le le] at h
  contradiction

@[simp] theorem mem_members {s : KindSet} {kind : Kind} :
    kind ∈ s.members ↔ s.contains kind = true := by
  rw [members, Finset.mem_filter, Finset.mem_range]
  exact ⟨And.right, fun h => ⟨lt_of_contains h, h⟩⟩

theorem members_subset (s : KindSet) : s.members ⊆ Finset.range 128 :=
  Finset.filter_subset ..

theorem members_inj {s t : KindSet} : s.members = t.members ↔ s = t := by
  constructor
  · intro same
    obtain ⟨x⟩ := s
    obtain ⟨y⟩ := t
    congr
    apply BitVec.eq_of_getLsbD_eq
    intro kind _
    have both := Finset.ext_iff.mp same kind
    rw [mem_members, mem_members] at both
    exact Bool.eq_iff_iff.mpr both
  · exact congrArg members

@[simp] theorem members_empty : empty.members = ∅ := by
  ext kind
  simp

theorem members_insert (s : KindSet) {kind : Kind} (below : kind < 128) :
    (s.insert kind).members = Insert.insert kind s.members := by
  ext other
  simp only [mem_members, contains_insert, Bool.or_eq_true, decide_eq_true_eq, Finset.mem_insert]
  constructor
  · rintro (old | ⟨same, -⟩)
    · exact .inr old
    · exact .inl same
  · rintro (rfl | old)
    · exact .inr ⟨rfl, below⟩
    · exact .inl old

@[simp] theorem members_union (s t : KindSet) : (s ∪ t).members = s.members ∪ t.members := by
  ext kind
  simp

theorem members_foldl_insert {kinds : List Kind} (below : ∀ kind ∈ kinds, kind < 128)
    (s : KindSet) : (kinds.foldl insert s).members = s.members ∪ kinds.toFinset := by
  induction kinds generalizing s with
  | nil => simp
  | cons kind kinds ih =>
      obtain ⟨first, others⟩ := List.forall_mem_cons.mp below
      rw [List.foldl_cons, ih others, members_insert s first, List.toFinset_cons,
        Finset.insert_union, Finset.union_insert]

theorem members_insertRange (s : KindSet) (lo : Nat) {hi : Nat} (below : hi < 128) :
    (s.insertRange lo hi).members = s.members ∪ Finset.Icc lo hi := by
  have inRange : ∀ kind : Nat, kind ∈ List.range' lo (hi + 1 - lo) ↔ lo ≤ kind ∧ kind ≤ hi := by
    intro kind
    rw [List.mem_range'_1]
    omega
  have all : ∀ kind ∈ List.range' lo (hi + 1 - lo), kind < 128 := by
    intro kind mem
    exact Nat.lt_of_le_of_lt ((inRange kind).mp mem).2 below
  rw [insertRange, members_foldl_insert all]
  congr 1
  ext kind
  rw [List.mem_toFinset, inRange, Finset.mem_Icc]

/-! ## Size -/

theorem isEmpty_iff (s : KindSet) : s.isEmpty = true ↔ s.members = ∅ := by
  rw [isEmpty, beq_iff_eq, ← members_empty, members_inj, empty]
  constructor
  · intro zero
    rw [← zero]
  · exact congrArg bits

theorem size_eq_card (s : KindSet) : s.size = s.members.card := by
  rw [size, BitVec.toNat_cpop, cpopNatRec_eq_card]
  rfl

/-! ## Iteration -/

theorem next?_eq_none_iff (s : KindSet) : s.next? = none ↔ s.members = ∅ := by
  rw [← isEmpty_iff, isEmpty, beq_iff_eq, next?]
  split
  · rename_i zero
    exact iff_of_true rfl zero
  · rename_i nonzero
    exact iff_of_false (Option.some_ne_none _) nonzero

/-- The lowest bit that is set stands for the least member, and clearing it takes this one out. -/
theorem next?_eq_some {s t : KindSet} {kind : Kind} (h : s.next? = some (kind, t)) :
    kind ∈ s.members ∧ (∀ other ∈ s.members, kind ≤ other) ∧
      t.members = s.members.erase kind := by
  unfold next? at h
  split at h
  · contradiction
  · rename_i nonzero
    cases h
    have low : ∀ i < s.bits.ctz.toNat, s.contains i = false := by
      intro i lt
      exact BitVec.getLsbD_false_of_lt_ctz lt
    have set : s.contains s.bits.ctz.toNat = true :=
      BitVec.getLsbD_true_ctz_of_ne_zero nonzero
    have pos : 0 < s.bits.toNat := by
      have least := BitVec.two_pow_ctz_le_toNat_of_ne_zero nonzero
      exact Nat.lt_of_lt_of_le (Nat.two_pow_pos _) least
    have before : (s.bits - 1#128).toNat = s.bits.toNat - 1 :=
      BitVec.toNat_sub_of_le (BitVec.le_def.mpr pos)
    refine ⟨mem_members.mpr set, ?least, ?others⟩
    case least =>
      intro other mem
      apply Nat.le_of_not_lt
      intro less
      have unset := low other less
      rw [mem_members.mp mem] at unset
      contradiction
    case others =>
      ext other
      rw [mem_members, Finset.mem_erase, mem_members, contains, ← BitVec.testBit_toNat,
        BitVec.toNat_and, before, testBit_and_sub_one low set, Bool.and_eq_true, decide_eq_true_eq]
      exact and_comm

theorem toList_of_none {s : KindSet} (h : s.next? = none) : s.toList = [] := by
  rw [toList]
  split
  · rfl
  · rename_i next
    rw [h] at next
    contradiction

theorem toList_of_some {s t : KindSet} {kind : Kind} (h : s.next? = some (kind, t)) :
    s.toList = kind :: t.toList := by
  rw [toList]
  split
  · rename_i next
    rw [h] at next
    contradiction
  · rename_i next
    rw [h] at next
    cases next
    rfl

theorem mem_toList (s : KindSet) (kind : Kind) : kind ∈ s.toList ↔ kind ∈ s.members := by
  fun_induction toList s with
  | case1 s none => simp [(next?_eq_none_iff s).mp none]
  | case2 s least t some ih =>
      obtain ⟨mem, -, others⟩ := next?_eq_some some
      rw [List.mem_cons, ih, others, ← Finset.mem_insert, Finset.insert_erase mem]

theorem pairwise_toList (s : KindSet) : s.toList.Pairwise (· < ·) := by
  fun_induction toList s with
  | case1 s none => exact .nil
  | case2 s least t some ih =>
      obtain ⟨mem, le, others⟩ := next?_eq_some some
      refine List.pairwise_cons.mpr ⟨?_, ih⟩
      intro kind later
      rw [mem_toList, others, Finset.mem_erase] at later
      exact Nat.lt_of_le_of_ne (le kind later.2) later.1.symm

theorem length_toList (s : KindSet) : s.toList.length = s.size := by
  have nodup : s.toList.Nodup := s.pairwise_toList.imp Nat.ne_of_lt
  have same : s.toList.toFinset = s.members := by
    ext kind
    rw [List.mem_toFinset, mem_toList]
  rw [size_eq_card, ← same, List.toFinset_card_of_nodup nodup]

/-- What an iteration has still to hand out after some steps. -/
def remaining (s : KindSet) : Nat → KindSet
  | 0 => s
  | n + 1 =>
      match (s.remaining n).next? with
      | some (_, t) => t
      | none => s.remaining n

theorem toList_remaining (s : KindSet) (n : Nat) : (s.remaining n).toList = s.toList.drop n := by
  induction n with
  | zero => rfl
  | succ n ih =>
      rw [remaining, ← List.drop_drop, ← ih]
      split
      · rename_i next
        rw [toList_of_some next]
        rfl
      · rename_i next
        rw [toList_of_none next]
        rfl

theorem map_next?_eq_head? (s : KindSet) : s.next?.map Prod.fst = s.toList.head? := by
  cases next : s.next? with
  | none => rw [toList_of_none next]; rfl
  | some pair => rw [toList_of_some next]; rfl

/-! ## Expressions -/

inductive Expr where
  | empty
  | singleton (kind : Fin 128)
  | insert (e : Expr) (kind : Fin 128)
  /-- Adds every kind from `lo` to `hi`, both included. -/
  | insertRange (e : Expr) (lo hi : Fin 128)
  | union (e f : Expr)
deriving DecidableEq, Repr

namespace Expr

def build : Expr → KindSet
  | .empty => KindSet.empty
  | .singleton kind => KindSet.singleton kind.val
  | .insert e kind => e.build.insert kind.val
  | .insertRange e lo hi => e.build.insertRange lo.val hi.val
  | .union e f => e.build ∪ f.build

def denote : Expr → Finset Kind
  | .empty => ∅
  | .singleton kind => {kind.val}
  | .insert e kind => Insert.insert kind.val e.denote
  | .insertRange e lo hi => e.denote ∪ Finset.Icc lo.val hi.val
  | .union e f => e.denote ∪ f.denote

theorem members_build (e : Expr) : e.build.members = e.denote := by
  induction e with
  | empty => exact members_empty
  | singleton kind =>
      rw [build, KindSet.singleton, members_insert _ kind.isLt, members_empty]
      rfl
  | insert e kind ih => rw [build, members_insert _ kind.isLt, ih, denote]
  | insertRange e lo hi ih => rw [build, members_insertRange _ _ hi.isLt, ih, denote]
  | union e f ihe ihf => rw [build, members_union, ihe, ihf, denote]

/-- The bits of an expression are the set that it denotes.  They hold no kind from 128 on, tell
the members, their number, and whether the set is empty or equal to another one, and hand out the
members in ascending order, the number of those still to come being known at every step. -/
theorem build_represents (e : Expr) :
    e.denote ⊆ Finset.range 128 ∧
    (∀ kind, e.build.contains kind = decide (kind ∈ e.denote)) ∧
    e.build.size = e.denote.card ∧
    (e.build.isEmpty = true ↔ e.denote = ∅) ∧
    (∀ f : Expr, e.build = f.build ↔ e.denote = f.denote) ∧
    (∀ kind, kind ∈ e.build.toList ↔ kind ∈ e.denote) ∧
    e.build.toList.Pairwise (· < ·) ∧
    ∀ n, (e.build.remaining n).next?.map Prod.fst = e.build.toList[n]? ∧
      (e.build.remaining n).size = e.build.toList.length - n := by
  simp only [← members_build]
  refine ⟨members_subset _, ?contains, size_eq_card _, isEmpty_iff _, fun f => members_inj.symm,
    mem_toList _, pairwise_toList _, ?steps⟩
  case contains =>
    intro kind
    rw [Bool.eq_iff_iff, decide_eq_true_eq, mem_members]
  case steps =>
    intro n
    rw [map_next?_eq_head?, ← length_toList, toList_remaining, List.head?_drop, List.length_drop]
    exact ⟨rfl, rfl⟩

/-- A range that ends before it starts adds nothing, and one may end with the last kind. -/
example : ((Expr.empty.insertRange 126 127).insertRange 5 3).build.toList = [126, 127] := by
  decide +kernel

end Expr

end KindSet

end OberonFront
