import OberonFront.Token.Basic

/-!
# Sets of token kinds

A set of kinds below 128, one bit for each.  Kinds from 128 on are never
members.
-/

namespace OberonFront

/-- A set of token kinds below 128. -/
structure KindSet where
  bits : BitVec 128
deriving DecidableEq, Repr

namespace KindSet

def empty : KindSet := ⟨0#128⟩

instance : EmptyCollection KindSet := ⟨empty⟩

def insert (s : KindSet) (kind : Kind) : KindSet := ⟨s.bits ||| BitVec.twoPow 128 kind⟩

def singleton (kind : Kind) : KindSet := empty.insert kind

/-- Adds every kind from `lo` to `hi`, both included. -/
def insertRange (s : KindSet) (lo hi : Kind) : KindSet :=
  (List.range' lo (hi + 1 - lo)).foldl insert s

def ofList (kinds : List Kind) : KindSet := kinds.foldl insert empty

def union (s t : KindSet) : KindSet := ⟨s.bits ||| t.bits⟩

instance : Union KindSet := ⟨union⟩

def contains (s : KindSet) (kind : Kind) : Bool := s.bits.getLsbD kind

@[simp] theorem contains_empty (kind : Kind) : empty.contains kind = false := by
  simp [empty, contains]

@[simp] theorem contains_insert (s : KindSet) (kind other : Kind) :
    (s.insert kind).contains other = (s.contains other || decide (other = kind ∧ other < 128)) := by
  simp only [insert, contains, BitVec.getLsbD_or, BitVec.getLsbD_twoPow]
  by_cases h : kind = other
  · subst h
    simp
  · simp [h, Ne.symm h]

@[simp] theorem contains_union (s t : KindSet) (kind : Kind) :
    (s ∪ t).contains kind = (s.contains kind || t.contains kind) :=
  BitVec.getLsbD_or

theorem contains_of_le {s : KindSet} {kind : Kind} (h : 128 ≤ kind) : s.contains kind = false :=
  BitVec.getLsbD_of_ge s.bits kind h

def isEmpty (s : KindSet) : Bool := s.bits == 0#128

def size (s : KindSet) : Nat := s.bits.cpop.toNat

/-- The least member and the set of the others. -/
def next? (s : KindSet) : Option (Kind × KindSet) :=
  if s.bits = 0#128 then none
  else some (s.bits.ctz.toNat, ⟨s.bits &&& (s.bits - 1#128)⟩)

theorem toNat_lt_of_next?
    {s t : KindSet} {kind : Kind} (h : s.next? = some (kind, t)) :
    t.bits.toNat < s.bits.toNat := by
  unfold next? at h
  split at h
  · contradiction
  · rename_i hs
    cases h
    have pos : 0 < s.bits.toNat := by
      apply Nat.pos_of_ne_zero
      intro hz
      exact hs (BitVec.eq_of_toNat_eq (by simpa using hz))
    have le : (s.bits &&& (s.bits - 1#128)).toNat ≤ (s.bits - 1#128).toNat := by
      rw [BitVec.toNat_and]
      exact Nat.and_le_right
    have sub : (s.bits - 1#128).toNat = s.bits.toNat - 1 := by
      apply BitVec.toNat_sub_of_le
      simpa [BitVec.le_def] using Nat.succ_le_of_lt pos
    show (s.bits &&& (s.bits - 1#128)).toNat < s.bits.toNat
    omega

/-- The members in ascending order. -/
def toList (s : KindSet) : List Kind :=
  match _next : s.next? with
  | none => []
  | some (kind, t) => kind :: t.toList
termination_by s.bits.toNat
decreasing_by exact toNat_lt_of_next? _next

end KindSet

end OberonFront
