/-!
# Faults

A table look-up past the end of its table.  A fault is a value: whatever
happened before it is still there for the caller to see.
-/

namespace OberonFront

/-- A look-up at an index that a table of `size` entries does not have. -/
structure Fault where
  size : Nat
  index : Nat
deriving DecidableEq, Repr

def Fault.message (f : Fault) : String :=
  s!"index out of bounds: the len is {f.size} but the index is {f.index}"

/-- The entry at an index, or the fault of asking for it. -/
def entryAt {α : Type} (table : List α) (index : Nat) : Except Fault α :=
  match table[index]? with
  | some entry => .ok entry
  | none => .error ⟨table.length, index⟩

theorem entryAt_of_lt
    {α : Type} {table : List α} {index : Nat} (h : index < table.length) :
    entryAt table index = .ok table[index] := by
  simp [entryAt, List.getElem?_eq_getElem h]

end OberonFront
