/-!
# Positions in a text

A position counts characters from the start of the text, and lines and columns
from one.  It moves over one character at a time; a line feed ends a line.
-/

namespace OberonFront

/-- A place in a text: characters before it, and its one-based line and column.  None of the three
is bounded; counters of 32 bits hold them for texts of less than `2 ^ 32 - 1` characters. -/
structure Position where
  offset : Nat
  line : Nat
  column : Nat
deriving DecidableEq, Repr

namespace Position

def start : Position := ⟨0, 1, 1⟩

def next (p : Position) (c : Char) : Position :=
  if c = '\n' then ⟨p.offset + 1, p.line + 1, 1⟩
  else ⟨p.offset + 1, p.line, p.column + 1⟩

def after (p : Position) (cs : List Char) : Position :=
  cs.foldl next p

@[simp] theorem after_nil (p : Position) : p.after [] = p := rfl

@[simp] theorem after_cons (p : Position) (c : Char) (cs : List Char) :
    p.after (c :: cs) = (p.next c).after cs := rfl

theorem after_append (p : Position) (cs ds : List Char) :
    p.after (cs ++ ds) = (p.after cs).after ds := by
  simp [after]

theorem offset_after (p : Position) (cs : List Char) :
    (p.after cs).offset = p.offset + cs.length := by
  induction cs generalizing p with
  | nil => rfl
  | cons c cs ih =>
      have h : (p.next c).offset = p.offset + 1 := by
        unfold next
        split <;> rfl
      rw [after_cons, ih, h, List.length_cons]
      omega

/-- The text behind a run of characters is what is left from the place behind the run on. -/
theorem drop_after {text front rest : List Char} {p : Position}
    (h : text.drop p.offset = front ++ rest) : text.drop (p.after front).offset = rest := by
  rw [offset_after, ← List.drop_drop, h, List.drop_left]

end Position

end OberonFront
