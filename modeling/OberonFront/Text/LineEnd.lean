/-!
# Line ends

A line ends at a line feed, at a carriage return, or at the two in a row.
`unifyLineEnds` leaves one line feed for each line end and keeps every offset;
`linesOf` cuts a text at its line ends.
-/

namespace OberonFront

/-- The character that is read where `c` stands before `rest`: a carriage return counts
as a line feed unless a line feed follows. -/
def readAs (c : Char) (rest : List Char) : Char :=
  if c = '\r' ∧ rest.head? ≠ some '\n' then '\n' else c

/-- The text with each carriage return that stands alone replaced by a line feed. -/
def unifyLineEnds (text : List Char) : List Char :=
  go [] text
where
  /-- Puts the characters read from the text in front of `done`, last one first. -/
  go (done : List Char) : List Char → List Char
    | [] => done.reverse
    | c :: rest => go (readAs c rest :: done) rest

theorem unifyLineEnds.go_eq (done text : List Char) :
    unifyLineEnds.go done text = done.reverse ++ unifyLineEnds text := by
  unfold unifyLineEnds
  suffices ∀ done extra : List Char,
      go (done ++ extra) text = extra.reverse ++ go done text by
    simpa using this [] done
  induction text with
  | nil => simp [go]
  | cons c rest ih =>
      intro done extra
      simpa [go] using ih (readAs c rest :: done) extra

@[simp] theorem unifyLineEnds_nil : unifyLineEnds [] = [] := rfl

@[simp] theorem unifyLineEnds_cons (c : Char) (rest : List Char) :
    unifyLineEnds (c :: rest) = readAs c rest :: unifyLineEnds rest := by
  rw [unifyLineEnds, unifyLineEnds.go, unifyLineEnds.go_eq]
  rfl

@[simp] theorem length_unifyLineEnds (text : List Char) :
    (unifyLineEnds text).length = text.length := by
  induction text with
  | nil => rfl
  | cons c rest ih => simp [ih]

/-- The lines of a text without their ends.  A line end that closes the text starts no
further line. -/
def linesOf (text : List Char) : List (List Char) :=
  go [] text
where
  /-- Cuts the text, `line` being what the current line holds so far, last character first. -/
  go (line : List Char) : List Char → List (List Char)
    | [] => if line = [] then [] else [line.reverse]
    | '\r' :: '\n' :: rest => line.reverse :: go [] rest
    | c :: rest =>
        if c = '\n' ∨ c = '\r' then line.reverse :: go [] rest
        else go (c :: line) rest

/-- A line that ends with a line feed is cut off. -/
theorem linesOf_append_feed
    {line : List Char} (inner : ∀ c ∈ line, c ≠ '\n' ∧ c ≠ '\r') (rest : List Char) :
    linesOf (line ++ '\n' :: rest) = line :: linesOf rest := by
  suffices ∀ begun, linesOf.go begun (line ++ '\n' :: rest) =
      (begun.reverse ++ line) :: linesOf rest from this []
  induction line with
  | nil =>
      intro begun
      simp [linesOf, linesOf.go]
  | cons c line ih =>
      intro begun
      obtain ⟨here, inner⟩ := List.forall_mem_cons.mp inner
      rw [List.cons_append, linesOf.go, if_neg (by simp [here]), ih inner]
      · simp
      · intro rest' ret
        exact absurd ret here.2

end OberonFront
