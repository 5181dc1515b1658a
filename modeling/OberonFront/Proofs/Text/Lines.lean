import OberonFront.Text.Unread

/-!
# Lines and columns by offset

Where the lines of a text end, told by offset and without reading the text from
the front.  A position that moved over the first characters of a text counts the
line ends among them, and its column counts from the last one.
-/

namespace OberonFront

/-- What is read at an offset: a carriage return that no line feed follows is read as one. -/
def symbolAt (text : List Char) (i : Nat) : Option Char :=
  if text[i]? = some '\r' ∧ text[i + 1]? ≠ some '\n' then some '\n' else text[i]?

def IsLineEnd (text : List Char) (i : Nat) : Prop :=
  text[i]? = some '\n' ∨ text[i]? = some '\r' ∧ text[i + 1]? ≠ some '\n'

instance (text : List Char) (i : Nat) : Decidable (IsLineEnd text i) :=
  inferInstanceAs (Decidable (_ ∨ _ ∧ _))

def lineEnds (text : List Char) (n : Nat) : List Nat :=
  (List.range n).filter (IsLineEnd text ·)

/-- The offset just after the last line end below `n`, or the start of the text. -/
def lineStart (text : List Char) (n : Nat) : Nat :=
  ((lineEnds text n).getLast?.map (· + 1)).getD 0

theorem getElem?_unifyLineEnds (text : List Char) (i : Nat) :
    (unifyLineEnds text)[i]? = symbolAt text i := by
  induction text generalizing i with
  | nil => simp [symbolAt]
  | cons c rest ih =>
      rw [unifyLineEnds_cons]
      cases i with
      | zero =>
          simp only [symbolAt, readAs, List.getElem?_cons_zero, List.getElem?_cons_succ,
            Option.some.injEq, List.head?_eq_getElem?]
          split <;> rfl
      | succ i => exact ih i

theorem readAs_eq_iff {c d : Char} (plain : d ≠ '\n' ∧ d ≠ '\r') (rest : List Char) :
    readAs c rest = d ↔ c = d := by
  unfold readAs
  split
  · rename_i lone
    rw [lone.1]
    exact iff_of_false plain.1.symm plain.2.symm
  · rfl

theorem unifyLineEnds_append {text text' : List Char}
    (apart : text.getLast? ≠ some '\r' ∨ text'.head? ≠ some '\n') :
    unifyLineEnds (text ++ text') = unifyLineEnds text ++ unifyLineEnds text' := by
  induction text with
  | nil => rfl
  | cons c text ih =>
      cases text with
      | nil =>
          have read : readAs c text' = readAs c [] := by
            unfold readAs
            rcases apart with noReturn | noFeed
            · have noReturn : c ≠ '\r' := by simpa using noReturn
              simp [noReturn]
            · simp [noFeed]
          simp [read]
      | cons d text =>
          rw [List.getLast?_cons_cons] at apart
          rw [List.cons_append, unifyLineEnds_cons, unifyLineEnds_cons, ih apart]
          rfl

theorem unifyLineEnds_of_not_mem {text : List Char} (h : '\r' ∉ text) :
    unifyLineEnds text = text := by
  induction text with
  | nil => rfl
  | cons c rest ih =>
      have ne : c ≠ '\r' := (List.ne_of_not_mem_cons h).symm
      rw [unifyLineEnds_cons, ih (List.not_mem_of_not_mem_cons h), readAs, if_neg (ne ·.1)]

/-- How a character is read does not depend on what is in front of it. -/
theorem drop_unifyLineEnds (text : List Char) (n : Nat) :
    (unifyLineEnds text).drop n = unifyLineEnds (text.drop n) := by
  induction text generalizing n with
  | nil => simp
  | cons c rest ih =>
      cases n with
      | zero => rfl
      | succ n => simpa using ih n

/-- What is read as no line end stands in the text. -/
theorem exists_of_unifyLineEnds_eq_append {text chars rest : List Char}
    (plain : ∀ c ∈ chars, c ≠ '\n' ∧ c ≠ '\r') (h : unifyLineEnds text = chars ++ rest) :
    ∃ rest', text = chars ++ rest' ∧ unifyLineEnds rest' = rest := by
  induction chars generalizing text with
  | nil => exact ⟨text, rfl, h⟩
  | cons c chars ih =>
      cases text with
      | nil => cases h
      | cons d text =>
          obtain ⟨first, others⟩ := List.forall_mem_cons.mp plain
          rw [unifyLineEnds_cons] at h
          obtain ⟨read, h⟩ := List.cons.inj h
          obtain ⟨rest', rfl, eq⟩ := ih others h
          rw [readAs_eq_iff first] at read
          exact ⟨rest', by rw [read]; rfl, eq⟩

theorem unifyLineEnds_append_of_not_mem {chars : List Char} (h : '\r' ∉ chars)
    (rest : List Char) : unifyLineEnds (chars ++ rest) = chars ++ unifyLineEnds rest := by
  have last : chars.getLast? ≠ some '\r' := fun last => h (List.mem_of_getLast? last)
  rw [unifyLineEnds_append (.inl last), unifyLineEnds_of_not_mem h]

/-- A carriage return that is left has a line feed behind it. -/
theorem getElem?_unifyLineEnds_of_return {text : List Char} {i : Nat}
    (h : (unifyLineEnds text)[i]? = some '\r') : (unifyLineEnds text)[i + 1]? = some '\n' := by
  rw [getElem?_unifyLineEnds, symbolAt] at h ⊢
  split at h
  · cases h
  · rename_i paired
    have feed : text[i + 1]? = some '\n' := by simpa [h] using paired
    simp [feed]

theorem isLineEnd_iff {text : List Char} {i : Nat} :
    IsLineEnd text i ↔ (unifyLineEnds text)[i]? = some '\n' := by
  rw [getElem?_unifyLineEnds, IsLineEnd, symbolAt]
  split
  · rename_i lone
    simp [lone]
  · rename_i other
    simp [other]

theorem lineEnds_succ (text : List Char) (n : Nat) :
    lineEnds text (n + 1) = lineEnds text n ++ if IsLineEnd text n then [n] else [] := by
  rw [lineEnds, lineEnds, List.range_succ, List.filter_append]
  by_cases h : IsLineEnd text n <;> simp [h]

theorem lineStart_succ_of_isLineEnd {text : List Char} {n : Nat} (h : IsLineEnd text n) :
    lineStart text (n + 1) = n + 1 := by
  rw [lineStart, lineEnds_succ, if_pos h, List.getLast?_concat]
  rfl

theorem lineStart_succ_of_not_isLineEnd {text : List Char} {n : Nat} (h : ¬ IsLineEnd text n) :
    lineStart text (n + 1) = lineStart text n := by
  rw [lineStart, lineEnds_succ, if_neg h, List.append_nil]
  rfl

theorem lineStart_le (text : List Char) (n : Nat) : lineStart text n ≤ n := by
  induction n with
  | zero => exact Nat.le_refl 0
  | succ n ih =>
      by_cases h : IsLineEnd text n
      · exact Nat.le_of_eq (lineStart_succ_of_isLineEnd h)
      · rw [lineStart_succ_of_not_isLineEnd h]
        exact Nat.le_succ_of_le ih

theorem lineEnds_prefix (text : List Char) {m n : Nat} (h : m ≤ n) :
    lineEnds text m <+: lineEnds text n := by
  obtain ⟨d, rfl⟩ := Nat.exists_eq_add_of_le h
  clear h
  induction d with
  | zero => exact List.prefix_refl _
  | succ d ih =>
      rw [Nat.add_succ, lineEnds_succ]
      exact ih.trans (List.prefix_append _ _)

/-- A later offset is on a later line, or further to the right on the same one. -/
theorem line_column_lt (text : List Char) {m n : Nat} (h : m < n) :
    (lineEnds text m).length < (lineEnds text n).length ∨
      (lineEnds text m).length = (lineEnds text n).length ∧
        m - lineStart text m < n - lineStart text n := by
  have before := lineEnds_prefix text (Nat.le_of_lt h)
  rcases Nat.lt_or_eq_of_le before.length_le with further | same
  · exact .inl further
  · have start : lineStart text m = lineStart text n := by
      rw [lineStart, lineStart, before.eq_of_length same]
    have le := lineStart_le text m
    exact .inr ⟨same, by omega⟩

/-- The position behind the first `n` characters of a text. -/
theorem after_take_unifyLineEnds (text : List Char) {n : Nat} (h : n ≤ text.length) :
    Position.start.after ((unifyLineEnds text).take n) =
      ⟨n, 1 + (lineEnds text n).length, n - lineStart text n + 1⟩ := by
  induction n with
  | zero => rfl
  | succ n ih =>
      have lt : n < (unifyLineEnds text).length := by
        rw [length_unifyLineEnds]
        exact h
      have ends : IsLineEnd text n ↔ (unifyLineEnds text)[n] = '\n' := by
        rw [isLineEnd_iff, List.getElem?_eq_getElem lt, Option.some.injEq]
      have le := lineStart_le text n
      rw [List.take_succ_eq_append_getElem lt, Position.after_append, ih (Nat.le_of_succ_le h)]
      change Position.next _ _ = _
      unfold Position.next
      by_cases feed : IsLineEnd text n
      · rw [if_pos (ends.mp feed), lineStart_succ_of_isLineEnd feed, lineEnds_succ, if_pos feed,
          List.length_append, Nat.sub_self]
        rfl
      · rw [if_neg (mt ends.mpr feed), lineStart_succ_of_not_isLineEnd feed, lineEnds_succ,
          if_neg feed, List.append_nil, Nat.sub_add_comm le]

end OberonFront
