import OberonFront.Diagnostic.Listing
import OberonFront.Proofs.Text.Lines

/-!
# Positions and lines

A position counts the lines of a text while it moves over the characters, and a
listing cuts the text into lines beforehand.  Both find every character in the
same line and column, and the end of the text behind the last line.
-/

namespace OberonFront

/-! ## Lines -/

namespace Position

/-- Counting the lines from one place on, the other place is in this line. -/
def OnLine (lines : List (List Char)) (p q : Position) (line : List Char) : Prop :=
  ∃ i, q.line = p.line + i ∧ lines[i]? = some line

variable {p q : Position} {line : List Char}

theorem onLine_head (lines : List (List Char)) (same : q.line = p.line) :
    OnLine (line :: lines) p q line :=
  ⟨0, same, rfl⟩

theorem OnLine.cons {lines : List (List Char)} {o : Position} (h : OnLine lines p q line)
    (next : p.line = o.line + 1) (above : List Char) : OnLine (above :: lines) o q line := by
  obtain ⟨i, below, isLine⟩ := h
  exact ⟨i + 1, by omega, isLine⟩

theorem OnLine.of_line_eq {lines : List (List Char)} {o : Position} (h : OnLine lines p q line)
    (same : p.line = o.line) : OnLine lines o q line := by
  obtain ⟨i, below, isLine⟩ := h
  exact ⟨i, same ▸ below, isLine⟩

theorem next_of_ne {c : Char} (h : c ≠ '\n') (p : Position) :
    p.next c = ⟨p.offset + 1, p.line, p.column + 1⟩ := if_neg h

end Position

open Position (OnLine)

/-- No further line begins behind a text. -/
def EndsLine (text : List Char) : Prop :=
  text = [] ∨ text.getLast? = some '\n' ∨ text.getLast? = some '\r'

theorem EndsLine.cons_of_ne_nil {text : List Char} (h : EndsLine text) (ne : text ≠ []) (c : Char) :
    EndsLine (c :: text) := by
  cases text with
  | nil => contradiction
  | cons d text => exact .inr (by simpa [EndsLine] using h)

theorem EndsLine.cons {text : List Char} {c : Char} (h : EndsLine text)
    (feed : c = '\n' ∨ c = '\r') : EndsLine (c :: text) := by
  by_cases none : text = []
  · subst none
    exact .inr (by simpa using feed)
  · exact h.cons_of_ne_nil none c

section

variable {c : Char} {rest : List Char}

theorem unifyLineEnds_pair (rest : List Char) :
    unifyLineEnds ('\r' :: '\n' :: rest) = '\r' :: '\n' :: unifyLineEnds rest := by
  simp [readAs]

theorem unifyLineEnds_of_feed (feed : c = '\n' ∨ c = '\r')
    (alone : ∀ rest', c = '\r' → rest = '\n' :: rest' → False) :
    unifyLineEnds (c :: rest) = '\n' :: unifyLineEnds rest := by
  have read : readAs c rest = '\n' := by
    rcases feed with rfl | rfl
    · rfl
    · refine if_pos ⟨rfl, fun paired => ?_⟩
      obtain ⟨rest', eq⟩ := List.head?_eq_some_iff.mp paired
      exact alone rest' rfl eq
  rw [unifyLineEnds_cons, read]

theorem unifyLineEnds_of_ne (noReturn : c ≠ '\r') :
    unifyLineEnds (c :: rest) = c :: unifyLineEnds rest := by
  have read : readAs c rest = c := if_neg (noReturn ·.1)
  rw [unifyLineEnds_cons, read]

end

/-- The line that is begun goes on. -/
theorem exists_linesOf_go (line text : List Char) (ne : line ≠ []) :
    ∃ l ls, linesOf.go line text = (line.reverse ++ l) :: ls := by
  fun_induction linesOf.go line text with
  | case1 => contradiction
  | case2 line ne => exact ⟨[], [], by simp⟩
  | case3 line rest => exact ⟨[], linesOf.go [] rest, by simp⟩
  | case4 line c rest => exact ⟨[], linesOf.go [] rest, by simp⟩
  | case5 line c rest _ _ ih =>
      obtain ⟨l, ls, eq⟩ := ih (by simp)
      exact ⟨c :: l, ls, by simpa using eq⟩

/-- Every character that ends no line stands in a line of the listing, at its column. -/
theorem onLine_take (text : List Char) {n : Nat} {c : Char} (here : text[n]? = some c)
    (inner : c ≠ '\n' ∧ c ≠ '\r') {line : List Char} {p : Position}
    (column : p.column = line.length + 1) :
    ∃ l, OnLine (linesOf.go line text) p (p.after ((unifyLineEnds text).take n)) l ∧
      l[(p.after ((unifyLineEnds text).take n)).column - 1]? = some c := by
  fun_induction linesOf.go line text generalizing n p with
  | case1 => cases here
  | case2 => cases here
  | case3 line rest ih =>
      -- The carriage return keeps the line, and the line feed behind it ends it.
      match n with
      | 0 =>
          cases here
          exact absurd rfl inner.2
      | 1 =>
          cases here
          exact absurd rfl inner.1
      | n + 2 =>
          obtain ⟨l, onLine, shown⟩ := ih here (p := (p.next '\r').next '\n') rfl
          rw [unifyLineEnds_pair]
          exact ⟨l, onLine.cons rfl _, shown⟩
  | case4 line a rest alone feed ih =>
      cases n with
      | zero =>
          cases here
          exact absurd feed (not_or.mpr inner)
      | succ n =>
          obtain ⟨l, onLine, shown⟩ := ih here (p := p.next '\n') rfl
          rw [unifyLineEnds_of_feed feed alone]
          exact ⟨l, onLine.cons rfl _, shown⟩
  | case5 line a rest _ inside ih =>
      obtain ⟨noFeed, noReturn⟩ := not_or.mp inside
      have next := Position.next_of_ne noFeed p
      cases n with
      | zero =>
          obtain rfl : a = c := Option.some.inj here
          obtain ⟨l, ls, eq⟩ := exists_linesOf_go (a :: line) rest (by simp)
          rw [eq]
          refine ⟨_, Position.onLine_head ls rfl, ?_⟩
          simp [column]
      | succ n =>
          obtain ⟨l, onLine, shown⟩ := ih here (p := p.next a) (by rw [next, column]; rfl)
          rw [unifyLineEnds_of_ne noReturn]
          exact ⟨l, onLine.of_line_eq (by rw [next]), shown⟩

/-- The end of a text stands at the end of the last line, or at the start of the one behind it. -/
theorem onLine_end (text : List Char) {line : List Char} {p : Position}
    (column : p.column = line.length + 1) :
    (∃ l, OnLine (linesOf.go line text) p (p.after (unifyLineEnds text)) l ∧
      (p.after (unifyLineEnds text)).column = l.length + 1) ∨
    EndsLine text ∧ (p.after (unifyLineEnds text)).line = p.line + (linesOf.go line text).length ∧
      (p.after (unifyLineEnds text)).column = 1 := by
  fun_induction linesOf.go line text generalizing p with
  | case1 => exact .inr ⟨.inl rfl, rfl, column⟩
  | case2 line => exact .inl ⟨_, Position.onLine_head [] rfl, by simpa using column⟩
  | case3 line rest ih =>
      rw [unifyLineEnds_pair]
      rcases ih (p := (p.next '\r').next '\n') rfl with ⟨l, onLine, last⟩ | ⟨ends, below, first⟩
      · exact .inl ⟨l, onLine.cons rfl _, last⟩
      · refine .inr ⟨(ends.cons (.inl rfl)).cons (.inr rfl), ?_, first⟩
        exact below.trans (Nat.succ_add_eq_add_succ p.line _)
  | case4 line a rest alone feed ih =>
      rw [unifyLineEnds_of_feed feed alone]
      rcases ih (p := p.next '\n') rfl with ⟨l, onLine, last⟩ | ⟨ends, below, first⟩
      · exact .inl ⟨l, onLine.cons rfl _, last⟩
      · refine .inr ⟨ends.cons feed, ?_, first⟩
        exact below.trans (Nat.succ_add_eq_add_succ p.line _)
  | case5 line a rest _ inside ih =>
      obtain ⟨noFeed, noReturn⟩ := not_or.mp inside
      have next := Position.next_of_ne noFeed p
      rw [unifyLineEnds_of_ne noReturn]
      rcases ih (p := p.next a) (by rw [next, column]; rfl) with
        ⟨l, onLine, last⟩ | ⟨ends, below, first⟩
      · exact .inl ⟨l, onLine.of_line_eq (by rw [next]), last⟩
      · right
        have more : rest ≠ [] := by
          rintro rfl
          rw [unifyLineEnds_nil, Position.after_nil, next, column] at first
          cases first
        have same : (p.next a).line = p.line := by rw [next]
        exact ⟨ends.cons_of_ne_nil more a, same ▸ below, first⟩

/-! ## Markers -/

namespace Listing

variable {lines : List (List Char)} {ds : List Diagnostic} {d : Diagnostic} {index : Nat}
  {line : List Char}

structure MarkedBelow (lines : List (List Char)) (ds : List Diagnostic) (d : Diagnostic)
    (index : Nat) (line : List Char) : Prop where
  isLine : lines[index]? = some line
  listed : block (lines.length - 1) ds line index <:+: rows lines ds
  marked : marker line d ∈ block (lines.length - 1) ds line index

theorem block_infix_rows (isLine : lines[index]? = some line) (ds : List Diagnostic) :
    block (lines.length - 1) ds line index <:+: rows lines ds := by
  have some : lines ≠ [] := List.ne_nil_of_mem (List.mem_of_getElem? isLine)
  have mem : (line, index) ∈ lines.zipIdx := List.mk_mem_zipIdx_iff_getElem?.mpr isLine
  obtain ⟨above, below, eq⟩ := List.append_of_mem mem
  rw [rows, if_neg some, eq, List.flatMap_append, List.flatMap_cons, ← List.append_assoc]
  exact List.infix_append _ _ _

theorem markedBelow (isLine : lines[index]? = some line) (mem : d ∈ ds)
    (belongs : min d.line (lines.length - 1) = index) : MarkedBelow lines ds d index line where
  isLine := isLine
  listed := block_infix_rows isLine ds
  marked := by
    refine List.mem_cons_of_mem _ (List.mem_map_of_mem ?_)
    simpa [mem] using belongs

/-- A marker with a caret behind as many blanks and tabs as its column says. -/
structure Caret (line : List Char) (d : Diagnostic) (column : Nat) (pad : String) : Prop where
  column_mem : column ∈ d.column?
  length_eq : pad.length = column
  blank : ∀ c ∈ pad.toList, c = ' ' ∨ c = '\t'
  marker_eq : marker line d = "**** " ++ pad ++ "^ " ++ d.message ++ "\n"

theorem exists_caret {column : Nat} (mem : column ∈ d.column?) (le : column ≤ line.length) :
    ∃ pad, Caret line d column pad := by
  refine ⟨String.ofList (padding line column), mem, ?_, fun c h => ?_, ?_⟩
  · simp [padding, le]
  · simp only [padding, String.toList_ofList, List.mem_map] at h
    obtain ⟨b, -, rfl⟩ := h
    split
    · exact .inr rfl
    · exact .inl rfl
  · rw [marker, Option.mem_def.mp mem]
    rfl

end Listing

end OberonFront
