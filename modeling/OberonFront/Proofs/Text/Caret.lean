import OberonFront.Proofs.Text.Rows

/-!
# Under which character a caret stands

A line stands in a listing behind its number, which takes four places or as many
as it has digits, and a caret behind four stars.  So the caret stands under the
character at its column as long as four places are enough for the number.  From
line 10000 on it stands too far to the left.
-/

namespace OberonFront

namespace Listing

/-! ## Widths -/

theorem sourceRow_eq (number column : Nat) (line : List Char) :
    sourceRow number line = lineNumber number ++ " " ++ String.ofList (line.take column) ++
      String.ofList (line.drop column) ++ "\n" := by
  have whole : String.ofList (line.take column) ++ String.ofList (line.drop column) =
      String.ofList line := by
    rw [← String.ofList_append, List.take_append_drop]
  calc
    sourceRow number line
      = lineNumber number ++ " " ++ String.ofList line ++ "\n" := rfl
    _ = _ := by rw [← whole, ← String.append_assoc]

theorem marker_eq {column : Nat} {d : Diagnostic} (atColumn : column ∈ d.column?)
    (line : List Char) :
    marker line d = "**** " ++ String.ofList (padding line column) ++ "^ " ++ d.message ++ "\n" := by
  rw [marker, Option.mem_def.mp atColumn]
  rfl

/-! ## Carets -/

/-- In the rows of a listing the marker of a problem follows a line, and between the two there are
only other markers.  All that stands in front of the character at a column of the line is `front`,
and all that stands in front of the caret is `pad`. -/
structure CaretBelow (lines : List (List Char)) (ds : List Diagnostic) (d : Diagnostic)
    (line : List Char) (column : Nat) (front pad : String) : Prop where
  rows_eq : ∃ above between below : List Row,
    entries lines ds = above ++ .source (d.line + 1) line :: (between ++ .marker line d :: below) ∧
      between.filterMap Row.source? = []
  source_eq : (Row.source (d.line + 1) line).text =
    front ++ String.ofList (line.drop column) ++ "\n"
  marker_eq : (Row.marker line d).text = pad ++ "^ " ++ d.message ++ "\n"

variable {lines : List (List Char)} {ds : List Diagnostic} {d : Diagnostic} {line : List Char}
  {column : Nat} {front pad : String}

/-- The rows of a line and of the problems that follow it stand together. -/
theorem exists_entries_eq_group {index : Nat} (isLine : lines[index]? = some line)
    (ds : List Diagnostic) :
    ∃ above below : List Row, entries lines ds = above ++ (group lines ds line index ++ below) := by
  have some : lines ≠ [] := List.ne_nil_of_mem (List.mem_of_getElem? isLine)
  have numbered : (line, index) ∈ lines.zipIdx := List.mk_mem_zipIdx_iff_getElem?.mpr isLine
  obtain ⟨above, below, around⟩ := List.append_of_mem numbered
  rw [entries, if_neg some, around, List.flatMap_append, List.flatMap_cons]
  exact ⟨_, _, rfl⟩

theorem exists_entries_eq (isLine : lines[d.line]? = some line) (mem : d ∈ ds) :
    ∃ above between below : List Row,
      entries lines ds =
        above ++ .source (d.line + 1) line :: (between ++ .marker line d :: below) ∧
      between.filterMap Row.source? = [] := by
  have lt : d.line < lines.length := (List.getElem?_eq_some_iff.mp isLine).1
  have here : place lines d = d.line := by
    rw [place]
    omega
  have follows : d ∈ ds.filter (place lines · = d.line) :=
    List.mem_filter.mpr ⟨mem, decide_eq_true here⟩
  obtain ⟨before, behind, markers⟩ := List.append_of_mem follows
  obtain ⟨above, below, around⟩ := exists_entries_eq_group isLine ds
  refine ⟨above, before.map (.marker line), behind.map (.marker line) ++ below, ?_,
    filterMap_source?_markers before line⟩
  rw [around, group, markers, List.map_append, List.map_cons]
  simp only [List.cons_append, List.append_assoc]

theorem caretBelow (isLine : lines[d.line]? = some line) (mem : d ∈ ds)
    (atColumn : column ∈ d.column?) :
    CaretBelow lines ds d line column
      (lineNumber (d.line + 1) ++ " " ++ String.ofList (line.take column))
      ("**** " ++ String.ofList (padding line column)) where
  rows_eq := exists_entries_eq isLine mem
  source_eq := sourceRow_eq (d.line + 1) column line
  marker_eq := marker_eq atColumn line

namespace CaretBelow

/-- A column is as far to the right as the number of the line and a blank are wide, and a caret as
four stars and a blank are. -/
theorem lengths (shown : CaretBelow lines ds d line column front pad)
    (atColumn : column ∈ d.column?) (le : column ≤ line.length) :
    front.length = max 4 (Nat.toDigits 10 (d.line + 1)).length + 1 + column ∧
      pad.length = 4 + 1 + column := by
  have source := congrArg String.length
    ((sourceRow_eq (d.line + 1) column line).symm.trans shown.source_eq)
  have mark := congrArg String.length
    ((Listing.marker_eq atColumn line).symm.trans shown.marker_eq)
  simp only [String.length_append, String.length_ofList, List.length_take,
    (aligned_lineNumber _).length_eq, padding, List.length_map] at source mark
  have blank : " ".length = 1 := rfl
  have stars : "**** ".length = 5 := rfl
  omega

theorem length_eq_iff (shown : CaretBelow lines ds d line column front pad)
    (atColumn : column ∈ d.column?) (le : column ≤ line.length) :
    pad.length = front.length ↔ d.line + 1 < 10000 := by
  obtain ⟨atChar, atCaret⟩ := shown.lengths atColumn le
  have digits : (Nat.toDigits 10 (d.line + 1)).length ≤ 4 ↔ d.line + 1 < 10 ^ 4 :=
    Nat.length_toDigits_le_iff (by decide) (by decide)
  omega

end CaretBelow

/-- The marker of a problem follows the row of its line, with no other line between.  The caret is
as far behind four stars and a blank as the character at its column is behind the number of the line
and a blank.  So it stands under this character if and only if the number has at most four digits. -/
theorem caret_under_column_iff (source : String) (ds : List Diagnostic) (errors : Nat)
    (d : Diagnostic) (line : List Char) (column : Nat) (mem : d ∈ ds)
    (isLine : (linesOf source.toList)[d.line]? = some line) (atColumn : column ∈ d.column?)
    (le : column ≤ line.length) :
    render source ds errors =
      String.join ((entries (linesOf source.toList) ds).map Row.text) ++ "\n" ++
        errorTotal errors ∧
    (∃ front pad, CaretBelow (linesOf source.toList) ds d line column front pad) ∧
    ∀ front pad, CaretBelow (linesOf source.toList) ds d line column front pad →
      front.length = max 4 (Nat.toDigits 10 (d.line + 1)).length + 1 + column ∧
      pad.length = 4 + 1 + column ∧
      (pad.length = front.length ↔ d.line + 1 < 10000) := by
  refine ⟨?text, ⟨_, _, caretBelow isLine mem atColumn⟩, ?widths⟩
  case text => rw [map_text_entries, render]
  case widths =>
    intro front pad shown
    obtain ⟨atChar, atCaret⟩ := shown.lengths atColumn le
    exact ⟨atChar, atCaret, shown.length_eq_iff atColumn le⟩

/-- A problem at a character behind a tab, on a line that has another problem. -/
theorem caret_under_column_tab :
    let d : Diagnostic := ⟨1, some 2, "identifier expected", .error⟩
    let ds : List Diagnostic := [⟨1, none, "first", .warning⟩, d]
    d ∈ ds ∧ (linesOf "MODULE\n\tm;\n".toList)[d.line]? = some ['\t', 'm', ';'] ∧
      2 ∈ d.column? ∧ 2 ≤ ['\t', 'm', ';'].length ∧
      ∃ front pad, CaretBelow (linesOf "MODULE\n\tm;\n".toList) ds d ['\t', 'm', ';'] 2 front pad ∧
        pad.length = front.length := by
  intro d ds
  have mem : d ∈ ds := by decide
  have isLine : (linesOf "MODULE\n\tm;\n".toList)[d.line]? = some ['\t', 'm', ';'] := by
    decide +kernel
  have atColumn : 2 ∈ d.column? := rfl
  have le : 2 ≤ ['\t', 'm', ';'].length := by decide
  obtain ⟨-, ⟨front, pad, shown⟩, widths⟩ :=
    caret_under_column_iff "MODULE\n\tm;\n" ds 1 d ['\t', 'm', ';'] 2 mem isLine atColumn le
  have few : d.line + 1 < 10000 := by decide
  exact ⟨mem, isLine, atColumn, le, front, pad, shown, (widths front pad shown).2.2.mpr few⟩

/-- Behind some line feeds there are as many lines without characters. -/
theorem getElem?_linesOf_feeds (n : Nat) (text : List Char) :
    (linesOf (List.replicate n '\n' ++ text))[n]? = (linesOf text)[0]? := by
  induction n with
  | zero => rfl
  | succ n ih =>
      have first : linesOf ('\n' :: (List.replicate n '\n' ++ text)) = [] :: linesOf _ :=
        linesOf_append_feed (List.forall_mem_nil _) _
      rw [List.replicate_succ, List.cons_append, first, List.getElem?_cons_succ]
      exact ih

/-- On line 10000 a caret stands too far to the left. -/
theorem not_caret_under_column :
    ¬ ∀ (source : String) (ds : List Diagnostic) (d : Diagnostic) (line : List Char) (column : Nat),
      d ∈ ds → (linesOf source.toList)[d.line]? = some line → column ∈ d.column? →
      column ≤ line.length →
      ∃ front pad, CaretBelow (linesOf source.toList) ds d line column front pad ∧
        pad.length = front.length := by
  intro under
  let d : Diagnostic := ⟨9999, some 0, "x", .error⟩
  have isLine : (linesOf (String.ofList (List.replicate 9999 '\n' ++ ['a'])).toList)[d.line]? =
      some ['a'] := by
    rw [String.toList_ofList]
    exact getElem?_linesOf_feeds 9999 ['a']
  obtain ⟨front, pad, shown, same⟩ :=
    under _ [d] d ['a'] 0 List.mem_cons_self isLine rfl (by decide)
  have few := (shown.length_eq_iff rfl (by decide)).mp same
  exact absurd few (by decide)

end Listing

end OberonFront
