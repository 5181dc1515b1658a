import OberonFront.Diagnostic.Listing

/-!
# The rows of a listing

A listing has one row for each line of the text and one for each problem.  Taken
alone, the lines are in their order, and the problems are sorted by the line that
they follow, those behind one line being in the order in which they were given.
-/

namespace OberonFront

/-! ## Sorting by a number -/

section

variable {α : Type} {key : α → Nat} {l : List α}

/-- In a list sorted by a key, those of one key stand right behind those of smaller ones. -/
theorem filter_le_eq_append (sorted : l.Pairwise (key · ≤ key ·)) (n : Nat) :
    l.filter (key · ≤ n) = l.filter (key · < n) ++ l.filter (key · = n) := by
  induction l with
  | nil => rfl
  | cons a l ih =>
      obtain ⟨least, sorted⟩ := List.pairwise_cons.mp sorted
      have rest := ih sorted
      rcases Nat.lt_trichotomy (key a) n with less | same | greater
      · simp [rest, less, Nat.le_of_lt less, Nat.ne_of_lt less]
      · have none : l.filter (key · < n) = [] :=
          List.filter_eq_nil_iff.mpr fun b hb => by simpa [← same] using least b hb
        simp [rest, none, same]
      · simp [rest, Nat.not_le.mpr greater, Nat.lt_asymm greater, Nat.ne_of_gt greater]

theorem flatMap_range_filter (sorted : l.Pairwise (key · ≤ key ·)) (n : Nat) :
    (List.range n).flatMap (fun k => l.filter (key · = k)) = l.filter (key · < n) := by
  induction n with
  | zero => simp
  | succ n ih =>
      simp only [Nat.lt_succ_iff]
      rw [filter_le_eq_append sorted, ← ih, List.range_succ, List.flatMap_append,
        List.flatMap_singleton]

theorem decide_le_trans (a b c : α) (ab : decide (key a ≤ key b) = true)
    (bc : decide (key b ≤ key c) = true) : decide (key a ≤ key c) = true :=
  decide_eq_true (Nat.le_trans (of_decide_eq_true ab) (of_decide_eq_true bc))

theorem decide_le_total (a b : α) : (decide (key a ≤ key b) || decide (key b ≤ key a)) = true := by
  simpa using Nat.le_total (key a) (key b)

/-- A stable sort keeps those of one key in their order. -/
theorem filter_mergeSort (key : α → Nat) (l : List α) (k : Nat) :
    (l.mergeSort (key · ≤ key ·)).filter (key · = k) = l.filter (key · = k) := by
  have level : (l.filter (key · = k)).Pairwise fun a b => decide (key a ≤ key b) = true := by
    refine List.pairwise_of_forall_mem_list fun a ha b hb => decide_eq_true (Nat.le_of_eq ?_)
    rw [of_decide_eq_true (List.mem_filter.mp ha).2, of_decide_eq_true (List.mem_filter.mp hb).2]
  have kept := (List.sublist_mergeSort decide_le_trans decide_le_total level
    List.filter_sublist).filter (key · = k)
  simp only [List.filter_filter, Bool.and_self] at kept
  exact (kept.eq_of_length ((l.mergeSort_perm _).filter _).length_eq.symm).symm

/-- To sort stably by a bounded key is to put together those of each key. -/
theorem mergeSort_eq_flatMap_range {n : Nat} (bounded : ∀ a ∈ l, key a < n) :
    l.mergeSort (key · ≤ key ·) = (List.range n).flatMap fun k => l.filter (key · = k) := by
  have sorted : (l.mergeSort (key · ≤ key ·)).Pairwise (key · ≤ key ·) :=
    (List.pairwise_mergeSort decide_le_trans decide_le_total l).imp of_decide_eq_true
  have all : (l.mergeSort (key · ≤ key ·)).filter (key · < n) = l.mergeSort (key · ≤ key ·) :=
    List.filter_eq_self.mpr fun a ha => decide_eq_true (bounded a (List.mem_mergeSort.mp ha))
  rw [← all, ← flatMap_range_filter sorted]
  simp only [filter_mergeSort]

end

namespace Listing

/-! ## Rows -/

/-- A row of a listing: a line of the text under its number, or a problem under a line. -/
inductive Row where
  | source (number : Nat) (line : List Char)
  | marker (line : List Char) (d : Diagnostic)
deriving DecidableEq, Repr

namespace Row

def text : Row → String
  | .source number line => sourceRow number line
  | .marker line d => Listing.marker line d

def source? : Row → Option (List Char × Nat)
  | .source number line => some (line, number)
  | .marker _ _ => none

def diagnostic? : Row → Option Diagnostic
  | .source _ _ => none
  | .marker _ d => some d

end Row

/-- The line, numbered from zero, that the marker of a problem follows. -/
def place (lines : List (List Char)) (d : Diagnostic) : Nat := min d.line (lines.length - 1)

def group (lines : List (List Char)) (ds : List Diagnostic) (line : List Char) (index : Nat) :
    List Row :=
  .source (index + 1) line :: (ds.filter (place lines · = index)).map (.marker line)

def entries (lines : List (List Char)) (ds : List Diagnostic) : List Row :=
  if lines = [] then ds.map (.marker [])
  else lines.zipIdx.flatMap fun (line, index) => group lines ds line index

section

variable (lines : List (List Char)) (ds : List Diagnostic) (line : List Char)

theorem map_text_group (index : Nat) :
    (group lines ds line index).map Row.text = block (lines.length - 1) ds line index := by
  rw [group, List.map_cons, List.map_map]
  rfl

/-- The texts of the rows are those that a listing is made of. -/
theorem map_text_entries : (entries lines ds).map Row.text = rows lines ds := by
  unfold entries rows
  split
  · rw [List.map_map]
    rfl
  · simp only [List.map_flatMap, map_text_group]

theorem filterMap_source?_markers : (ds.map (.marker line)).filterMap Row.source? = [] :=
  List.filterMap_eq_nil_iff.mpr (List.forall_mem_map.mpr fun _ _ => rfl)

theorem filterMap_diagnostic?_markers : (ds.map (.marker line)).filterMap Row.diagnostic? = ds := by
  rw [List.filterMap_map]
  exact List.filterMap_some

theorem filterMap_source?_cons (number : Nat) (rest : List Row) :
    (.source number line :: rest).filterMap Row.source? =
      (line, number) :: rest.filterMap Row.source? := rfl

theorem filterMap_source?_group (index : Nat) :
    (group lines ds line index).filterMap Row.source? = [(line, index + 1)] := by
  rw [group, filterMap_source?_cons, filterMap_source?_markers]

theorem filterMap_diagnostic?_group (index : Nat) :
    (group lines ds line index).filterMap Row.diagnostic? =
      ds.filter (place lines · = index) := by
  rw [group, List.filterMap_cons_none rfl, filterMap_diagnostic?_markers]

/-! ## Lines and problems taken alone -/

theorem filterMap_source?_entries :
    (entries lines ds).filterMap Row.source? = lines.zipIdx 1 := by
  unfold entries
  split
  · rename_i none
    rw [filterMap_source?_markers, none]
    rfl
  · simp only [List.filterMap_flatMap, filterMap_source?_group, List.zipIdx_succ]
    exact List.map_eq_flatMap.symm

theorem filterMap_diagnostic?_entries :
    (entries lines ds).filterMap Row.diagnostic? =
      ds.mergeSort (place lines · ≤ place lines ·) := by
  unfold entries
  split
  · rename_i none
    have level : ds.Pairwise fun d d' => decide (place lines d ≤ place lines d') = true :=
      List.pairwise_of_forall fun d d' => by simp [place, none]
    rw [filterMap_diagnostic?_markers, List.mergeSort_of_pairwise level]
  · rename_i some
    have pos : 0 < lines.length := List.length_pos_iff.mpr some
    have bounded : ∀ d ∈ ds, place lines d < lines.length := fun d _ =>
      Nat.lt_of_le_of_lt (Nat.min_le_right ..) (Nat.sub_lt pos Nat.one_pos)
    rw [mergeSort_eq_flatMap_range bounded, List.range_eq_range', ← List.zipIdx_map_snd,
      List.flatMap_map]
    simp only [List.filterMap_flatMap, filterMap_diagnostic?_group]

/-- A problem behind the last line takes its turn among those of the last line. -/
example : (entries [['a'], ['b']] [⟨7, some 0, "end", .error⟩, ⟨0, none, "first", .error⟩,
    ⟨1, some 9, "last", .warning⟩]).filterMap (·.diagnostic?.map (·.message)) =
      ["first", "end", "last"] := by
  decide

end

/-! ## Where markers stand -/

variable {lines : List (List Char)} {ds : List Diagnostic} {above below : List Row}
  {line : List Char} {d : Diagnostic}

theorem of_markers_eq_append {l : List Char}
    (eq : ds.map (.marker l) = above ++ .marker line d :: below) :
    d ∈ ds ∧ line = l ∧ above.filterMap Row.source? = [] := by
  obtain ⟨ds₁, ds₂, rfl, rfl, later⟩ := List.map_eq_append_iff.mp eq
  obtain ⟨d', ds₃, rfl, here, -⟩ := List.map_eq_cons_iff.mp later
  cases here
  exact ⟨by simp, rfl, filterMap_source?_markers ds₁ _⟩

theorem of_group_eq_append {index : Nat} {l : List Char}
    (eq : group lines ds l index = above ++ .marker line d :: below) :
    place lines d = index ∧ line = l ∧ above.filterMap Row.source? = [(l, index + 1)] := by
  obtain ⟨-, head⟩ | ⟨markers, rfl, behind⟩ := List.cons_eq_append_iff.mp eq
  · cases head
  · obtain ⟨belongs, same, none⟩ := of_markers_eq_append behind
    refine ⟨of_decide_eq_true (List.mem_filter.mp belongs).2, same, ?_⟩
    rw [filterMap_source?_cons, none]

/-- The marker of a problem stands behind the line that it is about, in front of the next one. -/
theorem exists_of_groups_eq_append {ls : List (List Char)} {start : Nat}
    (eq : (ls.zipIdx start).flatMap (fun (l, index) => group lines ds l index) =
      above ++ .marker line d :: below) :
    ∃ i, place lines d = start + i ∧ ls[i]? = some line ∧
      above.filterMap Row.source? = (ls.zipIdx (start + 1)).take (i + 1) := by
  induction ls generalizing start above with
  | nil => simp at eq
  | cons l ls ih =>
      rw [List.zipIdx_cons, List.flatMap_cons] at eq
      change group lines ds l start ++ _ = _ at eq
      have later {mid : List Row}
          (eq : (ls.zipIdx (start + 1)).flatMap (fun (l, index) => group lines ds l index) =
            mid ++ .marker line d :: below) :
          ∃ i, place lines d = start + i ∧ (l :: ls)[i]? = some line ∧
            (group lines ds l start ++ mid).filterMap Row.source? =
              ((l :: ls).zipIdx (start + 1)).take (i + 1) := by
        obtain ⟨i, below, isLine, lines⟩ := ih eq
        refine ⟨i + 1, by omega, isLine, ?_⟩
        rw [List.filterMap_append, filterMap_source?_group, lines]
        rfl
      obtain ⟨mid, rfl, behind⟩ | ⟨mid, inner, behind⟩ := List.append_eq_append_iff.mp eq
      · exact later behind
      · cases mid with
        | nil =>
            have next := @later [] behind.symm
            rwa [List.append_nil, inner, List.append_nil] at next
        | cons row mid =>
            cases behind
            obtain ⟨here, rfl, lines⟩ := of_group_eq_append inner
            exact ⟨0, here, rfl, lines⟩

/-- Above the marker of a problem stand just the lines up to its place, the last of which it is
padded for. -/
theorem of_entries_eq_append (eq : entries lines ds = above ++ .marker line d :: below) :
    above.filterMap Row.source? = (lines.zipIdx 1).take (place lines d + 1) ∧
      line = lines[place lines d]?.getD [] := by
  unfold entries at eq
  split at eq
  · rename_i none
    obtain ⟨-, rfl, noLine⟩ := of_markers_eq_append eq
    rw [noLine, none]
    exact ⟨rfl, rfl⟩
  · obtain ⟨i, here, isLine, lines⟩ := exists_of_groups_eq_append eq
    rw [Nat.zero_add] at here
    rw [here, isLine, lines]
    exact ⟨rfl, rfl⟩

/-! ## Numbers -/

/-- A number at the right end of a field, which is wider than asked for only if the number is. -/
structure Aligned (width number : Nat) (field : String) : Prop where
  digits : ∃ blanks, field.toList = List.replicate blanks ' ' ++ Nat.toDigits 10 number
  length_eq : field.length = max width (Nat.toDigits 10 number).length

theorem aligned_lineNumber (number : Nat) : Aligned 4 number (lineNumber number) where
  digits := by
    rw [lineNumber, String.toList_ofList, Nat.toString_eq_ofList_toDigits, String.toList_ofList]
    exact ⟨_, rfl⟩
  length_eq := by
    rw [lineNumber, String.length_ofList, List.length_append, List.length_replicate,
      Nat.toString_eq_ofList_toDigits, String.toList_ofList]
    omega

/-! ## Carets -/

/-- As many characters as a column says, but no more than a line has: a tab where the line has
one, and a blank elsewhere. -/
structure Pads (shown : List Char) (column : Nat) (pad : List Char) : Prop where
  length_eq : pad.length = min column shown.length
  getElem?_eq : ∀ i < pad.length, pad[i]? = some (if shown[i]? = some '\t' then '\t' else ' ')

theorem pads_padding (line : List Char) (column : Nat) : Pads line column (padding line column) where
  length_eq := by rw [padding, List.length_map, List.length_take]
  getElem?_eq i lt := by
    rw [padding, List.length_map, List.length_take, Nat.lt_min] at lt
    simp only [padding, List.getElem?_map, List.getElem?_take_of_lt lt.1,
      List.getElem?_eq_getElem lt.2, Option.map_some, Option.some.injEq]

end Listing

end OberonFront
