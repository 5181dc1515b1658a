import OberonFront.Command.Report
import OberonFront.Proofs.Lexicon.Breaks
import OberonFront.Proofs.Text.Quoted

/-!
# Dumps of tokens

A dump has one line for each token, and each line can be read back.  So a dump
tells lines, columns, kinds and texts of all tokens, whatever characters these
texts hold and whichever of them are shown by themselves.
-/

namespace OberonFront

namespace Dump

/-- What a line of a dump tells of a token: its kind, its text, and where it starts. -/
abbrev Entry := Kind × String × Nat × Nat

/-! ## Lines -/

/-- The line of a token, `shown` holding of the characters that may stand for themselves. -/
def row (shown : Char → Bool) : Entry → List Char
  | (kind, text, line, column) =>
      Nat.toDigits 10 line ++ ':' :: (Nat.toDigits 10 column ++
        ' ' :: '#' :: (Nat.toDigits 10 kind ++ ' ' :: quoted shown text.toList))

def readRow (row : List Char) : Option Entry := do
  let (line, rest) ← readNumber 10 ':' 0 row
  let (column, rest) ← readNumber 10 ' ' 0 rest
  let (kind, rest) ← readNumber 10 ' ' 0 rest.tail
  let (text, rest) ← readQuoted rest.tail
  if rest = [] then some (kind, String.ofList text, line, column) else none

variable (shown : Char → Bool)

theorem readRow_row (entry : Entry) : readRow (row shown entry) = some entry := by
  obtain ⟨kind, text, line, column⟩ := entry
  have colon : ∀ digit < 16, ':' ≠ Nat.digitChar digit := by decide
  have blank : ∀ digit < 16, ' ' ≠ Nat.digitChar digit := by decide
  have number {stop : Char} := @readNumber_toDigits 10 (by decide) (by decide) stop
  have quotedText : readQuoted (quoted shown text.toList).tail = some (text.toList, []) :=
    readQuoted_append shown text.toList []
  rw [readRow, row, number colon, Option.bind_eq_bind, Option.bind_some]
  simp only [number blank, Option.bind_eq_bind, Option.bind_some, List.tail_cons, quotedText,
    if_true, String.ofList_toList]

/-- The line of a token holds no line end. -/
theorem inner_row (entry : Entry) : ∀ c ∈ row shown entry, c ≠ '\n' ∧ c ≠ '\r' := by
  have number := inner_toDigits 10 (by decide) (by decide)
  intro c mem
  simp only [row, List.mem_append, List.mem_cons] at mem
  rcases mem with line | rfl | column | rfl | rfl | kind | rfl | text
  · exact number _ c line
  · decide
  · exact number _ c column
  · decide
  · decide
  · exact number _ c kind
  · decide
  · exact inner_quoted shown _ c text

/-! ## Whole dumps -/

def text (entries : List Entry) : List Char :=
  entries.flatMap fun entry => row shown entry ++ ['\n']

def read (text : List Char) : Option (List Entry) := (linesOf text).mapM readRow

theorem linesOf_text (entries : List Entry) :
    linesOf (text shown entries) = entries.map (row shown) := by
  induction entries with
  | nil => rfl
  | cons entry entries ih =>
      rw [text, List.flatMap_cons, List.append_assoc, List.map_cons, ← ih]
      exact linesOf_append_feed (inner_row shown entry) _

theorem read_text (entries : List Entry) : read (text shown entries) = some entries := by
  rw [read, linesOf_text]
  induction entries with
  | nil => rfl
  | cons entry entries ih =>
      rw [List.map_cons, List.mapM_cons, readRow_row, ih]
      rfl

end Dump

/-! ## The dump of a source -/

theorem Token.toList_display (t : Token) : t.display.toList = Dump.row isShown t.entry := by
  have parts : t.display = toString t.start.line ++ ":" ++ toString t.start.column ++ " " ++
      ("#" ++ toString t.kind) ++ " " ++ quote t.text := rfl
  rw [parts, quote]
  simp only [Nat.toString_eq_ofList_toDigits, String.toList_append, String.toList_ofList,
    List.append_assoc]
  rfl

namespace FrontEnd

theorem toList_renderTokens (e : FrontEnd) (source : String) :
    (e.renderTokens source).toList = Dump.text isShown (e.lex source).entries := by
  rw [renderTokens, TokenList.entries]
  induction (e.lex source).toList with
  | nil => rfl
  | cons t ts ih =>
      have line : (t.display ++ "\n").toList = Dump.row isShown t.entry ++ ['\n'] := by
        rw [String.toList_append, t.toList_display]
        rfl
      rw [List.map_cons, String.join_cons, String.toList_append, ih]
      exact congrArg (· ++ Dump.text isShown (ts.map Token.entry)) line

/-- A dump has one line for each token and can be read back, whichever characters are shown by
themselves.  So what is written for the tokens of a source tells their lines, columns, kinds and
texts, and it is the same for two sources if and only if these are the same. -/
theorem renderTokens_readable :
    (∀ (shown : Char → Bool) (entries : List Dump.Entry),
      linesOf (Dump.text shown entries) = entries.map (Dump.row shown) ∧
        Dump.read (Dump.text shown entries) = some entries) ∧
    ∀ (e : FrontEnd) (source : String),
      (e.renderTokens source).toList = Dump.text isShown (e.lex source).entries ∧
      (linesOf (e.renderTokens source).toList).length = (e.lex source).length ∧
      Dump.read (e.renderTokens source).toList = some (e.lex source).entries ∧
      ∀ (e' : FrontEnd) (source' : String),
        e.renderTokens source = e'.renderTokens source' ↔
          (e.lex source).entries = (e'.lex source').entries := by
  have reads (e : FrontEnd) (source : String) :
      Dump.read (e.renderTokens source).toList = some (e.lex source).entries := by
    rw [toList_renderTokens, Dump.read_text]
  refine ⟨fun shown entries => ⟨Dump.linesOf_text shown entries, Dump.read_text shown entries⟩, ?_⟩
  intro e source
  refine ⟨e.toList_renderTokens source, ?lines, reads e source, fun e' source' => ⟨?told, ?tells⟩⟩
  case lines =>
    rw [toList_renderTokens, Dump.linesOf_text, List.length_map, TokenList.entries,
      List.length_map, TokenList.length]
  case told =>
    intro same
    have both := reads e source
    rw [same, reads e' source'] at both
    exact (Option.some.inj both).symm
  case tells =>
    intro same
    rw [← String.toList_inj, toList_renderTokens, toList_renderTokens, same]

/-- A line feed inside a token does not end its line. -/
example : Dump.row isShown (48, "'a\n\"", 3, 1) = "3:1 #48 \"'a\\n\\\"\"".toList := by
  decide +kernel

end FrontEnd

end OberonFront
