import OberonFront.Diagnostic.Basic
import OberonFront.Text.LineEnd

/-!
# Listings

A text with its lines numbered, each followed by the problems found in it.  A
caret stands under the column of the problem, tabs of the line being kept.
Problems behind the last line follow the last line.
-/

namespace OberonFront

namespace Listing

/-- A number of a line, right-aligned to four digits or as wide as it is. -/
def lineNumber (number : Nat) : String :=
  let digits := (toString number).toList
  String.ofList (List.replicate (4 - digits.length) ' ' ++ digits)

def sourceRow (number : Nat) (line : List Char) : String :=
  s!"{lineNumber number} {String.ofList line}\n"

/-- Blanks as wide as the line up to a column, or up to its end. -/
def padding (line : List Char) (column : Nat) : List Char :=
  (line.take column).map fun c => if c = '\t' then '\t' else ' '

/-- The problem with a caret under its column in the line above. -/
def marker (line : List Char) (d : Diagnostic) : String :=
  let pad := String.ofList (padding line (d.column?.getD 0))
  s!"**** {pad}^ {d.message}\n"

/-- A line of the text with its problems, the lines being numbered from zero to `last`. -/
def block (last : Nat) (diagnostics : List Diagnostic) (line : List Char) (index : Nat) :
    List String :=
  sourceRow (index + 1) line ::
    (diagnostics.filter fun d => min d.line last == index).map (marker line)

/-- The rows of a listing.  The problems of a text without lines stand alone. -/
def rows (lines : List (List Char)) (diagnostics : List Diagnostic) : List String :=
  let last := lines.length - 1
  if lines = [] then diagnostics.map (marker [])
  else lines.zipIdx.flatMap fun (line, index) => block last diagnostics line index

def render (source : String) (diagnostics : List Diagnostic) (errors : Nat) : String :=
  String.join (rows (linesOf source.toList) diagnostics) ++ "\n" ++ errorTotal errors

end Listing

end OberonFront
