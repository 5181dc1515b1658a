/-!
# Diagnostics

A problem found in a text: where it is, what is wrong, and whether it counts as
an error.  Lines and columns are counted from zero here and from one wherever a
reader sees them.
-/

namespace OberonFront

inductive Severity where
  | error
  | warning
deriving DecidableEq, Repr

def Severity.name : Severity → String
  | .error => "error"
  | .warning => "warning"

/-- A reported problem, at a zero-based line and, if it has one, a zero-based column. -/
structure Diagnostic where
  line : Nat
  column? : Option Nat
  message : String
  severity : Severity
deriving DecidableEq, Repr

namespace Diagnostic

/-- The problem at a one-based place, of which a column zero stands for none. -/
def ofOneBased (severity : Severity) (line column : Nat) (message : String) : Diagnostic :=
  ⟨line - 1, if column = 0 then none else some (column - 1), message, severity⟩

def isError (d : Diagnostic) : Bool := d.severity == .error

/-- Line, column and message, counted from one. -/
def display (d : Diagnostic) : String :=
  match d.column? with
  | some column => s!"{d.line + 1}:{column + 1}: {d.message}"
  | none => s!"{d.line + 1}: {d.message}"

/-- The line under which the problem is announced as soon as it is found in a file. -/
def announcement (d : Diagnostic) (file : String) : String :=
  match d.column? with
  | some column => s!"file {file} : ({d.line + 1}, {column + 1}) {d.message}\n"
  | none => s!"file {file} : ({d.line + 1}) {d.message}\n"

end Diagnostic

/-- The line that closes a run of announcements or a listing. -/
def errorTotal (errors : Nat) : String := s!"{errors} errors detected\n"

end OberonFront
