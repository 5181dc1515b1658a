import OberonFront.Diagnostic.Listing
import OberonFront.FrontEnd

/-!
# Reports on texts

What the commands say about a text: the problems found in it, its tokens, or
its listing.
-/

namespace OberonFront

structure FileReport where
  path : String
  diagnostics : List Diagnostic
  /-- The number of errors found, whether they are listed here or were announced. -/
  errors : Nat
deriving DecidableEq, Repr

namespace FileReport

/-- A line for each problem: path, place and message. -/
def render (r : FileReport) : String :=
  String.join (r.diagnostics.map fun d => s!"{r.path}:{d.display}\n")

def isClean (r : FileReport) : Bool := r.errors == 0 && r.diagnostics.isEmpty

end FileReport

namespace FrontEnd

/-- Checks a text.  The answer is the report and what was announced on the way. -/
def checkFile (e : FrontEnd) (immediate : Bool) (path source : String) : FileReport × String :=
  let q := (e.parseInto source (if immediate then .announcing path else .keeping path)).2
  let (diagnostics, closed) := q.summarize
  (⟨path, diagnostics, q.errors⟩, closed.written)

/-- The tokens of a text, one in a line. -/
def renderTokens (e : FrontEnd) (source : String) : String :=
  String.join ((e.lex source).toList.map fun t => s!"{t.display}\n")

/-- The listing of a text, and the number of errors in it. -/
def renderListing (e : FrontEnd) (source : String) : String × Nat :=
  let diagnostics := e.check source
  let errors := diagnostics.countP (·.isError)
  (Listing.render source diagnostics errors, errors)

end FrontEnd

end OberonFront
