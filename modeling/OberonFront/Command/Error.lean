import OberonFront.FrontEnd

/-!
# Failures of the command line

What keeps a command from being carried out.  Problems in a checked text are
diagnostics and no failures.
-/

namespace OberonFront

/-- The commands that take operands. -/
inductive Verb where
  | check
  | lex
  | listing
deriving DecidableEq, Repr

def Verb.usage : Verb → String
  | .check => "ropsc check [--immediate] [--] <grammar> <file>..."
  | .lex => "ropsc lex <grammar> <file>"
  | .listing => "ropsc listing <grammar> <file>"

/-- Why a file could not be read. -/
inductive ReadFailure where
  | notFound
  | permissionDenied
  /-- Its bytes are not a text in UTF-8. -/
  | invalidText
  | other (reason : String)
deriving DecidableEq, Repr

def ReadFailure.message (path : String) : ReadFailure → String
  | .notFound => s!"cannot find file '{path}'"
  | .permissionDenied => s!"permission denied reading '{path}'"
  | .invalidText => s!"'{path}' contains invalid UTF-8 data"
  | .other reason => s!"error reading '{path}': {reason}"

inductive CommandError where
  | unreadable (path : String) (failure : ReadFailure)
  | unknownGrammar (name : String)
  /-- The operands are not what the command takes. -/
  | usage (verb : Verb)
deriving DecidableEq, Repr

def CommandError.message : CommandError → String
  | .unreadable path failure => failure.message path
  | .unknownGrammar name =>
      s!"unknown grammar '{name}' (expected one of: oberon0, umbriel)"
  | .usage verb => s!"usage: {verb.usage}"

def FrontEnd.named (name : String) : Except CommandError FrontEnd :=
  match FrontEnd.ofName? name with
  | some e => .ok e
  | none => .error (.unknownGrammar name)

end OberonFront
