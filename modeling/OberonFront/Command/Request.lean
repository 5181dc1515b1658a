import OberonFront.Command.Arguments
import OberonFront.Command.Report

/-!
# Requests

A command line is a request; its answer is two texts and an exit status.  The
answer is a function of the request and of what the files hold: a file is read
whole, and if one cannot be read nothing is said about the others.
-/

namespace OberonFront

inductive Request where
  | check (arguments : CheckArguments)
  | lex (grammar path : String)
  | listing (grammar path : String)
  | help
  | version
  /-- A command that there is not. -/
  | unknown (command : String)
deriving DecidableEq, Repr

/-- What a command line writes, and the status with which it ends. -/
structure Answer where
  exit : Nat
  stdout : String
  stderr : String
deriving DecidableEq, Repr

/-- The files as a command sees them: the bytes at a path, or why there are none. -/
abbrev Files := String → Except ReadFailure ByteArray

def Files.read (files : Files) (path : String) : Except CommandError String :=
  match files path with
  | .error failure => .error (.unreadable path failure)
  | .ok bytes =>
      match String.fromUTF8? bytes with
      | some text => .ok text
      | none => .error (.unreadable path .invalidText)

def versionLine : String := "ropsc 0.1.0\n"

def helpText : String :=
  String.join ([
    "rops: scanner and parser front ends for Oberon-0 and Umbriel",
    "",
    "Usage: ropsc <command> [options]",
    "",
    "Commands:",
    "  check <grammar> <file>...   Parse files and print diagnostics",
    "  lex <grammar> <file>        Print the token stream",
    "  listing <grammar> <file>    Print the source with diagnostics merged in",
    "  help                        Show this help message",
    "  version                     Show version information",
    "",
    "Grammars: oberon0, umbriel",
    "",
    "Check options:",
    "  --immediate   Write each diagnostic to stderr as it is found",
    "  --            Treat every following argument as an operand",
    "",
    "Exit status: 0 clean, 1 diagnostics reported, 2 usage or I/O error.",
    "Set RUST_LOG (e.g. RUST_LOG=rops_parse=debug) for tracing output."].map (· ++ "\n"))

namespace Request

def pair (verb : Verb) (make : String → String → Request) :
    List String → Except CommandError Request
  | [grammar, path] => .ok (make grammar path)
  | _ => .error (.usage verb)

def parse : List String → Except CommandError Request
  | [] => .ok .help
  | command :: rest =>
      if command = "check" then (CheckArguments.parse rest).map .check
      else if command = "lex" then pair .lex .lex rest
      else if command = "listing" then pair .listing .listing rest
      else if command ∈ ["help", "--help", "-h"] then .ok .help
      else if command ∈ ["version", "--version", "-V"] then .ok .version
      else .ok (.unknown command)

def paths : Request → List String
  | .check arguments => arguments.paths
  | .lex _ path => [path]
  | .listing _ path => [path]
  | _ => []

def exitStatus (clean : Bool) : Nat := if clean then 0 else 1

/-- Checks files, all of which are read before the first one is parsed. -/
def answerCheck (arguments : CheckArguments) (files : Files) : Except CommandError Answer := do
  let e ← FrontEnd.named arguments.grammar
  let sources ← arguments.paths.mapM fun path => return (path, ← files.read path)
  let results := sources.map fun (path, source) => e.checkFile arguments.immediate path source
  return {
    exit := exitStatus (results.all (·.1.isClean))
    stdout := String.join (results.map (·.1.render))
    stderr := String.join (results.map (·.2)) }

def answerLex (grammar path : String) (files : Files) : Except CommandError Answer := do
  let e ← FrontEnd.named grammar
  let source ← files.read path
  return ⟨0, e.renderTokens source, ""⟩

def answerListing (grammar path : String) (files : Files) : Except CommandError Answer := do
  let e ← FrontEnd.named grammar
  let source ← files.read path
  let (text, errors) := e.renderListing source
  return ⟨exitStatus (errors == 0), text, ""⟩

def perform (request : Request) (files : Files) : Except CommandError Answer :=
  match request with
  | .check arguments => answerCheck arguments files
  | .lex grammar path => answerLex grammar path files
  | .listing grammar path => answerListing grammar path files
  | .help => .ok ⟨0, helpText, ""⟩
  | .version => .ok ⟨0, versionLine, ""⟩
  | .unknown command => .ok ⟨2, helpText, s!"Unknown command: {command}\n\n"⟩

end Request

/-- The answer to a command that failed: the reason, and nothing else. -/
def CommandError.answer (e : CommandError) : Answer := ⟨2, "", s!"error: {e.message}\n"⟩

def Answer.ofArgs (args : List String) (files : Files) : Answer :=
  match Request.parse args with
  | .error e => e.answer
  | .ok request =>
      match request.perform files with
      | .error e => e.answer
      | .ok answer => answer

end OberonFront
