import OberonFront.Command.Request

/-!
# The command line

Reads the files that the arguments name, and writes out the answer.
-/

namespace OberonFront

def readBytes (path : String) : IO (Except ReadFailure ByteArray) := do
  try
    return .ok (← IO.FS.readBinFile path)
  catch
    | .noFileOrDirectory .. => return .error .notFound
    | .permissionDenied .. => return .error .permissionDenied
    | e => return .error (.other (toString e))

def readFiles (paths : List String) : IO Files := do
  let contents ← paths.mapM fun path => return (path, ← readBytes path)
  return fun path => (contents.lookup path).getD (.error .notFound)

/-- Answers a command line.  The exit status is zero if nothing was found, one if there are
problems in a text, and two if a command could not be carried out. -/
def runCommandLine (args : List String) : IO UInt32 := do
  let paths :=
    match Request.parse args with
    | .ok request => request.paths
    | .error _ => []
  let answer := Answer.ofArgs args (← readFiles paths)
  (← IO.getStdout).putStr answer.stdout
  (← IO.getStderr).putStr answer.stderr
  return answer.exit.toUInt32

end OberonFront

def main (args : List String) : IO UInt32 := OberonFront.runCommandLine args
