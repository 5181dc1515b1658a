import OberonFront.Command.Error

/-!
# The operands of a check

A grammar and one or more files.  The option for immediate reports may stand
anywhere among them.  Behind two hyphens everything is an operand.
-/

namespace OberonFront

structure CheckArguments where
  grammar : String
  paths : List String
  immediate : Bool
deriving DecidableEq, Repr

namespace CheckArguments

/-- Separates the option from the operands.  Any other option is refused. -/
def operands? : List String → Option (Bool × List String)
  | [] => some (false, [])
  | arg :: rest =>
      if arg = "--" then some (false, rest)
      else if arg = "--immediate" then (operands? rest).map fun (_, found) => (true, found)
      else if "--".toList.isPrefixOf arg.toList then none
      else (operands? rest).map fun (immediate, found) => (immediate, arg :: found)

def parse (args : List String) : Except CommandError CheckArguments :=
  match operands? args with
  | some (immediate, grammar :: path :: paths) => .ok ⟨grammar, path :: paths, immediate⟩
  | _ => .error (.usage .check)

end CheckArguments

end OberonFront
