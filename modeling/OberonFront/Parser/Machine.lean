import OberonFront.Parser.Action

/-!
# Running a grammar

A machine that works off a list of pending actions.  The list is the machine's
own memory, so nesting in the text is bounded by nothing else.  A machine is
done when nothing is pending.
-/

namespace OberonFront

/-- A parser and what it has still to do.  A fault ends the work. -/
structure Machine (N : Type) where
  parser : Parser
  pending : List (Action N)
  fault? : Option Fault := none

namespace Machine

variable {N : Type}

def stopped (p : Parser) (fault : Fault) : Machine N := ⟨p, [], some fault⟩

def branch (p : Parser) (answer : Except Fault Bool) (yes no : List (Action N)) : Machine N :=
  match answer with
  | .ok true => ⟨p, yes, none⟩
  | .ok false => ⟨p, no, none⟩
  | .error fault => stopped p fault

end Machine

namespace Grammar

variable {N : Type}

/-- Does one action, `rest` being pending behind it. -/
def perform (g : Grammar N) (a : Action N) (p : Parser) (rest : List (Action N)) : Machine N :=
  match a with
  | .skip => ⟨p, rest, none⟩
  | .seq first second => ⟨p, first :: second :: rest, none⟩
  | .get => ⟨p.get, rest, none⟩
  | .expect kind => ⟨p.expect kind, rest, none⟩
  | .expectWeak kind follow =>
      match p.expectWeak kind follow with
      | (q, .ok ()) => ⟨q, rest, none⟩
      | (q, .error fault) => .stopped q fault
  | .fail code => ⟨p.fail code, rest, none⟩
  | .call n => ⟨p, g.body n :: rest, none⟩
  | .ifElse test yes no => .branch p (test.holds p) (yes :: rest) (no :: rest)
  | .whileDo test body => .branch p (test.holds p) (body :: a :: rest) rest
  | .separated kind element behind body =>
      match p.weakSeparator kind element behind with
      | (q, more) => .branch q more (body :: a :: rest) rest

/-- One step.  A machine that is done stays as it is. -/
def step (g : Grammar N) (m : Machine N) : Machine N :=
  match m.pending with
  | [] => m
  | a :: rest => g.perform a m.parser rest

/-- Steps until the machine is done, but no more than `fuel` times. -/
def run (g : Grammar N) : Nat → Machine N → Machine N
  | 0, m => m
  | fuel + 1, m => if m.pending.isEmpty then m else g.run fuel (g.step m)

/-- More steps than a machine takes between one token consumed and the next. -/
def stepsPerToken : Nat := 1000

/-- More steps than a machine takes on what is left of the tokens. -/
def budget (p : Parser) : Nat := stepsPerToken * (p.stream.rest.length + 2)

def exec (g : Grammar N) (a : Action N) (p : Parser) : Parser × Except Fault Unit :=
  let m := g.run (budget p) ⟨p, [a], none⟩
  match m.fault? with
  | some fault => (m.parser, .error fault)
  | none => (m.parser, .ok ())

/-- What a parser does with a whole text: the start production, and the end of the text. -/
def whole (g : Grammar N) : Action N := .seq (.call g.start) (.expect Kind.eof)

def parse (g : Grammar N) (p : Parser) : Parser × Except Fault Unit :=
  g.exec g.whole p.start

end Grammar

end OberonFront
