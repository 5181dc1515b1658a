import OberonFront.Parser.Basic

/-!
# Grammars as programs

A production is a small program for a parser: it consumes tokens, decides by the
lookahead, and calls other productions.  A grammar gives a program for each of
its nonterminals.
-/

namespace OberonFront

/-- A question about the lookahead. -/
inductive Test where
  /-- Whether it is of one of these kinds. -/
  | sees (kinds : List Kind)
  /-- Whether it is in a set of the tables. -/
  | starts (set : Nat)
deriving DecidableEq, Repr

def Test.holds (t : Test) (p : Parser) : Except Fault Bool :=
  match t with
  | .sees kinds => .ok (kinds.contains p.lookahead.kind)
  | .starts set => p.startOf set

/-- What a production makes a parser do, `N` being the nonterminals. -/
inductive Action (N : Type) where
  | skip
  /-- One action and then another. -/
  | seq (first second : Action N)
  /-- Consumes the lookahead. -/
  | get
  /-- Consumes a token of the kind or reports that it is missing. -/
  | expect (kind : Kind)
  /-- Consumes a token of the kind or reports that it is missing and skips to a set. -/
  | expectWeak (kind : Kind) (follow : Nat)
  /-- Reports a problem. -/
  | fail (code : Nat)
  /-- Acts as the production of a nonterminal. -/
  | call (nonterminal : N)
  | ifElse (test : Test) (yes no : Action N)
  | whileDo (test : Test) (body : Action N)
  /-- The further elements of a list, each behind a separator that may be missing. -/
  | separated (kind : Kind) (element behind : Nat) (body : Action N)
deriving Repr

namespace Action

variable {N : Type}

def block : List (Action N) → Action N
  | [] => skip
  | [a] => a
  | a :: as => seq a (block as)

/-- An action that is left out unless the test holds. -/
def when (test : Test) (body : Action N) : Action N := ifElse test body skip

/-- The first of the listed actions whose test holds, or else the last one. -/
def choose : List (Test × Action N) → Action N → Action N
  | [], other => other
  | (test, a) :: more, other => ifElse test a (choose more other)

end Action

/-- A program for each nonterminal, and the nonterminal of a whole text. -/
structure Grammar (N : Type) where
  start : N
  body : N → Action N

end OberonFront
