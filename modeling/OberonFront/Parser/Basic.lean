import OberonFront.Diagnostic.Queue
import OberonFront.Parser.Tables
import OberonFront.Token.Stream

/-!
# Parsers

A parser holds the token it consumed last and the one after it, the lookahead.
It consumes tokens one by one and reports problems at the lookahead.  A report
is passed on only if at least two tokens were consumed since the one before,
whether or not that one was passed on.  After a missing separator the parser
recovers by consuming tokens up to one in a given set.

Consuming and reporting are the events of a parse.  All else that changes a
parser is a list of events, told from its state, that it then goes through.
-/

namespace OberonFront

/-- One thing that a parser does. -/
inductive Event where
  /-- It consumes the lookahead. -/
  | consume
  /-- It reports the problem of this number, whether or not the report is passed on. -/
  | report (code : Nat)
deriving DecidableEq, Repr

structure Parser where
  tables : Tables
  stream : TokenStream
  /-- The token consumed last. -/
  token : Token
  /-- The token to be consumed next. -/
  lookahead : Token
  /-- The number of tokens consumed since the last report.  It starts as if there had been one
  far enough away. -/
  distance : Nat
  queue : Queue
  /-- The number of errors in the queue when the parse began. -/
  errorsBefore : Nat

namespace Parser

/-- The number of tokens that are consumed between two reports that are both passed on. -/
def minDistance : Nat := 2

def ofTokens (tables : Tables) (tokens : TokenList) (queue : Queue) : Parser where
  tables := tables
  stream := .ofTokens tokens
  token := .sentinel
  lookahead := .sentinel
  distance := minDistance
  queue := queue
  errorsBefore := queue.errors

/-- The number of errors this parser passed on. -/
def errors (p : Parser) : Nat := p.queue.errors - p.errorsBefore

def successful (p : Parser) : Bool := p.errors == 0

def sees (p : Parser) (kind : Kind) : Bool := p.lookahead.kind == kind

def startOf (p : Parser) (index : Nat) : Except Fault Bool :=
  p.tables.startOf index p.lookahead.kind

/-- Looks past the lookahead, each time one token further. -/
def peek (p : Parser) : Token × Parser :=
  let (t, stream) := p.stream.peek p.tables.maxKind
  (t, { p with stream })

def resetPeek (p : Parser) : Parser := { p with stream := p.stream.resetPeek }

def get (p : Parser) : Parser :=
  let (t, stream) := p.stream.scanVisible p.tables.maxKind
  { p with stream, token := p.lookahead, lookahead := t, distance := p.distance + 1 }

def report (p : Parser) (severity : Severity) (message : String) : Parser :=
  let place := p.lookahead.start
  { p with
    distance := 0
    queue :=
      if p.distance < minDistance then p.queue
      else p.queue.record (.ofOneBased severity place.line place.column message) }

def fail (p : Parser) (code : Nat) : Parser := p.report .error (p.tables.message code)

/-- How many tokens are left to be consumed before the one that closes the sequence. -/
def remaining (p : Parser) : Nat :=
  p.stream.rest.length + if p.lookahead.kind = Kind.eof then 0 else 1

theorem remaining_get_lt {p : Parser} (h : p.lookahead.kind ≠ Kind.eof) :
    p.get.remaining < p.remaining := by
  unfold remaining
  rw [if_neg h]
  rcases p.stream.length_scanVisible_lt p.tables.maxKind with lt | ⟨rest, kind⟩
  · show (p.stream.scanVisible p.tables.maxKind).2.rest.length + _ < _
    split <;> omega
  · show (p.stream.scanVisible p.tables.maxKind).2.rest.length +
      (if (p.stream.scanVisible p.tables.maxKind).1.kind = Kind.eof then 0 else 1) < _
    rw [rest, if_pos kind]
    exact Nat.succ_pos _

/-! ## Events -/

def act (p : Parser) : Event → Parser
  | .consume => p.get
  | .report code => p.fail code

def replay (p : Parser) (events : List Event) : Parser := events.foldl act p

@[simp] theorem replay_cons (p : Parser) (event : Event) (events : List Event) :
    p.replay (event :: events) = (p.act event).replay events := rfl

/-! ## Operations -/

/-- A token of the given kind is consumed, or it is reported that there is none. -/
def expectEvents (p : Parser) (kind : Kind) : List Event :=
  if p.lookahead.kind = kind then [.consume] else [.report kind]

def expect (p : Parser) (kind : Kind) : Parser := p.replay (p.expectEvents kind)

theorem expect_eq (p : Parser) (kind : Kind) :
    p.expect kind = if p.lookahead.kind = kind then p.get else p.fail kind := by
  unfold expect expectEvents
  split <;> rfl

/-- Tokens are consumed up to the first one in the set, or to the end of the text. -/
def skipEvents (p : Parser) (stop : KindSet) : List Event :=
  go p []
where
  /-- Puts the events in front of `done`, last one first. -/
  go (p : Parser) (done : List Event) : List Event :=
    if _stops : stop.contains p.lookahead.kind = true ∨ p.lookahead.kind = Kind.eof then
      done.reverse
    else go p.get (.consume :: done)
  termination_by p.remaining
  decreasing_by exact remaining_get_lt fun eof => _stops (.inr eof)

theorem skipEvents.go_eq (p : Parser) (stop : KindSet) (done : List Event) :
    skipEvents.go stop p done = done.reverse ++ p.skipEvents stop := by
  unfold skipEvents
  suffices ∀ done extra : List Event,
      go stop p (done ++ extra) = extra.reverse ++ go stop p done by
    simpa using this [] done
  intro done
  fun_induction skipEvents.go stop p done with
  | case1 p done stops =>
      intro extra
      rw [go, dif_pos stops, List.reverse_append]
  | case2 p done goes ih =>
      intro extra
      rw [go, dif_neg goes]
      exact ih extra

theorem skipEvents_eq (p : Parser) (stop : KindSet) :
    p.skipEvents stop =
      if stop.contains p.lookahead.kind = true ∨ p.lookahead.kind = Kind.eof then []
      else .consume :: p.get.skipEvents stop := by
  rw [skipEvents, skipEvents.go]
  split
  · rfl
  · rw [skipEvents.go_eq]
    rfl

def skipTo (p : Parser) (stop : KindSet) : Parser := p.replay (p.skipEvents stop)

theorem skipTo_eq (p : Parser) (stop : KindSet) :
    p.skipTo stop =
      if stop.contains p.lookahead.kind = true ∨ p.lookahead.kind = Kind.eof then p
      else p.get.skipTo stop := by
  rw [skipTo, skipEvents_eq]
  split <;> rfl

/-- What holds where skipping ends, and of a parser that skips a token if it holds behind the
token, holds of all parsers. -/
theorem skip_induction {motive : Parser → Prop} (stop : KindSet)
    (stops : ∀ p : Parser, stop.contains p.lookahead.kind = true ∨ p.lookahead.kind = Kind.eof →
      motive p)
    (goes : ∀ p : Parser, ¬ (stop.contains p.lookahead.kind = true ∨ p.lookahead.kind = Kind.eof) →
      motive p.get → motive p)
    (p : Parser) : motive p := by
  fun_induction skipEvents.go stop p [] with
  | case1 p done h => exact stops p h
  | case2 p done h ih => exact goes p h ih

/-- A token of the given kind is consumed.  If there is none, this is reported and tokens are
skipped up to the set `follow`. -/
def expectWeakEvents (p : Parser) (kind : Kind) (follow : Nat) : List Event :=
  if p.lookahead.kind = kind then [.consume]
  else
    match p.tables.set follow with
    | .ok stop => .report kind :: (p.fail kind).skipEvents stop
    | .error _ => [.report kind]

def expectWeak (p : Parser) (kind : Kind) (follow : Nat) : Parser × Except Fault Unit :=
  (p.replay (p.expectWeakEvents kind follow),
    if p.lookahead.kind = kind then .ok () else (p.tables.set follow).map fun _ => ())

theorem expectWeak_eq (p : Parser) (kind : Kind) (follow : Nat) :
    p.expectWeak kind follow =
      if p.lookahead.kind = kind then (p.get, .ok ())
      else
        match p.tables.set follow with
        | .ok stop => ((p.fail kind).skipTo stop, .ok ())
        | .error fault => (p.fail kind, .error fault) := by
  unfold expectWeak expectWeakEvents
  split
  · rfl
  · cases p.tables.set follow <;> rfl

/-- Where skipping ends that looks for a further element of a list or for what follows it. -/
def separatorStop (p : Parser) (element behind : Nat) : Except Fault KindSet := do
  return (← p.tables.set element) ∪ (← p.tables.set behind) ∪ (← p.tables.set 0)

/-- A separator of the given kind is consumed, and before a token in the set `behind` nothing
happens.  Anything else is reported as a missing separator and skipped. -/
def weakSeparatorEvents (p : Parser) (kind : Kind) (element behind : Nat) : List Event :=
  if p.lookahead.kind = kind then [.consume]
  else
    match p.startOf behind, p.separatorStop element behind with
    | .ok false, .ok stop => .report kind :: (p.fail kind).skipEvents stop
    | _, _ => []

/-- Decides between the elements of a list whether another one follows: behind a separator one
does, and before a token in the set `behind` none does.  Where a separator was missing, one does if
skipping ended before a token in the set `element`. -/
def weakSeparator (p : Parser) (kind : Kind) (element behind : Nat) :
    Parser × Except Fault Bool :=
  let q := p.replay (p.weakSeparatorEvents kind element behind)
  let answer :=
    if p.lookahead.kind = kind then .ok true
    else
      match p.startOf behind, p.separatorStop element behind with
      | .error fault, _ => .error fault
      | .ok true, _ => .ok false
      | .ok false, .error fault => .error fault
      | .ok false, .ok _ => q.startOf element
  (q, answer)

theorem weakSeparator_eq (p : Parser) (kind : Kind) (element behind : Nat) :
    p.weakSeparator kind element behind =
      if p.lookahead.kind = kind then (p.get, .ok true)
      else
        match p.startOf behind with
        | .error fault => (p, .error fault)
        | .ok true => (p, .ok false)
        | .ok false =>
            match p.separatorStop element behind with
            | .error fault => (p, .error fault)
            | .ok stop =>
                let q := (p.fail kind).skipTo stop
                (q, q.startOf element) := by
  unfold weakSeparator weakSeparatorEvents
  split
  · rfl
  · cases p.startOf behind with
    | error fault => rfl
    | ok answer =>
        cases answer with
        | true => rfl
        | false => cases p.separatorStop element behind <;> rfl

/-- Makes the first token the lookahead.  Whatever was the lookahead before is forgotten. -/
def start (p : Parser) : Parser := ({ p with lookahead := .sentinel } : Parser).get

end Parser

end OberonFront
