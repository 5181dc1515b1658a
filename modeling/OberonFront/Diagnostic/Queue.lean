import OberonFront.Diagnostic.Basic

/-!
# Diagnostic queues

A queue counts the problems reported to it and either keeps them until they are
asked for, or announces each one at once and keeps none.
-/

namespace OberonFront

/-- What becomes of a problem once it is counted. -/
inductive Delivery where
  /-- It is kept, behind those reported before. -/
  | kept (diagnostics : Array Diagnostic)
  /-- It is announced.  `written` is all that was announced so far, and `flushes` how often the
  output was pushed out. -/
  | announced (written : String) (flushes : Nat)
deriving DecidableEq, Repr

namespace Delivery

def deliver (file : String) (d : Diagnostic) : Delivery → Delivery
  | .kept diagnostics => .kept (diagnostics.push d)
  | .announced written flushes => .announced (written ++ d.announcement file) flushes

def retained : Delivery → List Diagnostic
  | .kept diagnostics => diagnostics.toList
  | .announced _ _ => []

/-- Drops what is kept.  What was announced stays announced. -/
def clear : Delivery → Delivery
  | .kept _ => .kept #[]
  | .announced written flushes => .announced written flushes

/-- Ends a run of announcements with the number of errors and pushes the output out. -/
def close (errors : Nat) : Delivery → Delivery
  | .kept diagnostics => .kept diagnostics
  | .announced written flushes => .announced (written ++ errorTotal errors) (flushes + 1)

end Delivery

/-- The problems found in one file since the last reset. -/
structure Queue where
  file : String
  errors : Nat
  warnings : Nat
  delivery : Delivery
deriving DecidableEq, Repr

namespace Queue

def keeping (file : String) : Queue := ⟨file, 0, 0, .kept #[]⟩

def announcing (file : String) : Queue := ⟨file, 0, 0, .announced "" 0⟩

def isAnnouncing (q : Queue) : Bool :=
  match q.delivery with
  | .kept _ => false
  | .announced _ _ => true

def isEmpty (q : Queue) : Bool := q.errors == 0 && q.warnings == 0

def retained (q : Queue) : List Diagnostic := q.delivery.retained

def written (q : Queue) : String :=
  match q.delivery with
  | .kept _ => ""
  | .announced written _ => written

def flushes (q : Queue) : Nat :=
  match q.delivery with
  | .kept _ => 0
  | .announced _ flushes => flushes

def record (q : Queue) (d : Diagnostic) : Queue :=
  { q with
    errors := q.errors + if d.isError then 1 else 0
    warnings := q.warnings + if d.isError then 0 else 1
    delivery := q.delivery.deliver q.file d }

/-- Reports an error at a one-based place. -/
def error (q : Queue) (line column : Nat) (message : String) : Queue :=
  q.record (.ofOneBased .error line column message)

/-- Reports a warning at a one-based place. -/
def warn (q : Queue) (line column : Nat) (message : String) : Queue :=
  q.record (.ofOneBased .warning line column message)

def reset (q : Queue) : Queue := ⟨q.file, 0, 0, q.delivery.clear⟩

/-- Hands out what is kept and starts over. -/
def flush (q : Queue) : List Diagnostic × Queue := (q.retained, q.reset)

/-- Ends the announcements, then hands out what is kept and starts over. -/
def summarize (q : Queue) : List Diagnostic × Queue :=
  ({ q with delivery := q.delivery.close q.errors } : Queue).flush

end Queue

end OberonFront
