import Mathlib.Data.List.DropRight
import OberonFront.Proofs.Diagnostic.Record
import OberonFront.Proofs.Parser.Events

/-!
# Which reports are passed on

Whatever a parser is used for, it consumes tokens, attempts reports and looks
ahead.  It counts the tokens that it consumed since it last attempted a report,
so an attempt is passed on if it is the first one, or if enough tokens were
consumed since the one before it.  Neither the kind of the report matters nor
whether the one before was passed on.
-/

namespace OberonFront

/-- One thing that a parser does. -/
inductive Deed where
  | consume
  /-- It attempts to report a problem at the lookahead. -/
  | attempt (severity : Severity) (message : String)
  | peek
  | resetPeek
deriving DecidableEq, Repr

namespace Deed

def isAttempt : Deed → Bool
  | .attempt _ _ => true
  | _ => false

def Quiet (deeds : List Deed) : Prop := ∀ d ∈ deeds, d.isAttempt = false

instance (deeds : List Deed) : Decidable (Quiet deeds) :=
  inferInstanceAs (Decidable (∀ d ∈ deeds, _))

theorem quiet_concat {deeds : List Deed} {d : Deed} :
    Quiet (deeds ++ [d]) ↔ Quiet deeds ∧ d.isAttempt = false := by
  simp [Quiet, or_imp, forall_and]

/-- What was done since the last attempt, or all if there was none. -/
def sinceAttempt (deeds : List Deed) : List Deed := deeds.rtakeWhile (!·.isAttempt)

/-- Whether an attempt is passed on that comes behind some deeds: it is the first one, or enough
tokens were consumed since the last one. -/
def Due (before : List Deed) : Prop :=
  Quiet before ∨ Parser.minDistance ≤ (sinceAttempt before).count .consume

instance (before : List Deed) : Decidable (Due before) := inferInstanceAs (Decidable (_ ∨ _))

/-- Goes on counting the tokens consumed since the last attempt, in a word that stays at the
greatest number it can hold. -/
def tick (count : UInt32) : Deed → UInt32
  | .consume => .ofNat (min (count.toNat + 1) (UInt32.size - 1))
  | .attempt _ _ => 0
  | .peek | .resetPeek => count

/-- The count after some deeds, which begins as if the last attempt were far enough away. -/
def wordCount (deeds : List Deed) : UInt32 := deeds.foldl tick (.ofNat Parser.minDistance)

end Deed

def Event.deed (tables : Tables) : Event → Deed
  | .consume => .consume
  | .report code => .attempt .error (tables.message code)

namespace Parser

open Deed (Due Quiet quiet_concat sinceAttempt)

def next (p : Parser) : Deed → Parser
  | .consume => p.get
  | .attempt severity message => p.report severity message
  | .peek => p.peek.2
  | .resetPeek => p.resetPeek

def after (p : Parser) (deeds : List Deed) : Parser := deeds.foldl next p

@[simp] theorem after_nil (p : Parser) : p.after [] = p := rfl

@[simp] theorem after_cons (p : Parser) (d : Deed) (deeds : List Deed) :
    p.after (d :: deeds) = (p.next d).after deeds := rfl

theorem after_append (p : Parser) (deeds more : List Deed) :
    p.after (deeds ++ more) = (p.after deeds).after more :=
  List.foldl_append

theorem after_concat (p : Parser) (deeds : List Deed) (d : Deed) :
    p.after (deeds ++ [d]) = (p.after deeds).next d :=
  p.after_append deeds [d]

@[simp] theorem tables_next (p : Parser) (d : Deed) : (p.next d).tables = p.tables := by
  cases d <;> rfl

@[simp] theorem tables_after (p : Parser) (deeds : List Deed) :
    (p.after deeds).tables = p.tables := by
  induction deeds generalizing p with
  | nil => rfl
  | cons d deeds ih => rw [after_cons, ih, tables_next]

theorem errorsBefore_after (p : Parser) (deeds : List Deed) :
    (p.after deeds).errorsBefore = p.errorsBefore := by
  induction deeds generalizing p with
  | nil => rfl
  | cons d deeds ih =>
      rw [after_cons, ih]
      cases d <;> rfl

/-- Events are deeds. -/
theorem after_map_deed (p : Parser) (events : List Event) :
    p.after (events.map (·.deed p.tables)) = p.replay events := by
  induction events generalizing p with
  | nil => rfl
  | cons event events ih =>
      cases event with
      | consume => exact ih p.get
      | report code => exact ih (p.fail code)

/-! ## The count of consumed tokens -/

/-- A parser counts the tokens since its last attempt, or since the beginning. -/
theorem distance_after (p : Parser) (deeds : List Deed) :
    (p.after deeds).distance =
      (sinceAttempt deeds).count .consume + if Quiet deeds then p.distance else 0 := by
  induction deeds using List.reverseRecOn with
  | nil => simp [sinceAttempt, Quiet]
  | append_singleton deeds d ih =>
      rw [after_concat]
      cases attempts : d.isAttempt with
      | true =>
          have anew : sinceAttempt (deeds ++ [d]) = [] :=
            List.rtakeWhile_concat_neg _ _ _ (by simp [attempts])
          rw [anew, if_neg (by simp [quiet_concat, attempts])]
          cases d with
          | attempt severity message => rfl
          | consume | peek | resetPeek => cases attempts
      | false =>
          have longer : sinceAttempt (deeds ++ [d]) = sinceAttempt deeds ++ [d] :=
            List.rtakeWhile_concat_pos _ _ _ (by simp [attempts])
          simp only [longer, List.count_append, quiet_concat, attempts, and_true]
          cases d with
          | consume =>
              change (p.after deeds).distance + 1 = _
              rw [ih, List.count_singleton_self]
              omega
          | attempt severity message => cases attempts
          | peek | resetPeek => exact ih

variable {p : Parser}

theorem minDistance_le_iff_due (far : minDistance ≤ p.distance) (before : List Deed) :
    minDistance ≤ (p.after before).distance ↔ Due before := by
  rw [distance_after, Due]
  split
  · rename_i quiet
    exact iff_of_true (by omega) (.inl quiet)
  · rename_i attempted
    rw [Nat.add_zero]
    exact (or_iff_right attempted).symm

/-- A count in a word may stop at the greatest word there is, and decides the same. -/
theorem toNat_wordCount (fresh : p.distance = minDistance) (deeds : List Deed) :
    (Deed.wordCount deeds).toNat = min (p.after deeds).distance (UInt32.size - 1) := by
  induction deeds using List.reverseRecOn with
  | nil =>
      rw [after_nil, fresh]
      rfl
  | append_singleton deeds d ih =>
      rw [Deed.wordCount, List.foldl_concat, after_concat]
      change (Deed.tick (Deed.wordCount deeds) d).toNat = _
      cases d with
      | consume =>
          change (UInt32.ofNat _).toNat = min ((p.after deeds).distance + 1) _
          rw [ih, UInt32.toNat_ofNat_of_lt' (by simp only [UInt32.size]; omega)]
          simp only [UInt32.size]
          omega
      | attempt severity message => rfl
      | peek | resetPeek => exact ih

/-! ## What is passed on -/

def problem (p : Parser) (severity : Severity) (message : String) : Diagnostic :=
  .ofOneBased severity p.lookahead.start.line p.lookahead.start.column message

/-- An attempt is passed on, behind all that was passed on before, if it is due. -/
theorem queue_attempt (far : minDistance ≤ p.distance) (before : List Deed) (severity : Severity)
    (message : String) :
    ((p.after before).next (.attempt severity message)).queue =
      if Due before then
        (p.after before).queue.record ((p.after before).problem severity message)
      else (p.after before).queue := by
  change (if (p.after before).distance < minDistance then _ else _) = _
  by_cases due : Due before
  · rw [if_pos due, if_neg (Nat.not_lt.mpr ((minDistance_le_iff_due far before).mpr due))]
    rfl
  · rw [if_neg due, if_pos (Nat.not_le.mp (mt (minDistance_le_iff_due far before).mp due))]

/-- The problems of those attempts that are due, in order.  The parser has done all that is in
`before` already. -/
def passedOn (p : Parser) (before : List Deed) : List Deed → List Diagnostic
  | [] => []
  | .attempt severity message :: deeds =>
      (if Due before then [(p.after before).problem severity message] else []) ++
        p.passedOn (before ++ [.attempt severity message]) deeds
  | d :: deeds => p.passedOn (before ++ [d]) deeds

/-- The problems that are due are all that is passed on. -/
theorem queue_after_append (far : minDistance ≤ p.distance) (before deeds : List Deed) :
    (p.after (before ++ deeds)).queue =
      (p.after before).queue.recordAll (p.passedOn before deeds) := by
  induction deeds generalizing before with
  | nil => rw [List.append_nil, passedOn]; rfl
  | cons d deeds ih =>
      rw [List.append_cons, ih, after_concat]
      cases d with
      | consume | peek | resetPeek => rfl
      | attempt severity message =>
          rw [queue_attempt far, passedOn]
          split <;> rfl

theorem queue_after (far : minDistance ≤ p.distance) (deeds : List Deed) :
    (p.after deeds).queue = p.queue.recordAll (p.passedOn [] deeds) :=
  queue_after_append far [] deeds

theorem errors_le_after (far : minDistance ≤ p.distance) (before deeds : List Deed) :
    (p.after before).queue.errors ≤ (p.after (before ++ deeds)).queue.errors := by
  rw [queue_after_append far, Queue.errors_recordAll]
  exact Nat.le_add_right _ _

/-- The first attempt is passed on, so there is no success behind it if it is an error. -/
theorem successful_after_error (far : minDistance ≤ p.distance)
    (fresh : p.errorsBefore = p.queue.errors) {before : List Deed} (quiet : Quiet before)
    (message : String) (later : List Deed) :
    (p.after (before ++ .attempt .error message :: later)).successful = false := by
  have earlier : p.queue.errors ≤ (p.after before).queue.errors := errors_le_after far [] before
  have here : (p.after (before ++ [.attempt .error message])).queue.errors =
      (p.after before).queue.errors + 1 := by
    rw [after_concat, queue_attempt far, if_pos (.inl quiet)]
    rfl
  have behind := errors_le_after far (before ++ [.attempt .error message]) later
  rw [← List.append_cons] at behind
  rw [successful, errors, errorsBefore_after, fresh, beq_eq_false_iff_ne]
  omega

end Parser

end OberonFront
