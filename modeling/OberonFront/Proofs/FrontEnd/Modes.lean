import OberonFront.Proofs.FrontEnd.Reporting

/-!
# Keeping and announcing

The same operations on a queue that keeps what is reported and on one that
announces it.  Nobody who only counts can tell the two apart, and what the one
announces is what the other is told to keep, with the number of errors at the end
of every run.
-/

namespace OberonFront

inductive QueueOperation where
  /-- Reports an error of the syntax or of the meaning. -/
  | error (line column : Nat) (message : String)
  | warn (line column : Nat) (message : String)
  /-- Parses a text and reports what is wrong with it. -/
  | parse (e : FrontEnd) (source : String)
  | reset
  | flush
  | summarize
deriving DecidableEq, Repr

inductive QueueReply where
  | done
  /-- Whether a text was accepted. -/
  | accepted (ok : Bool)
  /-- The problems that were handed out. -/
  | taken (diagnostics : List Diagnostic)
deriving DecidableEq, Repr

/-- The answer of a queue that has nothing to hand out. -/
def QueueReply.emptied : QueueReply → QueueReply
  | .taken _ => .taken []
  | reply => reply

namespace QueueOperation

def perform (op : QueueOperation) (q : Queue) : QueueReply × Queue :=
  match op with
  | .error line column message => (.done, q.error line column message)
  | .warn line column message => (.done, q.warn line column message)
  | .parse e source =>
      let (ok, after) := e.parseInto source q
      (.accepted ok, after)
  | .reset => (.done, q.reset)
  | .flush =>
      let (diagnostics, after) := q.flush
      (.taken diagnostics, after)
  | .summarize =>
      let (diagnostics, after) := q.summarize
      (.taken diagnostics, after)

/-- The problem at a place that is counted from one, where no column is the column zero. -/
def problem (severity : Severity) (line column : Nat) (message : String) : Diagnostic where
  line := line - 1
  column? := if column = 0 then none else some (column - 1)
  message := message
  severity := severity

def recorded : QueueOperation → List Diagnostic
  | .error line column message => [problem .error line column message]
  | .warn line column message => [problem .warning line column message]
  | .parse e source => e.check source
  | .reset | .flush | .summarize => []

def clears : QueueOperation → Bool
  | .reset | .flush | .summarize => true
  | .error _ _ _ | .warn _ _ _ | .parse _ _ => false

/-- What an operation adds to the announcements if a queue that keeps its reports would be `m`. -/
def announced (file : String) (m : Queue) (op : QueueOperation) : String :=
  if op = .summarize then toString m.errors ++ " errors detected\n"
  else Diagnostic.notices file op.recorded

end QueueOperation

namespace Queue

def performAll (q : Queue) (ops : List QueueOperation) : Queue :=
  ops.foldl (fun q op => (op.perform q).2) q

/-- The announcements of some operations, as they follow from a queue that keeps its reports. -/
def transcript (file : String) (m : Queue) : List QueueOperation → String
  | [] => ""
  | op :: ops => op.announced file m ++ transcript file (op.perform m).2 ops

/-- A queue that keeps its reports and one that announces them are in step. -/
structure Twins (m i : Queue) : Prop where
  keeps : m.isAnnouncing = false
  announces : i.isAnnouncing = true
  errors : i.errors = m.errors
  warnings : i.warnings = m.warnings
  kept_errors : m.retained.countP (·.isError) = m.errors
  kept_warnings : m.retained.countP (·.isWarning) = m.warnings

end Queue

/-! ## Single operations -/

namespace QueueOperation

variable (op : QueueOperation) (q : Queue)

theorem perform_of_records (h : op.clears = false) :
    (op.perform q).2 = q.recordAll op.recorded := by
  cases op with
  | error | warn => rfl
  | parse e source => exact congrArg Prod.snd (e.parseInto_eq source q)
  | reset | flush | summarize => cases h

theorem file_perform : (op.perform q).2.file = q.file := by
  by_cases h : op.clears = false
  · rw [op.perform_of_records q h, Queue.file_recordAll]
  · cases op with
    | reset | flush | summarize => rfl
    | error | warn | parse => exact absurd rfl h

theorem isAnnouncing_perform : (op.perform q).2.isAnnouncing = q.isAnnouncing := by
  by_cases h : op.clears = false
  · rw [op.perform_of_records q h, Queue.isAnnouncing_recordAll]
  · cases op with
    | reset | flush => exact q.isAnnouncing_reset
    | summarize => exact q.closed.isAnnouncing_reset.trans q.isAnnouncing_closed
    | error | warn | parse => exact absurd rfl h

theorem counts_perform_of_clears (h : op.clears = true) :
    (op.perform q).2.errors = 0 ∧ (op.perform q).2.warnings = 0 ∧
      (op.perform q).2.retained = [] := by
  cases op with
  | reset | flush => exact ⟨rfl, rfl, q.retained_reset⟩
  | summarize => exact ⟨rfl, rfl, q.closed.retained_reset⟩
  | error | warn | parse => cases h

/-- What is handed out is all that is kept. -/
theorem eq_retained_of_taken {ds : List Diagnostic} (h : (op.perform q).1 = .taken ds) :
    ds = q.retained := by
  cases op with
  | error | warn | parse | reset => cases h
  | flush => exact (QueueReply.taken.inj h).symm
  | summarize => exact (QueueReply.taken.inj h).symm.trans q.retained_closed

end QueueOperation

namespace Queue.Twins

variable {m i : Queue}

theorem isEmpty_eq (twins : Twins m i) : i.isEmpty = m.isEmpty := by
  rw [isEmpty, isEmpty, twins.errors, twins.warnings]

theorem isEmpty_iff (twins : Twins m i) : m.isEmpty = true ↔ m.retained = [] := by
  have all : m.retained.length = m.errors + m.warnings := by
    rw [List.length_eq_countP_add_countP (·.isError), ← twins.kept_errors, ← twins.kept_warnings]
    simp only [Diagnostic.isWarning, Bool.not_eq_true, Bool.decide_eq_false]
  simp only [isEmpty, Bool.and_eq_true, beq_iff_eq]
  rw [← List.length_eq_zero_iff, all, Nat.add_eq_zero_iff]

theorem recordAll (twins : Twins m i) (ds : List Diagnostic) :
    Twins (m.recordAll ds) (i.recordAll ds) where
  keeps := (m.isAnnouncing_recordAll ds).trans twins.keeps
  announces := (i.isAnnouncing_recordAll ds).trans twins.announces
  errors := by rw [errors_recordAll, errors_recordAll, twins.errors]
  warnings := by rw [warnings_recordAll, warnings_recordAll, twins.warnings]
  kept_errors := by
    rw [retained_recordAll twins.keeps, errors_recordAll, List.countP_append, twins.kept_errors]
  kept_warnings := by
    rw [retained_recordAll twins.keeps, warnings_recordAll, List.countP_append,
      twins.kept_warnings]

/-- Whatever is done with both queues, they stay in step. -/
theorem perform (twins : Twins m i) (op : QueueOperation) :
    Twins (op.perform m).2 (op.perform i).2 := by
  -- Either both record the same problems, or both start over with nothing.
  by_cases h : op.clears = false
  · rw [op.perform_of_records m h, op.perform_of_records i h]
    exact twins.recordAll op.recorded
  · have clears := eq_true_of_ne_false h
    obtain ⟨errors, warnings, retained⟩ := op.counts_perform_of_clears m clears
    obtain ⟨errors', warnings', -⟩ := op.counts_perform_of_clears i clears
    exact {
      keeps := (op.isAnnouncing_perform m).trans twins.keeps
      announces := (op.isAnnouncing_perform i).trans twins.announces
      errors := errors'.trans errors.symm
      warnings := warnings'.trans warnings.symm
      kept_errors := by rw [retained, errors, List.countP_nil]
      kept_warnings := by rw [retained, warnings, List.countP_nil] }

theorem retained_perform (twins : Twins m i) (op : QueueOperation) :
    (op.perform m).2.retained = if op.clears then [] else m.retained ++ op.recorded := by
  by_cases h : op.clears = false
  · rw [op.perform_of_records m h, retained_recordAll twins.keeps, h]
    rfl
  · rw [(op.counts_perform_of_clears m (eq_true_of_ne_false h)).2.2, if_pos (eq_true_of_ne_false h)]

theorem reply_eq (twins : Twins m i) (op : QueueOperation) :
    (op.perform i).1 = (op.perform m).1.emptied := by
  have nothing : i.retained = [] := retained_of_announcing twins.announces
  cases op with
  | error | warn | reset => rfl
  | parse e source =>
      simp only [QueueOperation.perform, e.parseInto_eq, QueueReply.emptied]
  | flush => exact congrArg QueueReply.taken nothing
  | summarize => exact congrArg QueueReply.taken (i.retained_closed.trans nothing)

theorem written_perform (twins : Twins m i) (op : QueueOperation) :
    (op.perform i).2.written = i.written ++ op.announced i.file m := by
  by_cases h : op.clears = false
  · have recording : op ≠ .summarize := by
      rintro rfl
      cases h
    rw [op.perform_of_records i h, written_recordAll twins.announces, QueueOperation.announced,
      if_neg recording]
  · cases op with
    | reset | flush => exact i.written_reset.trans String.append_empty.symm
    | summarize =>
        have last := i.closed.written_reset.trans (written_closed twins.announces)
        rwa [twins.errors] at last
    | error | warn | parse => exact absurd rfl h

end Queue.Twins

/-! ## Runs -/

namespace Queue

variable {m i : Queue}

theorem Twins.performAll (twins : Twins m i) (ops : List QueueOperation) :
    Twins (m.performAll ops) (i.performAll ops) ∧
      (i.performAll ops).written = i.written ++ transcript i.file m ops := by
  induction ops generalizing m i with
  | nil => exact ⟨twins, String.append_empty.symm⟩
  | cons op ops ih =>
      obtain ⟨twins', written⟩ := ih (twins.perform op)
      refine ⟨twins', written.trans ?_⟩
      rw [twins.written_perform, op.file_perform, transcript, String.append_assoc]

/-- Whatever is done with a queue that keeps its reports and with one that announces them, the two
agree on all counts and answers, but that only the first one has something to hand out, which is
all that it keeps.  That one keeps as many errors and warnings as it counts.  The other one
announces everything that is reported as it comes, and the number of errors at the end of each
run. -/
theorem modes_agree (name file : String) (ops : List QueueOperation) :
    let m := (keeping name).performAll ops
    let i := (announcing file).performAll ops
    (i.errors = m.errors ∧ i.warnings = m.warnings ∧ i.isEmpty = m.isEmpty) ∧
    (∀ op : QueueOperation, (op.perform i).1 = (op.perform m).1.emptied ∧
      ∀ ds, (op.perform m).1 = .taken ds → ds = m.retained) ∧
    i.retained = [] ∧
    (m.retained.countP (·.severity = .error) = m.errors ∧
      m.retained.countP (·.severity = .warning) = m.warnings ∧
      (m.isEmpty = true ↔ m.retained = [])) ∧
    (∀ op : QueueOperation,
      (op.perform m).2.retained = if op.clears then [] else m.retained ++ op.recorded) ∧
    i.written = transcript file (keeping name) ops := by
  obtain ⟨twins, written⟩ :=
    Twins.performAll (m := keeping name) (i := announcing file) ⟨rfl, rfl, rfl, rfl, rfl, rfl⟩ ops
  have kept := twins.kept_warnings
  simp only [Diagnostic.isWarning_eq] at kept
  exact ⟨⟨twins.errors, twins.warnings, twins.isEmpty_eq⟩,
    fun op => ⟨twins.reply_eq op, fun _ => op.eq_retained_of_taken _⟩,
    retained_of_announcing twins.announces, ⟨twins.kept_errors, kept, twins.isEmpty_iff⟩,
    twins.retained_perform, written.trans String.empty_append⟩

/-- The number at the end of a run is that of the errors since the last one. -/
example :
    let i := (announcing "a").performAll
      [.error 2 1 "x", .warn 1 0 "y", .summarize, .reset, .error 1 1 "z", .summarize]
    i.written = "file a : (2, 1) x\nfile a : (1) y\n1 errors detected\n" ++
      "file a : (1, 1) z\n1 errors detected\n" := by
  decide +kernel

end Queue

end OberonFront
