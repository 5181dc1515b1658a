import OberonFront.Proofs.FrontEnd.Spacing
import OberonFront.Proofs.Machine.Simulation

/-!
# Parses that report to one queue

A parser adds to its queue and never looks at what is in it.  So a parse reports
to any queue what the check of the text finds, whatever the queue held before
and whether it keeps or announces what it is told.
-/

namespace OberonFront

namespace Parser

/-- The parser as it were if it reported to another queue from the beginning. -/
def onto (p : Parser) (q : Queue) : Parser :=
  { p with queue := q.recordAll p.queue.retained, errorsBefore := q.errors }

/-- A parser that keeps its reports, and one that makes the same reports to another queue. -/
structure Echoes (q : Queue) (p p' : Parser) : Prop where
  keeps : p.queue.isAnnouncing = false
  eq : p' = p.onto q

variable {p : Parser} {q : Queue}

theorem isAnnouncing_report (p : Parser) (severity : Severity) (message : String) :
    (p.report severity message).queue.isAnnouncing = p.queue.isAnnouncing := by
  simp only [report]
  split
  · rfl
  · exact Queue.isAnnouncing_record _ _

theorem report_onto (keeps : p.queue.isAnnouncing = false) (severity : Severity)
    (message : String) :
    (p.onto q).report severity message = (p.report severity message).onto q := by
  by_cases near : p.distance < minDistance
  · simp [onto, report, near]
  · simp [onto, report, near, Queue.retained_record_of_keeping keeps, Queue.recordAll_concat]

/-- What is in the queue makes no difference to any operation. -/
theorem simulation_echoes (q : Queue) : Simulation (Echoes q) where
  tables h := by
    rw [h.eq]
    rfl
  kind h := by
    rw [h.eq]
    rfl
  get h := ⟨h.keeps, by
    rw [h.eq]
    rfl⟩
  report h severity message :=
    ⟨(isAnnouncing_report _ severity message).trans h.keeps, by rw [h.eq, report_onto h.keeps]⟩

end Parser

/-- A queue that keeps its reports has gained some errors and nothing else. -/
structure Queue.Gains (q q' : Queue) (ds : List Diagnostic) : Prop where
  retained : q'.retained = q.retained ++ ds
  errors : q'.errors = q.errors + ds.length
  warnings : q'.warnings = q.warnings
  file : q'.file = q.file
  keeps : q'.isAnnouncing = false

theorem Queue.Gains.recordAll {q : Queue} (keeps : q.isAnnouncing = false) {ds : List Diagnostic}
    (h : ∀ d ∈ ds, d.isError = true) : q.Gains (q.recordAll ds) ds where
  retained := retained_recordAll keeps ds
  errors := by rw [errors_recordAll, List.countP_eq_length.mpr h]
  warnings := by
    have none : ds.countP (·.isWarning) = 0 :=
      List.countP_eq_zero.mpr fun d mem => by simp [Diagnostic.isWarning, h d mem]
    rw [warnings_recordAll, none, Nat.add_zero]
  file := q.file_recordAll ds
  keeps := (q.isAnnouncing_recordAll ds).trans keeps

namespace FrontEnd

variable (e : FrontEnd) (source : String) (q : Queue)

theorem isError_of_mem_check {d : Diagnostic} (h : d ∈ e.check source) : d.isError = true := by
  obtain ⟨reports, eq, -⟩ := e.exists_reports source
  obtain ⟨r, -, rfl⟩ := List.mem_map.mp (eq ▸ h)
  rfl

theorem countP_isError_check :
    (e.check source).countP (·.isError) = (e.check source).length :=
  List.countP_eq_length.mpr fun _ => e.isError_of_mem_check source

/-- A parse that reports to a queue is the parse of a check, with its reports made to the queue. -/
theorem parse_reader : (e.parse (e.reader source q)).1 =
    (e.parse (e.reader source (.keeping ""))).1.onto q := by
  -- Both readers are fresh, so nothing has been reported that the queue would lack.
  have echoes : Parser.Echoes q (e.reader source (.keeping "")).start (e.reader source q).start :=
    ⟨rfl, rfl⟩
  rw [parse_eq, parse_eq]
  exact ((Parser.simulation_echoes q).exec echoes rfl e.grammar e.grammar.whole).parser.eq

/-- A parse reports what the check finds, and succeeds if that is nothing. -/
theorem parseInto_eq :
    e.parseInto source q = ((e.check source).isEmpty, q.recordAll (e.check source)) := by
  have queue : (e.parse (e.reader source q)).1.queue = q.recordAll (e.check source) := by
    rw [parse_reader, check_eq_retained]
    rfl
  have before : (e.parse (e.reader source q)).1.errorsBefore = q.errors := by
    rw [parse_reader]
    rfl
  have errors : (e.parse (e.reader source q)).1.errors = (e.check source).length := by
    rw [Parser.errors, queue, before, Queue.errors_recordAll, countP_isError_check]
    exact Nat.add_sub_cancel_left _ _
  refine Prod.ext ?_ queue
  change (e.parse (e.reader source q)).1.successful = _
  rw [Parser.successful, errors]
  cases e.check source <;> rfl

def parseAll (texts : List (FrontEnd × String)) (q : Queue) : Queue :=
  texts.foldl (fun q (e, source) => (e.parseInto source q).2) q

theorem parseAll_eq (texts : List (FrontEnd × String)) (q : Queue) :
    parseAll texts q = q.recordAll (texts.flatMap fun (e, source) => e.check source) := by
  induction texts generalizing q with
  | nil => rfl
  | cons text texts ih =>
      obtain ⟨e, source⟩ := text
      change parseAll texts (e.parseInto source q).2 = _
      rw [ih, parseInto_eq, List.flatMap_cons, Queue.recordAll, Queue.recordAll, Queue.recordAll,
        List.foldl_append]

/-- A parse adds to a queue that keeps its reports what the check of the text finds, and it
succeeds if and only if that is nothing.  Neither depends on what the queue held before, so after
some texts the queue has the problems of all of them in their order. -/
theorem parseInto_gains (e : FrontEnd) (source : String) (texts : List (FrontEnd × String))
    {q : Queue} (keeps : q.isAnnouncing = false) :
    q.Gains (e.parseInto source q).2 (e.check source) ∧
    ((e.parseInto source q).1 = true ↔ e.check source = []) ∧
    q.Gains (parseAll texts q) (texts.flatMap fun (e, source) => e.check source) := by
  rw [parseInto_eq, parseAll_eq]
  refine ⟨.recordAll keeps fun d => e.isError_of_mem_check source, List.isEmpty_iff,
    .recordAll keeps fun d mem => ?_⟩
  obtain ⟨⟨e, source⟩, -, found⟩ := List.mem_flatMap.mp mem
  exact e.isError_of_mem_check source found

theorem parseInto_gains_after_warning :
    let q := (Queue.keeping "a").warn 7 1 "odd"
    let texts := [(FrontEnd.umbriel, "MODULE"), (.oberon0, "MODULE m\nEND m.")]
    q.isAnnouncing = false ∧
      FrontEnd.oberon0.check "MODULE m\nEND m." = [⟨1, some 0, "\";\" expected", .error⟩] ∧
      q.Gains (FrontEnd.oberon0.parseInto "MODULE m\nEND m." q).2
        (FrontEnd.oberon0.check "MODULE m\nEND m.") ∧
      ((FrontEnd.oberon0.parseInto "MODULE m\nEND m." q).1 = true ↔
        FrontEnd.oberon0.check "MODULE m\nEND m." = []) ∧
      q.Gains (parseAll texts q) (texts.flatMap fun (e, source) => e.check source) :=
  ⟨rfl, by decide +kernel, parseInto_gains .oberon0 _ _ rfl⟩

end FrontEnd

end OberonFront
