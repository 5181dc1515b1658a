import OberonFront.Diagnostic.Queue

/-!
# Recording problems

What becomes of a queue to which a number of problems are reported.  The counts
are raised by as many errors and warnings, and the problems are kept or announced
behind those before them.  Only what is kept can be dropped again.
-/

namespace OberonFront

namespace Diagnostic

def isWarning (d : Diagnostic) : Bool := !d.isError

theorem isWarning_eq (d : Diagnostic) : d.isWarning = decide (d.severity = .warning) := by
  rw [isWarning, isError]
  cases d.severity <;> rfl

/-- The file, the place counted from one, and the message.  The place of a problem without a column
is its line. -/
def notice (file : String) (d : Diagnostic) : String :=
  match d.column? with
  | some column =>
      "file " ++ file ++ " : (" ++ toString (d.line + 1) ++ ", " ++ toString (column + 1) ++ ") " ++
        d.message ++ "\n"
  | none => "file " ++ file ++ " : (" ++ toString (d.line + 1) ++ ") " ++ d.message ++ "\n"

def notices (file : String) (ds : List Diagnostic) : String := String.join (ds.map (notice file))

theorem notices_cons (file : String) (d : Diagnostic) (ds : List Diagnostic) :
    notices file (d :: ds) = notice file d ++ notices file ds :=
  String.join_cons

theorem announcement_eq_notice (file : String) (d : Diagnostic) :
    d.announcement file = notice file d := by
  unfold announcement notice
  cases d.column? <;> rfl

end Diagnostic

theorem errorTotal_eq (errors : Nat) :
    errorTotal errors = toString errors ++ " errors detected\n" := rfl

namespace Queue

def recordAll (q : Queue) (ds : List Diagnostic) : Queue := ds.foldl record q

variable (q : Queue)

theorem recordAll_cons (d : Diagnostic) (ds : List Diagnostic) :
    q.recordAll (d :: ds) = (q.record d).recordAll ds := rfl

theorem recordAll_concat (ds : List Diagnostic) (d : Diagnostic) :
    q.recordAll (ds ++ [d]) = (q.recordAll ds).record d :=
  List.foldl_append

/-! ## Counts -/

theorem errors_record (d : Diagnostic) :
    (q.record d).errors = q.errors + if d.isError then 1 else 0 := rfl

theorem warnings_record (d : Diagnostic) :
    (q.record d).warnings = q.warnings + if d.isWarning then 1 else 0 := by
  rw [record, Diagnostic.isWarning]
  cases d.isError <;> rfl

theorem errors_recordAll (ds : List Diagnostic) :
    (q.recordAll ds).errors = q.errors + ds.countP (·.isError) := by
  induction ds generalizing q with
  | nil => rfl
  | cons d ds ih =>
      rw [recordAll_cons, ih, List.countP_cons, errors_record]
      omega

theorem warnings_recordAll (ds : List Diagnostic) :
    (q.recordAll ds).warnings = q.warnings + ds.countP (·.isWarning) := by
  induction ds generalizing q with
  | nil => rfl
  | cons d ds ih =>
      rw [recordAll_cons, ih, List.countP_cons, warnings_record]
      omega

/-! ## Delivery -/

theorem file_record (d : Diagnostic) : (q.record d).file = q.file := rfl

theorem isAnnouncing_record (d : Diagnostic) : (q.record d).isAnnouncing = q.isAnnouncing := by
  unfold isAnnouncing record
  cases q.delivery <;> rfl

theorem file_recordAll (ds : List Diagnostic) : (q.recordAll ds).file = q.file := by
  induction ds generalizing q with
  | nil => rfl
  | cons d ds ih => rw [recordAll_cons, ih, file_record]

theorem isAnnouncing_recordAll (ds : List Diagnostic) :
    (q.recordAll ds).isAnnouncing = q.isAnnouncing := by
  induction ds generalizing q with
  | nil => rfl
  | cons d ds ih => rw [recordAll_cons, ih, isAnnouncing_record]

variable {q}

theorem exists_kept (h : q.isAnnouncing = false) : ∃ ds, q.delivery = .kept ds := by
  unfold isAnnouncing at h
  cases eq : q.delivery with
  | kept ds => exact ⟨ds, rfl⟩
  | announced written flushes => simp [eq] at h

theorem exists_announced (h : q.isAnnouncing = true) :
    ∃ written flushes, q.delivery = .announced written flushes := by
  unfold isAnnouncing at h
  cases eq : q.delivery with
  | kept ds => simp [eq] at h
  | announced written flushes => exact ⟨written, flushes, rfl⟩

theorem retained_record_of_keeping (h : q.isAnnouncing = false) (d : Diagnostic) :
    (q.record d).retained = q.retained ++ [d] := by
  obtain ⟨ds, eq⟩ := exists_kept h
  simp [record, retained, eq, Delivery.deliver, Delivery.retained]

theorem retained_recordAll (h : q.isAnnouncing = false) (ds : List Diagnostic) :
    (q.recordAll ds).retained = q.retained ++ ds := by
  induction ds generalizing q with
  | nil => exact (List.append_nil _).symm
  | cons d ds ih =>
      rw [recordAll_cons, ih ((q.isAnnouncing_record d).trans h), retained_record_of_keeping h,
        List.append_assoc, List.singleton_append]

theorem retained_of_announcing (h : q.isAnnouncing = true) : q.retained = [] := by
  obtain ⟨written, flushes, eq⟩ := exists_announced h
  simp [retained, eq, Delivery.retained]

theorem written_of_keeping (h : q.isAnnouncing = false) : q.written = "" := by
  obtain ⟨ds, eq⟩ := exists_kept h
  simp [written, eq]

theorem written_record (h : q.isAnnouncing = true) (d : Diagnostic) :
    (q.record d).written = q.written ++ Diagnostic.notice q.file d := by
  obtain ⟨written, flushes, eq⟩ := exists_announced h
  simp [record, Queue.written, eq, Delivery.deliver, Diagnostic.announcement_eq_notice]

theorem written_recordAll (h : q.isAnnouncing = true) (ds : List Diagnostic) :
    (q.recordAll ds).written = q.written ++ Diagnostic.notices q.file ds := by
  induction ds generalizing q with
  | nil => exact String.append_empty.symm
  | cons d ds ih =>
      rw [recordAll_cons, ih ((q.isAnnouncing_record d).trans h), written_record h, file_record,
        Diagnostic.notices_cons, String.append_assoc]

/-! ## Starting over -/

section

variable (q : Queue)

theorem retained_reset : q.reset.retained = [] := by
  unfold reset retained
  cases q.delivery <;> rfl

theorem isAnnouncing_reset : q.reset.isAnnouncing = q.isAnnouncing := by
  unfold reset isAnnouncing
  cases q.delivery <;> rfl

theorem written_reset : q.reset.written = q.written := by
  unfold reset written
  cases q.delivery <;> rfl

def closed : Queue := { q with delivery := q.delivery.close q.errors }

theorem summarize_eq : q.summarize = (q.closed.retained, q.closed.reset) := rfl

theorem retained_closed : q.closed.retained = q.retained := by
  unfold closed retained
  cases q.delivery <;> rfl

theorem isAnnouncing_closed : q.closed.isAnnouncing = q.isAnnouncing := by
  unfold closed isAnnouncing
  cases q.delivery <;> rfl

end

theorem written_closed (h : q.isAnnouncing = true) :
    q.closed.written = q.written ++ (toString q.errors ++ " errors detected\n") := by
  obtain ⟨written, flushes, eq⟩ := exists_announced h
  simp [closed, Queue.written, eq, Delivery.close, errorTotal_eq]

end Queue

end OberonFront
