import OberonFront.Command.Request
import OberonFront.Proofs.Command.Arguments
import OberonFront.Proofs.FrontEnd.Reporting

/-!
# The exit status of a check

A check that cannot be carried out says why and nothing else, whatever it has
already read.  Any other one has a status that tells whether there is a problem in
one of the files, and so has a listing.
-/

namespace OberonFront

/-! ## Files -/

namespace Files

/-- A file holds a text, in UTF-8. -/
def Holds (files : Files) (path text : String) : Prop := files path = .ok text.toUTF8

variable {files : Files}

theorem fromUTF8?_eq_some_iff {bytes : ByteArray} {text : String} :
    String.fromUTF8? bytes = some text ↔ bytes = text.toUTF8 := by
  unfold String.fromUTF8?
  constructor
  · intro h
    split at h
    · cases h
      rfl
    · cases h
  · rintro rfl
    exact dif_pos text.isValidUTF8

theorem read_eq_ok_iff {path text : String} :
    files.read path = .ok text ↔ files.Holds path text := by
  rw [read, Holds]
  cases files path with
  | error failure => simp
  | ok bytes =>
      rw [Except.ok.injEq, ← fromUTF8?_eq_some_iff]
      dsimp only
      cases String.fromUTF8? bytes <;> simp

/-- All files are read, or one of them cannot be read. -/
theorem read_cases (files : Files) (paths : List String) :
    (∃ texts : List (String × String), texts.map Prod.fst = paths ∧
        (∀ t ∈ texts, files.Holds t.1 t.2) ∧
        (paths.mapM fun path => return (path, ← files.read path)) = .ok texts) ∨
      ∃ path ∈ paths, (∀ text, ¬ files.Holds path text) ∧ ∃ e,
        (paths.mapM fun path => return (path, ← files.read path)) = .error e := by
  induction paths with
  | nil => exact .inl ⟨[], rfl, fun t mem => absurd mem List.not_mem_nil, rfl⟩
  | cons path paths ih =>
      rw [List.mapM_cons]
      cases read : files.read path with
      | error e =>
          refine .inr ⟨path, List.mem_cons_self, fun text holds => ?_, e, rfl⟩
          rw [read_eq_ok_iff.mpr holds] at read
          cases read
      | ok text =>
          rcases ih with ⟨texts, eq, holds, all⟩ | ⟨bad, mem, unreadable, e, failed⟩
          · refine .inl ⟨(path, text) :: texts, by rw [List.map_cons, eq],
              List.forall_mem_cons.mpr ⟨read_eq_ok_iff.mp read, holds⟩, ?_⟩
            rw [all]
            rfl
          · refine .inr ⟨bad, List.mem_cons_of_mem _ mem, unreadable, e, ?_⟩
            rw [failed]
            rfl

end Files

/-! ## Reports -/

/-- The line of a report about a problem in a file: place and message, counted from one. -/
def Diagnostic.WrittenAs (path : String) (d : Diagnostic) (line : String) : Prop :=
  ∃ column, d.column? = some column ∧ line = s!"{path}:{d.line + 1}:{column + 1}: {d.message}\n"

namespace FrontEnd

variable (e : FrontEnd) (path source : String)

theorem exists_column_of_mem_check {d : Diagnostic} (h : d ∈ e.check source) :
    ∃ column, d.column? = some column := by
  obtain ⟨reports, eq, -⟩ := e.exists_reports source
  obtain ⟨r, -, rfl⟩ := List.mem_map.mp (eq ▸ h)
  have stands : r.diagnostic.StandsAt (e.lex source).toList[r.place] :=
    Token.standsAt_problem _ (Lexicon.start_pos_of_mem_lex (List.getElem_mem _))
  obtain ⟨column, eq, -⟩ := Option.map_eq_some_iff.mp stands.2
  exact ⟨column, eq⟩

theorem checkFile_keeping : e.checkFile false path source =
    (⟨path, e.check source, (e.check source).length⟩, "") := by
  have queue : (e.parseInto source (.keeping path)).2 =
      (Queue.keeping path).recordAll (e.check source) := by rw [parseInto_eq]
  have keeps : ((Queue.keeping path).recordAll (e.check source)).isAnnouncing = false :=
    Queue.isAnnouncing_recordAll _ _
  simp only [checkFile, Bool.false_eq_true, if_false, queue, Queue.summarize_eq,
    Queue.retained_closed, Queue.written_reset]
  rw [Queue.retained_recordAll rfl, Queue.errors_recordAll, countP_isError_check,
    Queue.written_of_keeping ((Queue.isAnnouncing_closed _).trans keeps)]
  simp [Queue.retained, Queue.keeping, Delivery.retained]

theorem checkFile_announcing : (e.checkFile true path source).1 =
    ⟨path, [], (e.check source).length⟩ := by
  have queue : (e.parseInto source (.announcing path)).2 =
      (Queue.announcing path).recordAll (e.check source) := by rw [parseInto_eq]
  have announces : ((Queue.announcing path).recordAll (e.check source)).isAnnouncing = true :=
    Queue.isAnnouncing_recordAll _ _
  simp only [checkFile, if_true, queue, Queue.summarize_eq, Queue.retained_closed]
  rw [Queue.retained_of_announcing announces, Queue.errors_recordAll, countP_isError_check]
  simp [Queue.announcing]

theorem isClean_checkFile (immediate : Bool) :
    (e.checkFile immediate path source).1.isClean = (e.check source).isEmpty := by
  cases immediate with
  | false =>
      rw [checkFile_keeping, FileReport.isClean]
      cases e.check source <;> rfl
  | true =>
      rw [checkFile_announcing, FileReport.isClean]
      cases e.check source <;> rfl

theorem render_checkFile : ∃ lines,
    List.Forall₂ (Diagnostic.WrittenAs path) (e.check source) lines ∧
      (e.checkFile false path source).1.render = String.join lines := by
  refine ⟨(e.check source).map fun d => s!"{path}:{d.display}\n", ?_, by
    rw [checkFile_keeping, FileReport.render]⟩
  rw [List.forall₂_map_right_iff, List.forall₂_same]
  intro d mem
  obtain ⟨column, eq⟩ := e.exists_column_of_mem_check source mem
  exact ⟨column, eq, by simp [Diagnostic.display, eq, String.append_assoc, toString]⟩

end FrontEnd

/-! ## Names -/

namespace FrontEnd

def spelling : FrontEnd → String
  | .oberon0 => "oberon0"
  | .umbriel => "umbriel"

/-- A name, in which neither hyphens nor the case of letters matter. -/
def IsNamed (e : FrontEnd) (name : String) : Prop :=
  (name.toList.filter (· != '-')).map Char.toLower = e.spelling.toList

theorem ofName?_eq_some_iff {e : FrontEnd} {name : String} :
    ofName? name = some e ↔ e.IsNamed name := by
  have differ : "oberon0".toList ≠ "umbriel".toList := by decide
  simp only [ofName?, ← String.toList_inj, String.toList_ofList]
  cases e with
  | oberon0 =>
      split
      case isTrue h => exact iff_of_true rfl h
      case isFalse h => exact iff_of_false (by split <;> nofun) h
  | umbriel =>
      split
      case isTrue h => exact iff_of_false nofun fun named => differ (h.symm.trans named)
      case isFalse =>
        split
        case isTrue h => exact iff_of_true rfl h
        case isFalse h => exact iff_of_false nofun h

theorem ofName?_eq_none_iff {name : String} :
    ofName? name = none ↔ ∀ e : FrontEnd, ¬ e.IsNamed name := by
  simp only [← ofName?_eq_some_iff]
  exact Option.eq_none_iff_forall_ne_some

end FrontEnd

/-! ## Answers -/

inductive CheckArguments.Refused (args : List String) (files : Files) : Prop where
  /-- There is an option that there is not. -/
  | option {arg : String} (leads : arg ∈ leading args) (unknown : Unknown arg)
  /-- A grammar and a file are not both named. -/
  | operands (few : (operands args).length < 2)
  | grammar {name : String} (first : (operands args).head? = some name)
      (unknown : ∀ e : FrontEnd, ¬ e.IsNamed name)
  | file {path : String} (listed : path ∈ (operands args).tail)
      (unreadable : ∀ text, ¬ files.Holds path text)

structure CheckArguments.Asks (args : List String) (files : Files) (e : FrontEnd)
    (texts : List (String × String)) : Prop where
  known : ∀ arg ∈ leading args, ¬ Unknown arg
  operands : ∃ name, operands args = name :: texts.map Prod.fst ∧ e.IsNamed name
  nonempty : texts ≠ []
  holds : ∀ t ∈ texts, files.Holds t.1 t.2

structure Answer.Reports (answer : Answer) (e : FrontEnd) (texts : List (String × String))
    (immediate : Prop) : Prop where
  exit : answer.exit = 1 ∧ (∃ t ∈ texts, e.check t.2 ≠ []) ∨
    answer.exit = 0 ∧ ∀ t ∈ texts, e.check t.2 = []
  /-- There is a line for each problem, in the order of the files and of the problems in them. -/
  stdout : ¬ immediate → ∃ blocks : List (List String),
    List.Forall₂ (fun t => List.Forall₂ (Diagnostic.WrittenAs t.1) (e.check t.2)) texts blocks ∧
      answer.stdout = String.join blocks.flatten

namespace CheckArguments

variable {args : List String} {files : Files} {e : FrontEnd} {texts : List (String × String)}

theorem Asks.not_refused (asks : Asks args files e texts) : ¬ Refused args files := by
  obtain ⟨name, operands, found⟩ := asks.operands
  intro refused
  cases refused with
  | option leads unknown => exact asks.known _ leads unknown
  | operands few =>
      have := List.length_pos_iff.mpr asks.nonempty
      rw [operands, List.length_cons, List.length_map] at few
      omega
  | grammar first unknown =>
      rw [operands] at first
      cases first
      exact unknown e found
  | file listed unreadable =>
      rw [operands] at listed
      obtain ⟨t, mem, rfl⟩ := List.mem_map.mp listed
      exact unreadable _ (asks.holds t mem)

theorem ofArgs_check {arguments : CheckArguments} (h : parse args = .ok arguments) :
    Answer.ofArgs ("check" :: args) files =
      match Request.answerCheck arguments files with
      | .error failure => failure.answer
      | .ok answer => answer := by
  rw [Answer.ofArgs, Request.parse, if_pos rfl, h]
  rfl

theorem answerCheck_of_unknown {arguments : CheckArguments}
    (h : FrontEnd.ofName? arguments.grammar = none) :
    Request.answerCheck arguments files = .error (.unknownGrammar arguments.grammar) := by
  rw [Request.answerCheck, FrontEnd.named, h]
  rfl

theorem answerCheck_of_unreadable {arguments : CheckArguments} {failure : CommandError}
    (found : FrontEnd.ofName? arguments.grammar = some e)
    (failed : (arguments.paths.mapM fun path => return (path, ← files.read path)) =
      .error failure) :
    Request.answerCheck arguments files = .error failure := by
  rw [Request.answerCheck, FrontEnd.named, found, failed]
  rfl

theorem answerCheck_of_read {arguments : CheckArguments}
    (found : FrontEnd.ofName? arguments.grammar = some e)
    (read : (arguments.paths.mapM fun path => return (path, ← files.read path)) = .ok texts) :
    ∃ stderr, Request.answerCheck arguments files = .ok {
      exit := Request.exitStatus (texts.all fun t => (e.check t.2).isEmpty)
      stdout := String.join
        (texts.map fun t => (e.checkFile arguments.immediate t.1 t.2).1.render)
      stderr } := by
  have clean : ((texts.map fun t => e.checkFile arguments.immediate t.1 t.2).all
      fun result => result.1.isClean) = texts.all fun t => (e.check t.2).isEmpty := by
    rw [List.all_map]
    exact congrArg texts.all (funext fun t => e.isClean_checkFile t.1 t.2 _)
  have rendered : ((texts.map fun t => e.checkFile arguments.immediate t.1 t.2).map
      fun result => result.1.render) =
        texts.map fun t => (e.checkFile arguments.immediate t.1 t.2).1.render := List.map_map
  refine ⟨String.join ((texts.map fun t => e.checkFile arguments.immediate t.1 t.2).map
    fun result => result.2), ?_⟩
  rw [Request.answerCheck, FrontEnd.named, found, read, ← clean, ← rendered]
  rfl

/-- The lines about all files are those about each of them, one file after the other. -/
theorem exists_blocks (e : FrontEnd) (texts : List (String × String)) :
    ∃ blocks : List (List String),
      List.Forall₂ (fun t => List.Forall₂ (Diagnostic.WrittenAs t.1) (e.check t.2)) texts blocks ∧
        String.join (texts.map fun t => (e.checkFile false t.1 t.2).1.render) =
          String.join blocks.flatten := by
  induction texts with
  | nil => exact ⟨[], .nil, rfl⟩
  | cons t texts ih =>
      obtain ⟨lines, written, eq⟩ := e.render_checkFile t.1 t.2
      obtain ⟨blocks, all, rest⟩ := ih
      refine ⟨lines :: blocks, .cons written all, ?_⟩
      rw [List.map_cons, String.join_cons, eq, rest, List.flatten_cons, String.join_append]

theorem reports (e : FrontEnd) (texts : List (String × String)) (immediate : Bool)
    (stderr : String) :
    Answer.Reports {
      exit := Request.exitStatus (texts.all fun t => (e.check t.2).isEmpty)
      stdout := String.join (texts.map fun t => (e.checkFile immediate t.1 t.2).1.render)
      stderr } e texts (immediate = true) where
  exit := by
    by_cases clean : ∀ t ∈ texts, e.check t.2 = []
    · refine .inr ⟨if_pos ?_, clean⟩
      exact List.all_eq_true.mpr fun t mem => List.isEmpty_iff.mpr (clean t mem)
    · refine .inl ⟨if_neg fun all => clean fun t mem => ?_, by simpa using clean⟩
      exact List.isEmpty_iff.mp (List.all_eq_true.mp all t mem)
  stdout merged := by
    obtain rfl := Bool.eq_false_iff.mpr merged
    exact exists_blocks e texts

/-- A check is refused, with nothing but the reason, or carried out. -/
theorem answer_cases (args : List String) (files : Files) :
    (Refused args files ∧ ∃ failure : CommandError,
        Answer.ofArgs ("check" :: args) files = failure.answer) ∨
      ∃ e texts, Asks args files e texts ∧
        (Answer.ofArgs ("check" :: args) files).Reports e texts ("--immediate" ∈ leading args) := by
  rcases parse_cases args with ⟨wrong, usage⟩ | ⟨known, arguments, eq, nonempty, option, parsed⟩
  · refine .inl ⟨?_, .usage .check, by
      rw [Answer.ofArgs, Request.parse, if_pos rfl, usage]; rfl⟩
    rcases wrong with ⟨arg, leads, unknown⟩ | few
    · exact .option leads unknown
    · exact .operands few
  -- What is left are the failures behind the arguments, in the order in which they are noticed.
  · rw [ofArgs_check parsed]
    cases found : FrontEnd.ofName? arguments.grammar with
    | none =>
        exact .inl ⟨.grammar (by rw [eq]; rfl) (FrontEnd.ofName?_eq_none_iff.mp found),
          .unknownGrammar arguments.grammar, by
          rw [answerCheck_of_unknown found]⟩
    | some e =>
        rcases files.read_cases arguments.paths with
          ⟨texts, same, holds, read⟩ | ⟨path, listed, unreadable, failure, failed⟩
        · obtain ⟨stderr, answer⟩ := answerCheck_of_read found read
          have named : e.IsNamed arguments.grammar := FrontEnd.ofName?_eq_some_iff.mp found
          refine .inr ⟨e, texts, ⟨known, ⟨arguments.grammar, by rw [eq, same], named⟩, ?_, holds⟩,
            ?_⟩
          · rintro rfl
            exact nonempty same.symm
          · have merged : (arguments.immediate = true) = ("--immediate" ∈ leading args) := by
              rw [option, decide_eq_true_eq]
            rw [answer, ← merged]
            exact reports e texts arguments.immediate stderr
        · exact .inl ⟨.file (by rw [eq]; exact listed) unreadable, failure, by
            rw [answerCheck_of_unreadable found failed]⟩

/-- A file whose text can be read, checked alone. -/
theorem exit_check {name path text : String} (found : FrontEnd.ofName? name = some e)
    (holds : files.Holds path text) :
    (Answer.ofArgs ["check", "--", name, path] files).exit =
      Request.exitStatus (e.check text).isEmpty := by
  have parsed : parse ["--", name, path] = .ok ⟨name, [path], false⟩ := rfl
  have read : ([path].mapM fun path => return (path, ← files.read path)) = .ok [(path, text)] := by
    simp [Files.read_eq_ok_iff.mpr holds]
  obtain ⟨stderr, answer⟩ :=
    (answerCheck_of_read found read : ∃ stderr, Request.answerCheck ⟨name, [path], false⟩ files = _)
  rw [ofArgs_check parsed, answer]
  simp

theorem exit_listing {name path text : String} (found : FrontEnd.ofName? name = some e)
    (holds : files.Holds path text) :
    (Answer.ofArgs ["listing", name, path] files).exit =
      Request.exitStatus (e.check text).isEmpty := by
  have parsed : Request.parse ["listing", name, path] = .ok (.listing name path) := rfl
  have answer : Request.perform (.listing name path) files =
      .ok ⟨Request.exitStatus ((e.renderListing text).2 == 0), (e.renderListing text).1, ""⟩ := by
    rw [Request.perform, Request.answerListing, FrontEnd.named, found,
      Files.read_eq_ok_iff.mpr holds]
    rfl
  rw [Answer.ofArgs, parsed]
  dsimp only
  rw [answer]
  dsimp only [FrontEnd.renderListing]
  rw [FrontEnd.countP_isError_check]
  cases e.check text <;> rfl

/-- A check fails with the reason alone exactly if it is refused, and nothing is said about
any of the files then.  Otherwise its status tells whether there is a problem in one of them,
however the problems are reported.  The listing of a file has the status of its check. -/
theorem check_status (args : List String) (files : Files) :
    let answer := Answer.ofArgs ("check" :: args) files
    ((answer.exit = 2 ∧ answer.stdout = "" ∧ ∃ message : String, answer.stderr = s!"error: {message}\n") ↔
        Refused args files) ∧
      (Refused args files ∨ ∃ e texts, Asks args files e texts ∧
        answer.Reports e texts ("--immediate" ∈ leading args)) ∧
      ∀ e name path text, FrontEnd.IsNamed e name → files.Holds path text →
        (Answer.ofArgs ["listing", name, path] files).exit =
          (Answer.ofArgs ["check", "--", name, path] files).exit := by
  intro answer
  refine and_assoc.mp ⟨?_, fun e name path text named holds => ?listing⟩
  case listing =>
    have found := FrontEnd.ofName?_eq_some_iff.mpr named
    exact (exit_listing found holds).trans (exit_check found holds).symm
  rcases answer_cases args files with ⟨refused, failure, eq⟩ | ⟨e, texts, asks, reported⟩
  · have alone : answer.exit = 2 ∧ answer.stdout = "" ∧
        ∃ message : String, answer.stderr = s!"error: {message}\n" := by
      rw [show answer = failure.answer from eq]
      exact ⟨rfl, rfl, failure.message, rfl⟩
    exact ⟨⟨fun _ => refused, fun _ => alone⟩, .inl refused⟩
  · have carried : answer.exit ≠ 2 := by
      rcases reported.exit with ⟨exit, -⟩ | ⟨exit, -⟩ <;> (rw [exit]; decide)
    exact ⟨⟨fun failed => absurd failed.1 carried, fun refused => absurd refused asks.not_refused⟩,
      .inr ⟨e, texts, asks, reported⟩⟩

/-- Behind two hyphens the option is a file, and one that is missing keeps the others unsaid. -/
example : Answer.ofArgs ["check", "umbriel", "a", "--", "--immediate"]
    (fun path => if path = "a" then .ok "(".toUTF8 else .error .notFound) =
      ⟨2, "", "error: cannot find file '--immediate'\n"⟩ := by
  decide +kernel

end CheckArguments

end OberonFront
