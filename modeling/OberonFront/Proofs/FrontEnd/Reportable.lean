import OberonFront.Proofs.Diagnostic.Record
import OberonFront.Proofs.FrontEnd.Consumption
import OberonFront.Proofs.Machine.Repertoire

/-!
# What can be reported of a text

Many productions ask for a token that their caller has seen already, or decide
once more what their caller has decided.  What they would report if these
decisions differed is never reported, whatever the text is.
-/

namespace OberonFront

/-! ## What is kept comes from a report -/

namespace Queue

theorem mem_retained_record {q : Queue} {d d' : Diagnostic} (h : d ∈ (q.record d').retained) :
    d ∈ q.retained ∨ d = d' := by
  cases keeps : q.isAnnouncing with
  | false =>
      rw [retained_record_of_keeping keeps] at h
      simpa using h
  | true =>
      rw [retained_of_announcing ((q.isAnnouncing_record d').trans keeps)] at h
      exact absurd h List.not_mem_nil

end Queue

namespace Parser

/-- What is kept after some events was kept before, or one of the events is its report. -/
theorem mem_retained_replay {p : Parser} {events : List Event} {d : Diagnostic}
    (h : d ∈ (p.replay events).queue.retained) :
    d ∈ p.queue.retained ∨ ∃ code, .report code ∈ events ∧ d.message = p.tables.message code := by
  induction events generalizing p with
  | nil => exact .inl h
  | cons event events ih =>
      rcases ih h with before | ⟨code, mem, message⟩
      · cases event with
        | consume => exact .inl before
        | report code =>
            by_cases near : p.distance < minDistance
            · rw [act, queue_fail_of_lt near] at before
              exact .inl before
            · rw [act, queue_fail (Nat.not_lt.mp near)] at before
              refine (Queue.mem_retained_record before).imp_right ?_
              rintro rfl
              exact ⟨code, List.mem_cons_self .., rfl⟩
      · refine .inr ⟨code, List.mem_cons_of_mem _ mem, ?_⟩
        cases event <;> exact message

end Parser

/-! ## The two languages -/

namespace Oberon0

/-- The nonterminals that are called only where they can start. -/
def guarded : Nonterminal → Bool
  | .procedureDeclaration | .formalParameters | .ifStatement | .whileStatement | .repeatStatement
  | .actualParameters | .relation | .addOperator | .mulOperator => true
  | _ => false

def reportable : List Nat :=
  [Kind.eof, ident, kwModule, semicolon, kwEnd, period, equal, colon, kwOf, rightParen,
    rightBracket, kwThen, kwDo, kwUntil, invalidStatement, invalidType, invalidFactor]

def repertoire : Repertoire Nonterminal := ⟨guide, guarded, reportable⟩

theorem covered : repertoire.Sound grammar := fun n => by cases n <;> decide +kernel

end Oberon0

namespace Umbriel

/-- The nonterminals that are called only where they can start. -/
def guarded : Nonterminal → Bool
  | .declaration | .procedureDeclaration | .parameterDeclarations | .arrayType | .recordType
  | .ifStatement | .caseStatement | .whileStatement | .repeatStatement | .forStatement
  | .selector | .relation | .addOperator | .mulOperator | .andOperator | .literal
  | .notOperator => true
  | _ => false

def reportable : List Nat :=
  [Kind.eof, ident, kwModule, semicolon, period, kwEnd, equal, kwOf, leftBracket, upTo,
    rightBracket, colon, rightParen, becomes, kwThen, kwDo, kwUntil, kwTo, invalidType,
    invalidFormalParameter, invalidAssignmentOrCall, invalidDesignator, invalidFactor]

def repertoire : Repertoire Nonterminal := ⟨guide, guarded, reportable⟩

theorem covered : repertoire.Sound grammar := fun n => by cases n <;> decide +kernel

end Umbriel

/-! ## Both front ends -/

namespace FrontEnd

/-- The numbers of the problems that can be reported of a text of the language: kinds that were
expected, and what is invalid. -/
def reportable : FrontEnd → List Nat
  | .oberon0 => Oberon0.reportable
  | .umbriel => Umbriel.reportable

def repertoire : (e : FrontEnd) → Repertoire e.Nonterminal
  | .oberon0 => Oberon0.repertoire
  | .umbriel => Umbriel.repertoire

/-- Messages that no text brings up. -/
def unheard : List String :=
  ["invalid Relation", "invalid AddOperator", "invalid MulOperator", "invalid Declaration",
    "invalid Selector", "invalid ConstantLiteral", "invalid NotOperator", "invalid AndOperator",
    "??? expected"]

variable (e : FrontEnd)

theorem covered : e.repertoire.Sound e.grammar := by
  cases e with
  | oberon0 => exact Oberon0.covered
  | umbriel => exact Umbriel.covered

theorem covers_whole : e.repertoire.covers e.repertoire.guide.kinds e.grammar.whole = true := by
  cases e <;> decide +kernel

theorem codes_repertoire : e.repertoire.codes = e.reportable := by
  cases e <;> rfl

theorem tables_repertoire : e.repertoire.guide.tables = e.tables := by
  cases e <;> rfl

theorem message_reportable : ∀ code ∈ e.reportable,
    e.tables.message code ∉ unheard ∧ ¬ "error ".toList <+: (e.tables.message code).toList := by
  cases e <;> decide +kernel

/-- The events of its history are all that a parse does. -/
theorem replay_history (source : String) (q : Queue) :
    (e.reader source q).replay (e.history source q) = (e.parse (e.reader source q)).1 := by
  rw [parse_eq]
  exact e.grammar.replay_history (e.reader source q)

theorem mem_reportable_of_mem_history {source : String} {q : Queue} {code : Nat}
    (mem : .report code ∈ e.history source q) : code ∈ e.reportable := by
  have going := (e.begun_start_reader source q).going
  have same : e.analysis.pace.tables = e.repertoire.guide.tables :=
    e.tables_pace.trans e.tables_repertoire.symm
  have awaits : e.repertoire.Awaits ⟨(e.reader source q).start, [e.grammar.whole], none⟩ :=
    Repertoire.awaits_of_forall (same ▸ going.visible)
      (List.forall_mem_singleton.mpr e.covers_whole)
  rw [← codes_repertoire]
  rcases List.mem_cons.mp mem with consumes | mem
  · cases consumes
  · exact Repertoire.mem_codes_of_mem_log e.covered e.analysis.sound same going awaits mem

/-- A parse attempts no reports but those listed, whether or not they are passed on.  So the other
messages never appear, nor does a number that has no message. -/
theorem reports_reportable (source : String) :
    (∀ q : Queue,
      (e.reader source q).replay (e.history source q) = (e.parse (e.reader source q)).1 ∧
        ∀ code, .report code ∈ e.history source q → code ∈ e.reportable) ∧
    ∀ d ∈ e.check source, d.message ∈ e.reportable.map e.tables.message ∧
      d.message ∉ unheard ∧ ∀ n : Nat, d.message ≠ s!"error {n}" := by
  refine ⟨fun q => ⟨e.replay_history source q, fun _ => e.mem_reportable_of_mem_history⟩, ?_⟩
  intro d mem
  rw [check_eq_retained] at mem
  change d ∈ (e.parse (e.reader source (.keeping ""))).1.queue.retained at mem
  rw [← replay_history] at mem
  rcases Parser.mem_retained_replay mem with before | ⟨code, reported, message⟩
  · exact absurd before List.not_mem_nil
  · have listed := e.mem_reportable_of_mem_history reported
    obtain ⟨heard, known⟩ := e.message_reportable code listed
    have message : d.message = e.tables.message code := message
    rw [message]
    refine ⟨List.mem_map_of_mem listed, heard, fun n numbered => known ?_⟩
    rw [numbered]
    exact ⟨(toString n).toList, String.toList_append.symm⟩

end FrontEnd

end OberonFront
