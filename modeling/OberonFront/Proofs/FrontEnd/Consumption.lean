import OberonFront.Proofs.FrontEnd.Verdict
import OberonFront.Proofs.Machine.Guard

/-!
# How a parse goes through its tokens

A parse ends, whatever the text is, and asks for no set that is not there.  It
consumes every token at most once, and the end of the text only where nothing
else is left to be done.  If it has nothing to report it consumes all tokens.
-/

namespace OberonFront

namespace Analysis

variable {N : Type} {g : Grammar N} {a : Analysis g} {p : Parser} {kinds : List Kind}

theorem Begun.closed (begun : a.Begun p kinds) : p.Closed := by
  obtain ⟨ts, end_, eq, -, last⟩ := List.map_eq_append_iff.mp begun.upcoming
  obtain ⟨t, rfl, eof⟩ := List.map_eq_singleton_iff.mp last
  exact ⟨t, by rw [eq, List.getLast?_concat], eof⟩

/-- Where the end of the text is the lookahead, nothing else is ahead. -/
theorem Begun.ahead_eq_singleton (begun : a.Begun p kinds) {q : Parser} {ts : List Token}
    (h : ts ++ q.ahead = p.ahead) (eof : q.lookahead.kind = Kind.eof) :
    q.ahead = [q.lookahead] := by
  have upcoming : ts.map Token.kind ++ q.upcoming = kinds ++ [Kind.eof] := by
    rw [Parser.upcoming, ← List.map_append, h, ← begun.upcoming, Parser.upcoming]
  unfold Parser.upcoming Parser.ahead at upcoming
  unfold Parser.ahead
  rcases List.eq_nil_or_concat (q.stream.rest.filter (·.kind ≤ q.tables.maxKind)) with
    none | ⟨us, u, some⟩
  · rw [none]
  · rw [some, List.map_cons, List.concat_eq_append, List.map_append, ← List.cons_append,
      ← List.append_assoc, eof] at upcoming
    have inner := (List.append_inj' upcoming rfl).1
    exact absurd (inner ▸ by simp) begun.inner

end Analysis

namespace FrontEnd

theorem sparesEnd_body (e : FrontEnd) (n : e.Nonterminal) :
    (e.grammar.body n).sparesEnd e.tables true = true := by
  cases e <;> cases n <;> decide +kernel

def reader (e : FrontEnd) (source : String) (q : Queue) : Parser :=
  .ofTokens e.tables (e.lex source) q

def history (e : FrontEnd) (source : String) (q : Queue) : List Event :=
  e.grammar.history (e.reader source q)

def startEvents (e : FrontEnd) (source : String) (q : Queue) : List Event :=
  e.grammar.events (.call e.grammar.start) (e.reader source q).start

section

variable (e : FrontEnd) (source : String) (q : Queue)

theorem ahead_start_reader : (e.reader source q).start.ahead = (e.lex source).toList := by
  rw [reader, ← tables_guide]
  exact Analysis.ahead_ofTokens e.visible source q

theorem begun_start_reader :
    e.analysis.Begun (e.reader source q).start (e.lex source).kinds.dropLast := by
  rw [reader, ← tables_guide]
  exact Analysis.begun_ofTokens e.visible source q

theorem history_eq : e.history source q = .consume :: (e.startEvents source q ++
    (e.execStart (e.reader source q).start).1.expectEvents Kind.eof) := by
  rw [execStart_eq]
  exact congrArg (.consume :: ·)
    (Pace.events_whole e.analysis.sound (e.begun_start_reader source q).going e.analysis.bounded)

theorem replay_startEvents : (e.reader source q).start.replay (e.startEvents source q) =
    (e.execStart (e.reader source q).start).1 := by
  rw [execStart_eq]
  exact e.grammar.replay_events _ _

theorem replay_tail_history : (e.reader source q).start.replay (e.history source q).tail =
    (e.parse (e.reader source q)).1 := by
  rw [history, Grammar.history, List.tail_cons, Grammar.replay_events, parse_eq, Grammar.parse]

theorem sparesEnd_startEvents :
    (e.reader source q).start.SparesEnd (e.startEvents source q) := by
  have going := (e.begun_start_reader source q).going.start
  refine Pace.sparesEnd_log e.analysis.sound (fun n => ?_) going ?_ _
  · rw [tables_pace]
    exact e.sparesEnd_body n
  · exact Machine.sparesEnd_of_forall (List.forall_mem_singleton.mpr rfl)

/-- What the start production consumes and what it leaves are the tokens in order. -/
theorem consumed_append_ahead :
    (e.reader source q).start.consumed (e.startEvents source q) ++
      (e.execStart (e.reader source q).start).1.ahead = (e.lex source).toList := by
  rw [← replay_startEvents, ← e.ahead_start_reader source q]
  exact ((e.sparesEnd_startEvents source q).consumed_append_ahead
    (e.begun_start_reader source q).closed).2

/-- Where the check finds nothing, no parse of the text has an error to report. -/
theorem errors_le_of_check_eq_nil (h : e.check source = []) :
    (e.parse (e.reader source q)).1.queue.errors ≤ q.errors := by
  obtain ⟨r, exec, verdict⟩ := (e.begun_start_reader source q).exec_whole
  have parse : e.parse (e.reader source q) = (r, .ok ()) := (e.parse_eq _).trans exec
  rcases verdict with ⟨-, silent⟩ | ⟨i, code, stuck, -⟩
  · rw [parse, silent]
    exact Nat.le_refl q.errors
  · have program := (e.check_eq_nil_iff source).mp h
    exact absurd ⟨_, e.programs_eq ▸ program, List.take_prefix _ _⟩ stuck.stops

theorem errors_le_of_successful (h : (e.parse (e.reader source q)).1.successful = true) :
    (e.parse (e.reader source q)).1.queue.errors ≤ q.errors := by
  have before : (e.parse (e.reader source q)).1.errorsBefore = q.errors := by
    rw [← replay_tail_history, Parser.errorsBefore_replay]
    rfl
  have none := eq_of_beq h
  rw [Parser.errors, before] at none
  exact Nat.sub_eq_zero_iff_le.mp none

end

section

variable {e : FrontEnd} {source : String} {q : Queue}
  (h : (e.parse (e.reader source q)).1.queue.errors ≤ q.errors)

include h

theorem lookahead_eq_eof_of_errors_le :
    (e.execStart (e.reader source q).start).1.lookahead.kind = Kind.eof := by
  rw [← replay_tail_history] at h
  have consumes := Parser.eq_replicate_of_errors_le (e.begun_start_reader source q).far h
  by_contra missing
  -- Then the last event of the history would be a report.
  have reported : .report Kind.eof ∈ (e.history source q).tail := by
    rw [history_eq, List.tail_cons, Parser.expectEvents, if_neg missing]
    simp
  rw [consumes] at reported
  cases List.eq_of_mem_replicate reported

theorem consumed_of_errors_le :
    (e.reader source q).start.consumed (e.history source q).tail = (e.lex source).toList := by
  have eof := lookahead_eq_eof_of_errors_le h
  have all := e.consumed_append_ahead source q
  have alone := (e.begun_start_reader source q).ahead_eq_singleton
    (all.trans (e.ahead_start_reader source q).symm) eof
  rw [history_eq, List.tail_cons, Parser.consumed_append, replay_startEvents,
    Parser.expectEvents, if_pos eof, ← all, alone]
  rfl

end

theorem count_history_le (e : FrontEnd) (source : String) (q : Queue) :
    (e.history source q).count .consume ≤ (e.lex source).toList.length + 1 := by
  have len := congrArg List.length (e.consumed_append_ahead source q)
  rw [List.length_append, Parser.length_consumed] at len
  have last := (e.execStart (e.reader source q).start).1.count_expectEvents_le Kind.eof
  have ahead : 0 < (e.execStart (e.reader source q).start).1.ahead.length := Nat.succ_pos _
  rw [history_eq, List.count_cons_self, List.count_append]
  omega

structure ParsesInOrder (e : FrontEnd) (source : String) (q : Queue) : Prop where
  /-- The machine is done within its budget, and then the parse has its result. -/
  ends : e.grammar.step^[Grammar.budget (e.reader source q).start]
    ⟨(e.reader source q).start, [e.grammar.whole], none⟩ =
      ⟨(e.parse (e.reader source q)).1, [], none⟩
  /-- What happens until then leads to this result. -/
  replayed : ({ e.reader source q with lookahead := .sentinel } : Parser).replay
    (e.history source q) = (e.parse (e.reader source q)).1
  faultless : (e.parse (e.reader source q)).2 = .ok ()
  /-- All sets that the productions ask for are there. -/
  defined : ∀ n, ∀ set ∈ (e.grammar.body n).sets, set < e.tables.sets.length
  /-- No more is consumed than the tokens and what is before them. -/
  frugal : (e.history source q).count .consume ≤ (e.lex source).toList.length + 1
  /-- The end of the text is expected behind the start production. -/
  parts : e.history source q = .consume :: (e.startEvents source q ++
    (e.execStart (e.reader source q).start).1.expectEvents Kind.eof)
  /-- The start production does not consume it. -/
  sparesEnd : (e.reader source q).start.SparesEnd (e.startEvents source q)
  /-- The tokens are consumed in order. -/
  inOrder : (e.reader source q).start.consumed (e.startEvents source q) ++
    (e.execStart (e.reader source q).start).1.ahead = (e.lex source).toList
  /-- If nothing is reported, all tokens are consumed. -/
  thorough : e.check source = [] ∨ (e.parse (e.reader source q)).1.successful = true →
    (e.history source q).count .consume = (e.lex source).toList.length + 1 ∧
      (e.reader source q).start.consumed (e.history source q).tail = (e.lex source).toList

/-- Every parse ends, never asks for a set that is not there, and goes through the tokens in order
and no further than their end. -/
theorem parses_in_order (e : FrontEnd) (source : String) (q : Queue) :
    e.ParsesInOrder source q where
  ends := by
    rw [parse_eq]
    exact Pace.iterate_budget e.analysis.sound (e.begun_start_reader source q).going
      e.analysis.bounded
  replayed := by
    rw [parse_eq]
    exact e.grammar.replay_history _
  faultless := by
    obtain ⟨r, exec, -⟩ := (e.begun_start_reader source q).exec_whole
    rw [parse_eq, Grammar.parse, exec]
  defined n set mem := by
    rw [← tables_pace]
    exact Pace.lt_of_mem_sets (e.analysis.sound.paced n) mem
  frugal := e.count_history_le source q
  parts := e.history_eq source q
  sparesEnd := e.sparesEnd_startEvents source q
  inOrder := e.consumed_append_ahead source q
  thorough silent := by
    have errors := silent.elim (e.errors_le_of_check_eq_nil source q)
      (e.errors_le_of_successful source q)
    have all := consumed_of_errors_le errors
    refine ⟨?_, all⟩
    rw [← all, Parser.length_consumed, history_eq, List.count_cons_self, List.tail_cons]

end FrontEnd

end OberonFront
