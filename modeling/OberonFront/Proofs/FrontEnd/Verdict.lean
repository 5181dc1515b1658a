import Mathlib.Order.Bounds.Basic
import OberonFront.Proofs.FrontEnd.Analysis
import OberonFront.Proofs.Lexicon.Tokens

/-!
# What a check tells

A text is without problems if and only if its tokens make up a program of the
grammar.  The first problem of any other text stands at the first token with
which it can no longer become one.
-/

namespace OberonFront

open Ebnf (lang Derives)

namespace Queue

theorem retained_summarize (q : Queue) : q.summarize.1 = q.retained := by
  unfold summarize flush retained
  cases q.delivery <;> rfl

theorem retained_record_keeping (file : String) (d : Diagnostic) :
    ((keeping file).record d).retained = [d] := rfl

end Queue

namespace Analysis

variable {N : Type} {g : Grammar N} (a : Analysis g) {x : Lexicon}

def reader (x : Lexicon) (text : String) : Parser :=
  (Parser.ofTokens a.guide.tables (x.lex text) (.keeping "")).start

variable {a}

theorem ahead_ofTokens (visible : ∀ k ∈ x.kinds, k ≤ a.guide.tables.maxKind) (text : String)
    (q : Queue) :
    (Parser.ofTokens a.guide.tables (x.lex text) q).start.ahead = (x.lex text).toList := by
  have all : (x.lex text).toList.filter (·.kind ≤ a.guide.tables.maxKind) =
      (x.lex text).toList :=
    List.filter_eq_self.mpr fun t ht =>
      decide_eq_true (visible _ (Lexicon.kind_mem_of_mem_lex ht))
  obtain ⟨t, ts, eq⟩ := List.exists_cons_of_ne_nil (x.lex text).ne_nil
  rw [eq] at all ⊢
  exact Parser.ahead_start (eq ▸ all)

theorem begun_ofTokens (visible : ∀ k ∈ x.kinds, k ≤ a.guide.tables.maxKind) (text : String)
    (q : Queue) :
    a.Begun (Parser.ofTokens a.guide.tables (x.lex text) q).start
      (x.lex text).kinds.dropLast := by
  have upcoming : (Parser.ofTokens a.guide.tables (x.lex text) q).start.upcoming =
      (x.lex text).kinds := by
    rw [Parser.upcoming, ahead_ofTokens visible, TokenList.kinds]
  obtain ⟨closed, inner⟩ := x.kinds_lex text
  refine ⟨rfl, Nat.le_succ _, upcoming.trans closed, inner, fun k hk => ?_⟩
  rw [upcoming] at hk
  obtain ⟨t, ht, rfl⟩ := List.mem_map.mp hk
  exact visible _ (Lexicon.kind_mem_of_mem_lex ht)

theorem ahead_reader (visible : ∀ k ∈ x.kinds, k ≤ a.guide.tables.maxKind) (text : String) :
    (a.reader x text).ahead = (x.lex text).toList :=
  ahead_ofTokens visible text _

theorem begun_reader (visible : ∀ k ∈ x.kinds, k ≤ a.guide.tables.maxKind) (text : String) :
    a.Begun (a.reader x text) (x.lex text).kinds.dropLast :=
  begun_ofTokens visible text _

theorem retained_fail_reader (visible : ∀ k ∈ x.kinds, k ≤ a.guide.tables.maxKind) (text : String)
    {i : Nat} (lt : i < (x.lex text).toList.length) (code : Nat) :
    (((a.reader x text).advance i).fail code).queue.retained =
      [(x.lex text).toList[i].problem (a.guide.tables.message code)] := by
  have ahead := ahead_reader visible text
  have lookahead : ((a.reader x text).advance i).lookahead = (x.lex text).toList[i] := by
    have drop := Parser.ahead_advance (ahead ▸ lt)
    rw [ahead, List.drop_eq_getElem_cons lt] at drop
    exact (List.cons.inj drop).1
  have far : Parser.minDistance ≤ ((a.reader x text).advance i).distance := by
    rw [Parser.distance_advance]
    exact Nat.le_trans (begun_reader visible text).far (Nat.le_add_right _ _)
  have queue : (a.reader x text).queue = .keeping "" := rfl
  rw [Parser.queue_fail far, Parser.queue_advance, queue, Queue.retained_record_keeping,
    Parser.tables_advance, (begun_reader visible text).tables, lookahead]

/-- The two ways in which the parse of a text ends. -/
theorem parse_cases (visible : ∀ k ∈ x.kinds, k ≤ a.guide.tables.maxKind) (text : String) :
    let ds := (g.parse (.ofTokens a.guide.tables (x.lex text) (.keeping ""))).1.queue.retained
    (x.lex text).kinds.dropLast ∈ a.programs ∧ ds = [] ∨
      ∃ i code, ∃ h : i < (x.lex text).toList.length,
        Stuck a.programs a.guide.tables (x.lex text).kinds.dropLast i code ∧
          [(x.lex text).toList[i].problem (a.guide.tables.message code)] <+: ds := by
  obtain ⟨q, exec, verdict⟩ := (begun_reader visible text).exec_whole
  have parse : g.parse (.ofTokens a.guide.tables (x.lex text) (.keeping "")) = (q, .ok ()) := exec
  rw [parse]
  rcases verdict with ⟨program, silent⟩ | ⟨i, code, stuck, reported⟩
  · refine .inl ⟨program, ?_⟩
    rw [silent]
    rfl
  · have lt : i < (x.lex text).toList.length := by
      have len := x.length_lex text
      have within := stuck.within
      omega
    rw [retained_fail_reader visible text lt] at reported
    exact .inr ⟨i, code, lt, stuck, reported⟩

end Analysis

namespace FrontEnd

/-- The programs of a language: the words of its start symbol. -/
def programs : FrontEnd → Language Kind
  | .oberon0 => lang Oberon0.rule (.nonterminal .module)
  | .umbriel => lang Umbriel.rule (.nonterminal .module)

theorem programs_eq (e : FrontEnd) : e.programs = e.analysis.programs := by
  cases e <;> rfl

theorem kinds_lex (e : FrontEnd) (source : String) :
    (e.lex source).kinds = (e.lex source).kinds.dropLast ++ [Kind.eof] :=
  (e.lexicon.kinds_lex source).1

theorem check_eq_retained (e : FrontEnd) (source : String) :
    e.check source = (e.parse (.ofTokens e.tables (e.lex source) (.keeping ""))).1.queue.retained :=
  Queue.retained_summarize _

theorem check_cases (e : FrontEnd) (source : String) :
    (e.lex source).kinds.dropLast ∈ e.programs ∧ e.check source = [] ∨
      ∃ i code, ∃ h : i < (e.lex source).toList.length,
        Stuck e.programs e.tables (e.lex source).kinds.dropLast i code ∧
          [(e.lex source).toList[i].problem (e.tables.message code)] <+: e.check source := by
  have cases := e.analysis.parse_cases e.visible source
  simp only [tables_guide, ← parse_eq, ← programs_eq] at cases
  rw [check_eq_retained]
  exact cases

theorem check_eq_nil_iff (e : FrontEnd) (source : String) :
    e.check source = [] ↔ (e.lex source).kinds.dropLast ∈ e.programs := by
  rcases e.check_cases source with ⟨program, silent⟩ | ⟨i, code, lt, stuck, reported⟩
  · exact ⟨fun _ => program, fun _ => silent⟩
  · constructor
    · intro silent
      rw [silent, List.prefix_nil] at reported
      contradiction
    · intro program
      exact absurd ⟨_, program, List.take_prefix _ _⟩ stuck.stops

/-- A text with what is no token of the language has a problem. -/
theorem check_ne_nil_of_unknown (e : FrontEnd) {source : String}
    (garbage : e.lexicon.unknown ∈ (e.lex source).kinds) : e.check source ≠ [] := by
  intro silent
  have program := (e.check_eq_nil_iff source).mp silent
  have solid : e.lexicon.unknown ≠ Kind.eof := by cases e <;> decide
  rw [kinds_lex, List.mem_append, List.mem_singleton] at garbage
  have inner := garbage.resolve_right solid
  cases e with
  | oberon0 => cases Ebnf.mentions_of_mem Oberon0.unknown_not_mentioned program inner
  | umbriel => cases Ebnf.mentions_of_mem Umbriel.unknown_not_mentioned program inner

end FrontEnd

/-! ## Acceptance -/

/-- Oberon-0 texts are accepted if and only if their tokens are derived from the grammar. -/
theorem Oberon0.accepts_iff_derives (source : String) :
    (FrontEnd.oberon0.check source = [] ↔
      Derives rule (.nonterminal .module) (FrontEnd.oberon0.lex source).kinds.dropLast) ∧
    (unknown ∈ (FrontEnd.oberon0.lex source).kinds → FrontEnd.oberon0.check source ≠ []) := by
  have accepted := FrontEnd.oberon0.check_eq_nil_iff source
  refine ⟨accepted, fun garbage silent => ?_⟩
  have inner : unknown ∈ (FrontEnd.oberon0.lex source).kinds.dropLast := by
    rw [FrontEnd.kinds_lex] at garbage
    rcases List.mem_append.mp garbage with inner | last
    · exact inner
    · cases List.mem_singleton.mp last
  cases Ebnf.mentions_of_mem unknown_not_mentioned (accepted.mp silent) inner

/-- Umbriel texts are accepted if and only if their tokens are derived from the grammar. -/
theorem Umbriel.check_eq_nil_iff_derives (source : String) :
    FrontEnd.umbriel.check source = [] ↔
      Derives rule (.nonterminal .module) (FrontEnd.umbriel.lex source).kinds.dropLast :=
  FrontEnd.umbriel.check_eq_nil_iff source

/-! ## The first diagnostic -/

/-- A diagnostic is about the place where a token starts. -/
def Diagnostic.StandsAt (d : Diagnostic) (t : Token) : Prop :=
  d.line + 1 = t.start.line ∧ d.column?.map (· + 1) = some t.start.column

theorem Token.standsAt_problem {t : Token} (message : String)
    (h : 0 < t.start.line ∧ 0 < t.start.column) : (t.problem message).StandsAt t := by
  obtain ⟨line, column⟩ := h
  refine ⟨Nat.sub_add_cancel line, ?_⟩
  simp only [problem, Diagnostic.ofOneBased, if_neg (Nat.ne_of_gt column), Option.map_some]
  rw [Nat.sub_add_cancel column]

namespace FrontEnd

def terminalNames : FrontEnd → List String
  | .oberon0 => Oberon0.terminalNames
  | .umbriel => Umbriel.terminalNames

/-- No other message says what the message of a kind says. -/
theorem eq_of_message (e : FrontEnd) {code : Nat} {kind : Kind} {name : String}
    (known : code < e.tables.messages.length) (named : e.terminalNames[kind]? = some name)
    (h : e.tables.message code = name ++ " expected") :
    code = kind ∧ kind ≤ e.tables.maxKind := by
  obtain ⟨lt, rfl⟩ := List.getElem?_eq_some_iff.mp named
  have unique : ∀ code < e.tables.messages.length, ∀ kind, ∀ lt : kind < e.terminalNames.length,
      e.tables.message code = e.terminalNames[kind] ++ " expected" → code = kind := by
    cases e <;> decide +kernel
  have low : e.terminalNames.length = e.tables.maxKind + 1 := by cases e <;> decide +kernel
  rw [low] at lt
  exact ⟨unique code known kind _ h, Nat.le_of_lt_succ lt⟩

/-- The first diagnostic stands at the first token with which the text is no longer the start of a
program.  If its message is that a token was expected, the text could have gone on with that. -/
theorem first_diagnostic (e : FrontEnd) (source : String) {d : Diagnostic} {ds : List Diagnostic}
    (h : e.check source = d :: ds) :
    ∃ k, ∃ lt : k < (e.lex source).toList.length,
      d.StandsAt (e.lex source).toList[k] ∧
      IsLeast {n | ¬ Viable e.programs ((e.lex source).kinds.take n)} (k + 1) ∧
      ∀ kind name, e.terminalNames[kind]? = some name → d.message = name ++ " expected" →
        Viable e.programs ((e.lex source).kinds.take k ++ [kind]) := by
  rcases e.check_cases source with ⟨-, silent⟩ | ⟨k, code, lt, stuck, reported⟩
  · rw [silent] at h
    cases h
  · rw [h] at reported
    cases (List.cons_prefix_cons.mp reported).1
    have take : (e.lex source).kinds.take k = (e.lex source).kinds.dropLast.take k := by
      conv_lhs => rw [e.kinds_lex source, List.take_append_of_le_length stuck.within]
    refine ⟨k, lt, ?_, ⟨?_, fun n stops => ?_⟩, fun kind name named message => ?_⟩
    · exact Token.standsAt_problem _ (Lexicon.start_pos_of_mem_lex (List.getElem_mem lt))
    · have stops := stuck.stops
      rwa [← e.kinds_lex source] at stops
    · by_contra le
      apply stops
      obtain ⟨program, h, starts⟩ := stuck.viable
      refine ⟨program, h, .trans ?_ (take ▸ starts)⟩
      exact List.take_prefix_take_left (by omega)
    · obtain ⟨rfl, low⟩ := e.eq_of_message stuck.known named message
      rw [take]
      exact stuck.expected low

theorem first_diagnostic_module_heading :
    FrontEnd.oberon0.check "MODULE m\nEND m." = [⟨1, some 0, "\";\" expected", .error⟩] ∧
      ∃ k, ∃ lt : k < (FrontEnd.oberon0.lex "MODULE m\nEND m.").toList.length,
        Diagnostic.StandsAt ⟨1, some 0, "\";\" expected", .error⟩
          (FrontEnd.oberon0.lex "MODULE m\nEND m.").toList[k] ∧
        IsLeast {n | ¬ Viable FrontEnd.oberon0.programs
          ((FrontEnd.oberon0.lex "MODULE m\nEND m.").kinds.take n)} (k + 1) ∧
        ∀ kind name, FrontEnd.oberon0.terminalNames[kind]? = some name →
          "\";\" expected" = name ++ " expected" →
          Viable FrontEnd.oberon0.programs
            ((FrontEnd.oberon0.lex "MODULE m\nEND m.").kinds.take k ++ [kind]) :=
  have h : FrontEnd.oberon0.check "MODULE m\nEND m." = [⟨1, some 0, "\";\" expected", .error⟩] := by
    decide +kernel
  ⟨h, first_diagnostic .oberon0 _ h⟩

end FrontEnd

end OberonFront
