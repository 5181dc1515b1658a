import OberonFront.Proofs.FrontEnd.Verdict
import OberonFront.Proofs.Machine.Recovery
import OberonFront.Proofs.Oberon0.Omission

/-!
# Recovery from a missing semicolon

The parser reports a missing semicolon at the token behind it, and goes on as if
it had been there.  Nothing else is reported, however deep the place is nested.
-/

namespace OberonFront

namespace Oberon0

open Ebnf Nonterminal
open OberonFront.Action (block when choose)

/-! ## Headings, declarations and procedures -/

def moduleHead : analysis.Heading .module semicolon where
  before := [kwModule, ident]
  behind := [declarations, bodyPhrase, kwEnd, ident, period]
  actions := [.expect kwModule, .expect ident]
  others := [.call declarations, body, .expect kwEnd, .expect ident, .expect period]
  body := rfl
  more := List.cons_ne_nil _ _
  lead := by decide +kernel
  tail := by decide +kernel
  paced := by decide +kernel
  tailPaced := by decide +kernel
  differs := by decide +kernel

def procedureHead : analysis.Heading .procedureDeclaration semicolon where
  before := [kwProcedure, ident, opt formalParameters]
  behind := [declarations, bodyPhrase, kwEnd, ident]
  actions := [.expect kwProcedure, .expect ident,
    when (.sees [leftParen]) (.call formalParameters)]
  others := [.call declarations, body, .expect kwEnd, .expect ident]
  body := rfl
  more := List.cons_ne_nil _ _
  lead := by decide +kernel
  tail := by decide +kernel
  paced := by decide +kernel
  tailPaced := by decide +kernel
  differs := by decide +kernel

namespace Section

def actions : Section → List (Action Nonterminal)
  | consts => [.get, .expect equal, .call expression]
  | types => [.get, .expect equal, .call type]
  | vars => [.call identList, .expect colon, .call type]

def action (s : Section) : Action Nonterminal := declarationPart s.keyword s.actions

def actionsBefore : Section → List (Action Nonterminal)
  | consts => []
  | types => [consts.action]
  | vars => [consts.action, types.action]

def procedureLoop : Action Nonterminal :=
  .whileDo (.sees [kwProcedure]) (block [.call procedureDeclaration, .expect semicolon])

def actionsBehind : Section → List (Action Nonterminal)
  | consts => [types.action, vars.action, procedureLoop]
  | types => [vars.action, procedureLoop]
  | vars => [procedureLoop]

theorem body_declarations (s : Section) :
    grammar.body .declarations = block (s.actionsBefore ++ s.action :: s.actionsBehind) := by
  cases s <;> rfl

def loop (s : Section) : analysis.Rounds .declarations semicolon where
  test := .sees [ident]
  phrases := s.declaration
  actions := s.actions
  last := .expectWeak semicolon declarationSync
  behind := [chain s.behind]
  others := [block s.actionsBehind]
  defined := by decide +kernel
  enter := by cases s <;> decide +kernel
  full := by cases s <;> decide +kernel
  checks := by cases s <;> decide +kernel
  lead := by cases s <;> decide +kernel
  tail := by cases s <;> decide +kernel
  paced := by cases s <;> decide +kernel
  roundPaced := by cases s <;> decide +kernel
  tailPaced := by cases s <;> decide +kernel
  reports := by
    refine Analysis.reports_expectWeak ?_ (by decide +kernel) ?_
    · cases s <;> decide +kernel
    · cases s <;> decide +kernel

end Section

def procedureRounds : analysis.Rounds .declarations semicolon where
  test := .sees [kwProcedure]
  phrases := [procedureDeclaration]
  actions := [.call procedureDeclaration]
  last := .expect semicolon
  behind := []
  others := []
  defined := by decide +kernel
  enter := by decide +kernel
  full := by decide +kernel
  checks := by decide +kernel
  lead := by decide +kernel
  tail := by decide +kernel
  paced := by decide +kernel
  roundPaced := by decide +kernel
  tailPaced := by decide +kernel
  reports := Analysis.reports_expect (by decide +kernel)

variable {p : Parser} {n : Nonterminal} {u v b w s t c y z ks : List Kind} {k : Kind}
  {message : String} {cs : List (Action Nonterminal)} {gs : List (Ebnf Nonterminal)}

theorem Section.reads_keyword (s : Section) (faces : analysis.Faces p (s.keyword :: ks))
    (below : List (Action Nonterminal)) :
    grammar.Reaches ⟨p, block (s.action :: s.actionsBehind) :: below, none⟩
      ⟨p.get, s.loop.pending ++ below, none⟩ := by
  have more : s.actionsBehind ≠ [] := by cases s <;> exact List.cons_ne_nil _ _
  have seen : Test.admits analysis.guide.tables p.lookahead.kind (.sees [s.keyword]) = true := by
    simp [Test.admits, faces.lookahead_eq]
  rw [Action.block_cons more]
  exact .step (faces.reaches_yes rfl seen (.step (.of_step rfl)))

private theorem append_ne_nil (v : List Kind)
    (remains : analysis.Remains {[Kind.eof]} n y cs gs) : v ++ y ≠ [] := by
  have closed := Analysis.ne_nil_of_mem_texts remains.text (List.cons_ne_nil _ _)
  exact List.append_ne_nil_of_right_ne_nil v closed

theorem Section.resumes (s : Section)
    (faces : analysis.Faces p (u ++ (s.keyword :: (b ++ (w ++ (v ++ y))))))
    (before : u ∈ lang rule (chain s.before)) (others : b ∈ lang rule s.rounds)
    (last : w ∈ lang rule (chain s.declaration))
    (behind : v ∈ lang rule (chain [s.rounds, chain s.behind]))
    (remains : analysis.Remains {[Kind.eof]} .declarations y cs gs) :
    analysis.Resumes p (.call .declarations :: cs) (u ++ (s.keyword :: (b ++ w))) (v ++ y)
      semicolon := by
  have heading := faces.advance (List.cons_ne_nil _ _)
  have inner := heading.get (by simp [append_ne_nil v remains])
  have lead : analysis.guide.leads analysis.guide.kinds (· == s.keyword) s.actionsBefore
      s.before = true := by
    cases s <;> decide +kernel
  have paced : s.actionsBefore.all analysis.pace.paced = true := by cases s <;> decide +kernel
  have rounds : analysis.Resumes (p.advance u.length).get (s.loop.pending ++ cs) (b ++ w) (v ++ y)
      semicolon :=
    s.loop.resumes agrees inner others last behind remains
  have opened : analysis.Resumes (p.advance u.length) (block (s.action :: s.actionsBehind) :: cs)
      ([s.keyword] ++ (b ++ w)) (v ++ y) semicolon := by
    refine .after (fun below => ?_) rounds
    have reads := s.reads_keyword heading (cs ++ below)
    rwa [← List.append_assoc] at reads
  refine .after (fun below => .step ?_) opened
  have reads := Analysis.reads_block agrees lead paced faces before (beq_self_eq_true _)
    (List.cons_ne_nil s.action s.actionsBehind) (Guide.mem_kinds.mpr faces.lookahead_le)
    (cs ++ below)
  rwa [← s.body_declarations] at reads

theorem procedure_resumes (faces : analysis.Faces p (u ++ ((b ++ w) ++ (v ++ y))))
    (before : u ∈ lang rule (chain (Section.vars.before ++ [Section.vars.phrase])))
    (others : b ∈ lang rule Section.procedures) (last : w ∈ lang rule procedureDeclaration)
    (more : v ∈ lang rule Section.procedures)
    (remains : analysis.Remains {[Kind.eof]} .declarations y cs gs) :
    analysis.Resumes p (.call .declarations :: cs) (u ++ (b ++ w)) (v ++ y) semicolon := by
  have inner :=
    faces.advance (List.append_ne_nil_of_right_ne_nil (b ++ w) (append_ne_nil v remains))
  have rounds : analysis.Resumes (p.advance u.length) (procedureRounds.pending ++ cs) (b ++ w)
      (v ++ y) semicolon :=
    procedureRounds.resumes agrees (List.append_assoc b w _ ▸ inner) others last more remains
  have known : b ++ w ∈ lang rule (chain [Section.procedures, procedureDeclaration]) :=
    .seq others last
  obtain ⟨k, ks, eq, begins⟩ :=
    Analysis.exists_cons_of_mem agrees (by decide +kernel) inner known
  have lead : analysis.guide.leads analysis.guide.kinds
      (analysis.guide.begins · (chain [Section.procedures, procedureDeclaration]))
      (Section.vars.actionsBefore ++ [Section.vars.action])
      (Section.vars.before ++ [Section.vars.phrase]) = true := by
    decide +kernel
  refine .after (fun below => .step ?_) rounds
  rw [eq] at faces
  exact Analysis.reads_block agrees lead (by decide +kernel) faces before begins
    (List.cons_ne_nil Section.procedureLoop []) (Guide.mem_kinds.mpr faces.lookahead_le)
    (cs ++ below)

/-! ## Statements -/

def callEnd : Action Nonterminal :=
  choose [
    (.sees [becomes], block [.get, .call expression]),
    (.starts callTail, when (.sees [leftParen]) (.call actualParameters))]
    (.fail invalidStatement)

def further : Action Nonterminal :=
  .separated semicolon statementStart statementFollow (.call statement)

def starts (k : Kind) : Bool := analysis.guide.begins k statement

theorem reports_further : analysis.Reports [further] semicolon starts [.call statement, further] :=
  Analysis.reports_separated (by decide +kernel) (by decide +kernel) (by decide +kernel)
    (by decide +kernel)

/-- Behind a call without parameters, the missing semicolon itself is not reported. -/
theorem reports_callEnd :
    analysis.Reports [callEnd, further] invalidStatement starts [.call statement, further] := by
  have failed := Analysis.reports_fail analysis invalidStatement starts
  have ended : analysis.Reports [callEnd] invalidStatement starts [] :=
    (failed.no (by decide +kernel) (by decide +kernel)).no (by decide +kernel) (by decide +kernel)
  exact ended.followed reports_further

theorem reads_callee (faces : analysis.Faces p (s ++ k :: z))
    (hs : s ∈ lang rule (chain [ident, selector]))
    (hk : (becomes :: leftParen :: first .statement).contains k = true)
    (below : List (Action Nonterminal)) :
    grammar.Reaches ⟨p, .call .statement :: below, none⟩
      ⟨p.advance s.length, callEnd :: below, none⟩ := by
  have lead : analysis.guide.leads [ident] (becomes :: leftParen :: first .statement).contains
      [.get, .call selector] [ident, selector] = true := by
    decide +kernel
  have lookahead : p.lookahead.kind = ident := by
    cases hs with
    | seq first =>
        cases first
        exact faces.lookahead_eq
  have reads := Analysis.reads_block agrees lead (by decide +kernel) faces hs hk
    (List.cons_ne_nil callEnd []) (by simp [lookahead]) below
  refine .step (faces.reaches_yes (by decide +kernel) ?_ (faces.reaches_yes rfl ?_ reads))
  · rw [lookahead]
    decide +kernel
  · rw [lookahead]
    decide +kernel

theorem statement_cases (hs : s ∈ lang rule statement) (ne : s ≠ []) :
    (∃ x y, s = x ++ y ∧ x ∈ lang rule (chain [ident, selector]) ∧
      y ∈ lang rule (choice [chain [becomes, expression], opt actualParameters])) ∨
    s ∈ lang rule (choice [ifStatement, whileStatement, repeatStatement]) := by
  cases hs with
  | nonterminal hs =>
      cases hs with
      | optNone => contradiction
      | optSome hs =>
          cases hs with
          | altLeft hs =>
              cases hs with
              | seq first second =>
                  cases second with
                  | seq second third =>
                      exact .inl ⟨_, _, (List.append_assoc ..).symm, .seq first second, third⟩
          | altRight hs => exact .inr hs

/-- A statement that is no call without parameters is read where another one starts behind it. -/
theorem reads_statement (faces : analysis.Faces p (s ++ k :: z)) (hs : s ∈ lang rule statement)
    (ne : s ≠ []) (proper : s ∉ lang rule (chain [ident, selector])) (hk : starts k = true)
    (below : List (Action Nonterminal)) :
    grammar.Reaches ⟨p, .call .statement :: below, none⟩ ⟨p.advance s.length, below, none⟩ := by
  rcases statement_cases hs ne with ⟨x, y, rfl, callee, tail⟩ | compound
  · have checks : analysis.guide.checks [becomes, leftParen] starts callEnd
        (choice [chain [becomes, expression], opt actualParameters]) = true := by
      decide +kernel
    have full : y ≠ [] := by
      intro empty
      rw [empty, List.append_nil] at proper
      contradiction
    obtain ⟨j, ys, rfl⟩ := List.exists_cons_of_ne_nil full
    rw [List.append_assoc] at faces
    have behind := faces.advance (List.cons_ne_nil _ _)
    have begins := Guide.begins_of_derives agrees (faces.visible j (by simp)) tail rfl
    have look : j ∈ [becomes, leftParen] := by
      simpa [choice, chain, Guide.begins, Guide.empties, analysis, guide, Oberon0.first]
        using begins
    have next : (becomes :: leftParen :: first .statement).contains j = true := by
      rcases List.mem_pair.mp look with rfl | rfl <;> decide
    have named := reads_callee faces callee next below
    rw [List.length_append, Parser.advance_add]
    exact named.trans (Analysis.reads_checked agrees checks (behind.lookahead_eq ▸ look)
      (by decide +kernel) behind tail hk below)
  · have checks : analysis.guide.checks [kwIf, kwWhile, kwRepeat] starts (grammar.body .statement)
        (choice [ifStatement, whileStatement, repeatStatement]) = true := by
      decide +kernel
    obtain ⟨j, ks, rfl, begins⟩ :=
      Analysis.exists_cons_of_mem agrees (by decide +kernel) faces compound
    have look : p.lookahead.kind ∈ [kwIf, kwWhile, kwRepeat] := by
      rw [faces.lookahead_eq]
      simpa [choice, Guide.begins, analysis, guide, Oberon0.first] using begins
    exact .step (Analysis.reads_checked agrees checks look (by decide +kernel) faces compound hk
      below)

/-- The parser goes on where two statements are not separated.  The actions `as` are left to do
when it has read the first one. -/
theorem statement_resumes {as : List (Action Nonterminal)} {code : Nat}
    (faces : analysis.Faces p (b ++ (s ++ (t ++ c ++ y))))
    (before : b ∈ lang rule (many (chain [statement, semicolon])))
    (reads : ∀ {p k z}, analysis.Faces p (s ++ k :: z) → starts k = true → ∀ below,
      grammar.Reaches ⟨p, .call .statement :: further :: below, none⟩
        ⟨p.advance s.length, as ++ below, none⟩)
    (reports : analysis.Reports as code starts [.call statement, further])
    (second : t ∈ lang rule statement) (ht : t ≠ [])
    (behind : c ∈ lang rule (many (chain [semicolon, statement])))
    (remains : analysis.Remains {[Kind.eof]} .statementSequence y cs gs) :
    analysis.Resumes p (.call .statementSequence :: cs) (b ++ s) (t ++ c ++ y) code := by
  obtain ⟨k, ts, rfl⟩ := List.exists_cons_of_ne_nil ht
  have nonempty : k :: ts ++ c ++ y ≠ [] := List.cons_ne_nil _ _
  have inner := faces.advance (List.append_ne_nil_of_right_ne_nil s nonempty)
  have next := inner.advance nonempty
  have hk : starts k = true :=
    Guide.begins_of_derives agrees (next.visible k (by simp)) second rfl
  have lead : analysis.guide.leads analysis.guide.kinds
      (analysis.guide.follow .statementSequence).contains [.call statement, further]
      [statement, many (chain [semicolon, statement])] = true := by
    decide +kernel
  have missing : analysis.Resumes ((p.advance b.length).advance s.length) (as ++ ([] ++ cs)) []
      (k :: ts ++ c ++ y) code :=
    reports.resumes agrees remains lead (by decide +kernel) next (.seq second behind)
      (next.lookahead_eq ▸ hk)
  have entered : analysis.Resumes (p.advance b.length) (.call .statement :: further :: cs) s
      (k :: ts ++ c ++ y) code := by
    rw [← List.append_nil s]
    refine .after (fun below => ?_) missing
    rw [List.append_assoc]
    exact reads inner hk (cs ++ below)
  refine .after (fun below => .step (.step ?_)) entered
  obtain ⟨ks, eq⟩ := inner.exists_cons
  rw [eq] at faces
  have checks : analysis.guide.checks analysis.guide.kinds (· == semicolon) (.call .statement)
      statement = true := by
    decide +kernel
  exact Analysis.reads_separated agrees checks (by decide +kernel) faces before (cs ++ below)

/-- Where a semicolon is missing in a production, it is reported with its message. -/
theorem Lacks.resumes (lacks : Lacks n u v message) :
    ∃ code, tables.message code = message ∧ ∀ {p y cs gs}, analysis.Faces p (u ++ (v ++ y)) →
      analysis.Remains {[Kind.eof]} n y cs gs →
      analysis.Resumes p (.call n :: cs) u (v ++ y) code := by
  cases lacks with
  | moduleHeading before behind =>
      refine ⟨semicolon, rfl, fun faces remains => ?_⟩
      exact moduleHead.resumes agrees faces before behind remains
  | procedureHeading before behind =>
      refine ⟨semicolon, rfl, fun faces remains => ?_⟩
      exact procedureHead.resumes agrees faces before behind remains
  | procedure before others last more =>
      refine ⟨semicolon, rfl, fun faces remains => ?_⟩
      rw [List.append_assoc] at faces
      exact procedure_resumes faces before others last more remains
  | declaration s before others last more behind =>
      refine ⟨semicolon, rfl, fun faces remains => ?_⟩
      exact s.resumes (by simpa using faces) before others last (.seq more behind) remains
  | statement before first second behind proper hs ht =>
      refine ⟨semicolon, rfl, fun faces remains => ?_⟩
      rw [List.append_assoc] at faces
      refine statement_resumes faces before ?_ reports_further second ht behind remains
      exact fun faces hk below => reads_statement faces first hs proper hk (further :: below)
  | call before bare second behind ht =>
      refine ⟨invalidStatement, rfl, fun faces remains => ?_⟩
      rw [List.append_assoc] at faces
      refine statement_resumes faces before ?_ reports_callEnd second ht behind remains
      intro p k z faces hk below
      have hk : k ∈ first .statement := by
        simpa [starts, Guide.begins, analysis, guide] using hk
      exact reads_callee faces bare (by simp [hk]) (further :: below)

/-! ## The one diagnostic -/

theorem Lacks.exists_cons (lacks : Lacks n u v message) : ∃ k ks, u = k :: ks := by
  have full {e : Ebnf Nonterminal} {w : List Kind} (h : w ∈ lang rule e)
      (he : guide.empties e = false) : w ≠ [] := by
    intro empty
    rw [Guide.empties_of_derives agrees h empty] at he
    contradiction
  apply List.exists_cons_of_ne_nil
  cases lacks with
  | moduleHeading before => exact full before rfl
  | procedureHeading before => exact full before rfl
  | procedure _ _ last => simp [full last rfl]
  | declaration => simp
  | statement _ _ _ _ _ hs => simp [hs]
  | call _ bare => simp [full bare rfl]

/-- A text that lacks a semicolon is read to its end, with one report. -/
theorem Omission.exec_whole (omission : Omission u v message) (begun : analysis.Begun p (u ++ v)) :
    ∃ q code, grammar.exec grammar.whole p = (q, .ok ()) ∧ tables.message code = message ∧
      q.queue = ((p.advance u.length).fail code).queue := by
  cases omission with
  | @intro n x u v y _ context lacks =>
      obtain ⟨k, z, hu⟩ := lacks.exists_cons
      obtain ⟨code, said, resumes⟩ := lacks.resumes
      have starts := lacks.restore
      rw [hu, List.cons_append] at starts
      obtain ⟨q, exec, queue⟩ := begun.exec_of_resumes context starts hu fun _ _ => resumes
      exact ⟨q, code, exec, said, queue⟩

end Oberon0

namespace FrontEnd

open Oberon0
open Ebnf (lang chain Context)

/-- A text that would be a program, if it did not lack a semicolon, has one problem.  It stands at
the token behind the semicolon. -/
theorem check_of_omission {source : String} {u v : List Kind} {message : String}
    (h : (oberon0.lex source).kinds.dropLast = u ++ v) (omission : Omission u v message) :
    u ++ semicolon :: v ∈ oberon0.programs ∧
      ∃ d, oberon0.check source = [d] ∧ d.message = message ∧
        ∃ lt : u.length < (oberon0.lex source).toList.length,
          d.StandsAt (oberon0.lex source).toList[u.length] := by
  have begun := Analysis.begun_reader Oberon0.visible source
  have lt : u.length < (oberon0.lex source).toList.length := by
    have len : (oberon0.lex source).toList.length =
        (oberon0.lex source).kinds.dropLast.length + 1 :=
      Lexicon.length_lex _ source
    rw [h, List.length_append] at len
    omega
  obtain ⟨q, code, exec, said, queue⟩ := omission.exec_whole (h ▸ begun)
  have parse : oberon0.parse (.ofTokens oberon0.tables (oberon0.lex source) (.keeping "")) =
      (q, .ok ()) := exec
  have reported : oberon0.check source =
      [(oberon0.lex source).toList[u.length].problem (oberon0.tables.message code)] := by
    rw [check_eq_retained, parse]
    change q.queue.retained = _
    rw [queue]
    exact Analysis.retained_fail_reader Oberon0.visible source lt code
  refine ⟨omission.restore, _, reported, said, lt, ?_⟩
  exact Token.standsAt_problem _ (Lexicon.start_pos_of_mem_lex (List.getElem_mem lt))

theorem check_of_omission_between_calls :
    (oberon0.lex "MODULE m; BEGIN\n  p\n  q\nEND m.").kinds.dropLast =
        [kwModule, ident, semicolon, kwBegin, ident] ++ [ident, kwEnd, ident, period] ∧
      Omission [kwModule, ident, semicolon, kwBegin, ident] [ident, kwEnd, ident, period]
        "invalid Statement" ∧
      [kwModule, ident, semicolon, kwBegin, ident] ++
        semicolon :: [ident, kwEnd, ident, period] ∈ oberon0.programs ∧
      ∃ d, oberon0.check "MODULE m; BEGIN\n  p\n  q\nEND m." = [d] ∧
        d.message = "invalid Statement" ∧
        ∃ lt : 5 < (oberon0.lex "MODULE m; BEGIN\n  p\n  q\nEND m.").toList.length,
          d.StandsAt (oberon0.lex "MODULE m; BEGIN\n  p\n  q\nEND m.").toList[5] := by
  have nothing : [] ∈ lang rule (.nonterminal .declarations) :=
    .nonterminal (.seq .optNone (.seq .optNone (.seq .optNone .manyNil)))
  have ended : [kwEnd, ident, period] ∈ lang rule (chain [kwEnd, ident, period]) :=
    .seq (.terminal _) (.seq (.terminal _) (.terminal _))
  have context : Context rule .statementSequence (.nonterminal .module)
      ([kwModule] ++ ([ident] ++ ([semicolon] ++ ([] ++ ([kwBegin] ++ [])))))
      ([] ++ [kwEnd, ident, period]) :=
    .nonterminal (.seqSecond (.terminal _) (.seqSecond (.terminal _) (.seqSecond (.terminal _)
      (.seqSecond nothing (.seqFirst (.opt (.seqSecond (.terminal _) .here)) ended)))))
  have call : [ident] ++ [] ∈ lang rule (chain [ident, Nonterminal.selector]) :=
    .seq (.terminal _) (.nonterminal .manyNil)
  have lacks : Lacks .statementSequence ([] ++ ([ident] ++ [])) (([ident] ++ []) ++ [])
      "invalid Statement" :=
    .call .manyNil call (mem_statement_of_bare call) .manyNil (List.cons_ne_nil _ _)
  have omission : Omission [kwModule, ident, semicolon, kwBegin, ident]
      [ident, kwEnd, ident, period] "invalid Statement" :=
    .intro context lacks
  have kinds : (oberon0.lex "MODULE m; BEGIN\n  p\n  q\nEND m.").kinds.dropLast =
      [kwModule, ident, semicolon, kwBegin, ident] ++ [ident, kwEnd, ident, period] := by
    decide +kernel
  exact ⟨kinds, omission, check_of_omission kinds omission⟩

end FrontEnd

end OberonFront
