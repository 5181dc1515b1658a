import OberonFront.Proofs.Ebnf.Context
import OberonFront.Proofs.Oberon0.Grammar

/-!
# Programs that lack a semicolon

The places of a program whose semicolon a reader does not need: behind headings,
procedures and declarations, and between statements.  With each of them goes the
message that tells of it.
-/

namespace OberonFront.Oberon0

open Ebnf Nonterminal

/-! ## The parts of the declarations -/

inductive Section where
  | consts
  | types
  | vars
deriving DecidableEq

namespace Section

def keyword : Section → Kind
  | consts => kwConst
  | types => kwType
  | vars => kwVar

def declaration : Section → List (Ebnf Nonterminal)
  | consts => constantDeclaration
  | types => typeDeclaration
  | vars => variableDeclaration

def phrase (s : Section) : Ebnf Nonterminal := part s.keyword s.declaration

def procedures : Ebnf Nonterminal := many (chain [procedureDeclaration, semicolon])

def before : Section → List (Ebnf Nonterminal)
  | consts => []
  | types => [consts.phrase]
  | vars => [consts.phrase, types.phrase]

def behind : Section → List (Ebnf Nonterminal)
  | consts => [types.phrase, vars.phrase, procedures]
  | types => [vars.phrase, procedures]
  | vars => [procedures]

def rounds (s : Section) : Ebnf Nonterminal :=
  many (chain (s.declaration ++ [.terminal semicolon]))

theorem rule_declarations (s : Section) :
    rule .declarations = chain (s.before ++ s.phrase :: s.behind) := by
  cases s <;> rfl

end Section

/-! ## Missing semicolons -/

variable {n : Nonterminal} {u v b s t c : List Kind} {message : String}

/-- With a semicolon between them, `u` and `v` are a word of `n`.  Without it, the message tells
what is wrong where `v` begins. -/
inductive Lacks : Nonterminal → List Kind → List Kind → String → Prop where
  | moduleHeading {u v : List Kind} (before : u ∈ lang rule (chain [kwModule, ident]))
      (behind : v ∈ lang rule (chain [declarations, bodyPhrase, kwEnd, ident, period])) :
      Lacks .module u v "\";\" expected"
  | procedureHeading {u v : List Kind}
      (before : u ∈ lang rule (chain [kwProcedure, ident, opt formalParameters]))
      (behind : v ∈ lang rule (chain [declarations, bodyPhrase, kwEnd, ident])) :
      Lacks .procedureDeclaration u v "\";\" expected"
  | procedure {u b w v : List Kind}
      (before : u ∈ lang rule (chain (Section.vars.before ++ [Section.vars.phrase])))
      (others : b ∈ lang rule Section.procedures) (last : w ∈ lang rule procedureDeclaration)
      (more : v ∈ lang rule Section.procedures) :
      Lacks .declarations (u ++ (b ++ w)) v "\";\" expected"
  | declaration {u b w c v : List Kind} (s : Section) (before : u ∈ lang rule (chain s.before))
      (others : b ∈ lang rule s.rounds) (last : w ∈ lang rule (chain s.declaration))
      (more : c ∈ lang rule s.rounds) (behind : v ∈ lang rule (chain s.behind)) :
      Lacks .declarations (u ++ (s.keyword :: (b ++ w))) (c ++ v) "\";\" expected"
  | statement {b s t c : List Kind}
      (before : b ∈ lang rule (many (chain [statement, semicolon])))
      (first : s ∈ lang rule statement) (second : t ∈ lang rule statement)
      (behind : c ∈ lang rule (many (chain [semicolon, statement])))
      (proper : s ∉ lang rule (chain [ident, selector])) (hs : s ≠ []) (ht : t ≠ []) :
      Lacks .statementSequence (b ++ s) (t ++ c) "\";\" expected"
  | call {b s t c : List Kind} (before : b ∈ lang rule (many (chain [statement, semicolon])))
      (bare : s ∈ lang rule (chain [ident, selector])) (second : t ∈ lang rule statement)
      (behind : c ∈ lang rule (many (chain [semicolon, statement]))) (ht : t ≠ []) :
      Lacks .statementSequence (b ++ s) (t ++ c) "invalid Statement"

/-- A program that lacks a semicolon between `u` and `v`. -/
inductive Omission : List Kind → List Kind → String → Prop where
  | intro {n : Nonterminal} {x u v y : List Kind} {message : String}
      (context : Context rule n (.nonterminal .module) x y) (lacks : Lacks n u v message) :
      Omission (x ++ u) (v ++ y) message

/-! ## The semicolon put back -/

theorem mem_statement_of_bare (h : s ∈ lang rule (chain [ident, selector])) :
    s ∈ lang rule (.nonterminal .statement) := by
  have tail : [] ∈ lang rule (chain [choice [chain [becomes, expression], opt actualParameters]]) :=
    .altRight .optNone
  have whole := mem_chain_append h tail
  rw [List.append_nil] at whole
  exact .nonterminal (.optSome (.altLeft whole))

/-- Statements that end in a semicolon each may stand before others. -/
theorem mem_statements (before : b ∈ lang rule (many (chain [statement, semicolon])))
    (h : s ∈ lang rule (chain [statement, many (chain [semicolon, statement])])) :
    b ++ s ∈ lang rule (chain [statement, many (chain [semicolon, statement])]) := by
  induction before using many_induction with
  | nil => exact h
  | cons u v first _ ih =>
      cases first with
      | @seq _ _ u _ first second =>
          cases second
          rw [List.append_assoc]
          generalize v ++ s = w at ih
          cases ih with
          | seq next others =>
              have more := Derives.manyCons (.seq (.terminal semicolon) next) others
              rw [List.append_assoc]
              exact .seq first more

theorem Lacks.restore (h : Lacks n u v message) :
    u ++ semicolon :: v ∈ lang rule (.nonterminal n) := by
  rw [lang_nonterminal]
  cases h with
  | moduleHeading before behind => exact mem_chain_append before (cons_mem_chain behind)
  | procedureHeading before behind => exact mem_chain_append before (cons_mem_chain behind)
  | @procedure u b w _ before others last more =>
      have rounds : b ++ ((w ++ [semicolon]) ++ v) ∈ lang rule (chain Section.vars.behind) :=
        mem_many_append others (.manyCons (.seq last (.terminal _)) more)
      have whole := mem_chain_append before rounds
      rw [Section.vars.rule_declarations]
      simpa using whole
  | @declaration u b w c v s before others last more behind =>
      have round : w ++ [semicolon] ∈ lang rule (chain (s.declaration ++ [.terminal semicolon])) :=
        mem_chain_append last (.terminal _)
      have rounds : b ++ ((w ++ [semicolon]) ++ c) ∈ lang rule (chain [s.rounds]) :=
        mem_many_append others (.manyCons round more)
      have phrase : s.keyword :: (b ++ ((w ++ [semicolon]) ++ c)) ∈ lang rule s.phrase :=
        .optSome (cons_mem_chain rounds)
      have whole := mem_chain_append before (mem_chain_cons phrase behind)
      rw [s.rule_declarations]
      simpa using whole
  | statement before first second behind =>
      have others := Derives.manyCons (.seq (.terminal semicolon) second) behind
      have whole := mem_statements before (.seq first others)
      rw [rule]
      simpa using whole
  | call before bare second behind =>
      have others := Derives.manyCons (.seq (.terminal semicolon) second) behind
      have whole := mem_statements before (.seq (mem_statement_of_bare bare) others)
      rw [rule]
      simpa using whole

theorem Omission.restore (h : Omission u v message) :
    u ++ semicolon :: v ∈ lang rule (.nonterminal .module) := by
  cases h with
  | intro context lacks => simpa using context.fill lacks.restore

end OberonFront.Oberon0
