import OberonFront.Proofs.Machine.Check
import OberonFront.Proofs.Machine.Reading

/-!
# Going on behind a missing terminal

A text lacks a terminal, and the machine comes to the action that wants it.  It
reports that once.  If it is then ready for what is left of the text, it reads
the rest without another report.
-/

namespace OberonFront

open OberonFront.Action (block)
open Ebnf (lang chain)

variable {N : Type}

theorem Action.block_cons {b : Action N} {as : List (Action N)} (h : as ≠ []) :
    block (b :: as) = .seq b (block as) := by
  cases as with
  | nil => contradiction
  | cons => rfl

namespace Analysis

variable {g : Grammar N} {a : Analysis g} {p : Parser} {w x y z : List Kind} {k : Kind}
  {as bs cs : List (Action N)} {es fs gs : List (Ebnf N)} {n : N} {code : Nat}

/-! ## What is left behind a report -/

/-- The pending actions read `x`, report `code`, and leave others that are right for what is left,
of which `z` is a text. -/
inductive Resumes (a : Analysis g) (p : Parser) (as : List (Action N)) (x z : List Kind)
    (code : Nat) : Prop where
  | intro {q : Parser} {cs : List (Action N)} {gs : List (Ebnf N)}
      (reaches : ∀ below, g.Reaches ⟨p, as ++ below, none⟩ ⟨q, cs ++ below, none⟩)
      (queue : q.queue = ((p.advance x.length).fail code).queue) (faces : a.Faces q z)
      (ready : ∀ k ≤ a.guide.tables.maxKind, Ready a.guide {[Kind.eof]} k cs gs)
      (paced : ∀ b ∈ cs, a.pace.paced b = true) (text : z ∈ a.closedTexts gs)

namespace Resumes

theorem after (reaches : ∀ below,
      g.Reaches ⟨p, as ++ below, none⟩ ⟨p.advance w.length, bs ++ below, none⟩)
    (h : a.Resumes (p.advance w.length) bs x z code) : a.Resumes p as (w ++ x) z code := by
  cases h with
  | intro reaches' queue faces ready paced text =>
      refine .intro (fun below => (reaches below).trans (reaches' below)) ?_ faces ready paced text
      rw [queue, List.length_append, Parser.advance_add]

theorem step (h : ∀ below, g.step ⟨p, as ++ below, none⟩ = ⟨p, bs ++ below, none⟩)
    (resumes : a.Resumes p bs x z code) : a.Resumes p as x z code :=
  after (w := []) (fun below => .of_step (h below)) resumes

theorem finishes (h : a.Resumes p as x z code) :
    ∃ q, g.Reaches ⟨p, as ++ [.expect Kind.eof], none⟩ ⟨q, [], none⟩ ∧
      q.queue = ((p.advance x.length).fail code).queue := by
  cases h with
  | intro reaches queue faces ready paced text =>
      obtain ⟨r, reaches', queue'⟩ :=
        Analysis.finishes faces (faces.going paced) (ready _ faces.lookahead_le) text
      exact ⟨r, (reaches _).trans reaches', queue'.trans queue⟩

end Resumes

/-- The pending actions report `code` at each lookahead in `F`, which they do not consume, and leave
others. -/
def Reports (a : Analysis g) (as : List (Action N)) (code : Nat) (F : Kind → Bool)
    (bs : List (Action N)) : Prop :=
  ∀ q kinds, a.Faces q kinds → F q.lookahead.kind = true →
    ∃ r, (∀ below, g.Reaches ⟨q, as ++ below, none⟩ ⟨r, bs ++ below, none⟩) ∧
      r.queue = (q.fail code).queue ∧ r.distance = 0 ∧ a.Faces r kinds

section reports

variable {F : Kind → Bool} {test : Test} {b c : Action N}

theorem reports_fail (a : Analysis g) (code : Nat) (F : Kind → Bool) :
    a.Reports [.fail code] code F [] :=
  fun q _ faces _ => ⟨q.fail code, fun _ => .of_step rfl, rfl, rfl, faces.fail code⟩

private theorem ne_of_eq_false (h : F code = false) (inF : F k = true) : k ≠ code := by
  intro eq
  rw [eq, h] at inF
  contradiction

theorem reports_expect (h : F code = false) : a.Reports [.expect code] code F [] := by
  intro q kinds faces inF
  have differs := ne_of_eq_false h inF
  exact ⟨q.fail code, fun below => .of_step (Grammar.perform_expect_of_ne (g := g) differs), rfl,
    rfl, faces.fail code⟩

theorem reports_expectWeak {set : Nat} (h : F code = false)
    (defined : set < a.guide.tables.sets.length)
    (stop : (a.guide.kinds.all fun k => !F k || a.guide.tables.sets[set].contains k) = true) :
    a.Reports [.expectWeak code set] code F [] := by
  intro q kinds faces inF
  have stops := List.all_eq_true.mp stop _ (Guide.mem_kinds.mpr faces.lookahead_le)
  rw [inF, Bool.not_true, Bool.false_or] at stops
  refine ⟨q.fail code, fun below => .of_step ?_, rfl, rfl, faces.fail code⟩
  rw [List.singleton_append, Grammar.step_cons,
    Grammar.perform_expectWeak_of_ne (ne_of_eq_false h inF) (faces.tables ▸ defined),
    Parser.skipTo_of_mem]
  · rfl
  · simpa only [faces.tables, Parser.lookahead_fail] using stops

/-- A list goes on behind a missing separator, if an element starts there. -/
theorem reports_separated {element set : Nat} (h : F code = false)
    (helement : element < a.guide.tables.sets.length) (hset : set < a.guide.tables.sets.length)
    (again : (a.guide.kinds.all fun k => !F k ||
      (a.guide.tables.admits element k && !a.guide.tables.admits set k &&
        (Grammar.separatorStop a.guide.tables element set).contains k)) = true) :
    a.Reports [.separated code element set b] code F [b, .separated code element set b] := by
  intro q kinds faces inF
  have goes := List.all_eq_true.mp again _ (Guide.mem_kinds.mpr faces.lookahead_le)
  simp only [inF, Bool.not_true, Bool.false_or, Bool.and_eq_true, Bool.not_eq_true'] at goes
  obtain ⟨⟨admitted, missing⟩, stops⟩ := goes
  refine ⟨q.fail code, fun below => .of_step ?_, rfl, rfl, faces.fail code⟩
  rw [List.singleton_append, Grammar.step_cons,
    Grammar.perform_separated_of_missing (ne_of_eq_false h inF) (faces.tables ▸ helement)
      (faces.tables ▸ hset) (faces.tables ▸ missing),
    Parser.skipTo_of_mem (by simpa only [faces.tables, Parser.lookahead_fail] using stops)]
  simp only [Parser.lookahead_fail, faces.tables, admitted, if_true]
  rfl

theorem Reports.no (h : a.Reports (b :: as) code F bs)
    (defined : test.defined a.guide.tables = true)
    (rejects : (a.guide.kinds.all fun k => !F k || !test.admits a.guide.tables k) = true) :
    a.Reports (.ifElse test c b :: as) code F bs := by
  intro q kinds faces inF
  obtain ⟨r, reaches, queue, distance, faces'⟩ := h q kinds faces inF
  refine ⟨r, fun below => .step ?_, queue, distance, faces'⟩
  have rejected := List.all_eq_true.mp rejects _ (Guide.mem_kinds.mpr faces.lookahead_le)
  rw [inF, Bool.not_true, Bool.false_or, Bool.not_eq_true'] at rejected
  rw [List.cons_append, Grammar.step_cons, Grammar.perform_ifElse (faces.tables ▸ defined),
    faces.tables, rejected]
  exact reaches below

/-- A second report at the same token is suppressed. -/
theorem Reports.followed {code' : Nat} (first : a.Reports as code F [])
    (second : a.Reports bs code' F cs) : a.Reports (as ++ bs) code F cs := by
  intro q kinds faces inF
  obtain ⟨r, reaches, queue, distance, faces'⟩ := first q kinds faces inF
  have same : r.lookahead.kind = q.lookahead.kind := by
    obtain ⟨ks, rfl⟩ := faces.exists_cons
    exact faces'.lookahead_eq
  obtain ⟨r', reaches', queue', distance', faces''⟩ := second r kinds faces' (same ▸ inF)
  refine ⟨r', fun below => ?_, ?_, distance', faces''⟩
  · rw [List.append_assoc]
    exact (reaches _).trans (reaches' below)
  · rw [queue', Parser.queue_fail_of_lt (by rw [distance]; decide), queue]

end reports

/-! ## Blocks and loops -/

theorem Faces.mem_filter {test : Test} (faces : a.Faces p (k :: z))
    (admitted : test.admits a.guide.tables k = true) :
    p.lookahead.kind ∈ a.guide.kinds.filter (test.admits a.guide.tables ·) :=
  List.mem_filter.mpr
    ⟨Guide.mem_kinds.mpr faces.lookahead_le, faces.lookahead_eq.symm ▸ admitted⟩

variable {F : Kind → Bool} [DecidableEq N] (agrees : a.guide.Agrees)

include agrees

theorem reads_checked {look : List Kind} {b : Action N} {e : Ebnf N}
    (checks : a.guide.checks look F b e = true) (first : p.lookahead.kind ∈ look)
    (paced : a.pace.paced b = true) (faces : a.Faces p (w ++ k :: z))
    (hw : w ∈ lang a.guide.rules e) (hk : F k = true) (below : List (Action N)) :
    g.Reaches ⟨p, b :: below, none⟩ ⟨p.advance w.length, below, none⟩ :=
  reads_phrase faces (Guide.predicts_of_checks agrees checks first faces.lookahead_le) hw hk paced
    below

theorem reads_block {look : List Kind} (lead : a.guide.leads look F as es = true)
    (paced : as.all a.pace.paced = true) (faces : a.Faces p (w ++ k :: z))
    (hw : w ∈ lang a.guide.rules (chain es)) (hk : F k = true) (hcs : cs ≠ [])
    (first : p.lookahead.kind ∈ look) (below : List (Action N)) :
    g.Reaches ⟨p, block (as ++ cs) :: below, none⟩
      ⟨p.advance w.length, block cs :: below, none⟩ := by
  induction as generalizing p es w look with
  | nil =>
      cases es with
      | nil =>
          cases hw
          exact .refl _
      | cons e es => contradiction
  | cons b bs ih =>
      cases es with
      | nil => contradiction
      | cons e es =>
          rw [Guide.leads, Bool.and_eq_true] at lead
          rw [List.all_cons, Bool.and_eq_true] at paced
          rw [Ebnf.lang_chain_cons] at hw
          obtain ⟨u, hu, v, hv, rfl⟩ := Language.mem_mul.mp hw
          rw [List.append_assoc] at faces
          have faces' := faces.advance (List.append_ne_nil_of_right_ne_nil v (List.cons_ne_nil k z))
          have low := faces'.lookahead_le
          obtain ⟨ks, eq⟩ := faces'.exists_cons
          have text : v ++ k :: z ∈ Ebnf.texts a.guide.rules {k :: z} es := by
            rw [Ebnf.texts_eq_chain]
            exact Language.mem_mul.mpr ⟨v, hv, _, rfl, rfl⟩
          have next : a.guide.opens F es (p.advance u.length).lookahead.kind = true := by
            refine Guide.opens_of_mem_texts agrees (fun j _ v hv => ?_) low (eq ▸ text)
            cases hv
            exact hk
          rw [List.cons_append, Action.block_cons (List.append_ne_nil_of_right_ne_nil bs hcs)]
          have second := ih lead.2 paced.2 faces' hv (Guide.mem_kinds.mpr low)
          rw [List.length_append, Parser.advance_add]
          rw [eq] at faces
          exact (Grammar.Reaches.trans
            (reads_checked agrees lead.1 first paced.1 faces hu next _) second).step

omit [DecidableEq N] in
theorem exists_cons_of_mem {e : Ebnf N} (full : a.guide.empties e = false)
    (faces : a.Faces p (w ++ z)) (hw : w ∈ lang a.guide.rules e) :
    ∃ k ks, w = k :: ks ∧ a.guide.begins k e = true := by
  cases w with
  | nil =>
      rw [Guide.empties_of_derives agrees hw rfl] at full
      contradiction
  | cons k ks =>
      have low : k ≤ a.guide.tables.maxKind := faces.visible k (List.mem_cons_self ..)
      exact ⟨k, ks, rfl, Guide.begins_of_derives agrees low hw rfl⟩

/-- The rounds of a loop are read as long as another one follows. -/
theorem reads_rounds {test : Test} {b : Action N} {e : Ebnf N}
    (defined : test.defined a.guide.tables = true)
    (checks : a.guide.checks (a.guide.kinds.filter (test.admits a.guide.tables ·))
      (test.admits a.guide.tables) b e = true)
    (enter : (a.guide.kinds.all fun k =>
      !a.guide.begins k e || test.admits a.guide.tables k) = true)
    (paced : a.pace.paced b = true) (faces : a.Faces p (w ++ k :: z))
    (hw : w ∈ lang a.guide.rules (.many e)) (hk : test.admits a.guide.tables k = true)
    (below : List (Action N)) :
    g.Reaches ⟨p, .whileDo test b :: below, none⟩
      ⟨p.advance w.length, .whileDo test b :: below, none⟩ := by
  have enters {j : Kind} {v : List Kind} (hj : j ≤ a.guide.tables.maxKind)
      (h : j :: v ∈ lang a.guide.rules e) : test.admits a.guide.tables j = true := by
    have := List.all_eq_true.mp enter j (Guide.mem_kinds.mpr hj)
    simpa [Guide.begins_of_derives agrees hj h rfl] using this
  induction hw using Ebnf.many_induction generalizing p with
  | nil => exact .refl _
  | cons u v first others ih =>
      rw [List.append_assoc] at faces
      cases u with
      | nil => exact ih faces
      | cons j u =>
          have faces' := faces.advance (List.append_ne_nil_of_right_ne_nil v (List.cons_ne_nil k z))
          have hj : j ≤ a.guide.tables.maxKind := faces.lookahead_eq ▸ faces.lookahead_le
          obtain ⟨ks, eq⟩ := faces'.exists_cons
          have next : test.admits a.guide.tables (p.advance (j :: u).length).lookahead.kind =
              true := by
            cases v with
            | nil =>
                cases eq
                exact hk
            | cons i v =>
                cases eq
                obtain ⟨v, hv⟩ := Ebnf.cons_mem_of_cons_mem_many others
                exact enters faces'.lookahead_le hv
          rw [List.length_append, Parser.advance_add]
          have admitted : test.admits a.guide.tables p.lookahead.kind = true :=
            faces.lookahead_eq.symm ▸ enters hj first
          have look := faces.mem_filter (enters hj first)
          rw [eq] at faces
          have round := reads_checked agrees checks look paced faces first next
            (.whileDo test b :: below)
          exact (faces.reaches_round defined admitted round).trans (ih faces')

theorem reads_separated {b : Action N} {e : Ebnf N} {element set : Nat} {j : Kind}
    (checks : a.guide.checks a.guide.kinds (· == j) b e = true) (paced : a.pace.paced b = true)
    (faces : a.Faces p (w ++ k :: z))
    (hw : w ∈ lang a.guide.rules (.many (.seq e (.terminal j)))) (below : List (Action N)) :
    g.Reaches ⟨p, b :: .separated j element set b :: below, none⟩
      ⟨p.advance w.length, b :: .separated j element set b :: below, none⟩ := by
  induction hw using Ebnf.many_induction generalizing p with
  | nil => exact .refl _
  | cons u v first _ ih =>
      cases first with
      | @seq _ _ u _ first second =>
          cases second
          rw [List.append_assoc, List.append_assoc, List.singleton_append] at faces
          have separator := faces.advance (List.cons_ne_nil _ _)
          have faces' := separator.get (List.append_ne_nil_of_right_ne_nil v (List.cons_ne_nil k z))
          have read := reads_checked agrees checks (Guide.mem_kinds.mpr faces.lookahead_le) paced
            faces first (beq_self_eq_true j) (.separated j element set b :: below)
          have consumed : g.step ⟨p.advance u.length, .separated j element set b :: below, none⟩ =
              ⟨(p.advance u.length).get, b :: .separated j element set b :: below, none⟩ :=
            Grammar.perform_separated_of_eq (g := g) separator.lookahead_eq
          rw [List.length_append, List.length_append, Parser.advance_add, Parser.advance_add]
          exact (read.trans (.of_step consumed)).trans (ih faces')

/-! ## Where a terminal may be missing -/

section missing

variable {v : List Kind}

omit [DecidableEq N] in
theorem Remains.opens (remains : a.Remains {[Kind.eof]} n v cs gs) (faces : a.Faces p (y ++ v))
    (hy : y ∈ lang a.guide.rules (chain fs)) :
    a.guide.opens (a.guide.follow n).contains fs p.lookahead.kind = true := by
  have text : y ++ v ∈ Ebnf.texts a.guide.rules (a.closedTexts gs) fs := by
    rw [Ebnf.texts_eq_chain]
    exact Language.mem_mul.mpr ⟨y, hy, v, remains.text, rfl⟩
  obtain ⟨ks, eq⟩ := faces.exists_cons
  refine Guide.opens_of_mem_texts agrees (fun k hk v hv => ?_) faces.lookahead_le (eq ▸ text)
  simpa using remains.next k hk v hv

/-- Behind a report, what is left of a production is read as if nothing had been missing. -/
theorem Reports.resumes (reports : a.Reports as code F bs)
    (remains : a.Remains {[Kind.eof]} n v cs gs) {ds : List (Action N)}
    (lead : a.guide.leads a.guide.kinds (a.guide.follow n).contains (bs ++ ds) fs = true)
    (paced : (bs ++ ds).all a.pace.paced = true) (faces : a.Faces p (y ++ v))
    (hy : y ∈ lang a.guide.rules (chain fs)) (inF : F p.lookahead.kind = true) :
    a.Resumes p (as ++ (ds ++ cs)) [] (y ++ v) code := by
  obtain ⟨r, reaches, queue, -, faces⟩ := reports p _ faces inF
  have ready (k : Kind) (hk : k ≤ a.guide.tables.maxKind) :
      Ready a.guide {[Kind.eof]} k (bs ++ ds ++ cs) (fs ++ gs) := by
    refine Guide.ready_of_leads agrees lead (fun j hj v hv => ?_) remains.ready
      (Guide.mem_kinds.mpr hk) hk
    simpa using remains.next j hj v hv
  have text : y ++ v ∈ a.closedTexts (fs ++ gs) := by
    rw [closedTexts, Ebnf.texts_append, Ebnf.texts_eq_chain]
    exact Language.mem_mul.mpr ⟨y, hy, v, remains.text, rfl⟩
  have going : ∀ b ∈ bs ++ ds ++ cs, a.pace.paced b = true := by
    intro b hb
    rcases List.mem_append.mp hb with hb | hb
    · exact List.all_eq_true.mp paced b hb
    · exact remains.paced b hb
  refine .intro (fun below => ?_) queue faces ready going text
  have reaches := reaches (ds ++ cs ++ below)
  simpa using reaches

end missing

/-- A production in which an expected terminal may be missing between two of its parts. -/
structure Heading (a : Analysis g) (n : N) (code : Nat) where
  before : List (Ebnf N)
  behind : List (Ebnf N)
  actions : List (Action N)
  others : List (Action N)
  body : g.body n = block (actions ++ .expect code :: others)
  more : others ≠ []
  lead : a.guide.leads a.guide.kinds
    (a.guide.opens (a.guide.follow n).contains [chain behind]) actions before = true
  tail : a.guide.leads a.guide.kinds (a.guide.follow n).contains [block others]
    [chain behind] = true
  paced : actions.all a.pace.paced = true
  tailPaced : a.pace.paced (block others) = true
  differs : a.guide.opens (a.guide.follow n).contains [chain behind] code = false

theorem Heading.resumes (h : a.Heading n code) {v : List Kind} (faces : a.Faces p (x ++ (y ++ v)))
    (hx : x ∈ lang a.guide.rules (chain h.before)) (hy : y ∈ lang a.guide.rules (chain h.behind))
    (remains : a.Remains {[Kind.eof]} n v cs gs) :
    a.Resumes p (.call n :: cs) x (y ++ v) code := by
  have faces' : a.Faces (p.advance x.length) (y ++ v) := by
    refine faces.advance (List.append_ne_nil_of_right_ne_nil y ?_)
    exact ne_nil_of_mem_texts remains.text (List.cons_ne_nil _ _)
  have hy' : y ∈ lang a.guide.rules (chain [chain h.behind]) := hy
  have opens := remains.opens agrees faces' hy'
  have missing : a.Resumes (p.advance x.length) ([.expect code] ++ ([block h.others] ++ cs)) []
      (y ++ v) code :=
    (reports_expect h.differs).resumes agrees remains h.tail (by simpa using h.tailPaced) faces'
      hy' opens
  have stopped : a.Resumes (p.advance x.length) (block (.expect code :: h.others) :: cs) []
      (y ++ v) code := by
    rw [Action.block_cons h.more]
    exact missing.step fun below => rfl
  rw [← List.append_nil x]
  refine .after (fun below => .step ?_) stopped
  obtain ⟨ks, eq⟩ := faces'.exists_cons
  rw [eq] at faces
  have read := reads_block agrees h.lead h.paced faces hx opens
    (List.cons_ne_nil (.expect code) h.others) (Guide.mem_kinds.mpr faces.lookahead_le)
    (cs ++ below)
  rwa [← h.body] at read

/-- A loop whose rounds are some actions and a last one, and what stands behind it. -/
structure Loop (N : Type) where
  test : Test
  phrases : List (Ebnf N)
  actions : List (Action N)
  last : Action N
  behind : List (Ebnf N)
  others : List (Action N)

namespace Loop

variable (l : Loop N) (code : Nat)

def round : Action N := block (l.actions ++ [l.last])

def pending : List (Action N) := .whileDo l.test l.round :: l.others

def phrase : Ebnf N := chain (l.phrases ++ [.terminal code])

def upcoming : List (Ebnf N) := .many (l.phrase code) :: l.behind

end Loop

/-- A loop in a production.  The terminal that ends a round may be missing. -/
structure Rounds (a : Analysis g) (n : N) (code : Nat) extends Loop N where
  defined : test.defined a.guide.tables = true
  enter : (a.guide.kinds.all fun k =>
    !a.guide.begins k (toLoop.phrase code) || test.admits a.guide.tables k) = true
  full : a.guide.empties (chain phrases) = false
  checks : a.guide.checks (a.guide.kinds.filter (test.admits a.guide.tables ·))
    (test.admits a.guide.tables) toLoop.round (toLoop.phrase code) = true
  lead : a.guide.leads (a.guide.kinds.filter (test.admits a.guide.tables ·))
    (a.guide.opens (a.guide.follow n).contains (toLoop.upcoming code)) actions phrases = true
  tail : a.guide.leads a.guide.kinds (a.guide.follow n).contains toLoop.pending
    (toLoop.upcoming code) = true
  paced : actions.all a.pace.paced = true
  roundPaced : a.pace.paced toLoop.round = true
  tailPaced : toLoop.pending.all a.pace.paced = true
  reports : a.Reports [last] code
    (a.guide.opens (a.guide.follow n).contains (toLoop.upcoming code)) []

theorem Rounds.resumes (l : a.Rounds n code) {v : List Kind}
    (faces : a.Faces p (x ++ (w ++ (y ++ v))))
    (hx : x ∈ lang a.guide.rules (.many (l.phrase code)))
    (hw : w ∈ lang a.guide.rules (chain l.phrases))
    (hy : y ∈ lang a.guide.rules (chain (l.upcoming code)))
    (remains : a.Remains {[Kind.eof]} n v cs gs) :
    a.Resumes p (l.pending ++ cs) (x ++ w) (y ++ v) code := by
  have nonempty : y ++ v ≠ [] :=
    List.append_ne_nil_of_right_ne_nil y (ne_nil_of_mem_texts remains.text (List.cons_ne_nil _ _))
  have next := faces.advance (List.append_ne_nil_of_right_ne_nil w nonempty)
  have behind := next.advance nonempty
  have opens := remains.opens agrees behind hy
  -- A round is not empty, so the loop is entered once more.
  obtain ⟨j, ws, rfl⟩ : ∃ j ws, w = j :: ws := by
    cases w with
    | nil =>
        have full := l.full
        rw [Guide.empties_of_derives agrees hw rfl] at full
        contradiction
    | cons j ws => exact ⟨j, ws, rfl⟩
  have admitted : l.test.admits a.guide.tables j = true := by
    have low : j ≤ a.guide.tables.maxKind := next.lookahead_eq ▸ next.lookahead_le
    have first : j :: (ws ++ [code]) ∈ lang a.guide.rules (l.phrase code) :=
      Ebnf.mem_chain_append hw (.terminal code)
    have := List.all_eq_true.mp l.enter j (Guide.mem_kinds.mpr low)
    simpa [Guide.begins_of_derives agrees low first rfl] using this
  have missing : a.Resumes ((p.advance x.length).advance (j :: ws).length)
      ([l.last] ++ (l.pending ++ cs)) [] (y ++ v) code :=
    l.reports.resumes agrees remains l.tail l.tailPaced behind hy opens
  have entered : a.Resumes (p.advance x.length) (l.pending ++ cs) (j :: ws) (y ++ v) code := by
    rw [← List.append_nil (j :: ws)]
    refine .after (fun below => ?_) missing
    have look := next.mem_filter admitted
    have enters : l.test.admits a.guide.tables (p.advance x.length).lookahead.kind = true :=
      next.lookahead_eq.symm ▸ admitted
    obtain ⟨ks, eq⟩ := behind.exists_cons
    rw [eq] at next
    apply next.reaches_round l.defined enters
    exact reads_block agrees l.lead l.paced next hw opens (List.cons_ne_nil l.last []) look _
  refine .after (fun below => ?_) entered
  exact reads_rounds agrees l.defined l.checks l.enter l.roundPaced faces hx admitted _

/-! ## The whole run -/

omit [DecidableEq N] agrees in
/-- A text is read to its end with one report, if the production in which that occurs resumes. -/
theorem Begun.exec_of_resumes {u v : List Kind} (begun : a.Begun p (x ++ u ++ (v ++ y)))
    (context : Ebnf.Context a.guide.rules n (.nonterminal g.start) x y)
    (starts : k :: w ∈ lang a.guide.rules (.nonterminal n)) (hu : u = k :: z)
    (resumes : ∀ cs gs, a.Faces (p.advance x.length) (u ++ (v ++ (y ++ [Kind.eof]))) →
      a.Remains {[Kind.eof]} n (y ++ [Kind.eof]) cs gs →
      a.Resumes (p.advance x.length) (.call n :: cs) u (v ++ (y ++ [Kind.eof])) code) :
    ∃ q, g.exec g.whole p = (q, .ok ()) ∧
      q.queue = ((p.advance (x ++ u).length).fail code).queue := by
  have upcoming : p.upcoming = x ++ (u ++ (v ++ (y ++ [Kind.eof]))) := by simp [begun.upcoming]
  have faces : a.Faces p (x ++ (u ++ (v ++ (y ++ [Kind.eof])))) :=
    ⟨begun.tables, upcoming, upcoming ▸ begun.visible⟩
  have ready := (a.onTrack_zero p []).ready
  have hole : Ebnf.Hole a.guide.rules {[Kind.eof]} n [.nonterminal g.start] x (y ++ [Kind.eof]) :=
    .first context rfl
  have inner := faces.advance (by simp)
  rw [hu, List.cons_append] at faces
  obtain ⟨cs, gs, remains, reaches⟩ := descends faces (faces.going (by simp [Pace.paced])) ready
    hole starts
  obtain ⟨q, finished, queue⟩ := ((resumes cs gs inner remains).after reaches).finishes
  have going : a.pace.Going ⟨p, [g.whole], none⟩ := faces.going (by simpa using a.paced)
  refine ⟨q, Pace.exec_of_reaches a.sound going a.bounded (.step ?_), queue⟩
  exact finished

end Analysis

end OberonFront
