import OberonFront.Proofs.Machine.Pace
import OberonFront.Proofs.Machine.Prediction

/-!
# Where a parse reports first

A parse consumes tokens as long as some program starts with them.  It reports
nothing if they make up a program, and else it reports first where no program
goes on.  This holds for every grammar whose productions are right for its rules.
-/

namespace OberonFront

open Ebnf (lang texts Unfolds)

/-- Whether some program, with the end of the text behind it, starts with these kinds. -/
def Viable (programs : Language Kind) (kinds : List Kind) : Prop :=
  ∃ program ∈ programs, kinds <+: program ++ [Kind.eof]

/-- Some program starts with the first `i` tokens, but none with one token more.  If the number of
the report is a kind, some program goes on with that. -/
structure Stuck (programs : Language Kind) (tables : Tables) (kinds : List Kind) (i code : Nat) :
    Prop where
  within : i ≤ kinds.length
  viable : Viable programs (kinds.take i)
  stops : ¬ Viable programs ((kinds ++ [Kind.eof]).take (i + 1))
  known : code < tables.messages.length
  expected : code ≤ tables.maxKind → Viable programs (kinds.take i ++ [code])

variable {N : Type}

structure Analysis (g : Grammar N) where
  guide : Guide N
  pace : Pace N
  same : pace.tables = guide.tables
  right : guide.Right g
  sound : pace.Sound g
  closes : Kind.eof ∈ guide.follow g.start
  paced : pace.paced g.whole = true
  bounded : pace.worst g.whole ≤ Grammar.stepsPerToken
  named : Kind.eof < guide.tables.messages.length
  inhabited : ∀ e, ∃ w, w ∈ lang guide.rules e

namespace Analysis

variable {g : Grammar N} (a : Analysis g)

def programs : Language Kind := lang a.guide.rules (.nonterminal g.start)

def closed : Language Kind := a.programs * {[Kind.eof]}

abbrev closedTexts (es : List (Ebnf N)) : Language Kind := texts a.guide.rules {[Kind.eof]} es

variable {a} {u w : List Kind}

theorem mem_closed : w ∈ a.closed ↔ ∃ program ∈ a.programs, program ++ [Kind.eof] = w := by
  rw [closed, Language.mem_mul]
  constructor
  · rintro ⟨program, h, v, rfl, eq⟩
    exact ⟨program, h, eq⟩
  · rintro ⟨program, h, eq⟩
    exact ⟨program, h, _, rfl, eq⟩

theorem append_eof_mem_closed : w ++ [Kind.eof] ∈ a.closed ↔ w ∈ a.programs := by
  rw [mem_closed]
  constructor
  · rintro ⟨program, h, eq⟩
    rwa [← List.append_cancel_right eq]
  · exact fun h => ⟨w, h, rfl⟩

theorem viable_iff : Viable a.programs u ↔ ∃ v, u ++ v ∈ a.closed := by
  constructor
  · rintro ⟨program, h, v, eq⟩
    exact ⟨v, mem_closed.mpr ⟨program, h, eq.symm⟩⟩
  · rintro ⟨v, hv⟩
    obtain ⟨program, h, eq⟩ := mem_closed.mp hv
    exact ⟨program, h, v, eq.symm⟩

theorem exists_mem_closedTexts (a : Analysis g) (es : List (Ebnf N)) : ∃ v, v ∈ a.closedTexts es :=
  Ebnf.exists_mem_texts a.inhabited ⟨[Kind.eof], Set.mem_singleton _⟩ es

variable (a)

structure Begun (p : Parser) (kinds : List Kind) : Prop where
  tables : p.tables = a.guide.tables
  far : Parser.minDistance ≤ p.distance
  upcoming : p.upcoming = kinds ++ [Kind.eof]
  inner : Kind.eof ∉ kinds
  visible : ∀ k ∈ p.upcoming, k ≤ a.guide.tables.maxKind

/-- A parse that has consumed some tokens: the pending actions are right for some phrases, whose
texts are what makes the consumed tokens a program. -/
structure OnTrack (p : Parser) (kinds : List Kind) (i : Nat) (as : List (Action N))
    (es : List (Ebnf N)) : Prop where
  within : i ≤ kinds.length
  ready : Ready a.guide {[Kind.eof]} (p.advance i).lookahead.kind as es
  sound : ∀ v ∈ a.closedTexts es, kinds.take i ++ v ∈ a.closed
  complete : ∀ v, kinds.take i ++ (p.advance i).lookahead.kind :: v ∈ a.closed →
    (p.advance i).lookahead.kind :: v ∈ a.closedTexts es

/-- How far a parse is: on its way, or done without a report, or behind its first report. -/
inductive Stage (p : Parser) (kinds : List Kind) : Machine N → Prop where
  | track {i : Nat} {as : List (Action N)} {es : List (Ebnf N)}
      (h : a.OnTrack p kinds i as es) :
      Stage p kinds ⟨p.advance i, as ++ [.expect Kind.eof], none⟩
  | accept {q : Parser} (queue : q.queue = p.queue) (h : kinds ∈ a.programs) :
      Stage p kinds ⟨q, [], none⟩
  | report {m : Machine N} {i code : Nat} (h : Stuck a.programs a.guide.tables kinds i code)
      (queue : ((p.advance i).fail code).queue.retained <+: m.parser.queue.retained) :
      Stage p kinds m

variable {a} {p : Parser} {kinds : List Kind} {i : Nat} {as : List (Action N)}
  {es : List (Ebnf N)}

theorem Begun.exists_split (begun : a.Begun p kinds) (h : i ≤ kinds.length) :
    ∃ ts, kinds ++ [Kind.eof] = kinds.take i ++ (p.advance i).lookahead.kind :: ts := by
  obtain ⟨ts, eq⟩ := (p.advance i).upcoming_cons
  refine ⟨ts, ?_⟩
  have lt : i < p.upcoming.length := by
    rw [begun.upcoming, List.length_append, List.length_singleton]
    omega
  rw [Parser.upcoming_advance lt, begun.upcoming, List.drop_append_of_le_length h] at eq
  rw [← eq, ← List.append_assoc, List.take_append_drop]

theorem Begun.visible_advance (begun : a.Begun p kinds) (h : i ≤ kinds.length) :
    (p.advance i).lookahead.kind ≤ a.guide.tables.maxKind := by
  obtain ⟨ts, eq⟩ := begun.exists_split h
  apply begun.visible
  rw [begun.upcoming, eq]
  simp

theorem Begun.take_succ (begun : a.Begun p kinds) (h : i ≤ kinds.length) :
    (kinds ++ [Kind.eof]).take (i + 1) = kinds.take i ++ [(p.advance i).lookahead.kind] := by
  obtain ⟨ts, eq⟩ := begun.exists_split h
  have len : (kinds.take i).length = i := by rw [List.length_take, Nat.min_eq_left h]
  rw [eq, List.take_append, len, Nat.add_sub_cancel_left, List.take_of_length_le (by omega)]
  rfl

theorem Begun.lookahead_eq_eof_iff (begun : a.Begun p kinds) (h : i ≤ kinds.length) :
    (p.advance i).lookahead.kind = Kind.eof ↔ i = kinds.length := by
  obtain ⟨ts, eq⟩ := begun.exists_split h
  constructor
  · intro eof
    rw [eof] at eq
    by_contra hne
    apply begun.inner
    have : (kinds ++ [Kind.eof])[i]? = _ := congrArg (·[i]?) eq
    rw [List.getElem?_append_left (by omega), List.getElem?_append_right (by simp)] at this
    rw [List.length_take, Nat.min_eq_left h, Nat.sub_self, List.getElem?_cons_zero] at this
    exact List.mem_of_getElem? this
  · rintro rfl
    rw [List.take_length] at eq
    exact (List.cons.inj (List.append_cancel_left eq)).1.symm

theorem Begun.going (begun : a.Begun p kinds) : a.pace.Going ⟨p, [g.whole], none⟩ :=
  ⟨begun.tables.trans a.same.symm, a.same ▸ begun.visible_advance (Nat.zero_le _),
    by simpa using a.paced, rfl⟩

theorem OnTrack.stuck (begun : a.Begun p kinds) (track : a.OnTrack p kinds i as es) {code : Nat}
    (known : code < a.guide.tables.messages.length)
    (stuck : ∀ v, (p.advance i).lookahead.kind :: v ∉ a.closedTexts es)
    (expected : code ≤ a.guide.tables.maxKind → ∃ v, code :: v ∈ a.closedTexts es) :
    Stuck a.programs a.guide.tables kinds i code where
  within := track.within
  known := known
  viable := by
    obtain ⟨v, hv⟩ := a.exists_mem_closedTexts es
    exact viable_iff.mpr ⟨v, track.sound v hv⟩
  stops := by
    rw [begun.take_succ track.within, viable_iff]
    rintro ⟨v, hv⟩
    rw [List.append_assoc, List.singleton_append] at hv
    exact stuck v (track.complete v hv)
  expected low := by
    obtain ⟨v, hv⟩ := expected low
    refine viable_iff.mpr ⟨v, ?_⟩
    rw [List.append_assoc, List.singleton_append]
    exact track.sound _ hv

theorem OnTrack.advance (begun : a.Begun p kinds) (track : a.OnTrack p kinds i as es)
    {as' : List (Action N)} {es' : List (Ebnf N)}
    (real : (p.advance i).lookahead.kind ≠ Kind.eof)
    (ready : ∀ k ≤ a.guide.tables.maxKind, Ready a.guide {[Kind.eof]} k as' es')
    (unfolds : Unfolds a.guide.rules {[Kind.eof]} (p.advance i).lookahead.kind es
      (.terminal (p.advance i).lookahead.kind :: es')) :
    a.OnTrack p kinds (i + 1) as' es' := by
  have lt : i < kinds.length :=
    Nat.lt_of_le_of_ne track.within (mt (begun.lookahead_eq_eof_iff track.within).mpr real)
  have take : kinds.take (i + 1) = kinds.take i ++ [(p.advance i).lookahead.kind] := by
    rw [← begun.take_succ track.within, List.take_append_of_le_length lt]
  refine ⟨lt, ready _ (begun.visible_advance lt), fun v hv => ?_, fun v hv => ?_⟩
  · rw [take, List.append_assoc, List.singleton_append]
    exact track.sound _ (unfolds.cons_mem_iff.mp hv)
  · rw [take, List.append_assoc, List.singleton_append] at hv
    exact unfolds.cons_mem_iff.mpr (track.complete _ hv)

theorem OnTrack.step (begun : a.Begun p kinds) (track : a.OnTrack p kinds i as es) :
    a.Stage p kinds (g.step ⟨p.advance i, as ++ [.expect Kind.eof], none⟩) := by
  have visible := begun.visible_advance track.within
  have tables : (p.advance i).tables = a.guide.tables := by
    rw [Parser.tables_advance, begun.tables]
  cases ready : track.ready with
  | nil =>
      by_cases eof : (p.advance i).lookahead.kind = Kind.eof
      · rw [List.nil_append, Grammar.step_cons, Grammar.perform_expect_of_eq eof]
        refine .accept (by simp) ?_
        have all : i = kinds.length := (begun.lookahead_eq_eof_iff track.within).mp eof
        have := track.sound [Kind.eof] rfl
        rwa [all, List.take_length, append_eof_mem_closed] at this
      · rw [List.nil_append, Grammar.step_cons, Grammar.perform_expect_of_ne eof]
        refine .report (track.stuck begun a.named ?_ fun _ => ⟨[], rfl⟩) (List.prefix_refl _)
        exact fun v hv => eof (List.cons.inj hv).1
  | @cons F t b e bs fs top next rest =>
      rw [List.cons_append, Grammar.step_cons]
      cases top.outcome tables rfl visible next rest with
      | @call n _ _ first unfolds between rest =>
          cases first
          have body := a.right.body n _ visible
          refine .track ⟨track.within, .cons body between rest, fun v hv => ?_, fun v hv => ?_⟩
          · rw [closedTexts, ← Ebnf.texts_nonterminal] at hv
            exact track.sound v (unfolds.mem_of_mem hv)
          · rw [closedTexts, ← Ebnf.texts_nonterminal]
            exact unfolds.cons_mem_of_cons_mem (track.complete v hv)
      | quiet step ready unfolds =>
          rw [Grammar.perform_append _ step]
          exact .track ⟨track.within, ready, fun v hv => track.sound v (unfolds.mem_of_mem hv),
            fun v hv => unfolds.cons_mem_of_cons_mem (track.complete v hv)⟩
      | consume real step ready unfolds =>
          rw [Grammar.perform_append _ step, ← Parser.advance_succ']
          exact .track (track.advance begun real ready unfolds)
      | report code step queue known stuck expected =>
          rw [Grammar.perform_append _ step]
          refine .report (track.stuck begun known stuck fun low => ?_) ?_
          · obtain ⟨es', starts⟩ := expected low
            obtain ⟨v, hv⟩ := a.exists_mem_closedTexts es'
            exact ⟨v, starts v hv⟩
          · rw [queue]

/-! ## The whole run -/

/-- Before the first step, all that is to be consumed is a program and the end of the text. -/
theorem onTrack_zero (a : Analysis g) (p : Parser) (kinds : List Kind) :
    a.OnTrack p kinds 0 [.call g.start] [.nonterminal g.start] := by
  refine ⟨Nat.zero_le _, ?_, fun v => id, fun v => id⟩
  refine .cons (F := {k | k = Kind.eof}) (.call ?_) ?_ fun _ _ => .nil
  · rintro k - rfl
    exact a.closes
  · rintro k - v hv
    exact (List.cons.inj hv).1

theorem Stage.iterate (begun : a.Begun p kinds) {m : Machine N} (stage : a.Stage p kinds m)
    (n : Nat) : a.Stage p kinds (g.step^[n] m) := by
  induction n generalizing m with
  | zero => exact stage
  | succ n ih =>
      apply ih
      cases stage with
      | track h => exact h.step begun
      | accept queue h => exact .accept queue h
      | report h queue => exact .report h (queue.trans (g.retained_iterate 1 m))

/-- A parse ends without a fault.  Either the tokens make up a program and nothing is reported, or
the first report stands where they do not go on to be one. -/
theorem Begun.exec_whole (begun : a.Begun p kinds) :
    ∃ q, g.exec g.whole p = (q, .ok ()) ∧
      (kinds ∈ a.programs ∧ q.queue = p.queue ∨
        ∃ i code, Stuck a.programs a.guide.tables kinds i code ∧
          ((p.advance i).fail code).queue.retained <+: q.queue.retained) := by
  obtain ⟨q, exec, n, reached⟩ := Pace.exec_eq a.sound begun.going a.bounded
  refine ⟨q, exec, ?_⟩
  cases n with
  | zero => cases reached
  | succ n =>
      have stage := (Stage.track (a.onTrack_zero p kinds)).iterate begun n
      change a.Stage p kinds (g.step^[n + 1] ⟨p, [g.whole], none⟩) at stage
      rw [reached] at stage
      generalize hm : (⟨q, [], none⟩ : Machine N) = m at stage
      cases stage with
      | track => simp at hm
      | accept queue h =>
          cases hm
          exact .inl ⟨h, queue⟩
      | report h queue =>
          subst hm
          exact .inr ⟨_, _, h, queue⟩

end Analysis

end OberonFront
