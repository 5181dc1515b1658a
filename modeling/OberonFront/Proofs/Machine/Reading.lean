import OberonFront.Proofs.Ebnf.Context
import OberonFront.Proofs.Machine.Verdict

/-!
# Reading a part of a text

A machine reads a text of the phrases that its pending actions are right for
without a report, whatever is pending below.  On the way it calls the production
of each nonterminal that occurs in the text, and up to there nothing depends on
how the text goes on behind its next token.
-/

namespace OberonFront

open Ebnf (lang texts Fits Narrows Unfolds Context Hole)

variable {N : Type}

/-! ## Occurrences and the lookahead -/

section occurrences

variable {rules : N → Ebnf N} {behind : Language Kind} {F : Set Kind} {n : N} {k : Kind}
  {e e' : Ebnf N} {es fs : List (Ebnf N)} {u v w t : List Kind}

private theorem fill_eq_cons (hk : u ++ w = k :: t) (v : List Kind) :
    u ++ (w ++ v) = k :: (t ++ v) := by
  rw [← List.append_assoc, hk, List.cons_append]

theorem Ebnf.Narrows.context (narrows : Narrows rules F k e e') (h : Context rules n e u v)
    (hw : w ∈ lang rules (.nonterminal n)) (hk : u ++ w = k :: t) : Context rules n e' u v := by
  have starts {a : Ebnf N} {v : List Kind} (h : Context rules n a u v) :
      k :: (t ++ v) ∈ lang rules a := fill_eq_cons hk v ▸ h.fill hw
  cases narrows with
  | left none =>
      cases h with
      | altLeft h => exact h
      | altRight h => exact absurd ⟨_, starts h, rfl⟩ none
  | right none =>
      cases h with
      | altLeft h => exact absurd ⟨_, starts h, rfl⟩ none
      | altRight h => exact h
  | some =>
      cases h with
      | opt h => exact h
  | none none =>
      cases h with
      | opt h => exact absurd (starts h) (none _)
  | seqSome none =>
      cases h with
      | seqFirst first second =>
          cases first with
          | opt first => exact .seqFirst first second
      | seqSecond first second =>
          cases first with
          | optNone => exact absurd ⟨_, starts second, rfl⟩ none
          | optSome first => exact .seqSecond first second
  | seqNone none =>
      cases h with
      | seqFirst first second =>
          cases first with
          | opt first => exact absurd (starts first) (none _)
      | @seqSecond _ _ _ _ x first second =>
          cases first with
          | optNone => exact second
          | optSome first =>
              cases x with
              | nil => exact second
              | cons j x =>
                  cases hk
                  exact absurd first (none _)

theorem Ebnf.Unfolds.hole (unfolds : Unfolds rules behind k es fs)
    (h : Hole rules behind n es u v) (hw : w ∈ lang rules (.nonterminal n))
    (hk : u ++ w = k :: t) : Hole rules behind n fs u v := by
  induction unfolds with
  | refl => exact h
  | empty _ ih =>
      apply ih
      cases h with
      | first context => cases context
      | later first others =>
          cases first
          exact others
  | seq _ ih =>
      apply ih
      cases h with
      | first context others =>
          cases context with
          | seqFirst first second =>
              rw [List.append_assoc]
              exact .first first (Ebnf.mem_texts_cons.mpr ⟨_, second, _, others, rfl⟩)
          | seqSecond first second => exact .later first (.first second others)
      | later first others =>
          cases first with
          | seq first second =>
              rw [List.append_assoc]
              exact .later first (.later second others)
  | round none _ ih =>
      apply ih
      cases h with
      | first context others =>
          cases context with
          | manyFirst first rounds =>
              rw [List.append_assoc]
              exact .first first (Ebnf.mem_texts_cons.mpr ⟨_, rounds, _, others, rfl⟩)
          | manyOther first rounds => exact .later first (.first rounds others)
      | later first others =>
          cases first with
          | manyNil => exact absurd (fill_eq_cons hk _ ▸ others.fill hw) (none _)
          | manyCons first rounds =>
              rw [List.append_assoc]
              exact .later first (.later rounds others)
  | leave none _ ih =>
      apply ih
      cases h with
      | first context =>
          obtain ⟨x, hx⟩ := Ebnf.cons_mem_of_cons_mem_many (fill_eq_cons hk _ ▸ context.fill hw)
          exact absurd hx (none x)
      | @later _ _ _ _ x first others =>
          cases x with
          | nil => exact others
          | cons j x =>
              cases hk
              obtain ⟨y, hy⟩ := Ebnf.cons_mem_of_cons_mem_many first
              exact absurd hy (none y)
  | narrow narrows inF _ ih =>
      apply ih
      cases h with
      | first context others => exact .first (narrows.context context hw hk) others
      | @later _ _ u v x first others =>
          have eq : x ++ (u ++ (w ++ v)) = k :: (t ++ v) := by
            rw [← fill_eq_cons hk v, List.append_assoc]
          refine .later (narrows.mem_of_fits first (Ebnf.fits_of_append_eq eq ?_)) others
          intro v' starts
          exact inF v' (starts ▸ others.fill hw)

end occurrences

namespace Analysis

variable {g : Grammar N} (a : Analysis g)

structure Faces (p : Parser) (kinds : List Kind) : Prop where
  tables : p.tables = a.guide.tables
  upcoming : p.upcoming = kinds
  visible : ∀ k ∈ kinds, k ≤ a.guide.tables.maxKind

variable {a} {p : Parser} {u v w x z kinds : List Kind} {k : Kind} {as below : List (Action N)}
  {es : List (Ebnf N)} {behind : Language Kind} {n : N}

namespace Faces

theorem exists_cons (faces : a.Faces p kinds) : ∃ ks, kinds = p.lookahead.kind :: ks :=
  ⟨_, faces.upcoming.symm⟩

theorem lookahead_le (faces : a.Faces p kinds) :
    p.lookahead.kind ≤ a.guide.tables.maxKind := by
  obtain ⟨ks, rfl⟩ := faces.exists_cons
  exact faces.visible _ (List.mem_cons_self ..)

theorem lookahead_eq (faces : a.Faces p (k :: kinds)) : p.lookahead.kind = k :=
  (List.cons.inj faces.upcoming).1

theorem advance (faces : a.Faces p (u ++ v)) (hv : v ≠ []) : a.Faces (p.advance u.length) v where
  tables := by rw [Parser.tables_advance, faces.tables]
  upcoming := Parser.upcoming_advance_append faces.upcoming hv
  visible k hk := faces.visible k (List.mem_append_right u hk)

theorem get (faces : a.Faces p (k :: kinds)) (h : kinds ≠ []) : a.Faces p.get kinds :=
  faces.advance (u := [k]) h

theorem fail (faces : a.Faces p kinds) (code : Nat) : a.Faces (p.fail code) kinds :=
  ⟨faces.tables, faces.upcoming, faces.visible⟩

theorem going (faces : a.Faces p kinds) (paced : ∀ b ∈ as, a.pace.paced b = true) :
    a.pace.Going ⟨p, as, none⟩ :=
  ⟨faces.tables.trans a.same.symm, a.same ▸ faces.lookahead_le, paced, rfl⟩

theorem reaches_yes (faces : a.Faces p kinds) {test : Test} {yes no : Action N} {m : Machine N}
    (defined : test.defined a.guide.tables = true)
    (admitted : test.admits a.guide.tables p.lookahead.kind = true)
    (reaches : g.Reaches ⟨p, yes :: below, none⟩ m) :
    g.Reaches ⟨p, .ifElse test yes no :: below, none⟩ m := by
  apply Grammar.Reaches.step
  rwa [Grammar.step_cons, Grammar.perform_ifElse (faces.tables ▸ defined), faces.tables,
    if_pos admitted]

theorem reaches_round (faces : a.Faces p kinds) {test : Test} {b : Action N} {m : Machine N}
    (defined : test.defined a.guide.tables = true)
    (admitted : test.admits a.guide.tables p.lookahead.kind = true)
    (reaches : g.Reaches ⟨p, b :: .whileDo test b :: below, none⟩ m) :
    g.Reaches ⟨p, .whileDo test b :: below, none⟩ m := by
  apply Grammar.Reaches.step
  rwa [Grammar.step_cons, Grammar.perform_whileDo (faces.tables ▸ defined), faces.tables,
    if_pos admitted]

/-- What starts as the tokens do starts with the lookahead. -/
theorem exists_eq_cons (faces : a.Faces p (u ++ k :: x)) (w : List Kind) :
    ∃ t, u ++ k :: w = p.lookahead.kind :: t := by
  obtain ⟨t, eq⟩ := faces.exists_cons
  cases u with
  | nil =>
      cases eq
      exact ⟨w, rfl⟩
  | cons j u =>
      cases eq
      exact ⟨_, rfl⟩

end Faces

theorem exists_append_of_mem_texts {rules : N → Ebnf N} (h : v ∈ texts rules {z} es) :
    ∃ w, v = w ++ z := by
  induction es generalizing v with
  | nil => exact ⟨[], h⟩
  | cons e es ih =>
      obtain ⟨u, -, v, hv, rfl⟩ := Ebnf.mem_texts_cons.mp h
      obtain ⟨w, rfl⟩ := ih hv
      exact ⟨u ++ w, (List.append_assoc u w z).symm⟩

theorem ne_nil_of_mem_texts {rules : N → Ebnf N} (h : v ∈ texts rules {z} es) (hz : z ≠ []) :
    v ≠ [] := by
  obtain ⟨w, rfl⟩ := exists_append_of_mem_texts h
  exact List.append_ne_nil_of_right_ne_nil w hz

/-- A step of a machine that is not done, with more pending below. -/
private theorem reaches_of_step {q : Parser} {as' : List (Action N)} {m : Machine N}
    {b : Action N} {bs : List (Action N)} (h : g.step ⟨p, b :: bs, none⟩ = ⟨q, as', none⟩)
    (reaches : g.Reaches ⟨q, as' ++ below, none⟩ m) :
    g.Reaches ⟨p, b :: bs ++ below, none⟩ m := by
  apply Grammar.Reaches.step
  rwa [List.cons_append, Grammar.step_cons, Grammar.perform_append below h]

/-! ## Reading phrases -/

/-- The text of some phrases is read without a report. -/
theorem reads (faces : a.Faces p kinds) (going : a.pace.Going ⟨p, as, none⟩)
    (ready : Ready a.guide {z} p.lookahead.kind as es) (text : kinds ∈ texts a.guide.rules {z} es)
    (hz : z ≠ []) (below : List (Action N)) :
    ∃ w, kinds = w ++ z ∧
      g.Reaches ⟨p, as ++ below, none⟩ ⟨p.advance w.length, below, none⟩ := by
  obtain ⟨n, done⟩ := Pace.exists_iterate_done a.sound going
  induction n generalizing p as es kinds with
  | zero =>
      cases done
      cases ready
      exact ⟨[], text, .refl _⟩
  | succ n ih =>
      cases ready with
      | nil => exact ⟨[], text, .refl _⟩
      | @cons F t b e bs fs top next rest =>
          obtain ⟨ks, rfl⟩ := faces.exists_cons
          have going' := (Pace.step_going a.sound going).1
          rw [Function.iterate_succ_apply] at done
          cases top.outcome faces.tables rfl faces.lookahead_le next rest with
          | @call m _ _ first unfolds between rest =>
              cases first
              have text := unfolds.cons_mem_of_cons_mem text
              rw [Ebnf.texts_nonterminal] at text
              have body := a.right.body m _ faces.lookahead_le
              obtain ⟨w, eq, reaches⟩ := ih faces going' (.cons body between rest) text done
              exact ⟨w, eq, reaches.step⟩
          | quiet step ready unfolds =>
              rw [step] at done going'
              obtain ⟨w, eq, reaches⟩ :=
                ih faces going' ready (unfolds.cons_mem_of_cons_mem text) done
              exact ⟨w, eq, reaches_of_step step reaches⟩
          | consume real step ready unfolds =>
              rw [step] at done going'
              have text := unfolds.cons_mem_iff.mpr text
              have faces := faces.get (ne_nil_of_mem_texts text hz)
              obtain ⟨w, rfl, reaches⟩ := ih faces going' (ready _ faces.lookahead_le) text done
              exact ⟨_ :: w, rfl, reaches_of_step step reaches⟩
          | report code step queue known stuck expected => exact absurd text (stuck ks)

theorem reads_phrase {F : Set Kind} {b : Action N} {e : Ebnf N} (faces : a.Faces p (w ++ k :: z))
    (top : Predicts a.guide F p.lookahead.kind b e) (hw : w ∈ lang a.guide.rules e) (hk : k ∈ F)
    (paced : a.pace.paced b = true) (below : List (Action N)) :
    g.Reaches ⟨p, b :: below, none⟩ ⟨p.advance w.length, below, none⟩ := by
  have ready : Ready a.guide {k :: z} p.lookahead.kind [b] [e] := by
    refine .cons top ?_ fun _ _ => .nil
    rintro j - v hv
    cases hv
    exact hk
  have text : w ++ k :: z ∈ texts a.guide.rules {k :: z} [e] :=
    Ebnf.mem_texts_cons.mpr ⟨w, hw, k :: z, rfl, rfl⟩
  obtain ⟨w', eq, reaches⟩ := reads faces (faces.going (by simpa using paced)) ready text
    (List.cons_ne_nil k z) below
  rw [List.append_cancel_right eq]
  exact reaches

/-- The end of a parse: the rest of the text is read without a report. -/
theorem finishes (faces : a.Faces p kinds) (going : a.pace.Going ⟨p, as, none⟩)
    (ready : Ready a.guide {[Kind.eof]} p.lookahead.kind as es) (text : kinds ∈ a.closedTexts es) :
    ∃ q, g.Reaches ⟨p, as ++ [.expect Kind.eof], none⟩ ⟨q, [], none⟩ ∧ q.queue = p.queue := by
  obtain ⟨w, rfl, reaches⟩ := reads faces going ready text (List.cons_ne_nil _ _)
    [.expect Kind.eof]
  have eof := (faces.advance (List.cons_ne_nil _ _)).lookahead_eq
  refine ⟨(p.advance w.length).get, reaches.trans (.of_step ?_), by simp⟩
  rw [Grammar.step_cons, Grammar.perform_expect_of_eq eof]

/-! ## Coming to a nonterminal -/

/-- What is left to do when the machine comes to an occurrence of a nonterminal: `bs` is right for
phrases which have `v` as a text. -/
structure Remains (a : Analysis g) (behind : Language Kind) (n : N) (v : List Kind)
    (bs : List (Action N)) (fs : List (Ebnf N)) : Prop where
  ready : ∀ k ≤ a.guide.tables.maxKind, Ready a.guide behind k bs fs
  next : ∀ k ≤ a.guide.tables.maxKind, ∀ v, k :: v ∈ texts a.guide.rules behind fs →
    k ∈ a.guide.follow n
  paced : ∀ b ∈ bs, a.pace.paced b = true
  text : v ∈ texts a.guide.rules behind fs

/-- The machine comes to each occurrence of a nonterminal, if only the token that stands there
starts a word of it. -/
theorem descends (faces : a.Faces p (u ++ k :: x)) (going : a.pace.Going ⟨p, as, none⟩)
    (ready : Ready a.guide behind p.lookahead.kind as es)
    (hole : Hole a.guide.rules behind n es u v)
    (starts : k :: w ∈ lang a.guide.rules (.nonterminal n)) :
    ∃ bs fs, a.Remains behind n v bs fs ∧ ∀ below,
      g.Reaches ⟨p, as ++ below, none⟩ ⟨p.advance u.length, .call n :: bs ++ below, none⟩ := by
  obtain ⟨i, done⟩ := Pace.exists_iterate_done a.sound going
  induction i generalizing p as es u v with
  | zero =>
      cases done
      cases ready
      cases hole
  | succ i ih =>
      cases ready with
      | nil => cases hole
      | @cons F t b e cs es top next rest =>
          have going' := (Pace.step_going a.sound going).1
          rw [Function.iterate_succ_apply] at done
          obtain ⟨t, same⟩ := faces.exists_eq_cons w
          cases top.outcome faces.tables rfl faces.lookahead_le next rest with
          | @call m _ fs first unfolds between rest =>
              cases first
              have body := a.right.body m _ faces.lookahead_le
              have further {u : List Kind} {v : List Kind} (faces : a.Faces p (u ++ k :: x))
                  (hole : Hole a.guide.rules behind n (a.guide.rules m :: fs) u v) :=
                ih faces going' (.cons body between rest) hole done
              cases unfolds.hole hole starts same with
              | first context others =>
                  cases context with
                  | here =>
                      refine ⟨cs, fs, ⟨rest, between, ?_, others⟩, fun below => .refl _⟩
                      exact fun b hb => going.paced b (List.mem_cons_of_mem _ hb)
                  | nonterminal context =>
                      obtain ⟨bs, fs, remains, reaches⟩ := further faces (.first context others)
                      exact ⟨bs, fs, remains, fun below => (reaches below).step⟩
              | later first others =>
                  rw [Ebnf.lang_nonterminal] at first
                  obtain ⟨bs, fs, remains, reaches⟩ := further faces (.later first others)
                  exact ⟨bs, fs, remains, fun below => (reaches below).step⟩
          | quiet step ready unfolds =>
              rw [step] at done going'
              obtain ⟨bs, fs, remains, reaches⟩ :=
                ih faces going' ready (unfolds.hole hole starts same) done
              exact ⟨bs, fs, remains, fun below => reaches_of_step step (reaches below)⟩
          | consume real step ready unfolds =>
              rw [step] at done going'
              cases unfolds.hole hole starts same with
              | first context => cases context
              | later first others =>
                  cases first
                  have faces := faces.get (by simp)
                  obtain ⟨bs, fs, remains, reaches⟩ :=
                    ih faces going' (ready _ faces.lookahead_le) others done
                  exact ⟨bs, fs, remains, fun below => reaches_of_step step (reaches below)⟩
          | report code step queue known stuck expected =>
              have full := hole.fill starts
              rw [← List.append_assoc, same] at full
              exact absurd full (stuck _)

end Analysis

end OberonFront
