import Mathlib.Data.Set.Basic
import OberonFront.Proofs.Ebnf.Basic
import OberonFront.Proofs.Machine.Steps

/-!
# Deciding by one token of lookahead

When an action is the right program for a phrase: at each decision the lookahead
rules out what the action does not choose.  What may stand behind the phrase
matters here, because an action that is left out lets it decide.  A machine whose
pending actions are right for some phrases either goes on with phrases that have
the same texts for this lookahead, or consumes it, or reports where no text goes
on with it.
-/

namespace OberonFront

namespace Ebnf

variable {N : Type} {rules : N → Ebnf N} {F : Set Kind} {k : Kind} {a b e e' : Ebnf N}

/-- A word, with a kind of `F` behind it, puts the kind first. -/
def Fits (F : Set Kind) (k : Kind) : List Kind → Prop
  | [] => k ∈ F
  | j :: _ => j = k

/-- What may come first where a phrase stands and a kind of `F` behind it. -/
def starts (rules : N → Ebnf N) (F : Set Kind) (e : Ebnf N) : Set Kind :=
  {k | ∃ w ∈ lang rules e, Fits F k w}

theorem fits_of_append_eq {u v w : List Kind} (h : u ++ v = k :: w)
    (hv : ∀ v', v = k :: v' → k ∈ F) : Fits F k u := by
  cases u with
  | nil => exact hv w h
  | cons j u =>
      cases h
      rfl

/-- A part of a phrase that has all words of it which fit a kind. -/
inductive Narrows (rules : N → Ebnf N) (F : Set Kind) (k : Kind) : Ebnf N → Ebnf N → Prop where
  | left {a b : Ebnf N} (h : k ∉ starts rules F b) : Narrows rules F k (.alt a b) a
  | right {a b : Ebnf N} (h : k ∉ starts rules F a) : Narrows rules F k (.alt a b) b
  | some {a : Ebnf N} (h : k ∉ F) : Narrows rules F k (.opt a) a
  | none {a : Ebnf N} (h : ∀ w, k :: w ∉ lang rules a) : Narrows rules F k (.opt a) .empty
  | seqSome {a b : Ebnf N} (h : k ∉ starts rules F b) :
      Narrows rules F k (.seq (.opt a) b) (.seq a b)
  | seqNone {a b : Ebnf N} (h : ∀ w, k :: w ∉ lang rules a) :
      Narrows rules F k (.seq (.opt a) b) b

namespace Narrows

theorem mem_of_mem (h : Narrows rules F k e e') {w : List Kind} (hw : w ∈ lang rules e') :
    w ∈ lang rules e := by
  cases h with
  | left => exact .altLeft hw
  | right => exact .altRight hw
  | some => exact .optSome hw
  | none =>
      cases hw
      exact .optNone
  | seqSome =>
      cases hw with
      | seq first second => exact .seq (.optSome first) second
  | seqNone => exact .seq .optNone hw

theorem mem_of_fits (h : Narrows rules F k e e') {w : List Kind} (hw : w ∈ lang rules e)
    (fits : Fits F k w) : w ∈ lang rules e' := by
  cases h with
  | left h =>
      cases hw with
      | altLeft hw => exact hw
      | altRight hw => exact absurd ⟨w, hw, fits⟩ h
  | right h =>
      cases hw with
      | altLeft hw => exact absurd ⟨w, hw, fits⟩ h
      | altRight hw => exact hw
  | some h =>
      cases hw with
      | optNone => exact absurd fits h
      | optSome hw => exact hw
  | none h =>
      cases hw with
      | optNone => exact .empty
      | optSome hw =>
          cases w with
          | nil => exact .empty
          | cons j w =>
              cases fits
              exact absurd hw (h w)
  | seqSome h =>
      cases hw with
      | @seq _ _ u v first second =>
          cases first with
          | optNone => exact absurd ⟨v, second, fits⟩ h
          | optSome first => exact .seq first second
  | seqNone h =>
      cases hw with
      | @seq _ _ u v first second =>
          cases first with
          | optNone => exact second
          | optSome first =>
              cases u with
              | nil => exact second
              | cons j u =>
                  cases fits
                  exact absurd first (h u)

end Narrows

/-- Phrases still to come are opened up at a lookahead.  What is given up has no text that starts
with it. -/
inductive Unfolds (rules : N → Ebnf N) (behind : Language Kind) (k : Kind) :
    List (Ebnf N) → List (Ebnf N) → Prop where
  | refl (es : List (Ebnf N)) : Unfolds rules behind k es es
  | empty {es fs : List (Ebnf N)} (next : Unfolds rules behind k es fs) :
      Unfolds rules behind k (.empty :: es) fs
  | seq {a b : Ebnf N} {es fs : List (Ebnf N)} (next : Unfolds rules behind k (a :: b :: es) fs) :
      Unfolds rules behind k (.seq a b :: es) fs
  | round {a : Ebnf N} {es fs : List (Ebnf N)} (h : ∀ v, k :: v ∉ texts rules behind es)
      (next : Unfolds rules behind k (a :: .many a :: es) fs) :
      Unfolds rules behind k (.many a :: es) fs
  | leave {a : Ebnf N} {es fs : List (Ebnf N)} (h : ∀ w, k :: w ∉ lang rules a)
      (next : Unfolds rules behind k es fs) : Unfolds rules behind k (.many a :: es) fs
  | narrow {F : Set Kind} {e e' : Ebnf N} {es fs : List (Ebnf N)} (narrows : Narrows rules F k e e')
      (h : ∀ v, k :: v ∈ texts rules behind es → k ∈ F)
      (next : Unfolds rules behind k (e' :: es) fs) : Unfolds rules behind k (e :: es) fs

namespace Unfolds

variable {behind : Language Kind} {es fs : List (Ebnf N)} {v : List Kind}

theorem mem_of_mem (h : Unfolds rules behind k es fs) (hv : v ∈ texts rules behind fs) :
    v ∈ texts rules behind es := by
  induction h with
  | refl => exact hv
  | empty _ ih =>
      rw [texts_empty]
      exact ih hv
  | seq _ ih =>
      rw [texts_seq]
      exact ih hv
  | round _ _ ih =>
      rw [texts_many]
      exact .inr (ih hv)
  | leave _ _ ih =>
      rw [texts_many]
      exact .inl (ih hv)
  | narrow narrows _ _ ih =>
      obtain ⟨u, hu, w, hw, eq⟩ := mem_texts_cons.mp (ih hv)
      exact mem_texts_cons.mpr ⟨u, narrows.mem_of_mem hu, w, hw, eq⟩

theorem cons_mem_of_cons_mem (h : Unfolds rules behind k es fs)
    (hv : k :: v ∈ texts rules behind es) : k :: v ∈ texts rules behind fs := by
  induction h with
  | refl => exact hv
  | empty _ ih =>
      rw [texts_empty] at hv
      exact ih hv
  | seq _ ih =>
      rw [texts_seq] at hv
      exact ih hv
  | round none _ ih =>
      rw [texts_many] at hv
      rcases hv with hv | hv
      · exact absurd hv (none v)
      · exact ih hv
  | leave none _ ih =>
      obtain ⟨u, hu, w, hw, eq⟩ := mem_texts_cons.mp hv
      cases u with
      | nil =>
          cases eq
          exact ih hw
      | cons j u =>
          cases eq
          obtain ⟨w, hw⟩ := cons_mem_of_cons_mem_many hu
          exact absurd hw (none w)
  | narrow narrows inF _ ih =>
      obtain ⟨u, hu, w, hw, eq⟩ := mem_texts_cons.mp hv
      have fits : Fits _ k u := fits_of_append_eq eq (by
        rintro w' rfl
        exact inF w' hw)
      exact ih (mem_texts_cons.mpr ⟨u, narrows.mem_of_fits hu fits, w, hw, eq⟩)

theorem cons_mem_iff (h : Unfolds rules behind k es (.terminal k :: fs)) :
    v ∈ texts rules behind fs ↔ k :: v ∈ texts rules behind es := by
  constructor
  · exact fun hv => h.mem_of_mem (cons_mem_texts_terminal.mpr ⟨rfl, hv⟩)
  · exact fun hv => (cons_mem_texts_terminal.mp (h.cons_mem_of_cons_mem hv)).2

end Unfolds

end Ebnf

open Ebnf (lang texts starts Fits Narrows Unfolds)

/-- A grammar as its phrases tell it, beside the tables that a parser decides by: the rules, and
for each nonterminal whether it may be empty, what may come first in it, and what may stand behind
it. -/
structure Guide (N : Type) where
  tables : Tables
  rules : N → Ebnf N
  nullable : N → Bool
  first : N → List Kind
  follow : N → List Kind

variable {N : Type}

/-- An action is the right program for a phrase where the lookahead is of kind `t` and a kind of
`F` stands behind the phrase. -/
inductive Predicts (s : Guide N) : Set Kind → Kind → Action N → Ebnf N → Prop where
  | skip {F : Set Kind} {t : Kind} : Predicts s F t .skip .empty
  | get {F : Set Kind} {t : Kind} (real : t ≠ Kind.eof) : Predicts s F t .get (.terminal t)
  | expect {F : Set Kind} {t k : Kind} (real : k ≠ Kind.eof)
      (known : k < s.tables.messages.length) : Predicts s F t (.expect k) (.terminal k)
  | expectWeak {F : Set Kind} {t k : Kind} {set : Nat} (real : k ≠ Kind.eof)
      (known : k < s.tables.messages.length) (defined : set < s.tables.sets.length) :
      Predicts s F t (.expectWeak k set) (.terminal k)
  | fail {F : Set Kind} {t : Kind} {code : Nat} {e : Ebnf N} (high : s.tables.maxKind < code)
      (known : code < s.tables.messages.length) (stuck : t ∉ starts s.rules F e) :
      Predicts s F t (.fail code) e
  | call {F : Set Kind} {t : Kind} {n : N}
      (between : ∀ k ≤ s.tables.maxKind, k ∈ F → k ∈ s.follow n) :
      Predicts s F t (.call n) (.nonterminal n)
  | seq {F G : Set Kind} {t : Kind} {a b : Action N} {x y : Ebnf N}
      (between : ∀ k ≤ s.tables.maxKind, k ∈ starts s.rules F y → k ∈ G)
      (first : Predicts s G t a x) (second : ∀ k ≤ s.tables.maxKind, Predicts s F k b y) :
      Predicts s F t (.seq a b) (.seq x y)
  | yes {F : Set Kind} {t : Kind} {test : Test} {a b : Action N} {e : Ebnf N}
      (defined : test.defined s.tables = true) (holds : test.admits s.tables t = true)
      (branch : Predicts s F t a e) : Predicts s F t (.ifElse test a b) e
  | no {F : Set Kind} {t : Kind} {test : Test} {a b : Action N} {e : Ebnf N}
      (defined : test.defined s.tables = true) (fails : test.admits s.tables t = false)
      (branch : Predicts s F t b e) : Predicts s F t (.ifElse test a b) e
  | whileDo {F G : Set Kind} {t : Kind} {test : Test} {body : Action N} {x : Ebnf N}
      (defined : test.defined s.tables = true)
      (between : ∀ k ≤ s.tables.maxKind, k ∈ starts s.rules F (.many x) → k ∈ G)
      (round : ∀ k ≤ s.tables.maxKind, test.admits s.tables k = true → Predicts s G k body x)
      (enter : ∀ k ≤ s.tables.maxKind, test.admits s.tables k = true → k ∉ F)
      (leave : ∀ k ≤ s.tables.maxKind, test.admits s.tables k = false →
        ∀ w, k :: w ∉ lang s.rules x) :
      Predicts s F t (.whileDo test body) (.many x)
  | separated {F G : Set Kind} {t k : Kind} {element behind : Nat} {body : Action N} {x : Ebnf N}
      (real : k ≠ Kind.eof) (known : k < s.tables.messages.length)
      (elementDefined : element < s.tables.sets.length)
      (behindDefined : behind < s.tables.sets.length)
      (between : ∀ j ≤ s.tables.maxKind,
        j ∈ starts s.rules F (.many (.seq (.terminal k) x)) → j ∈ G)
      (round : ∀ j ≤ s.tables.maxKind, Predicts s G j body x) (enter : k ∉ F)
      (leave : ∀ j ≤ s.tables.maxKind, j ∈ F → s.tables.admits behind j = true) :
      Predicts s F t (.separated k element behind body) (.many (.seq (.terminal k) x))
  | narrow {F : Set Kind} {t : Kind} {a : Action N} {e e' : Ebnf N}
      (narrows : Narrows s.rules F t e e') (part : Predicts s F t a e') : Predicts s F t a e

/-- The pending actions are the right programs for the phrases still to come, at a lookahead of
kind `t` and before a word of `behind`. -/
inductive Ready (s : Guide N) (behind : Language Kind) :
    Kind → List (Action N) → List (Ebnf N) → Prop where
  | nil {t : Kind} : Ready s behind t [] []
  | cons {F : Set Kind} {t : Kind} {a : Action N} {e : Ebnf N} {as : List (Action N)}
      {es : List (Ebnf N)} (top : Predicts s F t a e)
      (next : ∀ k ≤ s.tables.maxKind, ∀ v, k :: v ∈ texts s.rules behind es → k ∈ F)
      (rest : ∀ k ≤ s.tables.maxKind, Ready s behind k as es) :
      Ready s behind t (a :: as) (e :: es)

/-- What one step comes to where the pending actions are ready for some phrases: it calls a
production, or goes on with the phrases opened up, or consumes the lookahead, or it reports a
lookahead with which no text starts. -/
inductive Outcome (g : Grammar N) (s : Guide N) (behind : Language Kind) (p : Parser)
    (as : List (Action N)) (es : List (Ebnf N)) : Prop where
  | call {n : N} {bs : List (Action N)} {fs : List (Ebnf N)} (first : as = .call n :: bs)
      (unfolds : Unfolds s.rules behind p.lookahead.kind es (.nonterminal n :: fs))
      (next : ∀ k ≤ s.tables.maxKind, ∀ v, k :: v ∈ texts s.rules behind fs → k ∈ s.follow n)
      (rest : ∀ k ≤ s.tables.maxKind, Ready s behind k bs fs)
  | quiet {as' : List (Action N)} {es' : List (Ebnf N)}
      (step : g.step ⟨p, as, none⟩ = ⟨p, as', none⟩)
      (ready : Ready s behind p.lookahead.kind as' es')
      (unfolds : Unfolds s.rules behind p.lookahead.kind es es')
  | consume {as' : List (Action N)} {es' : List (Ebnf N)}
      (real : p.lookahead.kind ≠ Kind.eof)
      (step : g.step ⟨p, as, none⟩ = ⟨p.get, as', none⟩)
      (ready : ∀ k ≤ s.tables.maxKind, Ready s behind k as' es')
      (unfolds : Unfolds s.rules behind p.lookahead.kind es (.terminal p.lookahead.kind :: es'))
  | report (code : Nat) {q : Parser} {left : List (Action N)}
      (step : g.step ⟨p, as, none⟩ = ⟨q, left, none⟩) (queue : q.queue = (p.fail code).queue)
      (known : code < s.tables.messages.length)
      (stuck : ∀ v, p.lookahead.kind :: v ∉ texts s.rules behind es)
      (expected : code ≤ s.tables.maxKind →
        ∃ es', ∀ v ∈ texts s.rules behind es', code :: v ∈ texts s.rules behind es)

/-- Every production is the right program for the rule of its nonterminal. -/
structure Guide.Right (s : Guide N) (g : Grammar N) : Prop where
  body : ∀ n, ∀ t ≤ s.tables.maxKind, Predicts s {k | k ∈ s.follow n} t (g.body n) (s.rules n)

section outcome

variable {g : Grammar N} {s : Guide N} {behind : Language Kind} {p : Parser} {F : Set Kind}
  {a : Action N} {e : Ebnf N} {as : List (Action N)} {es : List (Ebnf N)}

theorem mem_starts_of_mem_texts {x : Ebnf N}
    (next : ∀ k ≤ s.tables.maxKind, ∀ v, k :: v ∈ texts s.rules behind es → k ∈ F)
    {k : Kind} (hk : k ≤ s.tables.maxKind) {v : List Kind}
    (h : k :: v ∈ texts s.rules behind (x :: es)) : k ∈ starts s.rules F x := by
  obtain ⟨u, hu, v', hv', eq⟩ := Ebnf.mem_texts_cons.mp h
  refine ⟨u, hu, Ebnf.fits_of_append_eq eq ?_⟩
  rintro w rfl
  exact next k hk w hv'

theorem mem_many_of_mem_round {x : Ebnf N} {v : List Kind}
    (h : v ∈ texts s.rules behind (x :: .many x :: es)) :
    v ∈ texts s.rules behind (.many x :: es) := by
  rw [Ebnf.texts_many]
  exact .inr h

section loops

variable {G : Set Kind} {body : Action N} {x : Ebnf N}

private theorem outcome_whileDo {test : Test} (tables : p.tables = s.tables)
    (visible : p.lookahead.kind ≤ s.tables.maxKind)
    (next : ∀ k ≤ s.tables.maxKind, ∀ v, k :: v ∈ texts s.rules behind es → k ∈ F)
    (rest : ∀ k ≤ s.tables.maxKind, Ready s behind k as es)
    (defined : test.defined s.tables = true)
    (between : ∀ k ≤ s.tables.maxKind, k ∈ starts s.rules F (.many x) → k ∈ G)
    (round : ∀ k ≤ s.tables.maxKind, test.admits s.tables k = true → Predicts s G k body x)
    (enter : ∀ k ≤ s.tables.maxKind, test.admits s.tables k = true → k ∉ F)
    (leave : ∀ k ≤ s.tables.maxKind, test.admits s.tables k = false →
      ∀ w, k :: w ∉ lang s.rules x) :
    Outcome g s behind p (.whileDo test body :: as) (.many x :: es) := by
  have step : g.step ⟨p, .whileDo test body :: as, none⟩ =
      ⟨p, if test.admits p.tables p.lookahead.kind then body :: .whileDo test body :: as else as,
        none⟩ := Grammar.perform_whileDo (g := g) (tables ▸ defined)
  rw [tables] at step
  cases admitted : test.admits s.tables p.lookahead.kind with
  | true =>
      rw [if_pos admitted] at step
      have again (k : Kind) (_ : k ≤ s.tables.maxKind) :
          Ready s behind k (.whileDo test body :: as) (.many x :: es) :=
        .cons (.whileDo defined between round enter leave) next rest
      refine .quiet step (.cons (round _ visible admitted) ?_ again) (.round ?_ (.refl _))
      · exact fun k hk v hv => between k hk (mem_starts_of_mem_texts next hk hv)
      · exact fun v hv => enter _ visible admitted (next _ visible v hv)
  | false =>
      rw [if_neg (by simp [admitted])] at step
      exact .quiet step (rest _ visible) (.leave (leave _ visible admitted) (.refl _))

private theorem outcome_separated {k : Kind} {element set : Nat} (tables : p.tables = s.tables)
    (visible : p.lookahead.kind ≤ s.tables.maxKind)
    (next : ∀ j ≤ s.tables.maxKind, ∀ v, j :: v ∈ texts s.rules behind es → j ∈ F)
    (rest : ∀ j ≤ s.tables.maxKind, Ready s behind j as es) (real : k ≠ Kind.eof)
    (known : k < s.tables.messages.length) (elementDefined : element < s.tables.sets.length)
    (behindDefined : set < s.tables.sets.length)
    (between : ∀ j ≤ s.tables.maxKind,
      j ∈ starts s.rules F (.many (.seq (.terminal k) x)) → j ∈ G)
    (round : ∀ j ≤ s.tables.maxKind, Predicts s G j body x) (enter : k ∉ F)
    (leave : ∀ j ≤ s.tables.maxKind, j ∈ F → s.tables.admits set j = true) :
    Outcome g s behind p (.separated k element set body :: as)
      (.many (.seq (.terminal k) x) :: es) := by
  have other (different : p.lookahead.kind ≠ k) (w : List Kind) :
      p.lookahead.kind :: w ∉ lang s.rules (.seq (.terminal k) x) := by
    intro hw
    rw [Ebnf.lang_seq] at hw
    obtain ⟨u, hu, v, -, eq⟩ := Language.mem_mul.mp hw
    cases Ebnf.mem_lang_terminal.mp hu
    exact different (List.cons.inj eq).1.symm
  by_cases h : p.lookahead.kind = k
  · subst h
    have again (j : Kind) (_ : j ≤ s.tables.maxKind) :
        Ready s behind j (.separated p.lookahead.kind element set body :: as)
          (.many (.seq (.terminal p.lookahead.kind) x) :: es) :=
      .cons (.separated real known elementDefined behindDefined between round enter leave)
        next rest
    refine .consume real (Grammar.perform_separated_of_eq (g := g) rfl)
      (fun j hj => .cons (round j hj) ?_ again) (.round ?_ (.seq (.refl _)))
    · exact fun i hi v hv => between i hi (mem_starts_of_mem_texts next hi hv)
    · exact fun v hv => enter (next _ visible v hv)
  · cases admitted : s.tables.admits set p.lookahead.kind with
    | true =>
        exact .quiet
          (Grammar.perform_separated_of_behind (g := g) h (tables ▸ behindDefined)
            (tables ▸ admitted))
          (rest _ visible) (.leave (other h) (.refl _))
    | false =>
        refine .report k (Grammar.perform_separated_of_missing (g := g) h
          (tables ▸ elementDefined) (tables ▸ behindDefined) (tables ▸ admitted)) (by simp) known
          ?_ fun _ => ⟨x :: .many (.seq (.terminal k) x) :: es, fun v hv => ?_⟩
        · intro v hv
          have left : Unfolds s.rules behind p.lookahead.kind
              (.many (.seq (.terminal k) x) :: es) es := .leave (other h) (.refl _)
          have := leave _ visible (next _ visible v (left.cons_mem_of_cons_mem hv))
          rw [admitted] at this
          contradiction
        · apply mem_many_of_mem_round
          rw [Ebnf.texts_seq]
          exact Ebnf.cons_mem_texts_terminal.mpr ⟨rfl, hv⟩

end loops

private theorem outcome_narrow {e' : Ebnf N} (visible : p.lookahead.kind ≤ s.tables.maxKind)
    (next : ∀ k ≤ s.tables.maxKind, ∀ v, k :: v ∈ texts s.rules behind es → k ∈ F)
    (narrows : Narrows s.rules F p.lookahead.kind e e')
    (h : Outcome g s behind p as (e' :: es)) : Outcome g s behind p as (e :: es) := by
  have narrow {fs : List (Ebnf N)}
      (h : Unfolds s.rules behind p.lookahead.kind (e' :: es) fs) :
      Unfolds s.rules behind p.lookahead.kind (e :: es) fs := .narrow narrows (next _ visible) h
  cases h with
  | call first unfolds between rest => exact .call first (narrow unfolds) between rest
  | quiet step ready unfolds => exact .quiet step ready (narrow unfolds)
  | consume real step ready unfolds => exact .consume real step ready (narrow unfolds)
  | report code step queue known stuck expected =>
      have back := narrow (.refl _)
      refine .report code step queue known (fun v hv => stuck v (back.cons_mem_of_cons_mem hv))
        fun low => ?_
      obtain ⟨es', hes'⟩ := expected low
      exact ⟨es', fun v hv => back.mem_of_mem (hes' v hv)⟩

/-- A machine whose first pending action is the right program for the first phrase has one of the
three outcomes. -/
theorem Predicts.outcome {t : Kind} (top : Predicts s F t a e)
    (tables : p.tables = s.tables) (lookahead : p.lookahead.kind = t)
    (visible : t ≤ s.tables.maxKind)
    (next : ∀ k ≤ s.tables.maxKind, ∀ v, k :: v ∈ texts s.rules behind es → k ∈ F)
    (rest : ∀ k ≤ s.tables.maxKind, Ready s behind k as es) :
    Outcome g s behind p (a :: as) (e :: es) := by
  induction top with
  | skip =>
      subst lookahead
      exact .quiet rfl (rest _ visible) (.empty (.refl _))
  | get real =>
      subst lookahead
      exact .consume real rfl rest (.refl _)
  | @expect F t k real known =>
      subst lookahead
      by_cases h : p.lookahead.kind = k
      · subst h
        exact .consume real (Grammar.perform_expect_of_eq (g := g) rfl) rest (.refl _)
      · refine .report k (Grammar.perform_expect_of_ne (g := g) h) rfl known ?_ fun _ => ?_
        · simp [Ebnf.cons_mem_texts_terminal, h]
        · exact ⟨es, fun v hv => Ebnf.cons_mem_texts_terminal.mpr ⟨rfl, hv⟩⟩
  | @expectWeak F t k set real known defined =>
      subst lookahead
      by_cases h : p.lookahead.kind = k
      · subst h
        exact .consume real (Grammar.perform_expectWeak_of_eq (g := g) rfl) rest (.refl _)
      · refine .report k (Grammar.perform_expectWeak_of_ne (g := g) h (tables ▸ defined))
          (by simp) known ?_ fun _ => ?_
        · simp [Ebnf.cons_mem_texts_terminal, h]
        · exact ⟨es, fun v hv => Ebnf.cons_mem_texts_terminal.mpr ⟨rfl, hv⟩⟩
  | fail high known stuck =>
      subst lookahead
      exact .report _ rfl rfl known
        (fun v hv => stuck (mem_starts_of_mem_texts next visible hv))
        fun low => absurd low (Nat.not_le.mpr high)
  | @call F t n between =>
      exact .call rfl (.refl _) (fun k hk v hv => between k hk (next k hk v hv)) rest
  | @seq F G t a b x y between first second _ _ =>
      subst lookahead
      refine .quiet rfl (.cons first ?_ fun k hk => .cons (second k hk) next rest)
        (.seq (.refl _))
      exact fun k hk v hv => between k hk (mem_starts_of_mem_texts next hk hv)
  | @yes F t test a b e defined holds branch _ =>
      subst lookahead
      refine .quiet ?_ (.cons branch next rest) (.refl _)
      rw [Grammar.step_cons, Grammar.perform_ifElse (tables ▸ defined), tables, if_pos holds]
  | @no F t test a b e defined fails branch _ =>
      subst lookahead
      refine .quiet ?_ (.cons branch next rest) (.refl _)
      rw [Grammar.step_cons, Grammar.perform_ifElse (tables ▸ defined), tables,
        if_neg (by simp [fails])]
  | whileDo defined between round enter leave _ =>
      exact outcome_whileDo tables (lookahead ▸ visible) next rest defined between round enter leave
  | separated real known elementDefined behindDefined between round enter leave _ =>
      exact outcome_separated tables (lookahead ▸ visible) next rest real known elementDefined
        behindDefined between round enter leave
  | narrow narrows part ih =>
      subst lookahead
      exact outcome_narrow visible next narrows (ih rfl visible next)

end outcome

end OberonFront
