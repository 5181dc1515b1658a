import OberonFront.Proofs.Ebnf.Basic

/-!
# Occurrences of a nonterminal

What stands before and behind one occurrence of a nonterminal in the words of a
phrase, and in the words of phrases that are still to come.
-/

namespace OberonFront

namespace Ebnf

variable {N : Type} {rules : N → Ebnf N} {n : N} {e : Ebnf N} {u v w : List Kind}

/-- An occurrence of `n` in a phrase, with `u` before it and `v` behind it. -/
inductive Context (rules : N → Ebnf N) (n : N) : Ebnf N → List Kind → List Kind → Prop where
  | here : Context rules n (.nonterminal n) [] []
  | nonterminal {m : N} {u v : List Kind} (body : Context rules n (rules m) u v) :
      Context rules n (.nonterminal m) u v
  | seqFirst {a b : Ebnf N} {u v w : List Kind} (first : Context rules n a u v)
      (second : w ∈ lang rules b) : Context rules n (.seq a b) u (v ++ w)
  | seqSecond {a b : Ebnf N} {u v w : List Kind} (first : w ∈ lang rules a)
      (second : Context rules n b u v) : Context rules n (.seq a b) (w ++ u) v
  | altLeft {a b : Ebnf N} {u v : List Kind} (left : Context rules n a u v) :
      Context rules n (.alt a b) u v
  | altRight {a b : Ebnf N} {u v : List Kind} (right : Context rules n b u v) :
      Context rules n (.alt a b) u v
  | opt {a : Ebnf N} {u v : List Kind} (body : Context rules n a u v) : Context rules n (.opt a) u v
  | manyFirst {a : Ebnf N} {u v w : List Kind} (first : Context rules n a u v)
      (others : w ∈ lang rules (.many a)) : Context rules n (.many a) u (v ++ w)
  | manyOther {a : Ebnf N} {u v w : List Kind} (first : w ∈ lang rules a)
      (others : Context rules n (.many a) u v) : Context rules n (.many a) (w ++ u) v

/-- With a word of the nonterminal in its place, an occurrence makes up a word of the phrase. -/
theorem Context.fill (h : Context rules n e u v) (hw : w ∈ lang rules (.nonterminal n)) :
    u ++ (w ++ v) ∈ lang rules e := by
  change Derives rules e (u ++ (w ++ v))
  induction h with
  | here => simpa using mem_lang.mp hw
  | nonterminal _ ih => exact .nonterminal ih
  | seqFirst _ second ih => simpa using Derives.seq ih second
  | seqSecond first _ ih => simpa using Derives.seq first ih
  | altLeft _ ih => exact .altLeft ih
  | altRight _ ih => exact .altRight ih
  | opt _ ih => exact .optSome ih
  | manyFirst _ others ih => simpa using Derives.manyCons ih others
  | manyOther first _ ih => simpa using Derives.manyCons first ih

variable {behind : Language Kind} {es : List (Ebnf N)}

/-- An occurrence of `n` in phrases that are still to come. -/
inductive Hole (rules : N → Ebnf N) (behind : Language Kind) (n : N) :
    List (Ebnf N) → List Kind → List Kind → Prop where
  | first {e : Ebnf N} {es : List (Ebnf N)} {u v w : List Kind} (context : Context rules n e u v)
      (others : w ∈ texts rules behind es) : Hole rules behind n (e :: es) u (v ++ w)
  | later {e : Ebnf N} {es : List (Ebnf N)} {u v w : List Kind} (first : w ∈ lang rules e)
      (others : Hole rules behind n es u v) : Hole rules behind n (e :: es) (w ++ u) v

theorem Hole.fill (h : Hole rules behind n es u v) (hw : w ∈ lang rules (.nonterminal n)) :
    u ++ (w ++ v) ∈ texts rules behind es := by
  induction h with
  | first context others =>
      exact mem_texts_cons.mpr ⟨_, context.fill hw, _, others, by simp⟩
  | later first _ ih => exact mem_texts_cons.mpr ⟨_, first, _, ih, by simp⟩

end Ebnf

end OberonFront
