import Mathlib.Computability.Language
import OberonFront.Token.Basic

/-!
# Phrases in extended Backus-Naur form

The right hand sides of a grammar and the words they stand for.  A word is the
list of the kinds of some tokens.  The rules of a grammar give a phrase for each
nonterminal.  A list of phrases that are still to come, with a language of what
may stand behind them, has a language too.
-/

namespace OberonFront

inductive Ebnf (N : Type) where
  | empty
  | terminal (kind : Kind)
  | nonterminal (n : N)
  | seq (first second : Ebnf N)
  | alt (left right : Ebnf N)
  | opt (phrase : Ebnf N)
  | many (phrase : Ebnf N)
deriving DecidableEq, Repr

namespace Ebnf

variable {N : Type}

instance : Coe Kind (Ebnf N) := ⟨terminal⟩

instance : Coe N (Ebnf N) := ⟨nonterminal⟩

def chain : List (Ebnf N) → Ebnf N
  | [] => empty
  | [e] => e
  | e :: es => seq e (chain es)

def choice : List (Ebnf N) → Ebnf N
  | [] => empty
  | [e] => e
  | e :: es => alt e (choice es)

inductive Derives (rules : N → Ebnf N) : Ebnf N → List Kind → Prop where
  | empty : Derives rules .empty []
  | terminal (kind : Kind) : Derives rules (.terminal kind) [kind]
  | nonterminal {n : N} {w : List Kind} (body : Derives rules (rules n) w) :
      Derives rules (.nonterminal n) w
  | seq {a b : Ebnf N} {u v : List Kind} (first : Derives rules a u) (second : Derives rules b v) :
      Derives rules (.seq a b) (u ++ v)
  | altLeft {a b : Ebnf N} {w : List Kind} (left : Derives rules a w) : Derives rules (.alt a b) w
  | altRight {a b : Ebnf N} {w : List Kind} (right : Derives rules b w) : Derives rules (.alt a b) w
  | optNone {a : Ebnf N} : Derives rules (.opt a) []
  | optSome {a : Ebnf N} {w : List Kind} (body : Derives rules a w) : Derives rules (.opt a) w
  | manyNil {a : Ebnf N} : Derives rules (.many a) []
  | manyCons {a : Ebnf N} {u v : List Kind} (first : Derives rules a u)
      (others : Derives rules (.many a) v) : Derives rules (.many a) (u ++ v)

def lang (rules : N → Ebnf N) (e : Ebnf N) : Language Kind := {w | Derives rules e w}

variable {rules : N → Ebnf N} {a b : Ebnf N} {w : List Kind}

theorem mem_lang : w ∈ lang rules a ↔ Derives rules a w := Iff.rfl

@[simp] theorem lang_empty : lang rules .empty = 1 := by
  ext w
  rw [mem_lang, Language.mem_one]
  constructor
  · rintro ⟨⟩
    rfl
  · rintro rfl
    exact .empty

@[simp] theorem mem_lang_terminal {k : Kind} : w ∈ lang rules (.terminal k) ↔ w = [k] := by
  constructor
  · rintro ⟨⟩
    rfl
  · rintro rfl
    exact .terminal k

@[simp] theorem lang_nonterminal {n : N} : lang rules (.nonterminal n) = lang rules (rules n) := by
  ext w
  constructor
  · rintro ⟨⟩
    assumption
  · exact .nonterminal

@[simp] theorem lang_seq : lang rules (.seq a b) = lang rules a * lang rules b := by
  ext w
  rw [Language.mem_mul]
  constructor
  · rintro ⟨⟩
    exact ⟨_, ‹_›, _, ‹_›, rfl⟩
  · rintro ⟨u, hu, v, hv, rfl⟩
    exact .seq hu hv

@[simp] theorem lang_alt : lang rules (.alt a b) = lang rules a + lang rules b := by
  ext w
  rw [Language.mem_add]
  constructor
  · intro h
    cases h with
    | altLeft h => exact .inl h
    | altRight h => exact .inr h
  · rintro (h | h)
    · exact .altLeft h
    · exact .altRight h

@[simp] theorem lang_opt : lang rules (.opt a) = 1 + lang rules a := by
  ext w
  rw [Language.mem_add, Language.mem_one]
  constructor
  · intro h
    cases h with
    | optNone => exact .inl rfl
    | optSome h => exact .inr h
  · rintro (rfl | h)
    · exact .optNone
    · exact .optSome h

theorem lang_many : lang rules (.many a) = 1 + lang rules a * lang rules (.many a) := by
  ext w
  rw [Language.mem_add, Language.mem_one, Language.mem_mul]
  constructor
  · intro h
    cases h with
    | manyNil => exact .inl rfl
    | manyCons first others => exact .inr ⟨_, first, _, others, rfl⟩
  · rintro (rfl | ⟨u, hu, v, hv, rfl⟩)
    · exact .manyNil
    · exact .manyCons hu hv

/-- What holds of the empty word, and of a word with a further occurrence in front, holds of a
repetition. -/
@[elab_as_elim] theorem many_induction {motive : (w : List Kind) → w ∈ lang rules (.many a) → Prop}
    (nil : motive [] .manyNil)
    (cons : ∀ u v (first : u ∈ lang rules a) (others : v ∈ lang rules (.many a)),
      motive v others → motive (u ++ v) (.manyCons first others))
    {w : List Kind} (h : w ∈ lang rules (.many a)) : motive w h := by
  suffices ∀ e w (h : Derives rules e w) (eq : e = .many a), motive w (eq ▸ h) from
    this _ _ h rfl
  intro e w h
  induction h with
  | manyNil => exact fun _ => nil
  | manyCons first others _ ih =>
      rintro ⟨⟩
      exact cons _ _ first others (ih rfl)
  | empty | terminal | nonterminal | seq | altLeft | altRight | optNone | optSome =>
      intro eq
      cases eq

theorem mem_many_append {u v : List Kind} (hu : u ∈ lang rules (.many a))
    (hv : v ∈ lang rules (.many a)) : u ++ v ∈ lang rules (.many a) := by
  induction hu using many_induction with
  | nil => exact hv
  | cons u v' first _ ih =>
      rw [List.append_assoc]
      exact .manyCons first ih

theorem cons_mem_of_cons_mem_many {k : Kind} (h : k :: w ∈ lang rules (.many a)) :
    ∃ v, k :: v ∈ lang rules a := by
  generalize hx : k :: w = x at h
  induction h using many_induction generalizing w with
  | nil => cases hx
  | cons u v first _ ih =>
      cases u with
      | nil => exact ih hx
      | cons j u =>
          cases hx
          exact ⟨u, first⟩

/-! ## Kinds in words -/

def mentions (k : Kind) : Ebnf N → Bool
  | empty | nonterminal _ => false
  | terminal j => k == j
  | seq a b | alt a b => mentions k a || mentions k b
  | opt a | many a => mentions k a

/-- A kind in a word is written in its phrase or in a rule. -/
theorem mentions_of_mem {k : Kind} (none : ∀ n, mentions k (rules n) = false)
    (h : w ∈ lang rules a) (hk : k ∈ w) : mentions k a = true := by
  induction h with
  | empty | optNone | manyNil => cases hk
  | terminal j =>
      cases List.mem_singleton.mp hk
      simp [mentions]
  | @nonterminal n w _ ih =>
      have := ih hk
      rw [none n] at this
      contradiction
  | seq _ _ iha ihb =>
      rcases List.mem_append.mp hk with hk | hk
      · simp [mentions, iha hk]
      · simp [mentions, ihb hk]
  | altLeft _ ih => simp [mentions, ih hk]
  | altRight _ ih => simp [mentions, ih hk]
  | optSome _ ih => simpa [mentions] using ih hk
  | manyCons _ _ iha ihb =>
      rcases List.mem_append.mp hk with hk | hk
      · simpa [mentions] using iha hk
      · exact ihb hk

/-! ## Phrases that are still to come -/

/-- The words of some phrases with a word of `behind` after them. -/
def texts (rules : N → Ebnf N) (behind : Language Kind) : List (Ebnf N) → Language Kind
  | [] => behind
  | e :: es => lang rules e * texts rules behind es

variable {behind : Language Kind} {es : List (Ebnf N)}

@[simp] theorem texts_nil : texts rules behind [] = behind := rfl

theorem texts_cons {e : Ebnf N} :
    texts rules behind (e :: es) = lang rules e * texts rules behind es := rfl

theorem mem_texts_cons {e : Ebnf N} :
    w ∈ texts rules behind (e :: es) ↔
      ∃ u ∈ lang rules e, ∃ v ∈ texts rules behind es, u ++ v = w := by
  rw [texts_cons, Language.mem_mul]

@[simp] theorem texts_empty :
    texts rules behind (.empty :: es) = texts rules behind es := by
  rw [texts_cons, lang_empty, one_mul]

theorem cons_mem_texts_terminal {j k : Kind} :
    j :: w ∈ texts rules behind (.terminal k :: es) ↔ j = k ∧ w ∈ texts rules behind es := by
  rw [mem_texts_cons]
  constructor
  · rintro ⟨u, hu, v, hv, huv⟩
    rw [mem_lang_terminal] at hu
    subst hu
    cases huv
    exact ⟨rfl, hv⟩
  · rintro ⟨rfl, hw⟩
    exact ⟨[j], mem_lang_terminal.mpr rfl, w, hw, rfl⟩

@[simp] theorem texts_nonterminal {n : N} :
    texts rules behind (.nonterminal n :: es) = texts rules behind (rules n :: es) := by
  rw [texts_cons, lang_nonterminal, texts_cons]

@[simp] theorem texts_seq :
    texts rules behind (.seq a b :: es) = texts rules behind (a :: b :: es) := by
  rw [texts_cons, lang_seq, mul_assoc, texts_cons, texts_cons]

theorem texts_many :
    texts rules behind (.many a :: es) =
      texts rules behind es + texts rules behind (a :: .many a :: es) := by
  rw [texts_cons, lang_many, add_mul, one_mul, mul_assoc, ← texts_cons, ← texts_cons]

theorem texts_append {fs : List (Ebnf N)} :
    texts rules behind (es ++ fs) = texts rules (texts rules behind fs) es := by
  induction es with
  | nil => rfl
  | cons e es ih => rw [List.cons_append, texts_cons, texts_cons, ih]

theorem lang_chain_cons {e : Ebnf N} :
    lang rules (chain (e :: es)) = lang rules e * lang rules (chain es) := by
  cases es with
  | nil => rw [chain, chain, lang_empty, mul_one]
  | cons f es => exact lang_seq

theorem texts_eq_chain : texts rules behind es = lang rules (chain es) * behind := by
  induction es with
  | nil => rw [texts_nil, chain, lang_empty, one_mul]
  | cons e es ih => rw [texts_cons, lang_chain_cons, ih, mul_assoc]

theorem mem_chain_cons {e : Ebnf N} {u v : List Kind} (hu : u ∈ lang rules e)
    (hv : v ∈ lang rules (chain es)) : u ++ v ∈ lang rules (chain (e :: es)) := by
  rw [lang_chain_cons]
  exact Language.mem_mul.mpr ⟨u, hu, v, hv, rfl⟩

theorem cons_mem_chain {k : Kind} {v : List Kind} (hv : v ∈ lang rules (chain es)) :
    k :: v ∈ lang rules (chain (.terminal k :: es)) :=
  mem_chain_cons (.terminal k) hv

theorem mem_chain_append {fs : List (Ebnf N)} {u v : List Kind} (hu : u ∈ lang rules (chain es))
    (hv : v ∈ lang rules (chain fs)) : u ++ v ∈ lang rules (chain (es ++ fs)) := by
  induction es generalizing u with
  | nil =>
      cases hu
      exact hv
  | cons e es ih =>
      rw [lang_chain_cons] at hu
      obtain ⟨x, hx, y, hy, rfl⟩ := Language.mem_mul.mp hu
      rw [List.append_assoc]
      exact mem_chain_cons hx (ih hy)

/-! ## Phrases without words -/

/-- Whether a phrase has a word, if the nonterminals in `known` have one. -/
def grounded (known : N → Bool) : Ebnf N → Bool
  | empty | terminal _ | opt _ | many _ => true
  | nonterminal n => known n
  | seq a b => grounded known a && grounded known b
  | alt a b => grounded known a || grounded known b

/-- The nonterminals that are seen to have a word when looking at rules `depth` deep. -/
def productive (rules : N → Ebnf N) : Nat → N → Bool
  | 0, _ => false
  | depth + 1, n => grounded (productive rules depth) (rules n)

theorem exists_mem_lang_of_grounded {known : N → Bool}
    (h : ∀ n, known n = true → ∃ w, w ∈ lang rules (.nonterminal n)) {e : Ebnf N}
    (he : grounded known e = true) : ∃ w, w ∈ lang rules e := by
  induction e with
  | empty => exact ⟨[], .empty⟩
  | terminal k => exact ⟨[k], .terminal k⟩
  | nonterminal n => exact h n he
  | seq a b iha ihb =>
      simp only [grounded, Bool.and_eq_true] at he
      obtain ⟨u, hu⟩ := iha he.1
      obtain ⟨v, hv⟩ := ihb he.2
      exact ⟨u ++ v, .seq hu hv⟩
  | alt a b iha ihb =>
      simp only [grounded, Bool.or_eq_true] at he
      rcases he with ha | hb
      · obtain ⟨u, hu⟩ := iha ha
        exact ⟨u, .altLeft hu⟩
      · obtain ⟨v, hv⟩ := ihb hb
        exact ⟨v, .altRight hv⟩
  | opt a => exact ⟨[], .optNone⟩
  | many a => exact ⟨[], .manyNil⟩

theorem exists_mem_lang_of_productive {depth : Nat} {n : N}
    (h : productive rules depth n = true) : ∃ w, w ∈ lang rules (.nonterminal n) := by
  induction depth generalizing n with
  | zero => contradiction
  | succ depth ih =>
      rw [lang_nonterminal]
      exact exists_mem_lang_of_grounded (fun m => ih) h

theorem exists_mem_lang (depth : Nat) (h : ∀ n, productive rules depth n = true) (e : Ebnf N) :
    ∃ w, w ∈ lang rules e := by
  have all : grounded (fun _ => true) e = true := by
    induction e with
    | seq a b iha ihb => simp [grounded, iha, ihb]
    | alt a b iha ihb => simp [grounded, iha, ihb]
    | empty | terminal | nonterminal | opt | many => rfl
  exact exists_mem_lang_of_grounded (fun n _ => exists_mem_lang_of_productive (h n)) all

theorem exists_mem_texts (h : ∀ e, ∃ w, w ∈ lang rules e) (hb : ∃ w, w ∈ behind)
    (es : List (Ebnf N)) : ∃ w, w ∈ texts rules behind es := by
  induction es with
  | nil => exact hb
  | cons e es ih =>
      obtain ⟨u, hu⟩ := h e
      obtain ⟨v, hv⟩ := ih
      exact ⟨u ++ v, mem_texts_cons.mpr ⟨u, hu, v, hv, rfl⟩⟩

end Ebnf

end OberonFront
