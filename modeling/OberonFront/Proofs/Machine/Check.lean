import OberonFront.Proofs.Machine.Prediction

/-!
# Checking productions against rules

The kinds that may come first in a phrase are computed from what a guide says of
the nonterminals.  If the guide agrees with its rules, no word is missed, and a
production that passes the check is the right program for its rule.  The check
evaluates, so a concrete grammar is settled by running it.
-/

namespace OberonFront

namespace Guide

open Ebnf (lang starts Narrows)

variable {N : Type} (s : Guide N)

def kinds : List Kind := List.range (s.tables.maxKind + 1)

theorem mem_kinds {s : Guide N} {k : Kind} : k ∈ s.kinds ↔ k ≤ s.tables.maxKind := by
  rw [kinds, List.mem_range, Nat.lt_succ_iff]

def empties : Ebnf N → Bool
  | .empty | .opt _ | .many _ => true
  | .terminal _ => false
  | .nonterminal n => s.nullable n
  | .seq a b => empties a && empties b
  | .alt a b => empties a || empties b

def begins (k : Kind) : Ebnf N → Bool
  | .empty => false
  | .terminal j => k == j
  | .nonterminal n => (s.first n).contains k
  | .seq a b => begins k a || s.empties a && begins k b
  | .alt a b => begins k a || begins k b
  | .opt a | .many a => begins k a

/-- Whether the kind may come first where the phrase stands and something of `F` behind it. -/
def mayStart (F : Kind → Bool) (e : Ebnf N) (k : Kind) : Bool :=
  s.begins k e || s.empties e && F k

/-- What a guide says of the nonterminals holds for their rules. -/
structure Agrees : Prop where
  nullable : ∀ n, s.empties (s.rules n) = true → s.nullable n = true
  first : ∀ n, ∀ k ∈ s.kinds, s.begins k (s.rules n) = true → k ∈ s.first n

variable {s}

theorem empties_of_derives (agrees : s.Agrees) {e : Ebnf N} {w : List Kind}
    (h : Ebnf.Derives s.rules e w) (hw : w = []) : s.empties e = true := by
  induction h with
  | empty | optNone | optSome | manyNil | manyCons => rfl
  | terminal => cases hw
  | nonterminal _ ih => exact agrees.nullable _ (ih hw)
  | seq _ _ iha ihb =>
      obtain ⟨hu, hv⟩ := List.append_eq_nil_iff.mp hw
      simp [empties, iha hu, ihb hv]
  | altLeft _ ih => simp [empties, ih hw]
  | altRight _ ih => simp [empties, ih hw]

theorem begins_of_derives (agrees : s.Agrees) {k : Kind} (hk : k ≤ s.tables.maxKind)
    {e : Ebnf N} {w v : List Kind} (h : Ebnf.Derives s.rules e w) (hw : w = k :: v) :
    s.begins k e = true := by
  induction h generalizing v with
  | empty | optNone | manyNil => cases hw
  | terminal j =>
      cases hw
      simp [begins]
  | nonterminal _ ih =>
      simpa [begins] using agrees.first _ k (mem_kinds.mpr hk) (ih hw)
  | @seq a b u v' first second iha ihb =>
      cases u with
      | nil => simp [begins, empties_of_derives agrees first rfl, ihb hw]
      | cons j u =>
          cases hw
          simp [begins, iha rfl]
  | altLeft _ ih => simp [begins, ih hw]
  | altRight _ ih => simp [begins, ih hw]
  | optSome _ ih => simp [begins, ih hw]
  | @manyCons a u v' first others iha ihb =>
      cases u with
      | nil => simpa [begins] using ihb hw
      | cons j u =>
          cases hw
          simp [begins, iha rfl]

theorem not_mem_lang_of_begins (agrees : s.Agrees) {k : Kind} (hk : k ≤ s.tables.maxKind)
    {e : Ebnf N} (h : s.begins k e = false) (w : List Kind) : k :: w ∉ lang s.rules e := by
  intro hw
  rw [begins_of_derives agrees hk hw rfl] at h
  contradiction

theorem mayStart_of_mem_starts (agrees : s.Agrees) {F : Kind → Bool} {e : Ebnf N} {k : Kind}
    (hk : k ≤ s.tables.maxKind) (h : k ∈ starts s.rules {k | F k = true} e) :
    s.mayStart F e k = true := by
  obtain ⟨w, hw, fits⟩ := h
  cases w with
  | nil => simp [mayStart, empties_of_derives agrees hw rfl, show F k = true from fits]
  | cons j w =>
      cases fits
      simp [mayStart, begins_of_derives agrees hk hw rfl]

theorem not_mem_starts (agrees : s.Agrees) {F : Kind → Bool} {e : Ebnf N} {k : Kind}
    (hk : k ≤ s.tables.maxKind) (h : s.mayStart F e k = false) :
    k ∉ starts s.rules {k | F k = true} e := by
  intro hs
  rw [mayStart_of_mem_starts agrees hk hs] at h
  contradiction

variable (s)

/-- Whether the kind may come first where phrases are still to come and something of `F` behind
them. -/
def opens (F : Kind → Bool) : List (Ebnf N) → Kind → Bool
  | [], k => F k
  | e :: es, k => s.mayStart (opens F es) e k

variable {s}

theorem opens_of_mem_texts (agrees : s.Agrees) {behind : Language Kind} {F : Kind → Bool}
    {es : List (Ebnf N)}
    (next : ∀ k ≤ s.tables.maxKind, ∀ v, k :: v ∈ behind → F k = true) {k : Kind}
    (hk : k ≤ s.tables.maxKind) {v : List Kind} (h : k :: v ∈ Ebnf.texts s.rules behind es) :
    s.opens F es k = true := by
  induction es generalizing k v with
  | nil => exact next k hk v h
  | cons e es ih =>
      refine mayStart_of_mem_starts agrees hk (mem_starts_of_mem_texts ?_ hk h)
      exact fun j hj w hw => ih hj hw

/-! ## Narrowing a phrase -/

variable (s)

/-- What is left of a phrase at a lookahead out of `look`. -/
def part (look : List Kind) (F : Kind → Bool) : Ebnf N → Ebnf N
  | .alt a b =>
      if look.all fun k => !s.mayStart F b k then part look F a
      else if look.all fun k => !s.mayStart F a k then part look F b
      else .alt a b
  | .opt a =>
      if look.all fun k => !F k then part look F a
      else if look.all fun k => !s.begins k a then .empty
      else .opt a
  | .seq (.opt a) b =>
      if look.all fun k => !s.mayStart F b k then .seq a b
      else if look.all fun k => !s.begins k a then part look F b
      else .seq (.opt a) b
  | e => e

variable {s}

theorem predicts_of_part (agrees : s.Agrees) {look : List Kind} {F : Kind → Bool} {k : Kind}
    (hk : k ∈ look) (visible : k ≤ s.tables.maxKind) {a : Action N} {e : Ebnf N}
    (h : Predicts s {k | F k = true} k a (s.part look F e)) :
    Predicts s {k | F k = true} k a e := by
  have none {f : Kind → Bool} (h : (look.all fun k => !f k) = true) : f k = false := by
    simpa using List.all_eq_true.mp h k hk
  fun_induction part s look F e with
  | case1 a b hb ih => exact .narrow (.left (not_mem_starts agrees visible (none hb))) (ih h)
  | case2 a b _ ha ih => exact .narrow (.right (not_mem_starts agrees visible (none ha))) (ih h)
  | case4 a hF ih =>
      refine .narrow (.some ?_) (ih h)
      simpa using none hF
  | case5 a _ ha => exact .narrow (.none (not_mem_lang_of_begins agrees visible (none ha))) h
  | case7 a b hb => exact .narrow (.seqSome (not_mem_starts agrees visible (none hb))) h
  | case8 a b _ ha ih =>
      exact .narrow (.seqNone (not_mem_lang_of_begins agrees visible (none ha))) (ih h)
  | case3 | case6 | case9 | case10 => exact h

/-! ## The check -/

variable [DecidableEq N] (s)

/-- Whether an action is the right program for a phrase at each lookahead out of `look`. -/
def checks (look : List Kind) (F : Kind → Bool) : Action N → Ebnf N → Bool
  | .skip, e => decide (s.part look F e = .empty)
  | .get, e => look.all fun k => decide (k ≠ Kind.eof ∧ s.part [k] F e = .terminal k)
  | .expect k, e =>
      decide (k ≠ Kind.eof ∧ k < s.tables.messages.length ∧ s.part look F e = .terminal k)
  | .expectWeak k set, e =>
      decide (k ≠ Kind.eof ∧ k < s.tables.messages.length ∧ set < s.tables.sets.length ∧
        s.part look F e = .terminal k)
  | .fail code, e =>
      decide (s.tables.maxKind < code ∧ code < s.tables.messages.length) &&
        look.all fun k => !s.mayStart F e k
  | .call n, e =>
      decide (s.part look F e = .nonterminal n) &&
        s.kinds.all fun k => !F k || (s.follow n).contains k
  | .seq a b, e =>
      match s.part look F e with
      | .seq x y => checks look (s.mayStart F y) a x && checks s.kinds F b y
      | _ => false
  | .ifElse test a b, e =>
      let yes := look.filter (test.admits s.tables ·)
      let no := look.filter (!test.admits s.tables ·)
      test.defined s.tables && (yes.isEmpty || checks yes F a e) && (no.isEmpty || checks no F b e)
  | .whileDo test body, e =>
      match s.part look F e with
      | .many x =>
          test.defined s.tables &&
            checks (s.kinds.filter (test.admits s.tables ·)) (s.mayStart F (.many x)) body x &&
            s.kinds.all fun k => if test.admits s.tables k then !F k else !s.begins k x
      | _ => false
  | .separated k element behind body, e =>
      match s.part look F e with
      | .many (.seq (.terminal j) x) =>
          decide (j = k ∧ k ≠ Kind.eof ∧ k < s.tables.messages.length ∧
            element < s.tables.sets.length ∧ behind < s.tables.sets.length ∧ F k = false) &&
            checks s.kinds (s.mayStart F (.many (.seq (.terminal k) x))) body x &&
            s.kinds.all fun j => !F j || s.tables.admits behind j
      | _ => false

variable {s}

theorem predicts_of_checks (agrees : s.Agrees) {look : List Kind} {F : Kind → Bool}
    {a : Action N} {e : Ebnf N} (h : s.checks look F a e = true) {t : Kind} (ht : t ∈ look)
    (visible : t ≤ s.tables.maxKind) : Predicts s {k | F k = true} t a e := by
  induction a generalizing look F e t with
  | skip =>
      apply predicts_of_part agrees ht visible
      rw [of_decide_eq_true h]
      exact .skip
  | get =>
      obtain ⟨real, hpart⟩ := of_decide_eq_true (List.all_eq_true.mp h t ht)
      apply predicts_of_part agrees (List.mem_singleton_self t) visible
      rw [hpart]
      exact .get real
  | expect k =>
      obtain ⟨real, known, hpart⟩ := of_decide_eq_true h
      apply predicts_of_part agrees ht visible
      rw [hpart]
      exact .expect real known
  | expectWeak k set =>
      obtain ⟨real, known, defined, hpart⟩ := of_decide_eq_true h
      apply predicts_of_part agrees ht visible
      rw [hpart]
      exact .expectWeak real known defined
  | fail code =>
      simp only [checks, Bool.and_eq_true, decide_eq_true_eq, List.all_eq_true] at h
      obtain ⟨⟨high, known⟩, stuck⟩ := h
      exact .fail high known (not_mem_starts agrees visible (by simpa using stuck t ht))
  | call n =>
      simp only [checks, Bool.and_eq_true, decide_eq_true_eq, List.all_eq_true] at h
      obtain ⟨hpart, between⟩ := h
      apply predicts_of_part agrees ht visible
      rw [hpart]
      refine .call fun k hk hF => ?_
      have := between k (mem_kinds.mpr hk)
      simpa [show F k = true from hF] using this
  | seq a b iha ihb =>
      rw [checks] at h
      split at h
      · rename_i x y hpart
        rw [Bool.and_eq_true] at h
        apply predicts_of_part agrees ht visible
        rw [hpart]
        exact .seq (fun k hk => mayStart_of_mem_starts agrees hk) (iha h.1 ht visible)
          fun k hk => ihb h.2 (mem_kinds.mpr hk) hk
      · contradiction
  | ifElse test a b iha ihb =>
      simp only [checks, Bool.and_eq_true, Bool.or_eq_true, List.isEmpty_iff] at h
      obtain ⟨⟨defined, ha⟩, hb⟩ := h
      cases admitted : test.admits s.tables t with
      | true =>
          have ht : t ∈ look.filter (test.admits s.tables ·) := List.mem_filter.mpr ⟨ht, admitted⟩
          exact .yes defined admitted (iha (ha.resolve_left (List.ne_nil_of_mem ht)) ht visible)
      | false =>
          have ht : t ∈ look.filter (!test.admits s.tables ·) :=
            List.mem_filter.mpr ⟨ht, by simp [admitted]⟩
          exact .no defined admitted (ihb (hb.resolve_left (List.ne_nil_of_mem ht)) ht visible)
  | whileDo test body ih =>
      rw [checks] at h
      split at h
      · rename_i x hpart
        simp only [Bool.and_eq_true, List.all_eq_true] at h
        obtain ⟨⟨defined, hbody⟩, decides⟩ := h
        apply predicts_of_part agrees ht visible
        rw [hpart]
        refine .whileDo defined (fun k hk => mayStart_of_mem_starts agrees hk)
          (fun k hk admitted =>
            ih hbody (List.mem_filter.mpr ⟨mem_kinds.mpr hk, admitted⟩) hk)
          (fun k hk admitted => ?_) fun k hk admitted => ?_
        · simpa [admitted] using decides k (mem_kinds.mpr hk)
        · exact not_mem_lang_of_begins agrees hk
            (by simpa [admitted] using decides k (mem_kinds.mpr hk))
      · contradiction
  | separated k element behind body ih =>
      rw [checks] at h
      split at h
      · rename_i j x hpart
        simp only [Bool.and_eq_true, decide_eq_true_eq, List.all_eq_true] at h
        obtain ⟨⟨⟨rfl, real, known, helement, hbehind, enter⟩, hbody⟩, decides⟩ := h
        apply predicts_of_part agrees ht visible
        rw [hpart]
        refine .separated real known helement hbehind
          (fun i hi => mayStart_of_mem_starts agrees hi)
          (fun i hi => ih hbody (mem_kinds.mpr hi) hi) (by simpa using enter) fun i hi hF => ?_
        have := decides i (mem_kinds.mpr hi)
        simpa [show F i = true from hF] using this
      · contradiction

theorem right_of_checks (agrees : s.Agrees) {g : Grammar N}
    (h : ∀ n, s.checks s.kinds (s.follow n).contains (g.body n) (s.rules n) = true) :
    s.Right g where
  body n t visible := by
    have := predicts_of_checks agrees (h n) (mem_kinds.mpr visible) visible
    simpa using this

/-! ## Lists of actions -/

variable (s)

/-- Whether actions are right for phrases, one for each, where the lookahead is out of `look` and
something of `F` is behind the phrases. -/
def leads (look : List Kind) (F : Kind → Bool) : List (Action N) → List (Ebnf N) → Bool
  | [], [] => true
  | a :: as, e :: es => s.checks look (s.opens F es) a e && leads s.kinds F as es
  | _, _ => false

variable {s} {behind : Language Kind} {look : List Kind} {F : Kind → Bool}
  {as bs : List (Action N)} {es fs : List (Ebnf N)}

theorem ready_of_leads (agrees : s.Agrees) (h : s.leads look F as es = true)
    (next : ∀ k ≤ s.tables.maxKind, ∀ v, k :: v ∈ Ebnf.texts s.rules behind fs → F k = true)
    (rest : ∀ k ≤ s.tables.maxKind, Ready s behind k bs fs) {k : Kind} (hk : k ∈ look)
    (visible : k ≤ s.tables.maxKind) : Ready s behind k (as ++ bs) (es ++ fs) := by
  induction as generalizing look es k with
  | nil =>
      cases es with
      | nil => exact rest k visible
      | cons e es => contradiction
  | cons a as ih =>
      cases es with
      | nil => contradiction
      | cons e es =>
          rw [leads, Bool.and_eq_true] at h
          refine .cons (predicts_of_checks agrees h.1 hk visible) ?_
            fun j hj => ih h.2 (mem_kinds.mpr hj) hj
          intro j hj v hv
          have hv : j :: v ∈ Ebnf.texts s.rules (Ebnf.texts s.rules behind fs) es :=
            Ebnf.texts_append ▸ hv
          exact opens_of_mem_texts agrees next hj hv

end Guide

end OberonFront
