import OberonFront.Lexicon.Scan

/-!
# The tokens of a text

What scanning hands out, whatever the automaton: each token is the next one of
some place that was reached by moving over characters, its kind is one that the
lexicon names, and the end of the text comes once and last.
-/

namespace OberonFront

namespace Position

theorem line_pos_after {p : Position} (h : 0 < p.line) (cs : List Char) :
    0 < (p.after cs).line := by
  induction cs generalizing p with
  | nil => exact h
  | cons c cs ih =>
      apply ih
      unfold next
      split
      · exact Nat.succ_pos _
      · exact h

theorem column_pos_after {p : Position} (h : 0 < p.column) (cs : List Char) :
    0 < (p.after cs).column := by
  induction cs generalizing p with
  | nil => exact h
  | cons c cs ih =>
      apply ih
      unfold next
      split
      · exact Nat.one_pos
      · exact Nat.succ_pos _

end Position

namespace Unread

def MovesTo (u v : Unread) : Prop :=
  ∃ cs, u.rest = cs ++ v.rest ∧ v.position = u.position.after cs

namespace MovesTo

variable {u v w : Unread}

theorem refl (u : Unread) : u.MovesTo u := ⟨[], rfl, rfl⟩

theorem trans (h : u.MovesTo v) (h' : v.MovesTo w) : u.MovesTo w := by
  obtain ⟨cs, rest, position⟩ := h
  obtain ⟨ds, rest', position'⟩ := h'
  refine ⟨cs ++ ds, ?_, ?_⟩
  · rw [rest, rest', List.append_assoc]
  · rw [position', position, Position.after_append]

theorem next {c : Char} {rest : List Char} (h : u.rest = c :: rest) :
    u.MovesTo ⟨u.position.next c, rest⟩ := ⟨[c], h, rfl⟩

theorem toEnd (u : Unread) : u.MovesTo u.toEnd := ⟨u.rest, by simp, rfl⟩

end MovesTo

end Unread

open Unread (MovesTo)

theorem Comment.moves_skip {k : Comment} {level : Nat} {position : Position} {text : List Char}
    {u : Unread} (h : k.skip level position text = some u) : MovesTo ⟨position, text⟩ u := by
  fun_induction skip k level position text with
  | case1 =>
      cases h
      exact (MovesTo.next rfl).trans (.next rfl)
  | case2 _ _ _ _ _ _ ih => exact ((MovesTo.next rfl).trans (.next rfl)).trans (ih h)
  | case3 _ _ _ _ _ _ _ ih => exact ((MovesTo.next rfl).trans (.next rfl)).trans (ih h)
  | case4 _ _ _ _ _ _ _ ih => exact (MovesTo.next rfl).trans (ih h)
  | case5 => contradiction

def Exit.kind? : Exit → Option Kind
  | .accept kind | .identifier kind | .rewind kind => some kind
  | .reject => none

namespace Lexicon

variable {x : Lexicon}

theorem moves_skipBlanks (x : Lexicon) (u : Unread) : u.MovesTo (x.skipBlanks u) := by
  fun_induction skipBlanks x u with
  | case1 => exact .refl _
  | case2 u a rest text _ ih => exact (MovesTo.next text).trans ih
  | case3 u a _ k rest _ v text skipped _ ih =>
      have opened := (MovesTo.next text).trans (.next rfl)
      exact (opened.trans (Comment.moves_skip skipped)).trans ih
  | case4 => exact .toEnd _
  | case5 => exact .refl _
  | case6 => exact .refl _

theorem moves_finish {state : Nat} {mark? : Option Mark} {read : List Char} {o u : Unread}
    (h : o.MovesTo u) (hm : ∀ m ∈ mark?, o.MovesTo m.unread) :
    o.MovesTo (x.finish state mark? read u).unread := by
  unfold finish
  split
  · exact h
  · exact h
  · exact h
  · split
    · exact hm _ rfl
    · exact h

theorem moves_munch {state : Nat} {mark? : Option Mark} {read : List Char} {position : Position}
    {rest : List Char} {o : Unread} (h : o.MovesTo ⟨position, rest⟩)
    (hm : ∀ m ∈ mark?, o.MovesTo m.unread) :
    o.MovesTo (x.munch state mark? read position rest).unread := by
  induction rest generalizing state mark? read position with
  | nil => exact moves_finish h hm
  | cons c rest ih =>
      unfold munch
      split
      · exact moves_finish h hm
      · refine ih (h.trans (.next rfl)) fun m hmem => ?_
        split at hmem
        · cases mark? with
          | some n => exact hm m hmem
          | none =>
              cases hmem
              exact h
        · contradiction

theorem moves_nextToken (x : Lexicon) (u : Unread) : u.MovesTo (x.nextToken u).2 := by
  have blanks := x.moves_skipBlanks u
  unfold nextToken
  dsimp only
  split
  · exact blanks
  · rename_i c rest text
    exact blanks.trans (moves_munch (.next text) (by simp))

theorem start_nextToken (x : Lexicon) (u : Unread) :
    (x.nextToken u).1.start = (x.skipBlanks u).position := by
  unfold nextToken
  dsimp only
  split <;> rfl

theorem exists_start_nextToken (x : Lexicon) (u : Unread) :
    ∃ v, u.MovesTo v ∧ (x.nextToken u).1.start = v.position :=
  ⟨x.skipBlanks u, x.moves_skipBlanks u, x.start_nextToken u⟩

/-- The tokens from one place on, from the first one to the end of the text. -/
theorem tokens_induction (x : Lexicon) {motive : Unread → List Token → Prop}
    (last : ∀ u, (x.nextToken u).1.kind = Kind.eof → motive u [(x.nextToken u).1])
    (more : ∀ u, (x.nextToken u).1.kind ≠ Kind.eof →
      motive (x.nextToken u).2 (x.tokens (x.nextToken u).2) →
      motive u ((x.nextToken u).1 :: x.tokens (x.nextToken u).2)) (u : Unread) :
    motive u (x.tokens u) := by
  induction hn : u.rest.length using Nat.strongRecOn generalizing u with
  | ind n ih =>
      rw [tokens_eq]
      split
      · exact last u ‹_›
      · rename_i further
        exact more u further (ih _ (hn ▸ length_nextToken_lt further) _ rfl)

theorem exists_eq_nextToken {u : Unread} {t : Token} (h : t ∈ x.tokens u) :
    ∃ v, u.MovesTo v ∧ t = (x.nextToken v).1 := by
  refine x.tokens_induction
    (motive := fun u ts => t ∈ ts → ∃ v, u.MovesTo v ∧ t = (x.nextToken v).1) ?_ ?_ u h
  · exact fun u _ h => ⟨u, .refl u, List.mem_singleton.mp h⟩
  · intro u _ ih h
    rcases List.mem_cons.mp h with rfl | h
    · exact ⟨u, .refl u, rfl⟩
    · obtain ⟨v, moves, eq⟩ := ih h
      exact ⟨v, (x.moves_nextToken u).trans moves, eq⟩

/-- The end of the text is the last token and no other one. -/
theorem exists_tokens_eq (x : Lexicon) (u : Unread) :
    ∃ ts e, x.tokens u = ts ++ [e] ∧ e.kind = Kind.eof ∧ ∀ t ∈ ts, t.kind ≠ Kind.eof := by
  refine x.tokens_induction (motive := fun _ all =>
    ∃ ts e, all = ts ++ [e] ∧ e.kind = Kind.eof ∧ ∀ t ∈ ts, t.kind ≠ Kind.eof) ?_ ?_ u
  · exact fun u eof => ⟨[], _, rfl, eof, by simp⟩
  · rintro u more ⟨ts, e, eq, eof, others⟩
    refine ⟨(x.nextToken u).1 :: ts, e, by rw [eq, List.cons_append], eof, ?_⟩
    exact fun t ht => (List.mem_cons.mp ht).elim (fun h => h ▸ more) (others t)

/-! ## Kinds -/

def kinds (x : Lexicon) : List Kind :=
  Kind.eof :: x.unknown :: (x.keywords.map (·.2) ++ x.states.filterMap (·.exit.kind?))

theorem mem_kinds_of_keyword? {text : String} {kind : Kind} (h : x.keyword? text = some kind) :
    kind ∈ x.kinds := by
  obtain ⟨entry, found, rfl⟩ := Option.map_eq_some_iff.mp h
  have := List.mem_map_of_mem (f := (·.2)) (List.mem_of_find?_eq_some found)
  simp [kinds, this]

theorem mem_kinds_of_exit (index : Nat) {kind : Kind} (h : (x.exit index).kind? = some kind) :
    kind ∈ x.kinds := by
  unfold exit at h
  cases hq : x.state? index with
  | none =>
      rw [hq] at h
      cases h
  | some q =>
      have exits : q.exit.kind? = some kind := by rwa [hq] at h
      unfold state? at hq
      split at hq
      · cases hq
      · have : kind ∈ x.states.filterMap (·.exit.kind?) :=
          List.mem_filterMap.mpr ⟨q, List.mem_of_getElem? hq, exits⟩
        simp [kinds, this]

theorem kind_finish_mem (x : Lexicon) (state : Nat) (mark? : Option Mark) (read : List Char)
    (u : Unread) : (x.finish state mark? read u).kind ∈ x.kinds := by
  unfold finish
  split
  · rename_i kind h
    exact mem_kinds_of_exit state (by rw [h]; rfl)
  · rename_i kind h
    cases hw : x.keyword? (String.ofList read.reverse) with
    | some word => exact mem_kinds_of_keyword? hw
    | none => exact mem_kinds_of_exit state (by rw [h]; rfl)
  · simp [kinds]
  · rename_i kind h
    have := mem_kinds_of_exit (x := x) state (by rw [h]; rfl)
    split <;> exact this

theorem kind_munch_mem (x : Lexicon) (state : Nat) (mark? : Option Mark) (read : List Char)
    (position : Position) (rest : List Char) :
    (x.munch state mark? read position rest).kind ∈ x.kinds := by
  induction rest generalizing state mark? read position with
  | nil => exact x.kind_finish_mem _ _ _ _
  | cons c rest ih =>
      unfold munch
      split
      · exact x.kind_finish_mem _ _ _ _
      · exact ih _ _ _ _

theorem kind_nextToken_mem (x : Lexicon) (u : Unread) : (x.nextToken u).1.kind ∈ x.kinds := by
  unfold nextToken
  dsimp only
  split
  · simp [kinds, Token.endAt]
  · exact x.kind_munch_mem _ _ _ _ _

/-! ## The sequence of a text -/

theorem toList_lex (x : Lexicon) (text : String) :
    (x.lex text).toList = x.tokens (.ofText text) := by
  obtain ⟨ts, e, eq, eof, -⟩ := x.exists_tokens_eq (.ofText text)
  have ends : ∃ ne : x.tokens (.ofText text) ≠ [],
      ((x.tokens (.ofText text)).getLast ne).kind = Kind.eof :=
    ⟨by simp [eq], by simp [eq, eof]⟩
  rw [lex, TokenList.ofTokens, dif_pos ends]

theorem kind_mem_of_mem_lex {text : String} {t : Token} (h : t ∈ (x.lex text).toList) :
    t.kind ∈ x.kinds := by
  rw [toList_lex] at h
  obtain ⟨v, -, rfl⟩ := exists_eq_nextToken h
  exact x.kind_nextToken_mem v

theorem exists_start_of_mem_lex {text : String} {t : Token} (h : t ∈ (x.lex text).toList) :
    ∃ u, (Unread.ofText text).MovesTo u ∧ t.start = u.position := by
  rw [toList_lex] at h
  obtain ⟨v, moves, rfl⟩ := exists_eq_nextToken h
  obtain ⟨w, moves', start⟩ := x.exists_start_nextToken v
  exact ⟨w, moves.trans moves', start⟩

theorem start_pos_of_mem_lex {text : String} {t : Token} (h : t ∈ (x.lex text).toList) :
    0 < t.start.line ∧ 0 < t.start.column := by
  obtain ⟨u, ⟨cs, -, position⟩, start⟩ := exists_start_of_mem_lex h
  rw [start, position]
  exact ⟨Position.line_pos_after Nat.one_pos cs, Position.column_pos_after Nat.one_pos cs⟩

/-- The kinds of a text, less the end of it. -/
theorem kinds_lex (x : Lexicon) (text : String) :
    (x.lex text).kinds = (x.lex text).kinds.dropLast ++ [Kind.eof] ∧
      Kind.eof ∉ (x.lex text).kinds.dropLast := by
  obtain ⟨ts, e, eq, eof, others⟩ := x.exists_tokens_eq (.ofText text)
  have kinds : (x.lex text).kinds = ts.map Token.kind ++ [Kind.eof] := by
    rw [TokenList.kinds, toList_lex, eq, List.map_append, List.map_singleton, eof]
  rw [kinds, List.dropLast_concat]
  refine ⟨rfl, fun h => ?_⟩
  obtain ⟨t, ht, hk⟩ := List.mem_map.mp h
  exact others t ht hk

theorem length_lex (x : Lexicon) (text : String) :
    (x.lex text).toList.length = (x.lex text).kinds.dropLast.length + 1 := by
  have len := congrArg List.length (x.kinds_lex text).1
  rwa [TokenList.kinds, List.length_map, List.length_append, List.length_singleton] at len

end Lexicon

end OberonFront
