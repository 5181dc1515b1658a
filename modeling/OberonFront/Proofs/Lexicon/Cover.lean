import Mathlib.Logic.Function.Iterate
import OberonFront.Proofs.Lexicon.Gap
import OberonFront.Proofs.Text.Lines

/-!
# The tokens and the gaps make up the text

One call of the scanner passes over a gap and hands out the characters behind
it, or comes to the end of the text.  So every character of a text is in one
token or in one gap, whatever the automaton looked at and gave back.
-/

namespace OberonFront

open Unread (MovesTo)

namespace Unread.MovesTo

variable {u v : Unread} {cs ds : List Char}

theorem position_eq (h : u.MovesTo v) (eq : u.rest = cs ++ v.rest) :
    v.position = u.position.after cs := by
  obtain ⟨ds, eq', position⟩ := h
  rw [position, List.append_cancel_right (eq.symm.trans eq')]

theorem offset_le (h : u.MovesTo v) : u.position.offset ≤ v.position.offset := by
  obtain ⟨cs, -, position⟩ := h
  rw [position, Position.offset_after]
  exact Nat.le_add_right _ _

variable {source : String}

/-- What is unread is the text from the offset of its first character on. -/
theorem drop_offset (h : (ofText source).MovesTo u) :
    (unifyLineEnds source.toList).drop u.position.offset = u.rest := by
  obtain ⟨cs, text, position⟩ := h
  change unifyLineEnds source.toList = cs ++ u.rest at text
  change u.position = Position.start.after cs at position
  rw [text, position, Position.offset_after]
  simp [Position.start]

/-- The position is that behind the characters read so far. -/
theorem position_eq_take (h : (ofText source).MovesTo u) :
    u.position = Position.start.after ((unifyLineEnds source.toList).take u.position.offset) := by
  apply h.position_eq
  rw [← h.drop_offset]
  exact (List.take_append_drop _ _).symm

theorem offset_add_length (h : (ofText source).MovesTo u) :
    u.position.offset + u.rest.length = source.length := by
  obtain ⟨cs, text, position⟩ := h
  change unifyLineEnds source.toList = cs ++ u.rest at text
  change u.position = Position.start.after cs at position
  have len := congrArg List.length text
  rw [length_unifyLineEnds, List.length_append, String.length_toList] at len
  rw [len, position, Position.offset_after]
  exact Nat.add_right_cancel_iff.mpr (Nat.zero_add _)

theorem extract_eq (h : (ofText source).MovesTo u) (eq : u.rest = cs ++ ds) :
    (unifyLineEnds source.toList).extract u.position.offset (u.position.offset + cs.length) =
      cs := by
  rw [List.extract_eq_take_drop, h.drop_offset, eq, Nat.add_sub_cancel_left, List.take_left]

/-- The characters read next are those of the text at their offsets. -/
theorem getElem?_eq (h : (ofText source).MovesTo u) (eq : u.rest = cs ++ ds) {i : Nat}
    (lt : i < cs.length) : cs[i]? = symbolAt source.toList (u.position.offset + i) := by
  rw [← getElem?_unifyLineEnds, ← List.getElem?_drop, h.drop_offset, eq,
    List.getElem?_append_left lt]

end Unread.MovesTo

namespace Token

def stop (t : Token) : Nat := t.start.offset + t.length

/-- The token has characters, and they are what is read from its start on. -/
structure SpelledIn (t : Token) (text : List Char) : Prop where
  ne_nil : t.text.toList ≠ []
  symbols : ∀ i < t.length, t.text.toList[i]? = symbolAt text (t.start.offset + i)

theorem SpelledIn.start_lt_stop {t : Token} {text : List Char} (h : t.SpelledIn text) :
    t.start.offset < t.stop :=
  Nat.lt_add_of_pos_right (List.length_pos_iff.mpr h.ne_nil)

end Token

namespace Lexicon

variable {x : Lexicon} {u : Unread} {source : String}

/-! ## One call -/

/-- What one call of the scanner does: it passes over a gap and hands out the characters behind
it, or nothing but a gap and an open comment is left and it comes to the end of the text. -/
inductive Hands (x : Lexicon) (u : Unread) : Token → Unread → Prop where
  | token {t : Token} {v : Unread} {gap : List Char} (isGap : x.Gap gap)
      (text : u.rest = gap ++ (t.text.toList ++ v.rest)) (ne_nil : t.text.toList ≠ [])
      (start : t.start = u.position.after gap) (moves : u.MovesTo v) : Hands x u t v
  | ends (trailing : x.Trailing u.rest) : Hands x u (.endAt u.toEnd.position) u.toEnd

theorem nextToken_of_rest_eq_nil (h : u.rest = []) : x.nextToken u = (.endAt u.position, u) := by
  have stays : x.skipBlanks u = u := by
    unfold skipBlanks
    split
    · rfl
    · rename_i text
      rw [h] at text
      cases text
  unfold nextToken
  rw [stays]
  simp only [h]

theorem hands (x : Lexicon) (u : Unread) : x.Hands u (x.nextToken u).1 (x.nextToken u).2 := by
  obtain ⟨gap, text, kind⟩ := x.exists_gap_skipBlanks u
  have blanks := x.moves_skipBlanks u
  have position := blanks.position_eq text
  cases left : (x.skipBlanks u).rest with
  | nil =>
      have all : u.rest = gap := by rw [text, left, List.append_nil]
      have trailing : x.Trailing u.rest := by
        rcases kind with isGap | ⟨-, trailing⟩
        · exact ⟨gap, [], by rw [all, List.append_nil], isGap, .inl rfl⟩
        · rwa [all]
      have atEnd : x.skipBlanks u = u.toEnd := by
        rw [Unread.toEnd, all, ← position, ← left]
      have eof : x.nextToken u = (.endAt u.toEnd.position, u.toEnd) := by
        unfold nextToken
        rw [atEnd]
        simp only [Unread.rest_toEnd]
      rw [eof]
      exact .ends trailing
  | cons c rest =>
      have isGap : x.Gap gap := kind.resolve_right fun h => by simp [left] at h
      have moves := x.moves_nextToken u
      have splits : (x.munch (x.start.stateFor c.toNat) none [c]
          ((x.skipBlanks u).position.next c) rest).Splits (c :: rest) :=
        splits_munch rfl (by simp) (by simp)
      have eq : x.nextToken u =
          (let s := x.munch (x.start.stateFor c.toNat) none [c]
            ((x.skipBlanks u).position.next c) rest
          (⟨s.kind, String.ofList s.chars, (x.skipBlanks u).position⟩, s.unread)) := by
        unfold nextToken
        simp only [left]
      rw [eq] at moves ⊢
      refine .token isGap ?_ ?_ position moves
      · rw [text, left, String.toList_ofList, splits.append_eq]
      · rw [String.toList_ofList]
        exact splits.ne_nil

/-! ## All calls -/

def unreadAfter (x : Lexicon) (source : String) (calls : Nat) : Unread :=
  (fun u => (x.nextToken u).2)^[calls] (.ofText source)

def nthToken (x : Lexicon) (source : String) (calls : Nat) : Token :=
  (x.nextToken (x.unreadAfter source calls)).1

theorem unreadAfter_succ (x : Lexicon) (source : String) (calls : Nat) :
    x.unreadAfter source (calls + 1) = (x.nextToken (x.unreadAfter source calls)).2 :=
  Function.iterate_succ_apply' _ _ _

theorem moves_unreadAfter (x : Lexicon) (source : String) (calls : Nat) :
    (Unread.ofText source).MovesTo (x.unreadAfter source calls) := by
  induction calls with
  | zero => exact .refl _
  | succ calls ih =>
      rw [unreadAfter_succ]
      exact ih.trans (x.moves_nextToken _)

theorem eq_nthToken {calls : Nat} {t : Token}
    (h : (x.lex source).toList[calls]? = some t) : t = x.nthToken source calls := by
  rw [toList_lex] at h
  unfold nthToken unreadAfter
  generalize Unread.ofText source = u at h
  induction calls generalizing u with
  | zero =>
      rw [tokens_eq] at h
      split at h <;> exact (Option.some.inj h).symm
  | succ calls ih =>
      rw [tokens_eq] at h
      split at h
      · cases h
      · exact ih _ h

/-- Once the end of the text is handed out, it is handed out for ever. -/
theorem nthToken_eq_of_le {first calls : Nat}
    (h : (x.nthToken source first).start.offset = source.length) (le : first ≤ calls) :
    x.nthToken source calls = x.nthToken source first := by
  have moves := x.moves_unreadAfter source first
  have hands := x.hands (x.unreadAfter source first)
  have stays : x.nextToken (x.unreadAfter source (first + 1)) =
      (x.nthToken source first, x.unreadAfter source (first + 1)) := by
    rw [unreadAfter_succ]
    unfold nthToken at h ⊢
    generalize x.nextToken (x.unreadAfter source first) = result at h hands ⊢
    obtain ⟨t, v⟩ := result
    cases hands with
    | ends => exact nextToken_of_rest_eq_nil rfl
    | token isGap text ne_nil start moves' =>
        exfalso
        have len := moves.offset_add_length
        have pos := List.length_pos_iff.mpr ne_nil
        rw [text, List.length_append, List.length_append] at len
        change t.start.offset = _ at h
        rw [start, Position.offset_after] at h
        omega
  obtain ⟨more, rfl⟩ := Nat.exists_eq_add_of_le' le
  cases more with
  | zero => rw [Nat.zero_add]
  | succ more =>
      have fixed : x.unreadAfter source (more + (first + 1)) =
          x.unreadAfter source (first + 1) := by
        rw [unreadAfter, Function.iterate_add_apply]
        exact Function.iterate_fixed (congrArg Prod.snd stays) more
      rw [nthToken, Nat.add_right_comm, Nat.add_assoc, fixed, stays]

/-! ## The whole text -/

/-- Each token beside the offset at which the one before it stops. -/
def origins (tokens : List Token) : List (Nat × Token) :=
  (0 :: tokens.map Token.stop).zip tokens

/-- A token stands for the end of a text: it starts there, and what is read before it from an
offset on is only a gap and possibly an open comment. -/
structure EndsText (x : Lexicon) (source : String) (origin : Nat) (t : Token) : Prop where
  eq_endAt : t = .endAt t.start
  offset_eq : t.start.offset = source.length
  origin_le : origin ≤ source.length
  trailing : x.Trailing ((unifyLineEnds source.toList).drop origin)

/-- A token is spelled in a text, and what is read before it from an offset on is a gap. -/
structure FollowsGap (x : Lexicon) (source : String) (origin : Nat) (t : Token) : Prop where
  spelled : t.SpelledIn source.toList
  origin_le : origin ≤ t.start.offset
  gap : x.Gap ((unifyLineEnds source.toList).extract origin t.start.offset)

structure Lossless (x : Lexicon) (source : String) : Prop where
  /-- One token is of the kind of the end, and it is the last one. -/
  eof_last : ∃ ts last, (x.lex source).toList = ts ++ [last] ∧ last.kind = Kind.eof ∧
    ∀ t ∈ ts, t.kind ≠ Kind.eof
  /-- A token stops before the later ones start. -/
  apart : (x.lex source).toList.Pairwise fun s t => s.stop ≤ t.start.offset
  /-- Tokens and gaps take turns, up to the end of the text. -/
  covered : ∀ origin t, (origin, t) ∈ origins (x.lex source).toList →
    x.FollowsGap source origin t ∨ x.EndsText source origin t
  /-- The tokens are handed out one by one. -/
  called : ∀ calls t, (x.lex source).toList[calls]? = some t → t = x.nthToken source calls
  /-- The end of the text is handed out again by every further call. -/
  repeated : ∀ last, (x.lex source).toList.getLast? = some last →
    last.start.offset = source.length →
      ∀ calls, (x.lex source).toList.length ≤ calls + 1 → x.nthToken source calls = last

/-- The next token from a place in a text. -/
theorem nextToken_covered (moves : (Unread.ofText source).MovesTo u) :
    x.FollowsGap source u.position.offset (x.nextToken u).1 ∧
        (x.nextToken u).2.position.offset = (x.nextToken u).1.stop ∨
      x.EndsText source u.position.offset (x.nextToken u).1 := by
  have hands := x.hands u
  generalize x.nextToken u = result at hands
  obtain ⟨t, v⟩ := result
  cases hands with
  | @token _ _ gap isGap text ne_nil start moves' =>
      have offset : t.start.offset = u.position.offset + gap.length := by
        rw [start, Position.offset_after]
      have atStart : (Unread.ofText source).MovesTo ⟨t.start, t.text.toList ++ v.rest⟩ :=
        moves.trans ⟨gap, text, start⟩
      refine .inl ⟨⟨⟨ne_nil, fun i lt => ?_⟩, ?_, ?_⟩, ?_⟩
      · exact atStart.getElem?_eq rfl lt
      · rw [offset]
        exact Nat.le_add_right _ _
      · rwa [offset, moves.extract_eq text]
      · have behind := moves'.position_eq (text.trans (List.append_assoc _ _ _).symm)
        change v.position.offset = t.stop
        rw [behind, Position.offset_after, List.length_append, ← Nat.add_assoc, ← offset]
        rfl
  | ends trailing =>
      have offset : u.toEnd.position.offset = source.length := by
        rw [← moves.offset_add_length]
        exact Position.offset_after _ _
      refine .inr ⟨rfl, offset, ?_, ?_⟩
      · rw [← moves.offset_add_length]
        exact Nat.le_add_right _ _
      · rwa [moves.drop_offset]

theorem covered_tokens (moves : (Unread.ofText source).MovesTo u) {origin : Nat} {t : Token}
    (h : (origin, t) ∈ (u.position.offset :: (x.tokens u).map Token.stop).zip (x.tokens u)) :
    x.FollowsGap source origin t ∨ x.EndsText source origin t := by
  revert moves h
  refine x.tokens_induction (motive := fun u ts => (Unread.ofText source).MovesTo u →
    (origin, t) ∈ (u.position.offset :: ts.map Token.stop).zip ts →
      x.FollowsGap source origin t ∨ x.EndsText source origin t) ?_ ?_ u
  · intro u _ moves h
    cases List.mem_singleton.mp h
    exact (nextToken_covered moves).imp_left And.left
  · intro u further ih moves h
    rcases List.mem_cons.mp h with first | later
    · cases first
      exact (nextToken_covered moves).imp_left And.left
    · refine ih (moves.trans (x.moves_nextToken u)) ?_
      rcases nextToken_covered (x := x) moves with ⟨-, stop⟩ | ends
      · rwa [stop]
      · rw [ends.eq_endAt] at further
        exact absurd rfl further

/-- A token that another one follows is not empty, and stops before that one starts. -/
theorem pairwise_tokens (moves : (Unread.ofText source).MovesTo u) :
    (x.tokens u).Pairwise fun s t => s.start.offset < s.stop ∧ s.stop ≤ t.start.offset := by
  revert moves
  refine x.tokens_induction (motive := fun u ts => (Unread.ofText source).MovesTo u →
    ts.Pairwise fun s t => s.start.offset < s.stop ∧ s.stop ≤ t.start.offset) ?_ ?_ u
  · exact fun u _ _ => List.pairwise_singleton _ _
  · intro u further ih moves
    refine .cons (fun t mem => ?_) (ih (moves.trans (x.moves_nextToken u)))
    obtain ⟨v, moves', rfl⟩ := exists_eq_nextToken mem
    obtain ⟨w, moves'', start⟩ := x.exists_start_nextToken v
    rcases nextToken_covered (x := x) moves with ⟨follows, stop⟩ | ends
    · rw [start, ← stop]
      exact ⟨stop ▸ follows.spelled.start_lt_stop, (moves'.trans moves'').offset_le⟩
    · rw [ends.eq_endAt] at further
      exact absurd rfl further

/-- No character of a text is lost, and none is in two tokens. -/
theorem lex_lossless (x : Lexicon) (source : String) : x.Lossless source where
  eof_last := by
    rw [toList_lex]
    exact x.exists_tokens_eq _
  apart := by
    rw [toList_lex]
    exact (pairwise_tokens (.refl _)).imp And.right
  covered origin t h := by
    rw [toList_lex] at h
    exact covered_tokens (.refl _) h
  called calls t h := eq_nthToken h
  repeated last h atEnd calls le := by
    rw [List.getLast?_eq_getElem?] at h
    rw [eq_nthToken h] at atEnd ⊢
    exact nthToken_eq_of_le atEnd (by omega)

end Lexicon

end OberonFront
