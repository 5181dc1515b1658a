import OberonFront.Lexicon.Blank
import OberonFront.Token.Sequence

/-!
# Scanning

The tokens of a text.  From the first character on the automaton follows its
edges as far as they lead, so a token is as long as it can be; where the last
state says so, the characters that were only looked at are given back.  Every
token takes at least one character, the end of the text apart.
-/

namespace OberonFront

/-- A place to which a token can be cut back: the characters it holds there, last one first, and
what is unread there. -/
structure Mark where
  read : List Char
  unread : Unread

structure Scanned where
  kind : Kind
  chars : List Char
  unread : Unread

/-- What a scan keeps of the text it ran over: the characters of the token and of the rest make up
the text, and the token is not empty. -/
structure Scanned.Splits (s : Scanned) (text : List Char) : Prop where
  append_eq : s.chars ++ s.unread.rest = text
  ne_nil : s.chars ≠ []

namespace Lexicon

def finish
    (x : Lexicon) (state : Nat) (mark? : Option Mark) (read : List Char) (u : Unread) : Scanned :=
  match x.exit state with
  | .accept kind => ⟨kind, read.reverse, u⟩
  | .identifier kind =>
      ⟨(x.keyword? (String.ofList read.reverse)).getD kind, read.reverse, u⟩
  | .reject => ⟨x.unknown, read.reverse, u⟩
  | .rewind kind =>
      match mark? with
      | some m => ⟨kind, m.read.reverse, m.unread⟩
      | none => ⟨kind, read.reverse, u⟩

/-- Follows the edges from a state to the end of the token.  `read` is what the token holds so
far, last character first, and `mark?` where the present run of context edges began. -/
def munch
    (x : Lexicon) (state : Nat) (mark? : Option Mark) (read : List Char) (position : Position) :
    List Char → Scanned
  | [] => x.finish state mark? read ⟨position, []⟩
  | c :: rest =>
      match x.edge? state c.toNat with
      | none => x.finish state mark? read ⟨position, c :: rest⟩
      | some e =>
          let mark? := if e.context then mark?.or (some ⟨read, ⟨position, c :: rest⟩⟩) else none
          x.munch e.target mark? (c :: read) (position.next c) rest

/-- The first token of what is unread, and what is left behind it.  At the end of the text the
token is the end of the text, and nothing moves. -/
def nextToken (x : Lexicon) (u : Unread) : Token × Unread :=
  let u := x.skipBlanks u
  match u.rest with
  | [] => (.endAt u.position, u)
  | c :: rest =>
      let s := x.munch (x.start.stateFor c.toNat) none [c] (u.position.next c) rest
      (⟨s.kind, String.ofList s.chars, u.position⟩, s.unread)

theorem splits_finish
    {x : Lexicon} {state : Nat} {mark? : Option Mark} {read : List Char} {u : Unread}
    {text : List Char} (h : read.reverse ++ u.rest = text) (ne : read ≠ [])
    (hm : ∀ m ∈ mark?, m.read.reverse ++ m.unread.rest = text ∧ m.read ≠ []) :
    (x.finish state mark? read u).Splits text := by
  unfold finish
  split
  · exact ⟨h, by simpa using ne⟩
  · exact ⟨h, by simpa using ne⟩
  · exact ⟨h, by simpa using ne⟩
  · split
    · rename_i m
      obtain ⟨h, ne⟩ := hm m rfl
      exact ⟨h, by simpa using ne⟩
    · exact ⟨h, by simpa using ne⟩

theorem splits_munch
    {x : Lexicon} {state : Nat} {mark? : Option Mark} {read : List Char} {position : Position}
    {rest text : List Char} (h : read.reverse ++ rest = text) (ne : read ≠ [])
    (hm : ∀ m ∈ mark?, m.read.reverse ++ m.unread.rest = text ∧ m.read ≠ []) :
    (x.munch state mark? read position rest).Splits text := by
  induction rest generalizing state mark? read position with
  | nil => exact splits_finish h ne hm
  | cons c rest ih =>
      unfold munch
      split
      · exact splits_finish h ne hm
      · rename_i e _
        refine ih (by simpa using h) (by simp) ?_
        intro m hmem
        split at hmem
        · cases mark? with
          | some n => exact hm m hmem
          | none =>
              cases hmem
              exact ⟨h, ne⟩
        · contradiction

/-- A token that is not the end of the text shortens what is unread. -/
theorem length_nextToken_lt
    {x : Lexicon} {u : Unread} (h : (x.nextToken u).1.kind ≠ Kind.eof) :
    (x.nextToken u).2.rest.length < u.rest.length := by
  have le := x.length_skipBlanks_le u
  revert h
  unfold nextToken
  dsimp only
  split
  · intro h
    exact absurd rfl h
  · rename_i c rest hrest
    intro _
    have s : (x.munch (x.start.stateFor c.toNat) none [c]
        ((x.skipBlanks u).position.next c) rest).Splits (c :: rest) :=
      splits_munch rfl (by simp) (by simp)
    have len := congrArg List.length s.append_eq
    have pos := List.length_pos_iff.mpr s.ne_nil
    rw [hrest] at le
    simp only [List.length_append, List.length_cons] at len le
    dsimp only
    omega

/-- The tokens of what is unread, up to the first end of text. -/
def tokens (x : Lexicon) (u : Unread) : List Token :=
  go [] u
where
  /-- Puts the tokens in front of `done`, last one first. -/
  go (done : List Token) (u : Unread) : List Token :=
    let next := x.nextToken u
    if _more : next.1.kind = Kind.eof then (next.1 :: done).reverse
    else go (next.1 :: done) next.2
  termination_by u.rest.length
  decreasing_by exact length_nextToken_lt _more

theorem tokens.go_eq (x : Lexicon) (done : List Token) (u : Unread) :
    tokens.go x done u = done.reverse ++ x.tokens u := by
  unfold tokens
  suffices ∀ done extra : List Token,
      go x (done ++ extra) u = extra.reverse ++ go x done u by
    simpa using this [] done
  intro done
  fun_induction tokens.go x done u with
  | case1 done u next eof =>
      intro extra
      rw [go]
      simp [next, dif_pos eof]
  | case2 done u next more ih =>
      intro extra
      rw [go]
      simpa [next, dif_neg more] using ih extra

/-- The first token and those behind it, unless it is the end of the text. -/
theorem tokens_eq (x : Lexicon) (u : Unread) :
    x.tokens u =
      if (x.nextToken u).1.kind = Kind.eof then [(x.nextToken u).1]
      else (x.nextToken u).1 :: x.tokens (x.nextToken u).2 := by
  rw [tokens, tokens.go]
  split
  · simp
  · rw [tokens.go_eq]
    simp

def lex (x : Lexicon) (text : String) : TokenList :=
  .ofTokens (x.tokens (.ofText text))

end Lexicon

end OberonFront
