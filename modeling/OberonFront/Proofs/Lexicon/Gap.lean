import OberonFront.Proofs.Lexicon.Tokens

/-!
# What stands between tokens

Closed comments are texts that a reader goes over from left to right, a closing
bracket lowering the depth and, where comments nest, an opening one raising it.
What skipping passes over is made of blanks and closed comments, and only at the
end of the text there may be a comment that is never closed.
-/

namespace OberonFront

namespace Comment

/-- Inside a comment the two characters open a further one.  No bracket opens there that starts like
one that closes. -/
structure Nests (k : Comment) (a b : Char) : Prop where
  nested : k.nested = true
  opens : (a, b) = k.opener
  first : a ≠ k.closer.1

theorem opensInside_iff {k : Comment} {a b : Char} : k.opensInside a b = true ↔ k.Nests a b := by
  simp only [opensInside, Bool.and_eq_true, bne_iff_ne, beq_iff_eq]
  exact ⟨fun h => ⟨h.1.1, h.2, h.1.2⟩, fun h => ⟨⟨h.nested, h.first⟩, h.opens⟩⟩

/-- A text, read inside a comment of which `level` others are open around it, closes all of them
with its last two characters. -/
inductive Closes (k : Comment) : Nat → List Char → Prop where
  | last : Closes k 0 [k.closer.1, k.closer.2]
  | leave {level : Nat} {c : List Char} (next : Closes k level c) :
      Closes k (level + 1) (k.closer.1 :: k.closer.2 :: c)
  | enter {level : Nat} {a b : Char} {c : List Char} (opens : k.Nests a b)
      (next : Closes k (level + 1) c) : Closes k level (a :: b :: c)
  | pass {level : Nat} {a b : Char} {c : List Char} (stays : (a, b) ≠ k.closer)
      (plain : ¬ k.Nests a b) (next : Closes k level (b :: c)) :
      Closes k level (a :: b :: c)

/-- A comment from its opening bracket to the closing bracket that belongs to it. -/
def Closed (k : Comment) (text : List Char) : Prop :=
  ∃ inside, text = k.opener.1 :: k.opener.2 :: inside ∧ k.Closes 0 inside

/-- A comment from its opening bracket on that has no closing bracket. -/
def Unclosed (k : Comment) (text : List Char) : Prop :=
  ∃ inside, text = k.opener.1 :: k.opener.2 :: inside ∧ ∀ c, c <+: inside → ¬ k.Closes 0 c

variable {k : Comment} {level : Nat}

theorem Nests.ne_closer {a b : Char} (h : k.Nests a b) : (a, b) ≠ k.closer :=
  fun eq => h.first (congrArg Prod.fst eq)

theorem exists_closes_of_skip {position : Position} {text : List Char} {u : Unread}
    (h : k.skip level position text = some u) : ∃ c, text = c ++ u.rest ∧ k.Closes level c := by
  fun_induction skip k level position text with
  | case1 position a b rest eq =>
      cases h
      refine ⟨[a, b], rfl, ?_⟩
      rw [show a = k.closer.1 by rw [← eq], show b = k.closer.2 by rw [← eq]]
      exact .last
  | case2 position a b rest eq level ih =>
      obtain ⟨c, rfl, closes⟩ := ih h
      refine ⟨a :: b :: c, rfl, ?_⟩
      rw [show a = k.closer.1 by rw [← eq], show b = k.closer.2 by rw [← eq]]
      exact .leave closes
  | case3 level position a b rest stays opens ih =>
      obtain ⟨c, rfl, closes⟩ := ih h
      exact ⟨a :: b :: c, rfl, .enter (opensInside_iff.mp opens) closes⟩
  | case4 level position a b rest stays plain ih =>
      obtain ⟨c, eq, closes⟩ := ih h
      cases c with
      | nil => cases closes
      | cons d c =>
          cases eq
          exact ⟨a :: b :: c, rfl, .pass stays (mt opensInside_iff.mpr plain) closes⟩
  | case5 => contradiction

theorem skip_append_of_closes {c : List Char} (h : k.Closes level c) (position : Position)
    (rest : List Char) : k.skip level position (c ++ rest) = some ⟨position.after c, rest⟩ := by
  induction h generalizing position with
  | last => simp [skip]
  | @leave level c _ ih =>
      have next := ih ((position.next k.closer.1).next k.closer.2)
      simpa [skip] using next
  | @enter level a b c opens _ ih =>
      have next := ih ((position.next a).next b)
      simpa [skip, opens.ne_closer, opensInside_iff.mpr opens] using next
  | @pass level a b c stays plain _ ih =>
      have next := ih (position.next a)
      simpa [skip, stays, opensInside_iff, plain] using next

/-- Skipping tells whether a comment is closed with the last characters of a text. -/
theorem closes_iff {c : List Char} :
    k.Closes level c ↔ (k.skip level .start c).map Unread.rest = some [] := by
  constructor
  · intro closes
    have skipped := skip_append_of_closes closes .start []
    rw [List.append_nil] at skipped
    rw [skipped]
    rfl
  · intro skipped
    obtain ⟨u, skipped, whole⟩ := Option.map_eq_some_iff.mp skipped
    obtain ⟨c, rfl, closes⟩ := exists_closes_of_skip skipped
    rwa [whole, List.append_nil]

instance (k : Comment) (level : Nat) (c : List Char) : Decidable (k.Closes level c) :=
  decidable_of_iff _ closes_iff.symm

theorem closed_iff {text : List Char} :
    k.Closed text ↔ text.take 2 = [k.opener.1, k.opener.2] ∧ k.Closes 0 (text.drop 2) := by
  constructor
  · rintro ⟨inside, rfl, closes⟩
    exact ⟨rfl, closes⟩
  · rintro ⟨opens, closes⟩
    refine ⟨text.drop 2, ?_, closes⟩
    calc
      text = text.take 2 ++ text.drop 2 := (List.take_append_drop 2 text).symm
      _ = k.opener.1 :: k.opener.2 :: text.drop 2 := by
        rw [opens]
        rfl

instance (k : Comment) (text : List Char) : Decidable (k.Closed text) :=
  decidable_of_iff _ closed_iff.symm

end Comment

namespace Layout

/-- Blanks and closed comments, in any number and order. -/
inductive Gap (w : Layout) : List Char → Prop where
  | nil : Gap w []
  | blank {c : Char} {rest : List Char} (blank : c ∈ w.blanks) (next : Gap w rest) :
      Gap w (c :: rest)
  | comment {k : Comment} {text rest : List Char} (known : k ∈ w.comments) (closed : k.Closed text)
      (next : Gap w rest) : Gap w (text ++ rest)

/-- What may stand between the last token and the end of the text: a gap, and possibly a comment
that is never closed. -/
def Trailing (w : Layout) (text : List Char) : Prop :=
  ∃ gap open', text = gap ++ open' ∧ w.Gap gap ∧
    (open' = [] ∨ ∃ k ∈ w.comments, k.Unclosed open')

variable {w : Layout}

theorem Gap.append {gap gap' : List Char} (h : w.Gap gap) (h' : w.Gap gap') :
    w.Gap (gap ++ gap') := by
  induction h with
  | nil => exact h'
  | blank blank _ ih => exact .blank blank ih
  | comment known closed _ ih =>
      rw [List.append_assoc]
      exact .comment known closed ih

theorem Gap.of_comment {k : Comment} {text : List Char} (known : k ∈ w.comments)
    (closed : k.Closed text) : w.Gap text := by
  have alone := Gap.comment known closed .nil
  rwa [List.append_nil] at alone

theorem Trailing.append_left {gap text : List Char} (h : w.Gap gap) (tail : w.Trailing text) :
    w.Trailing (gap ++ text) := by
  obtain ⟨more, open', rfl, gap', last⟩ := tail
  exact ⟨gap ++ more, open', (List.append_assoc _ _ _).symm, h.append gap', last⟩

/-- A gap falls into two at a character that is in no comment of it. -/
theorem Gap.split {gap : List Char} (h : w.Gap gap) {before after : List Char} {c : Char}
    (eq : gap = before ++ c :: after)
    (outside : ∀ front comment rest, gap = front ++ (comment ++ rest) → w.Gap front →
      (∃ k ∈ w.comments, k.Closed comment) → front.length ≤ before.length →
        front.length + comment.length ≤ before.length) :
    w.Gap before ∧ w.Gap after := by
  induction h generalizing before with
  | nil => simp at eq
  | @blank b gap blank isGap ih =>
      cases before with
      | nil =>
          cases eq
          exact ⟨.nil, isGap⟩
      | cons d before =>
          obtain ⟨rfl, tail⟩ := List.cons.inj eq
          have further := ih tail fun front comment rest eq' isFront isComment le => by
            have passed := outside (b :: front) comment rest (congrArg (b :: ·) eq')
              (.blank blank isFront) isComment (Nat.succ_le_succ le)
            simp only [List.length_cons] at passed
            omega
          exact ⟨.blank blank further.1, further.2⟩
  | @comment k text gap known closed isGap ih =>
      have behind := outside [] text gap rfl .nil ⟨k, known, closed⟩ (Nat.zero_le _)
      rw [List.length_nil, Nat.zero_add] at behind
      obtain ⟨before, rfl⟩ : text <+: before :=
        List.prefix_of_prefix_length_le (List.prefix_append text gap) ⟨_, eq.symm⟩ behind
      rw [List.append_assoc, List.append_cancel_left_eq] at eq
      have further := ih eq fun front comment rest eq' isFront isComment le => by
        have passed := outside (text ++ front) comment rest (by rw [eq', List.append_assoc])
          (.comment known closed isFront) isComment (by simpa using le)
        simp only [List.length_append] at passed
        omega
      exact ⟨.comment known closed further.1, further.2⟩

end Layout

namespace Lexicon

variable {x : Lexicon}

theorem isBlank_iff {c : Char} : x.isBlank c.toNat = true ↔ c ∈ x.blanks := by
  simp only [isBlank, List.any_eq_true, beq_iff_eq]
  constructor
  · rintro ⟨d, mem, eq⟩
    rwa [← Char.toNat_inj.mp eq]
  · exact fun mem => ⟨c, mem, rfl⟩

theorem comment?_spec {c : Char} {k : Comment} (h : x.comment? c.toNat = some k) :
    k ∈ x.comments ∧ k.opener.1 = c := by
  have opens := List.find?_some h
  exact ⟨List.mem_of_find?_eq_some h, Char.toNat_inj.mp (by simpa using opens)⟩

theorem exists_gap_skipBlanks (x : Lexicon) (u : Unread) :
    ∃ gap, u.rest = gap ++ (x.skipBlanks u).rest ∧
      (x.Gap gap ∨ (x.skipBlanks u).rest = [] ∧ x.Trailing gap) := by
  fun_induction skipBlanks x u with
  | case1 u text => exact ⟨[], rfl, .inl .nil⟩
  | case2 u a rest text blank ih =>
      obtain ⟨gap, eq, skipped⟩ := ih
      have one : x.Gap [a] := .blank (isBlank_iff.mp blank) .nil
      refine ⟨a :: gap, text.trans (congrArg (a :: ·) eq), ?_⟩
      rcases skipped with skipped | ⟨done, tail⟩
      · exact .inl (.blank (isBlank_iff.mp blank) skipped)
      · exact .inr ⟨done, tail.append_left one⟩
  | case3 u a _ k rest known v text skipped _ ih =>
      obtain ⟨gap, eq, behind⟩ := ih
      obtain ⟨listed, rfl⟩ := comment?_spec known
      obtain ⟨inside, rfl, closes⟩ := Comment.exists_closes_of_skip skipped
      have closed : k.Closed (k.opener.1 :: k.opener.2 :: inside) := ⟨inside, rfl, closes⟩
      refine ⟨k.opener.1 :: k.opener.2 :: inside ++ gap, by rw [text, eq]; simp, ?_⟩
      rcases behind with behind | ⟨done, tail⟩
      · exact .inl (.comment listed closed behind)
      · exact .inr ⟨done, tail.append_left (.of_comment listed closed)⟩
  | case4 u a _ k rest known text skipped =>
      obtain ⟨listed, rfl⟩ := comment?_spec known
      refine ⟨u.rest, by simp, .inr ⟨rfl, [], u.rest, rfl, .nil, .inr ⟨k, listed, rest, text, ?_⟩⟩⟩
      rintro c ⟨behind, rfl⟩ closes
      rw [Comment.skip_append_of_closes closes] at skipped
      cases skipped
  | case5 => exact ⟨[], rfl, .inl .nil⟩
  | case6 => exact ⟨[], rfl, .inl .nil⟩

/-- No blank is left in front. -/
theorem not_mem_blanks_of_skipBlanks {u : Unread} {c : Char} {rest : List Char}
    (h : (x.skipBlanks u).rest = c :: rest) : c ∉ x.blanks := by
  fun_induction skipBlanks x u with
  | case1 u text =>
      rw [text] at h
      cases h
  | case2 u a rest text blank ih => exact ih h
  | case3 u a _ k rest known v text skipped _ ih => exact ih h
  | case4 => cases h
  | case5 u a solid k b rest text known other =>
      rw [text] at h
      cases h
      rwa [isBlank_iff] at solid
  | case6 u a rest text solid other =>
      rw [text] at h
      cases h
      rwa [isBlank_iff] at solid

end Lexicon

end OberonFront
