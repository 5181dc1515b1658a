import OberonFront.Proofs.Text.Listing

/-!
# Ways of writing line ends

The same lines can be written with line feeds, with carriage returns, with both
in a row, or with some of each.  A text is brought to line feeds alone by reading
it and leaving out the carriage returns that remain, and what comes out depends
on nothing but the lines and on whether the last one is ended.
-/

namespace OberonFront

/-! ## Line feeds alone -/

/-- The text with one line feed for each line end. -/
def withFeeds (text : List Char) : List Char := (unifyLineEnds text).filter (· ≠ '\r')

/-- The text with a carriage return in place of each line feed. -/
def withReturns (text : List Char) : List Char := text.map fun c => if c = '\n' then '\r' else c

/-- The text with a carriage return in front of each line feed. -/
def withPairs (text : List Char) : List Char :=
  text.flatMap fun c => if c = '\n' then ['\r', '\n'] else [c]

def ClosesLine (text : List Char) : Prop :=
  text.getLast? = some '\n' ∨ text.getLast? = some '\r'

/-- Two texts have the same lines, and both end the last one or neither does. -/
structure SameLines (text text' : List Char) : Prop where
  lines : linesOf text = linesOf text'
  closes : ClosesLine text ↔ ClosesLine text'

instance (text : List Char) : Decidable (ClosesLine text) :=
  inferInstanceAs (Decidable (_ ∨ _))

instance (text : List Char) : Decidable (EndsLine text) :=
  inferInstanceAs (Decidable (_ ∨ _ ∨ _))

section

variable {c : Char} {rest : List Char}

theorem withFeeds_pair (rest : List Char) :
    withFeeds ('\r' :: '\n' :: rest) = '\n' :: withFeeds rest := by
  rw [withFeeds, unifyLineEnds_pair]
  rfl

theorem withFeeds_of_feed (feed : c = '\n' ∨ c = '\r')
    (alone : ∀ rest', c = '\r' → rest = '\n' :: rest' → False) :
    withFeeds (c :: rest) = '\n' :: withFeeds rest := by
  rw [withFeeds, unifyLineEnds_of_feed feed alone]
  rfl

theorem withFeeds_of_ne (noReturn : c ≠ '\r') : withFeeds (c :: rest) = c :: withFeeds rest := by
  rw [withFeeds, unifyLineEnds_of_ne noReturn, List.filter_cons_of_pos (by simpa using noReturn)]
  rfl

theorem endsLine_append_cons (feed : c = '\n' ∨ c = '\r') (text : List Char) :
    EndsLine (text ++ c :: rest) ↔ EndsLine rest := by
  cases rest with
  | nil => simpa [EndsLine] using feed
  | cons d rest => simp [EndsLine]

end

theorem return_not_mem_withFeeds (text : List Char) : '\r' ∉ withFeeds text := by
  simp [withFeeds]

/-- The line feed that ends the last line of a text if the text does not. -/
def missingFeed (text : List Char) : List Char := if EndsLine text then [] else ['\n']

theorem missingFeed_eq {text text' : List Char} (h : EndsLine text ↔ EndsLine text') :
    missingFeed text = missingFeed text' := by
  simp only [missingFeed, h]

/-- The lines of a text, each with a line feed behind it, are the text with line feeds. -/
theorem flatMap_linesOf_go {line : List Char} (text : List Char)
    (inner : ∀ c ∈ line, c ≠ '\n' ∧ c ≠ '\r') :
    (linesOf.go line text).flatMap (· ++ ['\n']) =
      line.reverse ++ withFeeds text ++ missingFeed (line.reverse ++ text) := by
  fun_induction linesOf.go line text with
  | case1 => rfl
  | case2 line ne =>
      have opens : ¬ EndsLine (line.reverse ++ []) := by
        obtain ⟨c, line, rfl⟩ := List.exists_cons_of_ne_nil ne
        simpa [EndsLine] using inner c List.mem_cons_self
      rw [missingFeed, if_neg opens]
      simp [withFeeds]
  | case3 line rest ih =>
      have ends : EndsLine (line.reverse ++ '\r' :: '\n' :: rest) ↔ EndsLine rest :=
        (endsLine_append_cons (.inr rfl) _).trans (endsLine_append_cons (.inl rfl) [])
      rw [List.flatMap_cons, ih (by simp), withFeeds_pair, missingFeed_eq ends]
      simp
  | case4 line c rest alone feed ih =>
      rw [List.flatMap_cons, ih (by simp), withFeeds_of_feed feed alone,
        missingFeed_eq (endsLine_append_cons feed _)]
      simp
  | case5 line c rest _ inside ih =>
      rw [ih (List.forall_mem_cons.mpr ⟨not_or.mp inside, inner⟩),
        withFeeds_of_ne (not_or.mp inside).2]
      simp

theorem flatMap_linesOf (text : List Char) :
    (linesOf text).flatMap (· ++ ['\n']) = withFeeds text ++ missingFeed text :=
  flatMap_linesOf_go text (by simp)

/-- No line end is left in a line. -/
theorem inner_of_mem_linesOf_go {line : List Char} (text : List Char)
    (inner : ∀ c ∈ line, c ≠ '\n' ∧ c ≠ '\r') {l : List Char} (mem : l ∈ linesOf.go line text) :
    ∀ c ∈ l, c ≠ '\n' ∧ c ≠ '\r' := by
  fun_induction linesOf.go line text with
  | case1 => cases mem
  | case2 line ne => simpa [List.mem_singleton.mp mem] using inner
  | case3 line rest ih =>
      rcases List.mem_cons.mp mem with rfl | mem
      · simpa using inner
      · exact ih (by simp) mem
  | case4 line c rest alone feed ih =>
      rcases List.mem_cons.mp mem with rfl | mem
      · simpa using inner
      · exact ih (by simp) mem
  | case5 line c rest _ inside ih =>
      exact ih (List.forall_mem_cons.mpr ⟨not_or.mp inside, inner⟩) mem

namespace SameLines

variable {text text' : List Char} (h : SameLines text text')

include h

theorem symm : SameLines text' text := ⟨h.lines.symm, h.closes.symm⟩

theorem endsLine (ends : EndsLine text) : EndsLine text' := by
  rcases ends with rfl | closes
  · have none : [] = withFeeds text' ++ missingFeed text' := by
      rw [← flatMap_linesOf, ← h.lines]
      rfl
    by_cases ends : EndsLine text'
    · exact ends
    · simp [missingFeed, ends] at none
  · exact .inr (h.closes.mp closes)

/-- With line feeds alone two texts of the same lines are the same. -/
theorem withFeeds_eq : withFeeds text = withFeeds text' := by
  have both := flatMap_linesOf text
  rw [h.lines, flatMap_linesOf, missingFeed_eq ⟨h.endsLine, h.symm.endsLine⟩] at both
  exact (List.append_cancel_right both).symm

end SameLines

/-- A carriage return alone is read as the line feed in whose place it stands. -/
theorem unifyLineEnds_withReturns {text : List Char} (h : '\r' ∉ text) :
    unifyLineEnds (withReturns text) = text := by
  induction text with
  | nil => rfl
  | cons c rest ih =>
      have noFeed : (withReturns rest).head? ≠ some '\n' := by
        cases rest with
        | nil => simp [withReturns]
        | cons d rest =>
            by_cases feed : d = '\n' <;> simp [withReturns, feed]
      have read : readAs (if c = '\n' then '\r' else c) (withReturns rest) = c := by
        by_cases feed : c = '\n'
        · rw [if_pos feed, readAs, if_pos ⟨rfl, noFeed⟩, feed]
        · rw [if_neg feed, readAs, if_neg fun lone => List.ne_of_not_mem_cons h lone.1.symm]
      rw [withReturns, List.map_cons, unifyLineEnds_cons, ← withReturns, read,
        ih (List.not_mem_of_not_mem_cons h)]

/-! ## Carriage returns in front of line feeds -/

/-- The second text is the first one with a carriage return put in front of some line feeds.  There
are no other carriage returns in either. -/
inductive AddsReturns : List Char → List Char → Prop where
  | nil : AddsReturns [] []
  | keep {c : Char} {text text' : List Char} (noReturn : c ≠ '\r') (next : AddsReturns text text') :
      AddsReturns (c :: text) (c :: text')
  | pair {text text' : List Char} (next : AddsReturns text text') :
      AddsReturns ('\n' :: text) ('\r' :: '\n' :: text')

theorem addsReturns_withFeeds (text : List Char) :
    AddsReturns (withFeeds text) (unifyLineEnds text) := by
  fun_induction linesOf.go [] text with
  | case1 | case2 => exact .nil
  | case3 _ rest ih =>
      rw [withFeeds_pair, unifyLineEnds_pair]
      exact .pair ih
  | case4 _ c rest alone feed ih =>
      rw [withFeeds_of_feed feed alone, unifyLineEnds_of_feed feed alone]
      exact .keep (by decide) ih
  | case5 _ c rest _ inside ih =>
      have noReturn := (not_or.mp inside).2
      rw [withFeeds_of_ne noReturn, unifyLineEnds_of_ne noReturn]
      exact .keep noReturn ih

theorem addsReturns_withPairs {text : List Char} (h : '\r' ∉ text) :
    AddsReturns text (withPairs text) := by
  induction text with
  | nil => exact .nil
  | cons c rest ih =>
      have next := ih (List.not_mem_of_not_mem_cons h)
      by_cases feed : c = '\n'
      · rw [withPairs, List.flatMap_cons, if_pos feed, feed]
        exact .pair next
      · rw [withPairs, List.flatMap_cons, if_neg feed]
        exact .keep (List.ne_of_not_mem_cons h).symm next

theorem withPairs_append (text text' : List Char) :
    withPairs (text ++ text') = withPairs text ++ withPairs text' := List.flatMap_append

namespace AddsReturns

variable {text text' text₁ text₂ : List Char}

/-- No carriage return in the second text stands alone. -/
theorem unifyLineEnds_eq (h : AddsReturns text text') : unifyLineEnds text' = text' := by
  induction h with
  | nil => rfl
  | keep noReturn _ ih => rw [unifyLineEnds_of_ne noReturn, ih]
  | pair _ ih => rw [unifyLineEnds_pair, ih]

/-- A text without line feeds remains as it is. -/
theorem eq_of_not_mem (h : AddsReturns text text') (noFeed : '\n' ∉ text) : text' = text := by
  induction h with
  | nil => rfl
  | keep _ _ ih => rw [ih (List.not_mem_of_not_mem_cons noFeed)]
  | pair => simp at noFeed

theorem exists_of_append (h : AddsReturns (text₁ ++ text₂) text') :
    ∃ text₁' text₂', text' = text₁' ++ text₂' ∧ AddsReturns text₁ text₁' ∧
      AddsReturns text₂ text₂' := by
  induction text₁ generalizing text' with
  | nil => exact ⟨[], text', rfl, .nil, h⟩
  | cons c text₁ ih =>
      cases h with
      | keep noReturn next =>
          obtain ⟨text₁', text₂', rfl, first, second⟩ := ih next
          exact ⟨c :: text₁', text₂', rfl, .keep noReturn first, second⟩
      | pair next =>
          obtain ⟨text₁', text₂', rfl, first, second⟩ := ih next
          exact ⟨'\r' :: '\n' :: text₁', text₂', rfl, .pair first, second⟩

/-- The first character is the same unless there is a pair instead of it. -/
theorem exists_of_cons {c : Char} (h : AddsReturns (c :: text) text') (noFeed : c ≠ '\n') :
    ∃ rest, text' = c :: rest ∧ AddsReturns text rest := by
  cases h with
  | keep _ next => exact ⟨_, rfl, next⟩
  | pair => exact absurd rfl noFeed

theorem exists_of_cons_right {c : Char} (h : AddsReturns text (c :: text')) (noReturn : c ≠ '\r') :
    ∃ rest, text = c :: rest ∧ AddsReturns rest text' := by
  cases h with
  | keep _ next => exact ⟨_, rfl, next⟩
  | pair => exact absurd rfl noReturn

/-- The second text can be cut anywhere but inside a pair. -/
theorem exists_of_append_right (h : AddsReturns text (text₁ ++ text₂))
    (whole : text₁.getLast? ≠ some '\r') :
    ∃ text₁' text₂', text = text₁' ++ text₂' ∧ AddsReturns text₁' text₁ ∧
      AddsReturns text₂' text₂ := by
  have tail {c : Char} {cs : List Char} (whole : (c :: cs).getLast? ≠ some '\r') :
      cs.getLast? ≠ some '\r' := by
    cases cs with
    | nil => simp
    | cons => simpa using whole
  generalize both : text₁ ++ text₂ = text' at h
  induction h generalizing text₁ with
  | nil =>
      obtain ⟨rfl, rfl⟩ := List.append_eq_nil_iff.mp both
      exact ⟨[], [], rfl, .nil, .nil⟩
  | @keep c text text' noReturn next ih =>
      match text₁ with
      | [] =>
          cases both
          exact ⟨[], c :: text, rfl, .nil, .keep noReturn next⟩
      | d :: text₁ =>
          cases both
          obtain ⟨text₁', text₂', rfl, first, second⟩ := ih (tail whole) rfl
          exact ⟨c :: text₁', text₂', rfl, .keep noReturn first, second⟩
  | @pair text text' next ih =>
      match text₁ with
      | [] =>
          cases both
          exact ⟨[], '\n' :: text, rfl, .nil, .pair next⟩
      | [_] =>
          cases both
          exact absurd rfl whole
      | _ :: _ :: text₁ =>
          cases both
          obtain ⟨text₁', text₂', rfl, first, second⟩ := ih (tail (tail whole)) rfl
          exact ⟨'\n' :: text₁', text₂', rfl, .pair first, second⟩

/-- What holds of the first character, if there is one, holds of it still. -/
theorem forall_head (h : AddsReturns text text') {p : Char → Prop} (pair : p '\r')
    (all : ∀ c ∈ text.head?, p c) : ∀ c ∈ text'.head?, p c := by
  cases h with
  | nil | keep => exact all
  | pair => simpa using pair

/-- The texts are the same up to the first pair. -/
theorem eq_or_exists_pair (h : AddsReturns text text') :
    text' = text ∨ ∃ same rest rest', text = same ++ rest ∧ text' = same ++ '\r' :: rest' := by
  induction h with
  | nil => exact .inl rfl
  | @keep c _ _ _ _ ih =>
      rcases ih with rfl | ⟨same, rest, rest', rfl, rfl⟩
      · exact .inl rfl
      · exact .inr ⟨c :: same, rest, rest', rfl, rfl⟩
  | pair => exact .inr ⟨[], _, _, rfl, rfl⟩

end AddsReturns

theorem withPairs_of_not_mem {text : List Char} (noReturn : '\r' ∉ text) (noFeed : '\n' ∉ text) :
    withPairs text = text :=
  (addsReturns_withPairs noReturn).eq_of_not_mem noFeed

/-! ## Lines and columns -/

/-- Two positions are in the same line and column, if not at the same offset. -/
structure Position.SamePlace (p q : Position) : Prop where
  line : p.line = q.line
  column : p.column = q.column

theorem Position.SamePlace.next {p q : Position} (h : p.SamePlace q) (c : Char) :
    (p.next c).SamePlace (q.next c) := by
  unfold Position.next
  split
  · exact ⟨congrArg (· + 1) h.line, rfl⟩
  · exact ⟨h.line, congrArg (· + 1) h.column⟩

/-- A pair ends a line as a line feed does. -/
theorem AddsReturns.samePlace {text text' : List Char} (h : AddsReturns text text')
    {p q : Position} (same : p.SamePlace q) : (p.after text).SamePlace (q.after text') := by
  induction h generalizing p q with
  | nil => exact same
  | @keep c _ _ _ _ ih => exact ih (same.next c)
  | pair _ ih => exact ih ⟨congrArg (· + 1) same.line, rfl⟩

end OberonFront
