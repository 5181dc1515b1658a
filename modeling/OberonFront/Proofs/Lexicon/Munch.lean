import OberonFront.Lexicon.Scan

/-!
# Along the edges

How a token grows: over a run of characters on which a state leads back to
itself, over one more edge, and to the state that has no edge for what follows.
-/

namespace OberonFront

/-! ## Which characters an edge admits -/

/-- What holds of all characters of low code points one by one. -/
theorem forall_char_of_lt {bound : Nat} {p : Char → Prop} (h : ∀ n < bound, p (Char.ofNat n))
    (c : Char) (low : c.toNat < bound) : p c := by
  have at' := h c.toNat low
  rwa [Char.ofNat_toNat] at at'

/-- The code points of letters and digits. -/
theorem isAlphanum_iff {c : Char} : c.isAlphanum = true ↔
    (65 ≤ c.toNat ∧ c.toNat ≤ 90 ∨ 97 ≤ c.toNat ∧ c.toNat ≤ 122) ∨
      48 ≤ c.toNat ∧ c.toNat ≤ 57 := by
  have ranges : c.isAlphanum = (decide (65 ≤ c.val ∧ c.val ≤ 90) ||
      decide (97 ≤ c.val) && decide (c.val ≤ 122) ||
      decide (48 ≤ c.val) && decide (c.val ≤ 57)) := rfl
  rw [ranges]
  simp only [Bool.or_eq_true, Bool.and_eq_true, decide_eq_true_eq, UInt32.le_iff_toNat_le]
  rfl

theorem isAlphanum_of_isDigit {c : Char} (digit : c.isDigit = true) : c.isAlphanum = true := by
  simp [Char.isAlphanum, digit]

theorem isAlphanum_of_isAlpha {c : Char} (letter : c.isAlpha = true) : c.isAlphanum = true := by
  simp [Char.isAlphanum, letter]

theorem toNat_lt_of_isAlphanum {c : Char} (h : c.isAlphanum = true) : c.toNat < 123 := by
  rw [isAlphanum_iff] at h
  omega

theorem isAlpha_of_isDigit {c : Char} (digit : c.isDigit = true) : c.isAlpha = false :=
  forall_char_of_lt (p := fun c => c.isDigit = true → c.isAlpha = false) (by decide) c
    (toNat_lt_of_isAlphanum (isAlphanum_of_isDigit digit)) digit

namespace CharRange

theorem contains_toNat (r : CharRange) (c : Char) :
    r.contains c.toNat = true ↔ r.lo.toNat ≤ c.toNat ∧ c.toNat ≤ r.hi.toNat := by
  simp [contains]

@[simp] theorem contains_single (d c : Char) : (single d).contains c.toNat = decide (c = d) := by
  rw [Bool.eq_iff_iff, contains_toNat, decide_eq_true_eq, ← Char.toNat_inj]
  change d.toNat ≤ c.toNat ∧ c.toNat ≤ d.toNat ↔ c.toNat = d.toNat
  omega

theorem any_digits (c : Char) : digits.any (·.contains c.toNat) = c.isDigit := by
  simp [digits, contains, Char.isDigit, UInt32.le_iff_toNat_le]

theorem any_lettersAndDigits (c : Char) :
    lettersAndDigits.any (·.contains c.toNat) = c.isAlphanum := by
  rw [Bool.eq_iff_iff, isAlphanum_iff]
  simp [lettersAndDigits, contains, or_comm]

end CharRange

namespace Lexicon

variable {x : Lexicon} {state : Nat} {mark? : Option Mark} {read : List Char}
  {position : Position} {rest : List Char}

theorem edge?_of_state? {q : State} (h : x.state? state = some q) (s : Symbol) :
    x.edge? state s = q.edges.find? (·.admits s) := by
  rw [edge?, h]
  rfl

theorem edge?_of_state?_cons {e : Edge} {edges : List Edge} {exit : Exit}
    (h : x.state? state = some ⟨e :: edges, exit⟩) (s : Symbol) :
    x.edge? state s =
      if e.on.any (·.contains s) = true then some e else edges.find? (·.admits s) := by
  rw [edge?_of_state? h]
  change (match e.on.any (·.contains s) with
    | true => some e
    | false => edges.find? (·.admits s)) = _
  cases e.on.any (·.contains s) <;> rfl

theorem exit_of_state? {q : State} (h : x.state? state = some q) : x.exit state = q.exit := by
  rw [exit, h]
  rfl

/-! ## One edge -/

theorem munch_take {c : Char} {e : Edge} (leads : x.edge? state c.toNat = some e)
    (taken : e.context = false) :
    x.munch state mark? read position (c :: rest) =
      x.munch e.target none (c :: read) (position.next c) rest := by
  rw [munch]
  simp [leads, taken]

theorem munch_look {c : Char} {e : Edge} (leads : x.edge? state c.toNat = some e)
    (looked : e.context = true) :
    x.munch state mark? read position (c :: rest) =
      x.munch e.target (mark?.or (some ⟨read, ⟨position, c :: rest⟩⟩)) (c :: read)
        (position.next c) rest := by
  rw [munch]
  simp [leads, looked]

theorem finish_accept {kind : Kind} (h : x.exit state = .accept kind) (mark? : Option Mark)
    (read : List Char) (u : Unread) : x.finish state mark? read u = ⟨kind, read.reverse, u⟩ := by
  rw [finish, h]

theorem finish_reject (h : x.exit state = .reject) (mark? : Option Mark) (read : List Char)
    (u : Unread) : x.finish state mark? read u = ⟨x.unknown, read.reverse, u⟩ := by
  rw [finish, h]

/-- Where no edge admits what follows the token ends. -/
theorem munch_stop (stops : ∀ c ∈ rest.head?, x.edge? state c.toNat = none) :
    x.munch state mark? read position rest = x.finish state mark? read ⟨position, rest⟩ := by
  cases rest with
  | nil => rfl
  | cons c rest =>
      rw [munch]
      simp [stops c rfl]

/-- The trap ends a token at once. -/
theorem munch_trap (x : Lexicon) (read : List Char) (position : Position) (rest : List Char) :
    x.munch 0 none read position rest = ⟨x.unknown, read.reverse, ⟨position, rest⟩⟩ := by
  rw [munch_stop fun _ _ => rfl]
  rfl

/-! ## A run -/

/-- A state that leads back to itself goes over a run of the characters on which it does. -/
theorem munch_run {p : Char → Bool} {on : List CharRange}
    (loops : ∀ c, p c = true → x.edge? state c.toNat = some (.take on state)) {run : List Char}
    (all : ∀ c ∈ run, p c = true) :
    x.munch state none read position (run ++ rest) =
      x.munch state none (run.reverse ++ read) (position.after run) rest := by
  induction run generalizing read position with
  | nil => rfl
  | cons c run ih =>
      have leads := loops c (all c List.mem_cons_self)
      have others : ∀ d ∈ run, p d = true := fun d hd => all d (List.mem_cons_of_mem c hd)
      calc
        _ = x.munch state none (c :: read) (position.next c) (run ++ rest) :=
          munch_take leads rfl
        _ = x.munch state none (run.reverse ++ c :: read) ((position.next c).after run) rest :=
          ih others
        _ = _ := by rw [List.reverse_cons, List.append_assoc, List.singleton_append,
          Position.after_cons]

/-! ## Characters on no edge -/

theorem edge?_eq_none_of_step {s : Symbol} (refused : ∀ q ∈ x.states, q.step s = none)
    (state : Nat) : x.edge? state s = none := by
  unfold edge?
  cases h : x.state? state with
  | none => rfl
  | some q =>
      unfold state? at h
      split at h
      · cases h
      · exact refused q (List.mem_of_getElem? h)

theorem not_mem_chars_finish {c : Char} {u : Unread} (other : c ∉ read)
    (marked : ∀ m ∈ mark?, c ∉ m.read) : c ∉ (x.finish state mark? read u).chars := by
  unfold finish
  split
  · simpa using other
  · simpa using other
  · simpa using other
  · split
    · simpa using marked _ rfl
    · simpa using other

/-- A character on no edge is in no token, unless it is the first one. -/
theorem not_mem_chars_munch {c : Char} (refused : ∀ state, x.edge? state c.toNat = none)
    (other : c ∉ read) (marked : ∀ m ∈ mark?, c ∉ m.read) :
    c ∉ (x.munch state mark? read position rest).chars := by
  induction rest generalizing state mark? read position with
  | nil => exact not_mem_chars_finish other marked
  | cons d rest ih =>
      unfold munch
      split
      · exact not_mem_chars_finish other marked
      · rename_i e leads
        have ne : c ≠ d := by
          rintro rfl
          rw [refused state] at leads
          cases leads
        refine ih (by simp [ne, other]) fun m hm => ?_
        split at hm
        · cases mark? with
          | some n => exact marked m hm
          | none =>
              cases hm
              exact other
        · cases hm

/-! ## A whole token -/

/-- The automaton takes the characters in front of a text as a token of the kind. -/
def Takes (x : Lexicon) (kind : Kind) (chars rest : List Char) : Prop :=
  ∀ c text, chars ++ rest = c :: text → ∀ position : Position,
    x.munch (x.start.stateFor c.toNat) none [c] (position.next c) text =
      ⟨kind, chars, ⟨position.after chars, rest⟩⟩

theorem Takes.ne_nil {kind : Kind} {chars : List Char} (h : x.Takes kind chars rest) {c : Char}
    {text : List Char} (eq : chars ++ rest = c :: text) : chars ≠ [] := by
  have splits : (x.munch (x.start.stateFor c.toNat) none [c] (Position.start.next c)
      text).Splits (c :: text) := splits_munch rfl (by simp) (by simp)
  rw [h c text eq .start] at splits
  exact splits.ne_nil

/-- A character at which nothing starts is a token by itself. -/
theorem takes_other {c : Char} (start : x.start.stateFor c.toNat = 0) :
    x.Takes x.unknown [c] rest := by
  intro _ _ eq position
  obtain ⟨rfl, rfl⟩ := List.cons.inj eq
  rw [start, munch_trap]
  rfl

end Lexicon

end OberonFront
