import Mathlib.Data.Finset.Max
import OberonFront.Proofs.Lexicon.Munch

/-!
# Classes of lexemes

What languages have in common: words of letters and digits, of which some are
reserved, and operators, of which the longest in front of a text counts.  Each
class comes with what the automaton does where one of its lexemes stands.
-/

namespace OberonFront

/-! ## Runs -/

structure LongestRun (p : Char → Bool) (run rest : List Char) : Prop where
  all : ∀ c ∈ run, p c = true
  stops : ∀ c ∈ rest.head?, p c = false

theorem exists_longestRun (p : Char → Bool) (text : List Char) :
    ∃ run rest, text = run ++ rest ∧ LongestRun p run rest := by
  refine ⟨text.takeWhile p, text.dropWhile p, List.takeWhile_append_dropWhile.symm, ?_, ?_⟩
  · exact List.all_eq_true.mp List.all_takeWhile
  · intro c h
    have stops := List.head?_dropWhile_not p text
    rwa [Option.mem_def.mp h] at stops

/-- No more characters of the kind than in the run are in front of the text. -/
theorem LongestRun.length_le {p : Char → Bool} {run run' rest : List Char}
    (h : LongestRun p run rest) (all : ∀ c ∈ run', p c = true) (front : run' <+: run ++ rest) :
    run'.length ≤ run.length := by
  by_contra longer
  obtain ⟨more, rfl⟩ := List.prefix_of_prefix_length_le (List.prefix_append run rest) front
    (Nat.le_of_not_le longer)
  rw [List.prefix_append_right_inj] at front
  cases more with
  | nil => simp at longer
  | cons d more =>
      obtain ⟨behind, rfl⟩ := front
      have stops := h.stops d rfl
      rw [all d (by simp)] at stops
      cases stops

/-! ## Words -/

/-- The kind of a word: its own if it is reserved, and else that of all identifiers. -/
def WordKind (reserved : List (String × Kind)) (ident : Kind) (word : List Char) (kind : Kind) :
    Prop :=
  (String.ofList word, kind) ∈ reserved ∨ kind = ident ∧ ∀ k, (String.ofList word, k) ∉ reserved

theorem exists_wordKind (reserved : List (String × Kind)) (ident : Kind) (word : List Char) :
    ∃ kind, WordKind reserved ident word kind := by
  by_cases own : ∃ kind, (String.ofList word, kind) ∈ reserved
  · obtain ⟨kind, listed⟩ := own
    exact ⟨kind, .inl listed⟩
  · exact ⟨ident, .inr ⟨rfl, not_exists.mp own⟩⟩

/-- A word has one kind if nothing is reserved twice. -/
theorem WordKind.unique {reserved : List (String × Kind)} (unique : (reserved.map Prod.fst).Nodup)
    {ident kind kind' : Kind} {word : List Char} (h : WordKind reserved ident word kind)
    (h' : WordKind reserved ident word kind') : kind = kind' := by
  rcases h with listed | ⟨rfl, none⟩
  · rcases h' with listed' | ⟨rfl, none⟩
    · exact congrArg Prod.snd (List.inj_on_of_nodup_map unique listed listed' rfl)
    · exact absurd listed (none kind)
  · rcases h' with listed' | ⟨rfl, -⟩
    · exact absurd listed' (none kind')
    · rfl

/-! ## Operators -/

/-- A listed operator in front of a text such that no longer one is. -/
structure IsOperator (operators : List (String × Kind)) (kind : Kind) (chars rest : List Char) :
    Prop where
  listed : (String.ofList chars, kind) ∈ operators
  longest : ∀ op ∈ operators, op.1.toList <+: chars ++ rest → op.1.toList.length ≤ chars.length

/-- What is to be checked of operators: none is empty, none goes on with a blank or a bracket, and
the first character of each is an operator by itself. -/
def OperatorsFit (operators : List (String × Kind)) : Prop :=
  ∀ op ∈ operators, op.1 ≠ "" ∧ (' ' ∉ op.1.toList.tail ∧ '(' ∉ op.1.toList.tail) ∧
    ∃ single ∈ operators, single.1.toList = op.1.toList.take 1

instance (operators : List (String × Kind)) : Decidable (OperatorsFit operators) :=
  inferInstanceAs (Decidable (∀ op ∈ operators, _))

/-- Whether an operator is the longest one depends on what follows only up to a character that no
operator goes on with. -/
theorem IsOperator.of_append {operators : List (String × Kind)} {kind : Kind}
    {chars rest rest' : List Char} (same : List Char)
    (h : IsOperator operators kind chars (same ++ rest)) (fit : OperatorsFit operators)
    (solid : ∀ op ∈ operators, ∀ c ∈ rest'.head?, c ∉ op.1.toList.tail) :
    IsOperator operators kind chars (same ++ rest') where
  listed := h.listed
  longest op listed front := by
    rw [← List.append_assoc] at front
    by_cases short : op.1.toList <+: chars ++ same
    · refine h.longest op listed (short.trans ?_)
      rw [← List.append_assoc]
      exact List.prefix_append _ _
    · exfalso
      -- Behind what is the same it goes on with the first character that may differ.
      have both : chars ++ same <+: op.1.toList := by
        refine (List.prefix_or_prefix_of_prefix front (List.prefix_append _ rest')).resolve_left ?_
        exact short
      obtain ⟨tail, eq⟩ := both
      rw [← eq, List.prefix_append_right_inj] at front
      cases chars with
      | nil => exact (fit _ h.listed).1 rfl
      | cons d chars =>
          cases tail with
          | nil => exact short ⟨[], by simpa using eq.symm⟩
          | cons c tail =>
              obtain ⟨more, rfl⟩ := front
              refine solid op listed c rfl ?_
              rw [← eq]
              simp

def StartsOperator (operators : List (String × Kind)) (c : Char) : Prop :=
  ∃ op ∈ operators, op.1.toList.head? = some c

instance (operators : List (String × Kind)) (c : Char) : Decidable (StartsOperator operators c) :=
  inferInstanceAs (Decidable (∃ op ∈ operators, _))

/-- The longest operator is found in front of a text with which some operator starts. -/
theorem exists_isOperator {operators : List (String × Kind)} {c : Char}
    (fit : OperatorsFit operators) (starts : StartsOperator operators c) (text : List Char) :
    ∃ kind chars rest, IsOperator operators kind chars rest ∧ chars ++ rest = c :: text := by
  obtain ⟨op, listed, head⟩ := starts
  obtain ⟨single, listed, eq⟩ := (fit op listed).2.2
  obtain ⟨more, head⟩ := List.head?_eq_some_iff.mp head
  rw [head] at eq
  have front : single.1.toList <+: c :: text := eq ▸ List.prefix_append [c] text
  let fits := (operators.filter (·.1.toList <+: c :: text)).toFinset
  have some : fits.Nonempty := ⟨single, by simp [fits, listed, front]⟩
  obtain ⟨⟨word, kind⟩, mem, longest⟩ := fits.exists_max_image (·.1.toList.length) some
  have mem : (word, kind) ∈ operators ∧ word.toList <+: c :: text := by simpa [fits] using mem
  obtain ⟨rest, eq⟩ := mem.2
  refine ⟨kind, word.toList, rest, ⟨by simpa using mem.1, fun op' listed' front' => ?_⟩, eq⟩
  exact longest op' (by simpa [fits, listed', ← eq] using front')

/-! ## Where lexemes start -/

namespace StartTable

/-- What is to be checked of a table: in which state words start and in which one numbers, and that
every other entry is for a single character with which a quote or an operator starts. -/
def Fits (t : StartTable) (word number : Nat) (quotes : List Char)
    (operators : List (String × Kind)) : Prop :=
  (∀ n < 123, ((Char.ofNat n).isAlpha = true → t.stateFor (Char.ofNat n).toNat = word) ∧
    ((Char.ofNat n).isDigit = true → t.stateFor (Char.ofNat n).toNat = number)) ∧
  ∀ e ∈ t.newestFirst, e.1 ∈ CharRange.lettersAndDigits ∨
    e.1 = .single e.1.lo ∧ (e.1.lo ∈ quotes ∨ StartsOperator operators e.1.lo)

instance (t : StartTable) (word number : Nat) (quotes : List Char)
    (operators : List (String × Kind)) : Decidable (t.Fits word number quotes operators) :=
  inferInstanceAs (Decidable (_ ∧ _))

variable {t : StartTable} {word number : Nat} {quotes : List Char}
  {operators : List (String × Kind)} {c : Char}

theorem Fits.stateFor_of_isAlphanum (h : t.Fits word number quotes operators)
    (isWord : c.isAlphanum = true) :
    (c.isAlpha = true → t.stateFor c.toNat = word) ∧
      (c.isDigit = true → t.stateFor c.toNat = number) :=
  forall_char_of_lt (p := fun c => (c.isAlpha = true → t.stateFor c.toNat = word) ∧
    (c.isDigit = true → t.stateFor c.toNat = number)) h.1 c (toNat_lt_of_isAlphanum isWord)

theorem Fits.stateFor_of_isAlpha (h : t.Fits word number quotes operators)
    (letter : c.isAlpha = true) : t.stateFor c.toNat = word :=
  (h.stateFor_of_isAlphanum (isAlphanum_of_isAlpha letter)).1 letter

theorem Fits.stateFor_of_isDigit (h : t.Fits word number quotes operators)
    (digit : c.isDigit = true) : t.stateFor c.toNat = number :=
  (h.stateFor_of_isAlphanum (isAlphanum_of_isDigit digit)).2 digit

/-- Nothing starts with any other character. -/
theorem Fits.stateFor_of_other (h : t.Fits word number quotes operators)
    (noWord : c.isAlphanum = false) (noQuote : c ∉ quotes)
    (noOperator : ¬ StartsOperator operators c) : t.stateFor c.toNat = 0 := by
  have none : t.newestFirst.find? (·.1.contains c.toNat) = none := by
    rw [List.find?_eq_none]
    intro e listed contains
    rcases h.2 e listed with letters | ⟨single, starts⟩
    · have isWord : CharRange.lettersAndDigits.any (·.contains c.toNat) = true :=
        List.any_eq_true.mpr ⟨e.1, letters, contains⟩
      rw [CharRange.any_lettersAndDigits, noWord] at isWord
      cases isWord
    · rw [single, CharRange.contains_single, decide_eq_true_eq] at contains
      rw [← contains] at starts
      exact starts.elim noQuote noOperator
  rw [stateFor, none]
  exact ite_self 0

end StartTable

namespace Lexicon

variable {x : Lexicon} {rest : List Char}

/-- A lexicon finds the kind of a word if it has all words that are reserved, and no others. -/
theorem wordKind_keyword? {reserved : List (String × Kind)} (same : x.keywords.Perm reserved)
    (ident : Kind) (word : List Char) :
    WordKind reserved ident word ((x.keyword? (String.ofList word)).getD ident) := by
  unfold keyword?
  cases found : x.keywords.find? (·.1 == String.ofList word) with
  | none =>
      refine .inr ⟨rfl, fun k listed => ?_⟩
      simpa using List.find?_eq_none.mp found _ (same.mem_iff.mpr listed)
  | some entry =>
      obtain ⟨name, k⟩ := entry
      have named : name = String.ofList word := by simpa using List.find?_some found
      exact .inl (named ▸ same.mem_iff.mp (List.mem_of_find?_eq_some found))

theorem takes_word {reserved : List (String × Kind)} (same : x.keywords.Perm reserved)
    (unique : (reserved.map Prod.fst).Nodup) {state : Nat} {ident kind : Kind}
    (letters : x.state? state =
      some ⟨[.take CharRange.lettersAndDigits state], .identifier ident⟩)
    {c : Char} (start : x.start.stateFor c.toNat = state) {run : List Char}
    (isRun : LongestRun Char.isAlphanum run rest)
    (isKind : WordKind reserved ident (c :: run) kind) : x.Takes kind (c :: run) rest := by
  intro _ _ eq position
  obtain ⟨rfl, rfl⟩ := List.cons.inj eq
  have edge (d : Char) : x.edge? state d.toNat =
      if d.isAlphanum = true then some (.take CharRange.lettersAndDigits state) else none := by
    rw [edge?_of_state?_cons letters, ← CharRange.any_lettersAndDigits]
    rfl
  have loops (d : Char) (h : d.isAlphanum = true) :
      x.edge? state d.toNat = some (.take CharRange.lettersAndDigits state) := by
    rw [edge, if_pos h]
  have stops (d : Char) (h : d ∈ rest.head?) : x.edge? state d.toNat = none := by
    rw [edge, isRun.stops d h]
    rfl
  have found := (wordKind_keyword? same ident (c :: run)).unique unique isKind
  have whole : (run.reverse ++ [c]).reverse = c :: run := by simp
  change x.munch _ none [c] _ (run ++ rest) = _
  rw [start, munch_run loops isRun.all, munch_stop stops, finish, exit_of_state? letters]
  simp only [whole, found, Position.after_cons]

/-- Whether the automaton takes an operator: by its only character to a state whose edges lead to
longer operators, or by its second one to a state without edges. -/
def takesOperator (x : Lexicon) (operators : List (String × Kind)) (op : String × Kind) : Bool :=
  match op.1.toList with
  | [c] =>
      (x.state? (x.start.stateFor c.toNat)).any fun q =>
        q.exit == .accept op.2 && q.edges.all fun e => e.on.all fun r =>
          r == .single r.lo && operators.any (·.1.toList == [c, r.lo])
  | [c, d] =>
      (x.edge? (x.start.stateFor c.toNat) d.toNat).any fun e =>
        !e.context && x.state? e.target == some (.final op.2)
  | _ => false

theorem takes_operator {operators : List (String × Kind)}
    (takes : ∀ op ∈ operators, x.takesOperator operators op = true) {kind : Kind}
    {chars : List Char} (isOperator : IsOperator operators kind chars rest) :
    x.Takes kind chars rest := by
  intro c text eq position
  have taken := takes _ isOperator.listed
  unfold takesOperator at taken
  rw [String.toList_ofList] at taken
  split at taken
  · rename_i c'
    obtain ⟨rfl, rfl⟩ := List.cons.inj eq
    cases state : x.state? (x.start.stateFor c'.toNat) with
    | none => simp [state] at taken
    | some q =>
        simp only [state, Option.any_some, Bool.and_eq_true, beq_iff_eq, List.all_eq_true,
          List.any_eq_true] at taken
        obtain ⟨exit, edges⟩ := taken
        -- An edge that led on would make the next character part of a longer operator.
        have stops (d : Char) (h : d ∈ rest.head?) :
            x.edge? (x.start.stateFor c'.toNat) d.toNat = none := by
          rw [edge?_of_state? state, List.find?_eq_none]
          intro e mem admits
          obtain ⟨r, on, contains⟩ := List.any_eq_true.mp admits
          obtain ⟨single, op, listed, longer⟩ := edges e mem r on
          rw [single, CharRange.contains_single, decide_eq_true_eq] at contains
          obtain ⟨more, rfl⟩ := List.head?_eq_some_iff.mp h
          have front : op.1.toList <+: [c'] ++ d :: more := by
            rw [longer, contains]
            exact ⟨more, rfl⟩
          have short := isOperator.longest op listed front
          rw [longer] at short
          exact absurd short (Nat.not_succ_le_self 1)
        change x.munch _ none [c'] _ rest = _
        rw [munch_stop stops, finish, exit_of_state? state, exit]
        rfl
  · rename_i c' d
    obtain ⟨rfl, rfl⟩ := List.cons.inj eq
    cases leads : x.edge? (x.start.stateFor c'.toNat) d.toNat with
    | none => simp [leads] at taken
    | some e =>
        simp only [leads, Option.any_some, Bool.and_eq_true, beq_iff_eq, Bool.not_eq_true'] at taken
        obtain ⟨context, state⟩ := taken
        have stops (d : Char) (_ : d ∈ rest.head?) : x.edge? e.target d.toNat = none := by
          rw [edge?_of_state? state]
          rfl
        change x.munch _ none [c'] _ (d :: rest) = _
        rw [munch_take leads context, munch_stop stops, finish, exit_of_state? state]
        rfl
  · contradiction

end Lexicon

end OberonFront
