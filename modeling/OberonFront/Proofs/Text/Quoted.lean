import OberonFront.Text.Quoted

/-!
# Quoted text is read back

A number is read up to the character that ends it, and quoted text up to the
quote that closes it.  What comes behind is left alone, so parts that are written
one after the other are read one after the other.  It makes no difference which
characters were shown by themselves.
-/

namespace OberonFront

/-! ## Numbers -/

def digitValue (c : Char) : Nat :=
  if c.isDigit then c.toNat - '0'.toNat else c.toNat - 'a'.toNat + 10

theorem digitValue_digitChar : ∀ digit < 16, digitValue (Nat.digitChar digit) = digit := by
  decide

/-- Reads a number up to the character that ends it, which is dropped.  In front of it stood digits
of the value `n`. -/
def readNumber (base : Nat) (stop : Char) (n : Nat) : List Char → Option (Nat × List Char)
  | [] => none
  | c :: rest =>
      if c = stop then some (n, rest)
      else readNumber base stop (base * n + digitValue c) rest

theorem readNumber_append {stop : Char} {digits : List Char} (inner : stop ∉ digits)
    (base n : Nat) (rest : List Char) :
    readNumber base stop n (digits ++ stop :: rest) =
      some (digits.foldl (fun n c => base * n + digitValue c) n, rest) := by
  induction digits generalizing n with
  | nil => exact if_pos rfl
  | cons c digits ih =>
      obtain ⟨other, inner⟩ := List.ne_and_not_mem_of_not_mem_cons inner
      rw [List.cons_append, readNumber, if_neg other.symm, ih inner]
      rfl

section

variable (base : Nat) (least : 1 < base) (greatest : base ≤ 16)

include least greatest

/-- The digits of a number are those of its quotient by the base, and one for the remainder. -/
theorem toDigits_induction {motive : Nat → List Char → Prop}
    (one : ∀ digit < 16, motive digit [Nat.digitChar digit])
    (further : ∀ n digits, motive n digits → ∀ digit < 16,
      motive (base * n + digit) (digits ++ [Nat.digitChar digit]))
    (n : Nat) : motive n (Nat.toDigits base n) := by
  induction n using Nat.strongRecOn with
  | ind n ih =>
      rw [Nat.toDigits_eq_if least]
      split
      · exact one n (by omega)
      · -- The last digit is that of the remainder, so the induction is on the quotient.
        have quotient := ih (n / base) (Nat.div_lt_self (by omega) least)
        have remainder : n % base < 16 := Nat.lt_of_lt_of_le (Nat.mod_lt n (by omega)) greatest
        have step := further _ _ quotient _ remainder
        rwa [Nat.div_add_mod] at step

theorem foldl_toDigits (n : Nat) :
    (Nat.toDigits base n).foldl (fun n c => base * n + digitValue c) 0 = n := by
  refine toDigits_induction base least greatest
    (motive := fun n digits => digits.foldl (fun n c => base * n + digitValue c) 0 = n) ?_ ?_ n
  · intro digit lt
    simp [digitValue_digitChar digit lt]
  · intro n digits value digit lt
    rw [List.foldl_append, value, List.foldl_cons, List.foldl_nil, digitValue_digitChar digit lt]

theorem exists_of_mem_toDigits (n : Nat) :
    ∀ c ∈ Nat.toDigits base n, ∃ digit < 16, c = Nat.digitChar digit := by
  refine toDigits_induction base least greatest
    (motive := fun _ digits => ∀ c ∈ digits, ∃ digit < 16, c = Nat.digitChar digit) ?_ ?_ n
  · intro digit lt c mem
    exact ⟨digit, lt, List.mem_singleton.mp mem⟩
  · intro n digits front digit lt c mem
    rcases List.mem_append.mp mem with inFront | last
    · exact front c inFront
    · exact ⟨digit, lt, List.mem_singleton.mp last⟩

/-- A number is on one line. -/
theorem inner_toDigits (n : Nat) : ∀ c ∈ Nat.toDigits base n, c ≠ '\n' ∧ c ≠ '\r' := by
  intro c mem
  have inner : ∀ digit < 16, Nat.digitChar digit ≠ '\n' ∧ Nat.digitChar digit ≠ '\r' := by decide
  obtain ⟨digit, lt, rfl⟩ := exists_of_mem_toDigits base least greatest n c mem
  exact inner digit lt

/-- A written number is read back if it is ended by no digit. -/
theorem readNumber_toDigits {stop : Char} (apart : ∀ digit < 16, stop ≠ Nat.digitChar digit)
    (n : Nat) (rest : List Char) :
    readNumber base stop 0 (Nat.toDigits base n ++ stop :: rest) = some (n, rest) := by
  have inner : stop ∉ Nat.toDigits base n := by
    intro mem
    obtain ⟨digit, lt, eq⟩ := exists_of_mem_toDigits base least greatest n stop mem
    exact apart digit lt eq
  rw [readNumber_append inner, foldl_toDigits base least greatest]

end

theorem length_readNumber_lt {base n code : Nat} {stop : Char} {text rest : List Char}
    (h : readNumber base stop n text = some (code, rest)) : rest.length < text.length := by
  induction text generalizing n with
  | nil => cases h
  | cons c text ih =>
      rw [readNumber] at h
      split at h
      · cases h
        exact Nat.lt_succ_self _
      · exact Nat.lt_succ_of_lt (ih h)

/-! ## Characters -/

/-- The character that an escape of two characters stands for, told by the second one. -/
def escaped (c : Char) : Char :=
  if c = 't' then '\t'
  else if c = 'n' then '\n'
  else if c = 'r' then '\r'
  else if c = '0' then Char.ofNat 0
  else c

inductive WrittenAs (c : Char) : List Char → Prop where
  | escape {d : Char} (short : d ≠ 'u') (inner : d ≠ '\n' ∧ d ≠ '\r') (eq : escaped d = c) :
      WrittenAs c ['\\', d]
  | self (plain : c ≠ '"' ∧ c ≠ '\\') (inner : c ≠ '\n' ∧ c ≠ '\r') : WrittenAs c [c]
  | code : WrittenAs c (['\\', 'u', '\x7b'] ++ hexDigits c.toNat ++ ['\x7d'])

theorem writtenAs_quotedChar (shown : Char → Bool) (c : Char) :
    WrittenAs c (quotedChar shown c) := by
  unfold quotedChar
  by_cases quote : c = '"' ∨ c = '\\'
  · rw [if_pos quote]
    rcases quote with rfl | rfl
    · exact .escape (by decide) (by decide) rfl
    · exact .escape (by decide) (by decide) rfl
  rw [if_neg quote]
  by_cases tab : c = '\t'
  · rw [if_pos tab]
    exact .escape (by decide) (by decide) tab.symm
  rw [if_neg tab]
  by_cases feed : c = '\n'
  · rw [if_pos feed]
    exact .escape (by decide) (by decide) feed.symm
  rw [if_neg feed]
  by_cases ret : c = '\r'
  · rw [if_pos ret]
    exact .escape (by decide) (by decide) ret.symm
  rw [if_neg ret]
  by_cases zero : c.toNat = 0
  · have eq : Char.ofNat 0 = c := by rw [← zero, c.ofNat_toNat]
    rw [if_pos zero]
    exact .escape (by decide) (by decide) eq
  rw [if_neg zero]
  split
  · exact .self (not_or.mp quote) ⟨feed, ret⟩
  · exact .code

def readQuotedChar : List Char → Option (Char × List Char)
  | [] => none
  | '\\' :: 'u' :: '\x7b' :: rest =>
      (readNumber 16 '\x7d' 0 rest).map fun (code, behind) => (Char.ofNat code, behind)
  | '\\' :: c :: rest => some (escaped c, rest)
  | c :: rest => some (c, rest)

theorem length_readQuotedChar_lt {text rest : List Char} {c : Char}
    (h : readQuotedChar text = some (c, rest)) : rest.length < text.length := by
  unfold readQuotedChar at h
  split at h
  · cases h
  · obtain ⟨⟨code, behind⟩, read, eq⟩ := Option.map_eq_some_iff.mp h
    cases eq
    have lt := length_readNumber_lt read
    simp only [List.length_cons]
    omega
  · cases h
    simp only [List.length_cons]
    omega
  · cases h
    exact Nat.lt_succ_self _

namespace WrittenAs

variable {c : Char} {written : List Char}

/-- However a character is written, it is read back. -/
theorem readQuotedChar_append (h : WrittenAs c written) (rest : List Char) :
    readQuotedChar (written ++ rest) = some (c, rest) := by
  cases h with
  | @escape d short inner eq =>
      change readQuotedChar ('\\' :: d :: rest) = some (c, rest)
      rw [readQuotedChar.eq_3, eq]
      intro rest' same
      exact absurd same short
  | self plain inner =>
      change readQuotedChar (c :: rest) = some (c, rest)
      rw [readQuotedChar.eq_4]
      · intro rest' same
        exact absurd same plain.2
      · intro d rest' same
        exact absurd same plain.2
  | code =>
      have apart : ∀ digit < 16, '\x7d' ≠ Nat.digitChar digit := by decide
      have read := readNumber_toDigits 16 (by decide) (by decide) apart c.toNat rest
      rw [hexDigits, List.append_assoc, List.append_assoc]
      change (readNumber 16 '\x7d' 0 (Nat.toDigits 16 c.toNat ++ '\x7d' :: rest)).map _ = _
      rw [read, Option.map_some]
      exact congrArg (fun d => some (d, rest)) c.ofNat_toNat

/-- No character is written so that it could be taken for the quote that closes a text. -/
theorem exists_cons (h : WrittenAs c written) : ∃ d rest, written = d :: rest ∧ d ≠ '"' := by
  cases h with
  | escape short inner eq => exact ⟨_, _, rfl, by decide⟩
  | self plain inner => exact ⟨_, _, rfl, plain.1⟩
  | code => exact ⟨_, _, rfl, by decide⟩

/-- No character is written over a line end. -/
theorem inner (h : WrittenAs c written) : ∀ d ∈ written, d ≠ '\n' ∧ d ≠ '\r' := by
  cases h with
  | escape short inner eq => simpa using inner
  | self plain inner => simpa using inner
  | code =>
      intro d mem
      simp only [List.mem_append, List.mem_cons, List.not_mem_nil, or_false] at mem
      rcases mem with ((rfl | rfl | rfl) | digits) | rfl
      · decide
      · decide
      · decide
      · exact inner_toDigits 16 (by decide) (by decide) c.toNat d digits
      · decide

end WrittenAs

/-- Quoted text is on one line. -/
theorem inner_quoted (shown : Char → Bool) (text : List Char) :
    ∀ d ∈ quoted shown text, d ≠ '\n' ∧ d ≠ '\r' := by
  intro d mem
  simp only [quoted, List.mem_append, List.mem_cons, List.mem_flatMap, List.not_mem_nil,
    or_false] at mem
  rcases mem with (rfl | ⟨c, -, written⟩) | rfl
  · decide
  · exact (writtenAs_quotedChar shown c).inner d written
  · decide

/-! ## Texts -/

/-- Reads a text up to the quote that closes it, which is dropped. -/
def readQuoted (text : List Char) : Option (List Char × List Char) :=
  if text.head? = some '"' then some ([], text.tail)
  else
    match _read : readQuotedChar text with
    | none => none
    | some (c, rest) => (readQuoted rest).map fun (cs, behind) => (c :: cs, behind)
termination_by text.length
decreasing_by exact length_readQuotedChar_lt _read

theorem readQuoted_of_some {c : Char} {text rest : List Char} (inner : text.head? ≠ some '"')
    (h : readQuotedChar text = some (c, rest)) :
    readQuoted text = (readQuoted rest).map fun (cs, behind) => (c :: cs, behind) := by
  rw [readQuoted, if_neg inner]
  split
  · rename_i read
    rw [h] at read
    contradiction
  · rename_i read
    rw [h] at read
    cases read
    rfl

/-- Text between quotes is read back, whatever stands behind it. -/
theorem readQuoted_append (shown : Char → Bool) (text rest : List Char) :
    readQuoted (text.flatMap (quotedChar shown) ++ '"' :: rest) = some (text, rest) := by
  induction text with
  | nil =>
      rw [readQuoted]
      rfl
  | cons c text ih =>
      have written := writtenAs_quotedChar shown c
      obtain ⟨d, ds, eq, noQuote⟩ := written.exists_cons
      have read := written.readQuotedChar_append (text.flatMap (quotedChar shown) ++ '"' :: rest)
      rw [List.flatMap_cons, List.append_assoc, readQuoted_of_some ?_ read, ih]
      · rfl
      · rw [eq]
        simpa using noQuote

end OberonFront
