import OberonFront.Proofs.Umbriel.Lexeme

/-!
# The automaton of Umbriel

The automaton takes the lexemes of the language and no others.  Each kind of
lexeme is followed along the states that it goes through.
-/

namespace OberonFront.Umbriel

open Lexicon

theorem toLayout_lexicon : lexicon.toLayout = layout := rfl

theorem keywords_perm : lexicon.keywords.Perm words := by decide +kernel

theorem startTable_fits : startTable.Fits 1 11 quotes operators := by decide +kernel

/-! ## Numbers -/

section

variable {c : Char} {digits fraction sign power rest text : List Char} {mark : Char}

/-- The states from which a digit leads on, each with the state that it leads to. -/
def digitEdges : List (Nat × Nat) := [(11, 11), (12, 4), (4, 4), (5, 7), (6, 7), (7, 7)]

theorem edge?_of_isDigit {state next : Nat} (h : (state, next) ∈ digitEdges)
    (digit : c.isDigit = true) :
    lexicon.edge? state c.toNat = some (.take CharRange.digits next) := by
  have first {edges : List Edge} {exit : Exit}
      (q : lexicon.state? state = some ⟨.take CharRange.digits next :: edges, exit⟩) :
      lexicon.edge? state c.toNat = some (.take CharRange.digits next) := by
    rw [edge?_of_state?_cons q, Edge.take, CharRange.any_digits, if_pos digit]
  simp only [digitEdges, List.mem_cons, Prod.mk.injEq, List.not_mem_nil, or_false] at h
  rcases h with ⟨rfl, rfl⟩ | ⟨rfl, rfl⟩ | ⟨rfl, rfl⟩ | ⟨rfl, rfl⟩ | ⟨rfl, rfl⟩ | ⟨rfl, rfl⟩ <;>
    exact first rfl

theorem edge?_eq_none {state : Nat} {q : State} (h : lexicon.state? state = some q)
    (refused : ∀ e ∈ q.edges, e.on.any (·.contains c.toNat) = false) :
    lexicon.edge? state c.toNat = none := by
  rw [edge?_of_state? h, List.find?_eq_none]
  intro e mem
  rw [Edge.admits, refused e mem]
  exact Bool.false_ne_true

theorem munch_digits {state : Nat} (h : (state, state) ∈ digitEdges)
    (all : ∀ c ∈ digits, c.isDigit = true) (read : List Char) (position : Position)
    (rest : List Char) :
    lexicon.munch state none read position (digits ++ rest) =
      lexicon.munch state none (digits.reverse ++ read) (position.after digits) rest :=
  munch_run (fun _ digit => edge?_of_isDigit h digit) all

/-- The digits with which a number starts. -/
theorem munch_numeral (isNumeral : IsNumeral digits) (eq : digits ++ rest = c :: text)
    (position : Position) :
    lexicon.munch (lexicon.start.stateFor c.toNat) none [c] (position.next c) text =
      lexicon.munch 11 none digits.reverse (position.after digits) rest := by
  obtain ⟨some, all⟩ := isNumeral
  cases digits with
  | nil => exact absurd rfl some
  | cons d digits =>
      cases eq
      have start : lexicon.start.stateFor c.toNat = 11 :=
        startTable_fits.stateFor_of_isDigit (all c List.mem_cons_self)
      have others : ∀ d ∈ digits, d.isDigit = true := fun d hd =>
        all d (List.mem_cons_of_mem c hd)
      rw [start, List.reverse_cons, Position.after_cons]
      exact munch_digits (by decide) others [c] (position.next c) rest

theorem takes_char (isNumeral : IsNumeral digits) :
    lexicon.Takes char (digits ++ ['C']) rest := by
  intro c text eq position
  have suffix : lexicon.edge? 11 'C'.toNat = some (.take [.single 'C'] 2) := rfl
  rw [List.append_assoc] at eq
  rw [munch_numeral isNumeral eq, List.singleton_append, munch_take suffix rfl,
    munch_stop fun _ _ => rfl, finish_accept rfl]
  simp [Position.after_append]

/-- Two points behind the digits are looked at and given back. -/
theorem takes_range (isNumeral : IsNumeral digits) :
    lexicon.Takes integer digits ('.' :: '.' :: rest) := by
  intro c text eq position
  have point : lexicon.edge? 11 '.'.toNat = some (.look [.single '.'] 12) := rfl
  have again : lexicon.edge? 12 '.'.toNat = some (.look [.single '.'] 3) := rfl
  have rewinds : lexicon.exit 3 = .rewind integer := rfl
  rw [munch_numeral isNumeral eq, munch_look point rfl]
  change munch _ 12 (some _) _ _ _ = _
  rw [munch_look again rfl]
  change munch _ 3 (some _) _ _ _ = _
  rw [munch_stop fun _ _ => rfl, finish, rewinds]
  simp only [List.reverse_reverse]

theorem takes_integer (isNumeral : IsNumeral digits)
    (ends : ∀ c ∈ rest.head?, c.isDigit = false ∧ c ≠ 'C' ∧ c ≠ '.') :
    lexicon.Takes integer digits rest := by
  intro c text eq position
  have stops (d : Char) (h : d ∈ rest.head?) : lexicon.edge? 11 d.toNat = none := by
    refine edge?_eq_none rfl ?_
    simp [-List.any_eq_false, Edge.take, Edge.look, CharRange.any_digits, ends d h]
  rw [munch_numeral isNumeral eq, munch_stop stops, finish_accept rfl, List.reverse_reverse]

/-- The point and the digits behind it.  If there are none the automaton may still give back the
point. -/
theorem munch_fraction (all : ∀ c ∈ fraction, c.isDigit = true) (read : List Char)
    (position : Position) (rest : List Char) :
    ∃ state mark?, (state = 4 ∨ state = 12 ∧ fraction = []) ∧
      lexicon.munch 11 none read position ('.' :: fraction ++ rest) =
        lexicon.munch state mark? (('.' :: fraction).reverse ++ read)
          (position.after ('.' :: fraction)) rest := by
  have point : lexicon.edge? 11 '.'.toNat = some (.look [.single '.'] 12) := rfl
  rw [List.cons_append, munch_look point rfl]
  cases fraction with
  | nil => exact ⟨12, _, .inr ⟨rfl, rfl⟩, rfl⟩
  | cons d fraction =>
      have first : lexicon.edge? 12 d.toNat = some (.take CharRange.digits 4) :=
        edge?_of_isDigit (by decide) (all d List.mem_cons_self)
      refine ⟨4, none, .inl rfl, ?_⟩
      calc
        _ = lexicon.munch 4 none (d :: '.' :: read) ((position.next '.').next d)
            (fraction ++ rest) := munch_take first rfl
        _ = lexicon.munch 4 none (fraction.reverse ++ d :: '.' :: read)
            (((position.next '.').next d).after fraction) rest :=
          munch_digits (by decide) (fun e he => all e (List.mem_cons_of_mem d he)) _ _ _
        _ = _ := by simp

theorem takes_real (isNumeral : IsNumeral digits) (isRun : LongestRun Char.isDigit fraction rest)
    (ends : ∀ c ∈ rest.head?, c ≠ 'E' ∧ c ≠ 'e' ∧ (fraction = [] → c ≠ '.')) :
    lexicon.Takes real (digits ++ '.' :: fraction) rest := by
  intro c text eq position
  obtain ⟨state, mark?, isState, point⟩ :=
    munch_fraction isRun.all digits.reverse (position.after digits) rest
  have accepts : lexicon.exit state = .accept real := by
    rcases isState with rfl | ⟨rfl, -⟩ <;> rfl
  have stops (d : Char) (h : d ∈ rest.head?) : lexicon.edge? state d.toNat = none := by
    rcases isState with rfl | ⟨rfl, none⟩ <;> refine edge?_eq_none rfl ?_
    · simp [-List.any_eq_false, Edge.take, exponentMarks, CharRange.any_digits,
        isRun.stops d h, ends d h]
    · simp [-List.any_eq_false, Edge.take, Edge.look, exponentMarks, CharRange.any_digits,
        isRun.stops d h, ends d h, (ends d h).2.2 none]
  rw [List.append_assoc] at eq
  rw [munch_numeral isNumeral eq, point, munch_stop stops, finish_accept accepts]
  simp [Position.after_append]

/-- A number up to the sign of its exponent. -/
theorem munch_unscaled (isNumeral : IsNumeral digits) (all : ∀ c ∈ fraction, c.isDigit = true)
    (isMark : mark ∈ ['E', 'e']) (isSign : sign ∈ [[], ['+'], ['-']])
    (eq : digits ++ '.' :: fraction ++ mark :: sign ++ rest = c :: text) (position : Position) :
    ∃ state, (state = 5 ∧ sign = [] ∨ state = 6) ∧
      lexicon.munch (lexicon.start.stateFor c.toNat) none [c] (position.next c) text =
        lexicon.munch state none (digits ++ '.' :: fraction ++ mark :: sign).reverse
          (position.after (digits ++ '.' :: fraction ++ mark :: sign)) rest := by
  obtain ⟨state, mark?, isState, point⟩ :=
    munch_fraction all digits.reverse (position.after digits) (mark :: sign ++ rest)
  have marked : lexicon.edge? state mark.toNat = some (.take exponentMarks 5) := by
    simp only [List.mem_cons, List.not_mem_nil, or_false] at isMark
    rcases isState with rfl | ⟨rfl, -⟩ <;> rcases isMark with rfl | rfl <;> rfl
  have eq : digits ++ ('.' :: fraction ++ (mark :: sign ++ rest)) = c :: text := by
    rw [← eq]
    simp
  rw [munch_numeral isNumeral eq, point, List.cons_append, munch_take marked rfl]
  change ∃ next, _ ∧ lexicon.munch 5 none _ _ _ = _
  simp only [List.mem_cons, List.not_mem_nil, or_false] at isSign
  rcases isSign with rfl | rfl | rfl
  · exact ⟨5, .inl ⟨rfl, rfl⟩, by simp [Position.after_append]⟩
  · have signed : lexicon.edge? 5 '+'.toNat = some (.take signs 6) := rfl
    refine ⟨6, .inr rfl, ?_⟩
    rw [List.singleton_append, munch_take signed rfl]
    simp [Position.after_append, Edge.take]
  · have signed : lexicon.edge? 5 '-'.toNat = some (.take signs 6) := rfl
    refine ⟨6, .inr rfl, ?_⟩
    rw [List.singleton_append, munch_take signed rfl]
    simp [Position.after_append, Edge.take]

theorem takes_scaled (isNumeral : IsNumeral digits) (all : ∀ c ∈ fraction, c.isDigit = true)
    (isMark : mark ∈ ['E', 'e']) (isSign : sign ∈ [[], ['+'], ['-']]) (some : power ≠ [])
    (isRun : LongestRun Char.isDigit power rest) :
    lexicon.Takes real (digits ++ '.' :: fraction ++ mark :: sign ++ power) rest := by
  intro c text eq position
  rw [List.append_assoc] at eq
  obtain ⟨state, isState, scale⟩ := munch_unscaled isNumeral all isMark isSign eq position
  rw [scale]
  cases power with
  | nil => exact absurd rfl some
  | cons d power =>
      have first : lexicon.edge? state d.toNat = .some (.take CharRange.digits 7) := by
        have digit := isRun.all d List.mem_cons_self
        rcases isState with ⟨rfl, -⟩ | rfl <;> exact edge?_of_isDigit (by decide) digit
      have others : ∀ e ∈ power, e.isDigit = true := fun e he =>
        isRun.all e (List.mem_cons_of_mem d he)
      have stops (d : Char) (h : d ∈ rest.head?) : lexicon.edge? 7 d.toNat = none := by
        refine edge?_eq_none rfl ?_
        simp [-List.any_eq_false, Edge.take, CharRange.any_digits, isRun.stops d h]
      rw [List.cons_append, munch_take first rfl]
      change lexicon.munch 7 none _ _ _ = _
      rw [munch_digits (by decide) others, munch_stop stops, finish_accept rfl]
      simp [Position.after_append]

theorem takes_unscaled (isNumeral : IsNumeral digits) (all : ∀ c ∈ fraction, c.isDigit = true)
    (isMark : mark ∈ ['E', 'e']) (isSign : sign ∈ [[], ['+'], ['-']])
    (ends : ∀ c ∈ rest.head?, c.isDigit = false ∧ (sign = [] → c ≠ '+' ∧ c ≠ '-')) :
    lexicon.Takes unknown (digits ++ '.' :: fraction ++ mark :: sign) rest := by
  intro c text eq position
  obtain ⟨state, isState, scale⟩ := munch_unscaled isNumeral all isMark isSign eq position
  have rejects : lexicon.exit state = .reject := by
    rcases isState with ⟨rfl, -⟩ | rfl <;> rfl
  have stops (d : Char) (h : d ∈ rest.head?) : lexicon.edge? state d.toNat = none := by
    rcases isState with ⟨rfl, bare⟩ | rfl <;> refine edge?_eq_none rfl ?_
    · simp [-List.any_eq_false, Edge.take, signs, CharRange.any_digits, ends d h,
        (ends d h).2 bare]
    · simp [-List.any_eq_false, Edge.take, CharRange.any_digits, ends d h]
  rw [scale, munch_stop stops, finish_reject rejects, List.reverse_reverse]
  rfl

end

/-! ## Quoted text -/

section

variable {c quote : Char} {body rest text : List Char} {position : Position}

theorem any_quotable (isQuote : quote ∈ quotes) :
    (quotable quote).any (·.contains c.toNat) = true ↔ c ≠ quote ∧ c ≠ '\r' := by
  have high : c.toNat ≤ 1114111 := by
    rcases c.valid with h | h
    · exact Nat.le_trans (Nat.le_of_lt h) (by decide)
    · exact Nat.le_of_lt_succ h.2
  simp only [quotes, List.mem_cons, List.not_mem_nil, or_false] at isQuote
  rcases isQuote with rfl | rfl <;>
    simp [quotable, CharRange.contains_toNat, ← Char.toNat_inj] <;> omega

def quoteState (quote : Char) : Nat := if quote = '\'' then 8 else 9

theorem edge?_quoted (isQuote : quote ∈ quotes) (plain : c ≠ quote ∧ c ≠ '\r') :
    lexicon.edge? (quoteState quote) c.toNat =
      some (.take (quotable quote) (quoteState quote)) := by
  have first {edges : List Edge} {exit : Exit}
      (q : lexicon.state? (quoteState quote) =
        some ⟨.take (quotable quote) (quoteState quote) :: edges, exit⟩) :
      lexicon.edge? (quoteState quote) c.toNat =
        some (.take (quotable quote) (quoteState quote)) := by
    rw [Lexicon.edge?_of_state?_cons q, Edge.take, if_pos ((any_quotable isQuote).mpr plain)]
  simp only [quotes, List.mem_cons, List.not_mem_nil, or_false] at isQuote
  rcases isQuote with rfl | rfl <;> exact first rfl

/-- Quoted text up to where it could be closed. -/
theorem munch_body (isQuote : quote ∈ quotes) (plain : ∀ c ∈ body, c ≠ quote ∧ c ≠ '\r')
    (eq : quote :: body ++ rest = c :: text) (position : Position) :
    lexicon.munch (lexicon.start.stateFor c.toNat) none [c] (position.next c) text =
      lexicon.munch (quoteState quote) none (quote :: body).reverse
        (position.after (quote :: body)) rest := by
  obtain ⟨rfl, rfl⟩ := List.cons.inj eq
  have start : ∀ q ∈ quotes, lexicon.start.stateFor q.toNat = quoteState q :=
    forall_mem_quotes rfl rfl
  rw [start quote isQuote, List.reverse_cons, Position.after_cons]
  exact munch_run (p := fun c => decide (c ≠ quote ∧ c ≠ '\r'))
    (fun _ h => edge?_quoted isQuote (of_decide_eq_true h)) fun c h => decide_eq_true (plain c h)

theorem takes_quoted (isQuote : quote ∈ quotes) (plain : ∀ c ∈ body, c ≠ quote ∧ c ≠ '\r') :
    lexicon.Takes string (quote :: body ++ [quote]) rest := by
  intro c text eq position
  have closes : ∀ q ∈ quotes,
      lexicon.edge? (quoteState q) q.toNat = some (.take [.single q] 10) :=
    forall_mem_quotes rfl rfl
  rw [List.append_assoc] at eq
  rw [munch_body isQuote plain eq, List.singleton_append, munch_take (closes quote isQuote) rfl,
    munch_stop fun _ _ => rfl, finish_accept rfl]
  simp [Position.after_append]

/-- A carriage return and the end of the text close nothing. -/
theorem takes_unclosed (isQuote : quote ∈ quotes) (plain : ∀ c ∈ body, c ≠ quote ∧ c ≠ '\r')
    (ends : ∀ c ∈ rest.head?, c = '\r') : lexicon.Takes unknown (quote :: body) rest := by
  intro c text eq position
  have stops : ∀ q ∈ quotes, lexicon.edge? (quoteState q) '\r'.toNat = none :=
    forall_mem_quotes rfl rfl
  have rejects : ∀ q ∈ quotes, lexicon.exit (quoteState q) = .reject := forall_mem_quotes rfl rfl
  have stops (d : Char) (h : d ∈ rest.head?) : lexicon.edge? (quoteState quote) d.toNat = none :=
    ends d h ▸ stops quote isQuote
  rw [munch_body isQuote plain eq, munch_stop stops, finish_reject (rejects quote isQuote),
    List.reverse_reverse]
  rfl

end

/-! ## All lexemes -/

variable {kind : Kind} {chars rest : List Char}

theorem takesOperator : ∀ op ∈ operators, lexicon.takesOperator operators op = true := by
  decide +kernel

/-- The automaton takes the lexeme in front of a text. -/
theorem Lexeme.takes (h : Lexeme kind chars rest) : lexicon.Takes kind chars rest := by
  cases h with
  | word letter isRun isKind =>
      have unique : (words.map Prod.fst).Nodup := by decide +kernel
      have start := startTable_fits.stateFor_of_isAlpha letter
      exact takes_word keywords_perm unique rfl start isRun isKind
  | char isNumeral => exact takes_char isNumeral
  | range isNumeral => exact takes_range isNumeral
  | integer isNumeral ends => exact takes_integer isNumeral ends
  | real isNumeral isRun ends => exact takes_real isNumeral isRun ends
  | scaled isNumeral all isMark isSign some isRun =>
      exact takes_scaled isNumeral all isMark isSign some isRun
  | unscaled isNumeral all isMark isSign ends =>
      exact takes_unscaled isNumeral all isMark isSign ends
  | quoted isQuote plain => exact takes_quoted isQuote plain
  | unclosed isQuote plain ends => exact takes_unclosed isQuote plain ends
  | operator isOperator => exact takes_operator takesOperator isOperator
  | other noWord noQuote noOperator =>
      exact takes_other (startTable_fits.stateFor_of_other noWord noQuote noOperator)

theorem spells : lexicon.Spells Lexeme where
  clear := by decide
  exists_lexeme := Lexeme.exists_append_eq
  takes := Lexeme.takes
  kind_ne_eof := Lexeme.kind_ne_eof

theorem separable : lexicon.Separable Lexeme (· ≠ unknown) where
  spells := spells
  blank := by decide
  openers := by decide
  returns := by decide
  apart := Lexeme.apart

theorem white : lexicon.White Lexeme .round where
  spells := spells
  listed := by decide
  openers := by decide
  plain := by decide
  departs := Lexeme.departs

theorem pairsFeeds : lexicon.PairsFeeds Lexeme where
  spells := spells
  blank := by decide
  plain := by decide
  ends := Lexeme.addsReturns

theorem stopsBefore : lexicon.StopsBefore Lexeme .round where
  spells := spells
  listed := by decide
  plain := by decide
  stops := Lexeme.stops

/-- A text has the tokens into which the lexemes of Umbriel cut it, and no others.  What is cut is
the text with a line feed for every carriage return that has none behind it, so in there a carriage
return always has a line feed behind it. -/
theorem lex_eq_iff_cutInto (source : String) (ts : List Token) :
    ((lexicon.lex source).toList = ts ↔ layout.CutInto Lexeme (.ofText source) ts) ∧
      ∀ i : Nat, (Unread.ofText source).rest[i]? = symbolAt source.toList i ∧
        ((Unread.ofText source).rest[i]? = some '\r' →
          (Unread.ofText source).rest[i + 1]? = some '\n') := by
  rw [toList_lex, ← toLayout_lexicon]
  exact ⟨spells.tokens_eq_iff,
    fun i => ⟨getElem?_unifyLineEnds _ i, getElem?_unifyLineEnds_of_return⟩⟩

example : ((lexicon.lex "1.5..2 3... 2.E+ 41C..").toList.map fun t => (t.kind, t.text)) =
    [(real, "1.5"), (upTo, ".."), (integer, "2"), (integer, "3"), (upTo, ".."), (period, "."),
      (unknown, "2.E+"), (char, "41C"), (upTo, ".."), (Kind.eof, "EOF")] := by
  decide +kernel

end OberonFront.Umbriel
