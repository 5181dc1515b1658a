import OberonFront.Proofs.Lexicon.Cover
import OberonFront.Proofs.Lexicon.Munch

/-!
# Cutting a text into lexemes

A class of lexemes says which characters in front of a text make up a token and
of which kind.  A text is cut into tokens by going over a gap to the next place
where a token starts, taking the lexeme there, and so on to the end.  A lexicon
whose automaton spells the class hands out these tokens and no others.
-/

namespace OberonFront

/-- Characters of a kind in front of a text: the token's kind, its characters and what follows. -/
abbrev LexemeClass := Kind → List Char → List Char → Prop

namespace Layout

/-! ## Tokens in a text -/

/-- A token starts in front of the text: no blank and no comment does. -/
def AtToken (w : Layout) (text : List Char) : Prop :=
  ∃ c rest, text = c :: rest ∧ c ∉ w.blanks ∧
    ∀ k ∈ w.comments, ¬ [k.opener.1, k.opener.2] <+: text

/-- A text is cut into tokens.  Each is the lexeme at the first place behind a gap where a token
starts, and behind the last one there is nothing but the end of the text. -/
inductive CutInto (w : Layout) (lexeme : LexemeClass) : Unread → List Token → Prop where
  | token {position : Position} {gap chars rest : List Char} {kind : Kind} {ts : List Token}
      (isGap : w.Gap gap) (atToken : w.AtToken (chars ++ rest)) (isLexeme : lexeme kind chars rest)
      (next : CutInto w lexeme ⟨position.after (gap ++ chars), rest⟩ ts) :
      CutInto w lexeme ⟨position, gap ++ (chars ++ rest)⟩
        (⟨kind, String.ofList chars, position.after gap⟩ :: ts)
  | ends {u : Unread} (trailing : w.Trailing u.rest) :
      CutInto w lexeme u [.endAt u.toEnd.position]

variable {w : Layout}

/-- Whether a token starts is told by its first characters, unless a bracket of two goes on. -/
theorem AtToken.of_append {front rest rest' : List Char} (h : w.AtToken (front ++ rest))
    (ne : front ≠ []) (openers : ∀ k ∈ w.comments, ∀ c ∈ rest'.head?, k.opener.2 ≠ c) :
    w.AtToken (front ++ rest') := by
  obtain ⟨c, text, eq, solid, plain⟩ := h
  cases front with
  | nil => exact absurd rfl ne
  | cons d front =>
      obtain ⟨rfl, rfl⟩ := List.cons.inj eq
      refine ⟨d, front ++ rest', rfl, solid, fun k listed opens => ?_⟩
      obtain ⟨first, second⟩ := List.cons_prefix_cons.mp opens
      cases front with
      | nil =>
          obtain ⟨more, rfl⟩ := second
          exact openers k listed _ rfl rfl
      | cons b front =>
          obtain ⟨rfl, -⟩ := List.cons_prefix_cons.mp second
          exact plain k listed (first ▸ ⟨front ++ rest, rfl⟩)

end Layout

namespace Lexicon

variable {x : Lexicon}

/-! ## Over a gap -/

/-- A character that opens a comment is no blank, and opens only that comment. -/
def ClearComments (x : Lexicon) : Prop :=
  ∀ k ∈ x.comments, k.opener.1 ∉ x.blanks ∧ x.comment? k.opener.1.toNat = some k

instance (x : Lexicon) : Decidable x.ClearComments :=
  inferInstanceAs (Decidable (∀ k ∈ x.comments, _ ∧ _))

theorem skipBlanks_blank {c : Char} (h : c ∈ x.blanks) (position : Position)
    (rest : List Char) :
    x.skipBlanks ⟨position, c :: rest⟩ = x.skipBlanks ⟨position.next c, rest⟩ := by
  rw [skipBlanks]
  simp [isBlank_iff.mpr h]

theorem skipBlanks_opener (clear : x.ClearComments) {k : Comment} (h : k ∈ x.comments)
    (position : Position) (inside : List Char) :
    x.skipBlanks ⟨position, k.opener.1 :: k.opener.2 :: inside⟩ =
      match k.skip 0 ((position.next k.opener.1).next k.opener.2) inside with
      | some u => x.skipBlanks u
      | none => Unread.toEnd ⟨position, k.opener.1 :: k.opener.2 :: inside⟩ := by
  obtain ⟨solid, known⟩ := clear k h
  rw [← isBlank_iff] at solid
  rw [skipBlanks]
  simp only [solid, known]
  cases k.skip 0 ((position.next k.opener.1).next k.opener.2) inside <;> simp

/-- A gap is passed over. -/
theorem skipBlanks_append (clear : x.ClearComments) {gap : List Char} (h : x.Gap gap)
    (position : Position) (rest : List Char) :
    x.skipBlanks ⟨position, gap ++ rest⟩ = x.skipBlanks ⟨position.after gap, rest⟩ := by
  induction h generalizing position with
  | nil => rfl
  | blank blank _ ih => rw [List.cons_append, skipBlanks_blank blank, ih, Position.after_cons]
  | comment known closed _ ih =>
      obtain ⟨inside, rfl, closes⟩ := closed
      rw [List.append_assoc, List.cons_append, List.cons_append, skipBlanks_opener clear known,
        Comment.skip_append_of_closes closes]
      simp only [ih, Position.after_append, Position.after_cons]

/-- So is a comment that is never closed. -/
theorem skipBlanks_trailing (clear : x.ClearComments) {text : List Char} (h : x.Trailing text)
    (position : Position) : x.skipBlanks ⟨position, text⟩ = Unread.toEnd ⟨position, text⟩ := by
  obtain ⟨gap, open', rfl, isGap, last⟩ := h
  rw [skipBlanks_append clear isGap, Unread.toEnd, Position.after_append]
  rcases last with rfl | ⟨k, known, inside, rfl, unclosed⟩
  · rw [skipBlanks]
    rfl
  · have never : k.skip 0 (((position.after gap).next k.opener.1).next k.opener.2) inside =
        none := by
      rw [Option.eq_none_iff_forall_ne_some]
      intro u skipped
      obtain ⟨c, rfl, closes⟩ := Comment.exists_closes_of_skip skipped
      exact unclosed c (List.prefix_append _ _) closes
    rw [skipBlanks_opener clear known, never]
    rfl

/-! ## At a token -/

theorem skipBlanks_atToken {text : List Char} (h : x.AtToken text) (position : Position) :
    x.skipBlanks ⟨position, text⟩ = ⟨position, text⟩ := by
  obtain ⟨c, rest, rfl, solid, plain⟩ := h
  rw [skipBlanks]
  simp only [isBlank_iff, solid, if_false]
  cases known : x.comment? c.toNat with
  | none => simp
  | some k =>
      cases rest with
      | nil => simp
      | cons b rest =>
          obtain ⟨listed, rfl⟩ := comment?_spec known
          have other : b ≠ k.opener.2 := by
            rintro rfl
            exact plain k listed ⟨rest, rfl⟩
          simp [other]

theorem atToken_of_skipBlanks (clear : x.ClearComments) {u : Unread}
    (h : (x.skipBlanks u).rest ≠ []) : x.AtToken (x.skipBlanks u).rest := by
  fun_induction skipBlanks x u with
  | case1 u text => exact absurd text h
  | case2 u a rest text blank ih => exact ih h
  | case3 u a solid k rest known v text skipped _ ih => exact ih h
  | case4 => exact absurd rfl h
  | case5 u a solid k b rest text known other =>
      obtain ⟨-, rfl⟩ := comment?_spec known
      refine ⟨_, _, text, mt isBlank_iff.mpr solid, fun k' listed opens => ?_⟩
      rw [text] at opens
      obtain ⟨first, second⟩ := List.cons_prefix_cons.mp opens
      have same := (clear k' listed).2
      rw [first, known] at same
      cases same
      exact other (List.cons_prefix_cons.mp second).1.symm
  | case6 u a rest text solid _ other =>
      refine ⟨a, rest, text, mt isBlank_iff.mpr solid, fun k listed opens => ?_⟩
      rw [text] at opens
      obtain ⟨first, tail, rfl⟩ := List.cons_prefix_cons.mp opens
      exact other k _ _ text (first ▸ (clear k listed).2) rfl HEq.rfl

/-! ## The whole text -/

def Refuses (x : Lexicon) (c : Char) : Prop :=
  c ∈ x.blanks ∧ ∀ q ∈ x.states, q.step c.toNat = none

instance (x : Lexicon) (c : Char) : Decidable (x.Refuses c) :=
  inferInstanceAs (Decidable (_ ∧ _))

structure Spells (x : Lexicon) (lexeme : LexemeClass) : Prop where
  clear : x.ClearComments
  exists_lexeme : ∀ c text, ∃ kind chars rest, lexeme kind chars rest ∧ chars ++ rest = c :: text
  takes : ∀ {kind chars rest}, lexeme kind chars rest → x.Takes kind chars rest
  kind_ne_eof : ∀ {kind chars rest}, lexeme kind chars rest → kind ≠ Kind.eof

theorem nextToken_trailing (clear : x.ClearComments) {u : Unread} (h : x.Trailing u.rest) :
    x.nextToken u = (.endAt u.toEnd.position, u.toEnd) := by
  have skipped : x.skipBlanks u = u.toEnd := skipBlanks_trailing clear h u.position
  unfold nextToken
  rw [skipped]
  rfl

namespace Spells

variable {lexeme : LexemeClass} (spells : x.Spells lexeme)

include spells

theorem ne_nil {kind : Kind} {chars rest : List Char} (isLexeme : lexeme kind chars rest)
    (atToken : x.AtToken (chars ++ rest)) : chars ≠ [] := by
  obtain ⟨c, text, eq, -⟩ := atToken
  exact (spells.takes isLexeme).ne_nil eq

/-- A character that the lexicon refuses is in no token. -/
theorem not_mem_chars {c : Char} (refuses : x.Refuses c) {kind : Kind} {chars rest : List Char}
    (isLexeme : lexeme kind chars rest) (atToken : x.AtToken (chars ++ rest)) : c ∉ chars := by
  obtain ⟨d, text, eq, solid, -⟩ := atToken
  have ne : c ≠ d := fun same => solid (same ▸ refuses.1)
  have munched := spells.takes isLexeme d text eq .start
  have free : c ∉ (x.munch (x.start.stateFor d.toNat) none [d] (Position.start.next d)
      text).chars :=
    not_mem_chars_munch (edge?_eq_none_of_step refuses.2) (by simpa using ne) (by simp)
  rwa [munched] at free

theorem nextToken_eq {kind : Kind} {gap chars rest : List Char} (isGap : x.Gap gap)
    (atToken : x.AtToken (chars ++ rest)) (isLexeme : lexeme kind chars rest)
    (position : Position) :
    x.nextToken ⟨position, gap ++ (chars ++ rest)⟩ =
      (⟨kind, String.ofList chars, position.after gap⟩,
        ⟨position.after (gap ++ chars), rest⟩) := by
  have stays := skipBlanks_append spells.clear isGap position (chars ++ rest)
  rw [skipBlanks_atToken atToken] at stays
  obtain ⟨c, text, eq, -⟩ := atToken
  rw [eq] at stays ⊢
  unfold nextToken
  simp only [stays, spells.takes isLexeme c text eq, Position.after_append]

/-- In front of what is unread is a gap and then a lexeme, or only what may end a text. -/
theorem front (u : Unread) : x.Trailing u.rest ∨ ∃ kind gap chars rest,
    u.rest = gap ++ (chars ++ rest) ∧ x.Gap gap ∧ x.AtToken (chars ++ rest) ∧
      lexeme kind chars rest := by
  obtain ⟨gap, text, skipped⟩ := x.exists_gap_skipBlanks u
  by_cases left : (x.skipBlanks u).rest = []
  · rw [left, List.append_nil] at text
    rw [text]
    refine .inl (skipped.elim (fun isGap => ⟨gap, [], ?_, isGap, .inl rfl⟩) And.right)
    rw [List.append_nil]
  · have isGap := skipped.resolve_right fun h => left h.1
    have atToken := atToken_of_skipBlanks spells.clear left
    obtain ⟨c, rest, eq, -⟩ := id atToken
    obtain ⟨kind, chars, rest, isLexeme, eq'⟩ := spells.exists_lexeme c rest
    rw [← eq] at eq'
    exact .inr ⟨kind, gap, chars, rest, eq'.symm ▸ text, isGap, eq'.symm ▸ atToken, isLexeme⟩

theorem cutInto_tokens (u : Unread) : x.CutInto lexeme u (x.tokens u) := by
  refine x.tokens_induction (motive := x.CutInto lexeme) ?_ ?_ u
  · intro u eof
    rcases spells.front u with trailing | ⟨kind, gap, chars, rest, text, isGap, atToken, isLexeme⟩
    · rw [nextToken_trailing spells.clear trailing]
      exact .ends trailing
    · have next := spells.nextToken_eq isGap atToken isLexeme u.position
      rw [← text] at next
      rw [next] at eof
      exact absurd eof (spells.kind_ne_eof isLexeme)
  · intro u further ih
    rcases spells.front u with trailing | ⟨kind, gap, chars, rest, text, isGap, atToken, isLexeme⟩
    · rw [nextToken_trailing spells.clear trailing] at further
      exact absurd rfl further
    · obtain ⟨position, whole⟩ := u
      change whole = _ at text
      subst text
      rw [spells.nextToken_eq isGap atToken isLexeme] at ih ⊢
      exact .token isGap atToken isLexeme ih

theorem not_mem_text {c : Char} (refuses : x.Refuses c) (inner : c ∉ "EOF".toList) {u : Unread}
    {ts : List Token} (h : x.CutInto lexeme u ts) : ∀ t ∈ ts, c ∉ t.text.toList := by
  induction h with
  | token _ atToken isLexeme _ ih =>
      refine List.forall_mem_cons.mpr ⟨?_, ih⟩
      rw [String.toList_ofList]
      exact spells.not_mem_chars refuses isLexeme atToken
  | ends => exact List.forall_mem_singleton.mpr inner

theorem tokens_eq_of_cutInto {u : Unread} {ts : List Token} (h : x.CutInto lexeme u ts) :
    x.tokens u = ts := by
  induction h with
  | token isGap atToken isLexeme _ ih =>
      rw [tokens_eq, spells.nextToken_eq isGap atToken isLexeme,
        if_neg (spells.kind_ne_eof isLexeme), ih]
  | ends trailing =>
      rw [tokens_eq, nextToken_trailing spells.clear trailing]
      exact if_pos rfl

/-- A text has the tokens into which it is cut, and no others. -/
theorem tokens_eq_iff {u : Unread} {ts : List Token} :
    x.tokens u = ts ↔ x.CutInto lexeme u ts :=
  ⟨fun h => h ▸ spells.cutInto_tokens u, spells.tokens_eq_of_cutInto⟩

/-- A token is a lexeme of the text as it is read from the start of the token on. -/
theorem lexeme_of_mem_lex {source : String} {t : Token} (h : t ∈ (x.lex source).toList)
    (inner : t.kind ≠ Kind.eof) :
    ∃ rest, (unifyLineEnds source.toList).drop t.start.offset = t.text.toList ++ rest ∧
      x.AtToken (t.text.toList ++ rest) ∧ lexeme t.kind t.text.toList rest := by
  rw [toList_lex] at h
  obtain ⟨u, moves, rfl⟩ := exists_eq_nextToken h
  rcases spells.front u with trailing | ⟨kind, gap, chars, rest, text, isGap, atToken, isLexeme⟩
  · rw [nextToken_trailing spells.clear trailing] at inner
    exact absurd rfl inner
  · have next := spells.nextToken_eq isGap atToken isLexeme u.position
    rw [← text] at next
    rw [next, String.toList_ofList]
    have atStart : (Unread.ofText source).MovesTo ⟨u.position.after gap, chars ++ rest⟩ :=
      moves.trans ⟨gap, text, rfl⟩
    exact ⟨rest, atStart.drop_offset, atToken, isLexeme⟩

end Spells

end Lexicon

/-! ## Without places -/

def Token.spelling (t : Token) : Kind × String := (t.kind, t.text)

def TokenList.spellings (l : TokenList) : List (Kind × String) := l.toList.map Token.spelling

theorem TokenList.kinds_eq_map_spellings (l : TokenList) : l.kinds = l.spellings.map Prod.fst := by
  rw [kinds, spellings, List.map_map]
  rfl

namespace Layout

/-- A text is cut into tokens, of which only kinds and texts are told. -/
inductive Reads (w : Layout) (lexeme : LexemeClass) : List Char → List (Kind × String) → Prop where
  | token {gap chars rest : List Char} {kind : Kind} {spellings : List (Kind × String)}
      (isGap : w.Gap gap) (atToken : w.AtToken (chars ++ rest)) (isLexeme : lexeme kind chars rest)
      (next : Reads w lexeme rest spellings) :
      Reads w lexeme (gap ++ (chars ++ rest)) ((kind, String.ofList chars) :: spellings)
  | ends {text : List Char} (trailing : w.Trailing text) :
      Reads w lexeme text [(Kind.eof, "EOF")]

variable {w : Layout} {lexeme : LexemeClass}

theorem CutInto.reads {u : Unread} {ts : List Token} (h : w.CutInto lexeme u ts) :
    w.Reads lexeme u.rest (ts.map Token.spelling) := by
  induction h with
  | token isGap atToken isLexeme _ ih => exact .token isGap atToken isLexeme ih
  | ends trailing => exact .ends trailing

theorem Reads.exists_cutInto {text : List Char} {spellings : List (Kind × String)}
    (h : w.Reads lexeme text spellings) (position : Position) :
    ∃ ts, w.CutInto lexeme ⟨position, text⟩ ts ∧ ts.map Token.spelling = spellings := by
  induction h generalizing position with
  | @token gap chars rest kind _ isGap atToken isLexeme _ ih =>
      obtain ⟨ts, next, rfl⟩ := ih (position.after (gap ++ chars))
      exact ⟨_, .token isGap atToken isLexeme next, rfl⟩
  | ends trailing => exact ⟨_, .ends trailing, rfl⟩

end Layout

namespace Lexicon

variable {x : Lexicon} {lexeme : LexemeClass}

theorem Spells.spellings_lex_eq_iff (spells : x.Spells lexeme) {source : String}
    {spellings : List (Kind × String)} :
    (x.lex source).spellings = spellings ↔
      x.Reads lexeme (unifyLineEnds source.toList) spellings := by
  rw [TokenList.spellings, toList_lex]
  constructor
  · rintro rfl
    exact (spells.cutInto_tokens (.ofText source)).reads
  · intro reads
    obtain ⟨ts, cut, rfl⟩ := reads.exists_cutInto .start
    exact congrArg _ (spells.tokens_eq_of_cutInto cut)

end Lexicon

end OberonFront
