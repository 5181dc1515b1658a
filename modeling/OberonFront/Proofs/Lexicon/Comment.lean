import OberonFront.Proofs.Lexicon.Cut
import OberonFront.Proofs.Lexicon.Lexeme

/-!
# Comments in place of blanks

A closed comment that takes the place of a blank between the tokens of a text
leaves the tokens as they are.  Where lexemes end there is nothing by which they
could tell the opening bracket of the comment from the blank, and behind the
comment the text goes on as behind the blank.
-/

namespace OberonFront

/-! ## Where a comment begins instead of a blank -/

/-- Two texts are alike up to where one goes on with a blank and the other one with a bracket. -/
def Departs (bracket : Char) (rest rest' : List Char) : Prop :=
  ∃ same behind behind', rest = same ++ ' ' :: behind ∧ rest' = same ++ bracket :: behind'

variable {bracket : Char} {rest rest' : List Char}

theorem Departs.forall_head (h : Departs bracket rest rest') {p : Char → Prop} (opens : p bracket)
    (all : ∀ c ∈ rest.head?, p c) : ∀ c ∈ rest'.head?, p c := by
  obtain ⟨same, behind, behind', rfl, rfl⟩ := h
  cases same with
  | nil => simpa using opens
  | cons d same => simpa using all

theorem LongestRun.departs {p : Char → Bool} {run : List Char} (h : LongestRun p run rest)
    (solid : p bracket = false) (departs : Departs bracket rest rest') :
    LongestRun p run rest' where
  all := h.all
  stops := departs.forall_head solid h.stops

theorem IsOperator.departs {operators : List (String × Kind)} {kind : Kind} {chars : List Char}
    (h : IsOperator operators kind chars rest) (fit : OperatorsFit operators)
    (departs : Departs '(' rest rest') : IsOperator operators kind chars rest' := by
  obtain ⟨same, behind, behind', rfl, rfl⟩ := departs
  refine .of_append same h fit fun op listed c first => ?_
  cases Option.mem_some_iff.mp first
  exact (fit op listed).2.1.2

/-! ## Comments over several lines -/

namespace Comment

def round : Comment := ⟨('(', '*'), ('*', ')'), true⟩

/-- The brackets of a comment are not affected by how line ends are read. -/
def Plain (k : Comment) : Prop :=
  ∀ c ∈ [k.opener.1, k.opener.2, k.closer.1, k.closer.2], c ≠ '\n' ∧ c ≠ '\r'

instance (k : Comment) : Decidable k.Plain :=
  List.decidableBAll (fun c => c ≠ '\n' ∧ c ≠ '\r') _

variable {k : Comment} {level : Nat} {c : List Char}

theorem readAs_eq_closer_iff (plain : k.Plain) {a b : Char} (rest rest' : List Char) :
    (readAs a rest, readAs b rest') = k.closer ↔ (a, b) = k.closer := by
  obtain ⟨first, second⟩ : _ ∧ _ := ⟨plain k.closer.1 (by simp), plain k.closer.2 (by simp)⟩
  rw [Prod.ext_iff, Prod.ext_iff, readAs_eq_iff first, readAs_eq_iff second]

theorem nests_readAs (plain : k.Plain) {a b : Char} (rest rest' : List Char) :
    k.Nests (readAs a rest) (readAs b rest') ↔ k.Nests a b := by
  have shuts := readAs_eq_iff (c := a) (plain k.closer.1 (by simp)) rest
  have first := readAs_eq_iff (c := a) (plain k.opener.1 (by simp)) rest
  have second := readAs_eq_iff (c := b) (plain k.opener.2 (by simp)) rest'
  have opens : (readAs a rest, readAs b rest') = k.opener ↔ (a, b) = k.opener := by
    rw [Prod.ext_iff, Prod.ext_iff, first, second]
  exact ⟨fun h => ⟨h.nested, opens.mp h.opens, mt shuts.mpr h.first⟩,
    fun h => ⟨h.nested, opens.mpr h.opens, mt shuts.mp h.first⟩⟩

/-- A comment is closed by the same bracket however its line ends are read. -/
theorem Closes.unifyLineEnds (plain : k.Plain) (h : k.Closes level c) :
    k.Closes level (unifyLineEnds c) := by
  have first := fun rest => (readAs_eq_iff (plain k.closer.1 (by simp)) rest).mpr rfl
  have second := fun rest => (readAs_eq_iff (plain k.closer.2 (by simp)) rest).mpr rfl
  induction h with
  | last =>
      rw [unifyLineEnds_cons, unifyLineEnds_cons, first, second]
      exact .last
  | leave _ ih =>
      rw [unifyLineEnds_cons, unifyLineEnds_cons, first, second]
      exact .leave ih
  | enter opens _ ih =>
      rw [unifyLineEnds_cons, unifyLineEnds_cons]
      exact .enter ((nests_readAs plain _ _).mpr opens) ih
  | pass stays inert _ ih =>
      rw [unifyLineEnds_cons] at ih
      rw [unifyLineEnds_cons, unifyLineEnds_cons]
      refine .pass ?_ ?_ ih
      · rwa [ne_eq, readAs_eq_closer_iff plain]
      · rwa [nests_readAs plain]

theorem Closed.unifyLineEnds (plain : k.Plain) (h : k.Closed c) : k.Closed (unifyLineEnds c) := by
  obtain ⟨inside, rfl, closes⟩ := h
  refine ⟨_, ?_, closes.unifyLineEnds plain⟩
  rw [unifyLineEnds_cons, unifyLineEnds_cons,
    (readAs_eq_iff (plain k.opener.1 (by simp)) _).mpr rfl,
    (readAs_eq_iff (plain k.opener.2 (by simp)) _).mpr rfl]

theorem Closes.exists_append_eq (h : k.Closes level c) :
    ∃ front, c = front ++ [k.closer.2] := by
  induction h with
  | last => exact ⟨[k.closer.1], rfl⟩
  | leave _ ih =>
      obtain ⟨front, rfl⟩ := ih
      exact ⟨_ :: _ :: front, rfl⟩
  | enter _ _ ih =>
      obtain ⟨front, rfl⟩ := ih
      exact ⟨_ :: _ :: front, rfl⟩
  | pass _ _ _ ih =>
      obtain ⟨front, eq⟩ := ih
      exact ⟨_ :: front, congrArg _ eq⟩

/-- Neither in front of a comment nor behind it are two characters read as one line end. -/
theorem Closed.unifyLineEnds_append (plain : k.Plain) (h : k.Closed c) (before after : List Char) :
    OberonFront.unifyLineEnds (before ++ (c ++ after)) =
      OberonFront.unifyLineEnds before ++
        (OberonFront.unifyLineEnds c ++ OberonFront.unifyLineEnds after) := by
  obtain ⟨inside, rfl, closes⟩ := h
  obtain ⟨front, rfl⟩ := closes.exists_append_eq
  have opens := (plain k.opener.1 (by simp)).1
  have shuts : (k.opener.1 :: k.opener.2 :: (front ++ [k.closer.2])).getLast? ≠ some '\r' := by
    rw [← List.cons_append, ← List.cons_append, List.getLast?_concat]
    simpa using (plain k.closer.2 (by simp)).2
  rw [OberonFront.unifyLineEnds_append (.inr (by simpa using opens)),
    OberonFront.unifyLineEnds_append (.inl shuts)]

end Comment

namespace Lexicon

variable {x : Lexicon} {source : String}

/-! ## Inside tokens and comments -/

def InToken (x : Lexicon) (source : String) (offset : Nat) : Prop :=
  ∃ t ∈ (x.lex source).toList, t.start.offset ≤ offset ∧ offset < t.stop

/-- In front of what is unread are a gap and then a comment.  A comment that is never closed reaches
to the end of the text. -/
structure SkipsComment (x : Lexicon) (u : Unread) (gap comment rest : List Char) : Prop where
  text : u.rest = gap ++ (comment ++ rest)
  isGap : x.Gap gap
  isComment : ∃ k ∈ x.comments, k.Closed comment ∨ k.Unclosed comment ∧ rest = []

/-- The character at an offset is part of a comment that the scanner skips after some calls. -/
def InComment (x : Lexicon) (source : String) (offset : Nat) : Prop :=
  ∃ calls gap comment rest, x.SkipsComment (x.unreadAfter source calls) gap comment rest ∧
    (x.unreadAfter source calls).position.offset + gap.length ≤ offset ∧
    offset < (x.unreadAfter source calls).position.offset + gap.length + comment.length

instance (x : Lexicon) (source : String) (offset : Nat) : Decidable (x.InToken source offset) :=
  inferInstanceAs (Decidable (∃ t ∈ (x.lex source).toList, _ ∧ _))

/-- No character is in a comment before the first bracket that could open one. -/
theorem InComment.exists_opener {offset : Nat} (h : x.InComment source offset) :
    ∃ start ≤ offset, ∃ k ∈ x.comments,
      (unifyLineEnds source.toList)[start]? = some k.opener.1 := by
  obtain ⟨calls, gap, comment, rest, skips, le, -⟩ := h
  obtain ⟨k, known, isComment⟩ := skips.isComment
  have front : ∃ inside, comment = k.opener.1 :: k.opener.2 :: inside := by
    rcases isComment with ⟨inside, eq, -⟩ | ⟨⟨inside, eq, -⟩, -⟩ <;> exact ⟨inside, eq⟩
  obtain ⟨inside, rfl⟩ := front
  refine ⟨_, le, k, known, ?_⟩
  rw [← List.getElem?_drop, (x.moves_unreadAfter source calls).drop_offset, skips.text]
  simp

/-- A character of a text in two parts is in the one or in the other. -/
theorem append_eq_append_cons {front back before after : List Char} {c : Char}
    (h : front ++ back = before ++ c :: after) :
    (∃ mid, front = before ++ c :: mid ∧ after = mid ++ back) ∨
      ∃ mid, before = front ++ mid ∧ back = mid ++ c :: after := by
  rcases List.append_eq_append_iff.mp h with ⟨mid, rfl, eq⟩ | ⟨mid, rfl, eq⟩
  · exact .inr ⟨mid, rfl, eq⟩
  · cases mid with
    | nil => exact .inr ⟨[], by simp, eq.symm⟩
    | cons d mid =>
        cases eq
        exact .inl ⟨mid, rfl, rfl⟩

/-! ## Reading on -/

/-- A comment with which a lexicon can replace a blank. -/
structure White (x : Lexicon) (lexeme : LexemeClass) (k : Comment) : Prop where
  spells : x.Spells lexeme
  listed : k ∈ x.comments
  openers : ∀ k' ∈ x.comments, k'.opener.2 ≠ k.opener.1
  plain : k.Plain
  departs : ∀ {kind chars rest rest'}, lexeme kind chars rest →
    Departs k.opener.1 rest rest' → lexeme kind chars rest'

namespace White

variable {lexeme : LexemeClass} {k : Comment} (white : x.White lexeme k)

include white

theorem atToken_departs {kind : Kind} {chars : List Char} (isLexeme : lexeme kind chars rest)
    (atToken : x.AtToken (chars ++ rest)) (departs : Departs k.opener.1 rest rest') :
    x.AtToken (chars ++ rest') := by
  have ne := white.spells.ne_nil isLexeme atToken
  obtain ⟨same, behind, behind', rfl, rfl⟩ := departs
  rw [← List.append_assoc] at atToken ⊢
  refine atToken.of_append (List.append_ne_nil_of_left_ne_nil ne same) fun k' listed c first => ?_
  cases Option.mem_some_iff.mp first
  exact white.openers k' listed

/-- The blanks and comments in front of a text, one of the blanks being replaced. -/
theorem gap_comment {comment : List Char} (closed : k.Closed comment) {u : Unread} {calls : Nat}
    (reached : u = x.unreadAfter source calls) {gap before after rest : List Char}
    (text : u.rest = gap ++ rest) (isGap : x.Gap gap) (eq : gap = before ++ ' ' :: after)
    (outside : ¬ x.InComment source (u.position.offset + before.length)) :
    x.Gap (before ++ (comment ++ after)) := by
  have parts := isGap.split eq fun front inner behind eq' isFront isComment le => by
    obtain ⟨k, known, closed⟩ := isComment
    by_contra within
    have skips : x.SkipsComment u front inner (behind ++ rest) := {
      text := by rw [text, eq', List.append_assoc, List.append_assoc]
      isGap := isFront
      isComment := ⟨k, known, .inl closed⟩ }
    rw [reached] at skips
    refine outside ⟨calls, front, inner, behind ++ rest, skips, ?_⟩
    rw [← reached]
    omega
  have isComment : x.Gap comment := .of_comment white.listed closed
  exact parts.1.append (isComment.append parts.2)

/-- What may end a text, one of the blanks being replaced. -/
theorem trailing_comment {comment : List Char} (closed : k.Closed comment) {u : Unread}
    {calls : Nat} (reached : u = x.unreadAfter source calls) (trailing : x.Trailing u.rest)
    {before after : List Char} (text : u.rest = before ++ ' ' :: after)
    (outside : ¬ x.InComment source (u.position.offset + before.length)) :
    x.Trailing (before ++ (comment ++ after)) := by
  obtain ⟨gap, open', eq, isGap, last⟩ := trailing
  rw [eq] at text
  rcases append_eq_append_cons text with ⟨mid, eq', rfl⟩ | ⟨mid, rfl, eq'⟩
  · have isGap' := white.gap_comment closed reached eq isGap eq' outside
    exact ⟨before ++ (comment ++ mid), open', by simp only [List.append_assoc], isGap', last⟩
  · rcases last with rfl | ⟨k', known, unclosed⟩
    · simp at eq'
    · have skips : x.SkipsComment u gap open' [] := {
        text := by rw [eq, List.append_nil]
        isGap := isGap
        isComment := ⟨k', known, .inr ⟨unclosed, rfl⟩⟩ }
      rw [reached] at skips
      refine absurd ⟨calls, gap, open', [], skips, ?_⟩ outside
      rw [← reached, eq']
      simp only [List.length_append, List.length_cons]
      omega

/-- From a place on at which the scanner comes by, a comment is read as a blank is. -/
theorem reads_comment {comment : List Char} (closed : k.Closed comment) {u : Unread}
    {ts : List Token} (h : x.CutInto lexeme u ts) {calls : Nat}
    (reached : u = x.unreadAfter source calls)
    (listed : ∀ t ∈ ts, t ∈ (x.lex source).toList) {before after : List Char}
    (text : u.rest = before ++ ' ' :: after)
    (noToken : ¬ x.InToken source (u.position.offset + before.length))
    (noComment : ¬ x.InComment source (u.position.offset + before.length)) :
    x.Reads lexeme (before ++ (comment ++ after)) (ts.map Token.spelling) := by
  induction h generalizing calls before with
  | @token position gap chars rest kind ts isGap atToken isLexeme next ih =>
      change x.Reads lexeme _ ((kind, String.ofList chars) :: ts.map Token.spelling)
      -- The blank is in the gap, or it would be in the token, or it comes behind the token.
      rcases append_eq_append_cons text with ⟨mid, eq, rfl⟩ | ⟨mid, rfl, eq⟩
      · have isGap' := white.gap_comment closed reached rfl isGap eq noComment
        have reads := Layout.Reads.token isGap' atToken isLexeme next.reads
        simpa only [List.append_assoc] using reads
      rcases append_eq_append_cons eq with ⟨inner, rfl, -⟩ | ⟨mid, rfl, rfl⟩
      · refine absurd ⟨_, listed _ List.mem_cons_self, ?_, ?_⟩ noToken
        · simp only [Position.offset_after, List.length_append]
          omega
        · simp only [Token.stop, Token.length, String.length_ofList, Position.offset_after,
            List.length_append, List.length_cons]
          omega
      · have behind : ⟨position.after (gap ++ chars), mid ++ ' ' :: after⟩ =
            x.unreadAfter source (calls + 1) := by
          rw [unreadAfter_succ, ← reached, white.spells.nextToken_eq isGap atToken isLexeme]
        have offset : (position.after (gap ++ chars)).offset + mid.length =
            position.offset + (gap ++ (chars ++ mid)).length := by
          simp only [Position.offset_after, List.length_append]
          omega
        have reads := ih behind (fun t ht => listed t (List.mem_cons_of_mem _ ht)) rfl
          (offset ▸ noToken) (offset ▸ noComment)
        have departs : Departs k.opener.1 (mid ++ ' ' :: after) (mid ++ (comment ++ after)) := by
          obtain ⟨inside, rfl, -⟩ := closed
          exact ⟨mid, after, _, rfl, rfl⟩
        have atToken' := white.atToken_departs isLexeme atToken departs
        have reads' := Layout.Reads.token isGap atToken' (white.departs isLexeme departs) reads
        simpa only [List.append_assoc] using reads'
  | ends trailing => exact .ends (white.trailing_comment closed reached trailing text noComment)

/-- Where a blank is in no token and no comment a closed comment stands for it. -/
theorem spellings_lex {a b c : String} (closed : k.Closed c.toList)
    (noToken : ¬ x.InToken (a ++ " " ++ b) a.length)
    (noComment : ¬ x.InComment (a ++ " " ++ b) a.length) :
    (x.lex (a ++ c ++ b)).spellings = (x.lex (a ++ " " ++ b)).spellings := by
  have replaced : unifyLineEnds (a ++ c ++ b).toList =
      unifyLineEnds a.toList ++ (unifyLineEnds c.toList ++ unifyLineEnds b.toList) := by
    rw [String.toList_append, String.toList_append, List.append_assoc]
    exact closed.unifyLineEnds_append white.plain _ _
  have text : (Unread.ofText (a ++ " " ++ b)).rest =
      unifyLineEnds a.toList ++ ' ' :: unifyLineEnds b.toList := by
    have blank : unifyLineEnds (' ' :: b.toList) = ' ' :: unifyLineEnds b.toList := by
      simp [readAs]
    rw [Unread.ofText, String.toList_append, String.toList_append, List.append_assoc, ← blank]
    exact unifyLineEnds_append (.inr (by simp))
  have offset : (Unread.ofText (a ++ " " ++ b)).position.offset + (unifyLineEnds a.toList).length =
      a.length := by
    rw [length_unifyLineEnds, String.length_toList]
    exact Nat.zero_add _
  have cut := white.spells.cutInto_tokens (.ofText (a ++ " " ++ b))
  have reached : Unread.ofText (a ++ " " ++ b) = x.unreadAfter (a ++ " " ++ b) 0 := rfl
  rw [white.spells.spellings_lex_eq_iff, replaced, TokenList.spellings, toList_lex]
  exact white.reads_comment (closed.unifyLineEnds white.plain) cut reached
    (fun t ht => toList_lex x _ ▸ ht) text (offset.symm ▸ noToken) (offset.symm ▸ noComment)

end White

end Lexicon

end OberonFront
