import OberonFront.Proofs.Parser.Deeds
import OberonFront.Proofs.Parser.Visible

/-!
# Going on behind a report

Where a token is missing, a parser reports that once and consumes the tokens in
front of the first one at which it may go on, which is a token of some sets or
the end of the text.  A loop over the elements of a list consumes a token in each
round, either the separator or one of the element, so it comes to an end.
-/

namespace OberonFront

namespace Parser

variable {p : Parser}

/-! ## Parsers at a token -/

/-- What is left to be read are the last ones of the tokens that the parser sees. -/
def OnTokens (p : Parser) : Prop :=
  p.stream.rest.filter (·.kind ≤ p.tables.maxKind) <:+
    (p.stream.tokens.visible p.tables.maxKind).toList

/-- The lookahead is one of the tokens that the parser sees, and those behind it are left to be
read. -/
def AtToken (p : Parser) : Prop :=
  p.ahead <:+ (p.stream.tokens.visible p.tables.maxKind).toList

theorem AtToken.onTokens (h : p.AtToken) : p.OnTokens := (List.suffix_cons _ _).trans h

theorem AtToken.closed (h : p.AtToken) : p.Closed := by
  have ne : p.ahead ≠ [] := List.cons_ne_nil _ _
  refine ⟨p.ahead.getLast ne, List.getLast?_eq_some_getLast ne, ?_⟩
  rw [h.getLast ne]
  exact TokenList.last_kind _

theorem tokens_get (p : Parser) : p.get.stream.tokens = p.stream.tokens := by
  simp only [get, TokenStream.scanVisible, TokenStream.scan]
  cases p.stream.rest.dropWhile (p.tables.maxKind < ·.kind) <;> rfl

/-- Behind the last token the closing one is consumed again and again. -/
theorem ahead_get_of_nil (none : p.stream.rest.filter (·.kind ≤ p.tables.maxKind) = []) :
    p.get.ahead = [p.stream.tokens.last] := by
  have hidden : p.stream.rest.dropWhile (p.tables.maxKind < ·.kind) = [] := by
    simpa [List.dropWhile_eq_nil_iff, List.filter_eq_nil_iff] using none
  simp only [ahead, get, TokenStream.scanVisible, hidden, TokenStream.scan, List.filter_nil]

theorem OnTokens.atToken_get (h : p.OnTokens) : p.get.AtToken := by
  rw [AtToken, tokens_get, tables_get]
  cases left : p.stream.rest.filter (·.kind ≤ p.tables.maxKind) with
  | nil =>
      rw [ahead_get_of_nil left]
      exact ⟨_, (p.stream.tokens.filter_visible p.tables.maxKind).symm⟩
  | cons t ts =>
      rw [ahead_get (congrArg (p.lookahead :: ·) left), ← left]
      exact h

/-- Only consuming changes what is ahead. -/
theorem ahead_next {d : Deed} (h : d ≠ .consume) :
    (p.next d).ahead = p.ahead ∧ (p.next d).stream.tokens = p.stream.tokens := by
  cases d with
  | consume => contradiction
  | attempt | resetPeek => exact ⟨rfl, rfl⟩
  | peek =>
      simp only [next, peek, TokenStream.peek]
      cases p.stream.ahead.dropWhile (p.tables.maxKind < ·.kind) <;> exact ⟨rfl, rfl⟩

theorem AtToken.next (h : p.AtToken) (d : Deed) : (p.next d).AtToken := by
  by_cases consumes : d = .consume
  · rw [consumes]
    exact h.onTokens.atToken_get
  · obtain ⟨same, tokens⟩ := p.ahead_next consumes
    rw [AtToken, same, tokens, tables_next]
    exact h

theorem AtToken.after (h : p.AtToken) (deeds : List Deed) : (p.after deeds).AtToken := by
  induction deeds generalizing p with
  | nil => exact h
  | cons d deeds ih => exact ih (h.next d)

theorem OnTokens.after (h : p.OnTokens) {deeds : List Deed} (consumes : .consume ∈ deeds) :
    (p.after deeds).AtToken := by
  induction deeds generalizing p with
  | nil => cases consumes
  | cons d deeds ih =>
      by_cases first : d = .consume
      · rw [first]
        exact h.atToken_get.after deeds
      · obtain ⟨same, tokens⟩ := p.ahead_next first
        refine ih ?_ ((List.mem_cons.mp consumes).resolve_left (Ne.symm first))
        rw [OnTokens, (List.cons.inj same).2, tokens, tables_next]
        exact h

/-- A parser that consumed anything since it was made has a token as its lookahead. -/
theorem atToken_after (tables : Tables) (l : TokenList) (q : Queue) {deeds : List Deed}
    (consumes : .consume ∈ deeds) : ((ofTokens tables l q).after deeds).AtToken :=
  OnTokens.after (p := ofTokens tables l q) (List.suffix_refl _) consumes

/-! ## Skipping -/

def passes (stop : KindSet) (t : Token) : Bool :=
  ¬ (stop.contains t.kind = true ∨ t.kind = Kind.eof)

def skipped (p : Parser) (stop : KindSet) : List Token := p.ahead.takeWhile (passes stop)

theorem stops_skipTo (p : Parser) (stop : KindSet) :
    stop.contains (p.skipTo stop).lookahead.kind = true ∨
      (p.skipTo stop).lookahead.kind = Kind.eof := by
  induction p using skip_induction stop with
  | stops p h => rwa [skipTo_eq, if_pos h]
  | goes p h ih => rwa [skipTo_eq, if_neg h]

/-- Skipping consumes just the tokens in front of the first one at which it ends. -/
theorem Closed.skip (closed : p.Closed) (stop : KindSet) :
    p.skipEvents stop = List.replicate (p.skipped stop).length .consume ∧
      p.consumed (p.skipEvents stop) = p.skipped stop ∧
      (p.skipTo stop).ahead = p.ahead.dropWhile (passes stop) := by
  induction p using skip_induction stop with
  | stops p h =>
      have stays : ¬ passes stop p.lookahead := by
        simpa only [passes, decide_eq_true_eq, not_not] using h
      have none : p.skipped stop = [] := List.takeWhile_cons_of_neg stays
      rw [none, skipEvents_eq, if_pos h, skipTo_eq, if_pos h, ahead,
        List.dropWhile_cons_of_neg stays]
      exact ⟨rfl, rfl, rfl⟩
  | goes p h ih =>
      have goes : passes stop p.lookahead := decide_eq_true h
      obtain ⟨closed', eq⟩ := closed.get fun eof => h (.inr eof)
      obtain ⟨events, consumed, left⟩ := ih closed'
      have more : p.skipped stop = p.lookahead :: p.get.skipped stop := by
        rw [skipped, eq, List.takeWhile_cons_of_pos goes, skipped]
      have rest : p.ahead.dropWhile (passes stop) = p.get.ahead.dropWhile (passes stop) := by
        rw [eq, List.dropWhile_cons_of_pos goes]
      rw [skipEvents_eq, if_neg h, skipTo_eq, if_neg h, more, rest, List.length_cons,
        List.replicate_succ, ← events]
      exact ⟨rfl, congrArg (p.lookahead :: ·) consumed, left⟩

/-! ## Recovering -/

/-- A parser attempts one report, that a token of a kind is missing, and consumes just the tokens
in front of the first one at which it may go on. -/
structure Resyncs (p : Parser) (kind : Kind) (stop : KindSet) (events : List Event) (q : Parser) :
    Prop where
  replay_eq : p.replay events = q
  events_eq : events = .report kind :: List.replicate (p.skipped stop).length .consume
  consumed_eq : p.consumed events = p.skipped stop
  ahead_eq : q.ahead = p.ahead.dropWhile (passes stop)
  stops : stop.contains q.lookahead.kind = true ∨ q.lookahead.kind = Kind.eof

theorem Closed.resyncs (closed : p.Closed) (kind : Kind) (stop : KindSet) :
    Resyncs p kind stop (.report kind :: (p.fail kind).skipEvents stop)
      ((p.fail kind).skipTo stop) := by
  have failed : (p.fail kind).Closed := closed
  obtain ⟨events, consumed, left⟩ := failed.skip stop
  exact {
    replay_eq := rfl
    events_eq := congrArg (.report kind :: ·) events
    consumed_eq := consumed
    ahead_eq := left
    stops := (p.fail kind).stops_skipTo stop }

/-- What becomes of a parser that expects a token, but may go on at one of `stop`. -/
structure ExpectsWeakly (p : Parser) (kind : Kind) (follow : Nat) (stop : KindSet) : Prop where
  consumes : p.lookahead.kind = kind →
    p.expectWeak kind follow = (p.get, .ok ()) ∧ p.expectWeakEvents kind follow = [.consume]
  resyncs : p.lookahead.kind ≠ kind → ∃ q, p.expectWeak kind follow = (q, .ok ()) ∧
    Resyncs p kind stop (p.expectWeakEvents kind follow) q

/-- What becomes of a parser between the elements of a list, which start with one of `E` and have
one of `B` behind them.  It may also go on at one of `Z`. -/
structure SeparatesWeakly (p : Parser) (kind : Kind) (element behind : Nat) (E B Z : KindSet) :
    Prop where
  consumes : p.lookahead.kind = kind → p.weakSeparator kind element behind = (p.get, .ok true) ∧
    p.weakSeparatorEvents kind element behind = [.consume]
  leaves : p.lookahead.kind ≠ kind → B.contains p.lookahead.kind = true →
    p.weakSeparator kind element behind = (p, .ok false) ∧
      p.weakSeparatorEvents kind element behind = []
  resyncs : p.lookahead.kind ≠ kind → B.contains p.lookahead.kind = false →
    ∃ q, p.weakSeparator kind element behind = (q, .ok (E.contains q.lookahead.kind)) ∧
      Resyncs p kind (E ∪ B ∪ Z) (p.weakSeparatorEvents kind element behind) q

section

variable {kind : Kind} {follow element behind : Nat} {F E B Z : KindSet}

theorem startOf_of_set (h : p.tables.set element = .ok E) :
    p.startOf element = .ok (E.contains p.lookahead.kind) := by
  rw [startOf, Tables.startOf, h]
  rfl

theorem Closed.expectsWeakly (closed : p.Closed) (hF : p.tables.set follow = .ok F) (kind : Kind) :
    ExpectsWeakly p kind follow F where
  consumes here := by
    rw [expectWeak_eq, expectWeakEvents, if_pos here, if_pos here]
    exact ⟨rfl, rfl⟩
  resyncs missing := by
    rw [expectWeak_eq, expectWeakEvents, if_neg missing, if_neg missing, hF]
    exact ⟨_, rfl, closed.resyncs kind F⟩

theorem separatorStop_of_sets (hE : p.tables.set element = .ok E)
    (hB : p.tables.set behind = .ok B) (hZ : p.tables.set 0 = .ok Z) :
    p.separatorStop element behind = .ok (E ∪ B ∪ Z) := by
  rw [separatorStop, hE, hB, hZ]
  rfl

theorem weakSeparator_of_eq (here : p.lookahead.kind = kind) (element behind : Nat) :
    p.weakSeparator kind element behind = (p.get, .ok true) := by
  rw [weakSeparator_eq, if_pos here]

section

variable (missing : p.lookahead.kind ≠ kind) (hB : p.tables.set behind = .ok B)

include missing hB

theorem weakSeparator_of_follows (follows : B.contains p.lookahead.kind = true) (element : Nat) :
    p.weakSeparator kind element behind = (p, .ok false) := by
  rw [weakSeparator_eq, if_neg missing, startOf_of_set hB, follows]

variable (strays : B.contains p.lookahead.kind = false) (hE : p.tables.set element = .ok E)
  (hZ : p.tables.set 0 = .ok Z)

include strays hE hZ

theorem weakSeparator_of_strays :
    p.weakSeparator kind element behind =
      let q := (p.fail kind).skipTo (E ∪ B ∪ Z)
      (q, .ok (E.contains q.lookahead.kind)) := by
  have again : ((p.fail kind).skipTo (E ∪ B ∪ Z)).tables.set element = .ok E := by
    rwa [tables_skipTo, tables_fail]
  rw [weakSeparator_eq, if_neg missing, startOf_of_set hB, strays,
    separatorStop_of_sets hE hB hZ]
  exact congrArg (Prod.mk _) (startOf_of_set again)

theorem weakSeparatorEvents_of_strays :
    p.weakSeparatorEvents kind element behind =
      .report kind :: (p.fail kind).skipEvents (E ∪ B ∪ Z) := by
  rw [weakSeparatorEvents, if_neg missing, startOf_of_set hB, strays,
    separatorStop_of_sets hE hB hZ]

end

theorem Closed.separatesWeakly (closed : p.Closed) (hE : p.tables.set element = .ok E)
    (hB : p.tables.set behind = .ok B) (hZ : p.tables.set 0 = .ok Z) (kind : Kind) :
    SeparatesWeakly p kind element behind E B Z where
  consumes here := by
    refine ⟨weakSeparator_of_eq here element behind, ?_⟩
    rw [weakSeparatorEvents, if_pos here]
  leaves missing follows := by
    refine ⟨weakSeparator_of_follows missing hB follows element, ?_⟩
    rw [weakSeparatorEvents, if_neg missing, startOf_of_set hB, follows]
  resyncs missing strays := by
    rw [weakSeparatorEvents_of_strays missing hB strays hE hZ]
    exact ⟨_, weakSeparator_of_strays missing hB strays hE hZ, closed.resyncs kind (E ∪ B ∪ Z)⟩

end

/-! ## Loops -/

theorem lookahead_next {d : Deed} (h : d ≠ .consume) : (p.next d).lookahead = p.lookahead :=
  (List.cons.inj (p.ahead_next h).1).1

theorem remaining_next {d : Deed} (h : d ≠ .consume) : (p.next d).remaining = p.remaining := by
  cases d with
  | consume => contradiction
  | attempt | resetPeek => rfl
  | peek =>
      simp only [next, peek, TokenStream.peek]
      cases p.stream.ahead.dropWhile (p.tables.maxKind < ·.kind) <;> rfl

theorem remaining_after_le (p : Parser) (deeds : List Deed) :
    (p.after deeds).remaining ≤ p.remaining := by
  induction deeds generalizing p with
  | nil => exact Nat.le_refl _
  | cons d deeds ih =>
      refine Nat.le_trans (ih (p.next d)) ?_
      by_cases consumes : d = .consume
      · rw [consumes]
        exact p.remaining_get_le
      · exact Nat.le_of_eq (remaining_next consumes)

/-- Whoever consumes anything in front of the end of the text has less left. -/
theorem remaining_after_lt {deeds : List Deed} (consumes : .consume ∈ deeds)
    (further : p.lookahead.kind ≠ Kind.eof) : (p.after deeds).remaining < p.remaining := by
  induction deeds generalizing p with
  | nil => cases consumes
  | cons d deeds ih =>
      by_cases first : d = .consume
      · rw [first]
        exact Nat.lt_of_le_of_lt (remaining_after_le p.get deeds) (remaining_get_lt further)
      · have later := (List.mem_cons.mp consumes).resolve_left (Ne.symm first)
        have less : ((p.next d).after deeds).remaining < (p.next d).remaining :=
          ih later (by rwa [lookahead_next first])
        rwa [remaining_next first] at less

/-- A loop over the elements of a list that comes to an end: it goes on as long as an element
follows, and in round `i` the parser `q` behind the separator does what is in `body i q`. -/
inductive Separated (kind : Kind) (element behind : Nat) (body : Nat → Parser → List Deed) :
    Nat → Parser → Parser → Prop where
  | leave {i : Nat} {p q : Parser} (h : p.weakSeparator kind element behind = (q, .ok false)) :
      Separated kind element behind body i p q
  | round {i : Nat} {p q r : Parser} (h : p.weakSeparator kind element behind = (q, .ok true))
      (rest : Separated kind element behind body (i + 1) (q.after (body i q)) r) :
      Separated kind element behind body i p r

section

variable {kind : Kind} {element behind : Nat} {E B Z : KindSet} (real : kind ≠ Kind.eof)
  (hE : p.tables.set element = .ok E) (hB : p.tables.set behind = .ok B)
  (hZ : p.tables.set 0 = .ok Z) (inner : E.contains Kind.eof = false)

include real hE hB hZ inner

/-- If another element follows, then either the separator was consumed, or an element starts here
and whoever reads it has to consume something. -/
theorem weakSeparator_progress : ∃ q answer,
    p.weakSeparator kind element behind = (q, .ok answer) ∧ q.tables = p.tables ∧
      (answer = true → ∀ deeds : List Deed,
        (E.contains q.lookahead.kind = true → .consume ∈ deeds) →
          (q.after deeds).remaining < p.remaining) := by
  by_cases here : p.lookahead.kind = kind
  · refine ⟨_, _, weakSeparator_of_eq here element behind, rfl, fun _ deeds _ => ?_⟩
    exact Nat.lt_of_le_of_lt (remaining_after_le p.get deeds) (remaining_get_lt (here ▸ real))
  · cases follows : B.contains p.lookahead.kind with
    | true => exact ⟨_, _, weakSeparator_of_follows here hB follows element, rfl, nofun⟩
    | false =>
        refine ⟨_, _, weakSeparator_of_strays here hB follows hE hZ, by simp, ?_⟩
        intro starts deeds consumes
        refine Nat.lt_of_lt_of_le (remaining_after_lt (consumes starts) fun eof => ?_)
          ((p.fail kind).remaining_skipTo_le _)
        rw [eof, inner] at starts
        cases starts

/-- A loop over the elements of a list comes to an end, from whichever parser and round on, if
whoever reads an element consumes something where one starts. -/
theorem exists_separated {body : Nat → Parser → List Deed}
    (consumes : ∀ i q, q.tables = p.tables → E.contains q.lookahead.kind = true →
      .consume ∈ body i q) (i : Nat) : ∃ r, Separated kind element behind body i p r := by
  induction left : p.remaining using Nat.strong_induction_on generalizing i p with
  | _ n ih =>
      subst left
      obtain ⟨q, answer, eq, tables, less⟩ :=
        weakSeparator_progress real hE hB hZ inner
      cases answer with
      | false => exact ⟨q, .leave eq⟩
      | true =>
          have same : (q.after (body i q)).tables = p.tables := (q.tables_after _).trans tables
          obtain ⟨r, rest⟩ := ih _ (less rfl (body i q) (consumes i q tables))
            (same ▸ hE) (same ▸ hB) (same ▸ hZ)
            (fun j q' h => consumes j q' (h.trans same)) (i + 1) rfl
          exact ⟨r, .round eq rest⟩

end

end Parser

end OberonFront
