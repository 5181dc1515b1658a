import Mathlib.Logic.Function.Iterate
import OberonFront.Parser.Basic

/-!
# What the operations of a parser change

Consuming drops the first of the tokens ahead and leaves the queue alone.
Reporting leaves the tokens ahead alone and adds at most one problem to the end
of the queue.  Skipping is consuming some tokens.
-/

namespace OberonFront

namespace Queue

theorem retained_record (q : Queue) (d : Diagnostic) : q.retained <+: (q.record d).retained := by
  unfold retained record
  cases q.delivery with
  | kept diagnostics => simp [Delivery.deliver, Delivery.retained]
  | announced written flushes => simp [Delivery.retained]

end Queue

namespace Tables

theorem set_of_lt {t : Tables} {index : Nat} (h : index < t.sets.length) :
    t.set index = .ok t.sets[index] := entryAt_of_lt h

theorem startOf_of_lt {t : Tables} {index : Nat} (h : index < t.sets.length) (kind : Kind) :
    t.startOf index kind = .ok (t.sets[index].contains kind) := by
  rw [startOf, set_of_lt h]
  rfl

/-- Whether a kind is in a set of the tables.  A set that is not there has no members. -/
def admits (t : Tables) (index : Nat) (kind : Kind) : Bool :=
  t.sets[index]?.any (·.contains kind)

theorem startOf_eq_admits {t : Tables} {index : Nat} (h : index < t.sets.length) (kind : Kind) :
    t.startOf index kind = .ok (t.admits index kind) := by
  rw [startOf_of_lt h, admits, List.getElem?_eq_getElem h]
  rfl

end Tables

namespace Token

def problem (t : Token) (message : String) : Diagnostic :=
  .ofOneBased .error t.start.line t.start.column message

end Token

namespace Parser

def ahead (p : Parser) : List Token :=
  p.lookahead :: p.stream.rest.filter (·.kind ≤ p.tables.maxKind)

def upcoming (p : Parser) : List Kind := p.ahead.map Token.kind

theorem upcoming_cons (p : Parser) :
    ∃ ks, p.upcoming = p.lookahead.kind :: ks := ⟨_, rfl⟩

/-! ## Consuming -/

@[simp] theorem tables_get (p : Parser) : p.get.tables = p.tables := rfl

@[simp] theorem queue_get (p : Parser) : p.get.queue = p.queue := rfl

@[simp] theorem distance_get (p : Parser) : p.get.distance = p.distance + 1 := rfl

private theorem dropWhile_of_filter
    {limit : Kind} {ts us : List Token} {u : Token}
    (h : ts.filter (·.kind ≤ limit) = u :: us) :
    ∃ vs, ts.dropWhile (limit < ·.kind) = u :: vs ∧ vs.filter (·.kind ≤ limit) = us := by
  induction ts with
  | nil => contradiction
  | cons t ts ih =>
      by_cases hidden : limit < t.kind
      · rw [List.filter_cons_of_neg (by simpa using hidden)] at h
        rw [List.dropWhile_cons_of_pos (by simpa using hidden)]
        exact ih h
      · rw [List.filter_cons_of_pos (by simpa using hidden)] at h
        rw [List.dropWhile_cons_of_neg (by simpa using hidden)]
        cases h
        exact ⟨ts, rfl, rfl⟩

theorem ahead_get {p : Parser} {t u : Token} {ts : List Token} (h : p.ahead = t :: u :: ts) :
    p.get.ahead = u :: ts := by
  obtain ⟨vs, drop, rest⟩ := dropWhile_of_filter (List.cons.inj h).2
  simp only [ahead, get, TokenStream.scanVisible, drop, TokenStream.scan, rest]

def advance (n : Nat) (p : Parser) : Parser := get^[n] p

theorem advance_succ (n : Nat) (p : Parser) : p.advance (n + 1) = p.get.advance n := rfl

theorem advance_succ' (n : Nat) (p : Parser) : p.advance (n + 1) = (p.advance n).get :=
  Function.iterate_succ_apply' _ _ _

theorem advance_add (m n : Nat) (p : Parser) : p.advance (m + n) = (p.advance m).advance n := by
  rw [advance, Nat.add_comm, Function.iterate_add_apply]
  rfl

@[simp] theorem tables_advance (n : Nat) (p : Parser) : (p.advance n).tables = p.tables := by
  induction n generalizing p with
  | zero => rfl
  | succ n ih => rw [advance_succ, ih, tables_get]

@[simp] theorem queue_advance (n : Nat) (p : Parser) : (p.advance n).queue = p.queue := by
  induction n generalizing p with
  | zero => rfl
  | succ n ih => rw [advance_succ, ih, queue_get]

@[simp] theorem distance_advance (n : Nat) (p : Parser) :
    (p.advance n).distance = p.distance + n := by
  induction n generalizing p with
  | zero => rfl
  | succ n ih =>
      rw [advance_succ, ih, distance_get]
      omega

theorem ahead_advance {n : Nat} {p : Parser} (h : n < p.ahead.length) :
    (p.advance n).ahead = p.ahead.drop n := by
  induction n generalizing p with
  | zero => rfl
  | succ n ih =>
      match hp : p.ahead with
      | [] | [_] => simp [hp] at h
      | t :: u :: ts =>
          have step := ahead_get hp
          rw [advance_succ, ih (by simpa [step, hp] using h), step]
          rfl

theorem upcoming_advance {n : Nat} {p : Parser} (h : n < p.upcoming.length) :
    (p.advance n).upcoming = p.upcoming.drop n := by
  rw [upcoming, List.length_map] at h
  rw [upcoming, ahead_advance h, upcoming, List.map_drop]

theorem upcoming_advance_append {p : Parser} {u v : List Kind}
    (h : p.upcoming = u ++ v) (hv : v ≠ []) : (p.advance u.length).upcoming = v := by
  rw [upcoming_advance, h, List.drop_left]
  have := List.length_pos_iff.mpr hv
  rw [h, List.length_append]
  omega

theorem remaining_get_le (p : Parser) : p.get.remaining ≤ p.remaining := by
  by_cases h : p.lookahead.kind = Kind.eof
  · unfold remaining
    rw [if_pos h]
    rcases p.stream.length_scanVisible_lt p.tables.maxKind with lt | ⟨rest, kind⟩
    · show (p.stream.scanVisible p.tables.maxKind).2.rest.length + _ ≤ _
      split <;> omega
    · show (p.stream.scanVisible p.tables.maxKind).2.rest.length +
        (if (p.stream.scanVisible p.tables.maxKind).1.kind = Kind.eof then 0 else 1) ≤ _
      rw [rest, if_pos kind]
      exact Nat.zero_le _
  · exact Nat.le_of_lt (remaining_get_lt h)

theorem kind_get_le (p : Parser) : p.get.lookahead.kind ≤ p.tables.maxKind := by
  change (p.stream.scanVisible p.tables.maxKind).1.kind ≤ p.tables.maxKind
  unfold TokenStream.scanVisible TokenStream.scan
  cases h : p.stream.rest.dropWhile (p.tables.maxKind < ·.kind) with
  | nil =>
      rw [p.stream.tokens.last_kind]
      exact Nat.zero_le _
  | cons t ts =>
      have visible := List.head_dropWhile_not (p.tables.maxKind < ·.kind) (l := p.stream.rest)
        (by simp [h])
      simpa [h] using visible

theorem kind_advance_le {p : Parser} (h : p.lookahead.kind ≤ p.tables.maxKind) (n : Nat) :
    (p.advance n).lookahead.kind ≤ p.tables.maxKind := by
  cases n with
  | zero => exact h
  | succ n =>
      have := (p.advance n).kind_get_le
      rwa [← advance_succ', tables_advance] at this

/-! ## Skipping -/

theorem skipTo_of_mem {p : Parser} {stop : KindSet} (h : stop.contains p.lookahead.kind = true) :
    p.skipTo stop = p := by
  rw [skipTo_eq, if_pos (.inl h)]

theorem exists_skipTo_eq_advance (p : Parser) (stop : KindSet) :
    ∃ n, p.skipTo stop = p.advance n := by
  induction p using skip_induction stop with
  | stops p h => exact ⟨0, (p.skipTo_eq stop).trans (if_pos h)⟩
  | goes p h ih =>
      obtain ⟨n, hn⟩ := ih
      exact ⟨n + 1, (p.skipTo_eq stop).trans ((if_neg h).trans hn)⟩

@[simp] theorem tables_skipTo (p : Parser) (stop : KindSet) :
    (p.skipTo stop).tables = p.tables := by
  obtain ⟨n, h⟩ := p.exists_skipTo_eq_advance stop
  rw [h, tables_advance]

@[simp] theorem queue_skipTo (p : Parser) (stop : KindSet) :
    (p.skipTo stop).queue = p.queue := by
  obtain ⟨n, h⟩ := p.exists_skipTo_eq_advance stop
  rw [h, queue_advance]

theorem remaining_advance_le (n : Nat) (p : Parser) : (p.advance n).remaining ≤ p.remaining := by
  induction n generalizing p with
  | zero => exact Nat.le_refl _
  | succ n ih => exact Nat.le_trans (ih p.get) p.remaining_get_le

theorem remaining_skipTo_le (p : Parser) (stop : KindSet) :
    (p.skipTo stop).remaining ≤ p.remaining := by
  obtain ⟨n, h⟩ := p.exists_skipTo_eq_advance stop
  rw [h]
  exact remaining_advance_le n p

theorem kind_skipTo_le {p : Parser} (h : p.lookahead.kind ≤ p.tables.maxKind) (stop : KindSet) :
    (p.skipTo stop).lookahead.kind ≤ p.tables.maxKind := by
  obtain ⟨n, hn⟩ := p.exists_skipTo_eq_advance stop
  rw [hn]
  exact kind_advance_le h n

/-! ## Reporting -/

@[simp] theorem tables_fail (p : Parser) (code : Nat) : (p.fail code).tables = p.tables := rfl

@[simp] theorem lookahead_fail (p : Parser) (code : Nat) :
    (p.fail code).lookahead = p.lookahead := rfl

@[simp] theorem distance_fail (p : Parser) (code : Nat) : (p.fail code).distance = 0 := rfl

theorem queue_fail {p : Parser} (h : minDistance ≤ p.distance) (code : Nat) :
    (p.fail code).queue = p.queue.record (p.lookahead.problem (p.tables.message code)) := by
  simp only [fail, report, Token.problem, if_neg (Nat.not_lt.mpr h)]

theorem queue_fail_of_lt {p : Parser} (h : p.distance < minDistance) (code : Nat) :
    (p.fail code).queue = p.queue := by
  simp only [fail, report, if_pos h]

theorem retained_fail (p : Parser) (code : Nat) :
    p.queue.retained <+: (p.fail code).queue.retained := by
  by_cases h : p.distance < minDistance
  · simp only [queue_fail_of_lt h, List.prefix_refl]
  · rw [queue_fail (Nat.not_lt.mp h)]
    exact Queue.retained_record _ _

/-! ## Beginning -/

/-- A parser begins with all tokens that it sees ahead. -/
theorem ahead_start {tables : Tables} {l : TokenList} {q : Queue} {t : Token} {ts : List Token}
    (h : l.toList.filter (·.kind ≤ tables.maxKind) = t :: ts) :
    (ofTokens tables l q).start.ahead = t :: ts := by
  unfold start
  apply ahead_get (t := .sentinel)
  unfold ahead
  rw [← h]
  rfl

end Parser

end OberonFront
