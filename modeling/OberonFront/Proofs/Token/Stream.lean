import Mathlib.Data.List.DropRight
import OberonFront.Token.Stream

/-!
# Reading by index

A stream may be read with two indices instead of the tokens that are left: that
of the token scanned last and that of the token looked at last, none of which
there is in the beginning.  To look ahead is to go from index to index until a
token of a visible kind is met.  This ends at the latest with the token that
closes the sequence, and both ways of reading hand out the same tokens.
-/

namespace OberonFront

/-! ## Sequences -/

namespace TokenList

theorem prefix_ofTokens (tokens : List Token) : tokens <+: (ofTokens tokens).toList := by
  unfold ofTokens
  split
  · exact List.prefix_refl tokens
  · exact List.prefix_append tokens _

theorem ofTokens_toList (l : TokenList) : ofTokens l.toList = l :=
  dif_pos ⟨l.ne_nil, l.eof_last⟩

variable (l : TokenList) (maxKind : Kind)

/-- The index behind another one, or the first index. -/
def successor : Option Nat → Nat
  | none => 0
  | some i => l.nextIndex i

/-- Goes from index to index until the token there is of a kind up to `maxKind`.  There is no answer
if this takes more than some rounds, or if an index has no token. -/
def look : Nat → Option Nat → Option Nat
  | 0, _ => none
  | rounds + 1, place =>
      match l.get? (l.successor place) with
      | none => none
      | some t =>
          if t.kind ≤ maxKind then some (l.successor place)
          else look rounds (some (l.successor place))

def passed : Option Nat → Nat
  | none => 0
  | some i => i + 1

def behind (place : Option Nat) : List Token := l.toList.drop (passed place)

theorem length_behind_le (place : Option Nat) : (l.behind place).length ≤ l.length := by
  rw [behind, List.length_drop, length]
  exact Nat.sub_le ..

theorem successor_eq (place : Option Nat) :
    l.successor place = min (passed place) (l.length - 1) := by
  cases place with
  | none => exact (Nat.zero_min _).symm
  | some i => rfl

/-- At an index, or at the last one if it is too great, is the first of the tokens from there on, or
the last token. -/
theorem get?_min (n : Nat) :
    l.get? (min n (l.length - 1)) = some ((l.toList.drop n).headD l.last) := by
  have pos := l.length_pos
  by_cases lt : n < l.length
  · have index : min n (l.length - 1) = n := by omega
    rw [index, List.drop_eq_getElem_cons lt]
    exact List.getElem?_eq_getElem lt
  · have index : min n (l.length - 1) = l.length - 1 := by omega
    rw [index, List.drop_eq_nil_of_le (Nat.le_of_not_lt lt), get?, length,
      ← List.getLast?_eq_getElem?, List.getLast?_eq_some_getLast l.ne_nil]
    rfl

/-- At the next index is the first of the tokens behind, or the last token again if there are
none. -/
theorem get?_successor (place : Option Nat) :
    l.get? (l.successor place) = some ((l.behind place).headD l.last) := by
  rw [successor_eq, get?_min, behind]

theorem behind_successor (place : Option Nat) :
    l.behind (some (l.successor place)) = (l.behind place).tail := by
  have pos := l.length_pos
  rw [behind, behind, List.tail_drop, passed, successor_eq]
  by_cases lt : passed place < l.length
  · congr 1
    omega
  · have all {n : Nat} (le : l.length ≤ n) : l.toList.drop n = [] := List.drop_eq_nil_of_le le
    rw [all (by omega), all (by omega)]

/-- A look ahead ends within more rounds than there are tokens behind, at the first of them that is
seen or at the last token. -/
theorem look_spec (place : Option Nat) {rounds : Nat}
    (enough : (l.behind place).length < rounds) :
    ∃ i, l.look maxKind rounds place = some i ∧
      l.get? i = some (((l.behind place).dropWhile (maxKind < ·.kind)).headD l.last) ∧
      l.behind (some i) = ((l.behind place).dropWhile (maxKind < ·.kind)).tail := by
  induction rounds generalizing place with
  | zero => exact absurd enough (Nat.not_lt_zero _)
  | succ rounds ih =>
      have here := l.get?_successor place
      have later := l.behind_successor place
      rw [look, here]
      cases tokens : l.behind place with
      | nil =>
          rw [tokens] at here later
          have seen : l.last.kind ≤ maxKind := by
            rw [l.last_kind]
            exact Nat.zero_le maxKind
          exact ⟨_, if_pos seen, here, later⟩
      | cons t ts =>
          rw [tokens] at here later enough
          -- A token that is not seen is left behind, so fewer tokens are there for one round less.
          by_cases seen : t.kind ≤ maxKind
          · rw [List.dropWhile_cons_of_neg (by simpa using seen)]
            exact ⟨_, if_pos seen, here, later⟩
          · have fewer : (l.behind (some (l.successor place))).length < rounds := by
              rw [later]
              exact Nat.lt_of_succ_lt_succ enough
            obtain ⟨i, found, token, left⟩ := ih _ fewer
            rw [later] at token left
            rw [List.dropWhile_cons_of_pos (by simpa using seen)]
            exact ⟨i, (if_neg seen).trans found, token, left⟩

end TokenList

/-! ## Operations -/

inductive StreamOperation where
  | scan
  | peek
  | resetPeek
deriving DecidableEq, Repr

/-- How often a token was looked at since the last scan or reset, or since the beginning. -/
def StreamOperation.peeks (ops : List StreamOperation) : Nat :=
  (ops.rtakeWhile (· = .peek)).length

open StreamOperation (peeks)

theorem StreamOperation.peeks_concat (ops : List StreamOperation) (op : StreamOperation) :
    peeks (ops ++ [op]) = if op = .peek then peeks ops + 1 else 0 := by
  unfold peeks
  split
  · rename_i same
    rw [List.rtakeWhile_concat_pos _ _ _ (by simpa using same), List.length_append]
    rfl
  · rename_i other
    rw [List.rtakeWhile_concat_neg _ _ _ (by simpa using other)]
    rfl

namespace TokenStream

variable (s : TokenStream) (maxKind : Kind)

def next (s : TokenStream) : StreamOperation → TokenStream
  | .scan => s.scan.2
  | .peek => (s.peek maxKind).2
  | .resetPeek => s.resetPeek

def after (ops : List StreamOperation) : TokenStream := ops.foldl (next maxKind) s

theorem after_concat (ops : List StreamOperation) (op : StreamOperation) :
    s.after maxKind (ops ++ [op]) = (s.after maxKind ops).next maxKind op := by
  rw [after, List.foldl_append]
  rfl

theorem scan_eq : s.scan = (s.rest.headD s.tokens.last, ⟨s.tokens, s.rest.tail, s.rest.tail⟩) := by
  unfold scan
  cases s.rest with
  | nil => rfl
  | cons t ts => rfl

theorem peek_eq : s.peek maxKind =
    ((s.ahead.dropWhile (maxKind < ·.kind)).headD s.tokens.last,
      { s with ahead := (s.ahead.dropWhile (maxKind < ·.kind)).tail }) := by
  unfold peek
  cases s.ahead.dropWhile (maxKind < ·.kind) with
  | nil => rfl
  | cons t ts => rfl

@[simp] theorem tokens_after (ops : List StreamOperation) :
    (s.after maxKind ops).tokens = s.tokens := by
  induction ops using List.reverseRecOn with
  | nil => rfl
  | append_singleton ops op ih =>
      rw [after_concat, ← ih]
      cases op with
      | scan => rw [next, scan_eq]
      | peek => rw [next, peek_eq]
      | resetPeek => rfl

/-! ## What is left -/

/-- The first token that is seen, and those behind it, among all that are seen. -/
theorem filter_visible (ts : List Token) (last : Token) :
    (ts.dropWhile (maxKind < ·.kind)).headD last = (ts.filter (·.kind ≤ maxKind)).headD last ∧
      (ts.dropWhile (maxKind < ·.kind)).tail.filter (·.kind ≤ maxKind) =
        (ts.filter (·.kind ≤ maxKind)).tail := by
  induction ts with
  | nil => exact ⟨rfl, rfl⟩
  | cons t ts ih =>
      by_cases seen : t.kind ≤ maxKind
      · rw [List.dropWhile_cons_of_neg (by simpa using seen),
          List.filter_cons_of_pos (by simpa using seen)]
        exact ⟨rfl, rfl⟩
      · rw [List.dropWhile_cons_of_pos (by simpa using seen),
          List.filter_cons_of_neg (by simpa using seen)]
        exact ih

variable (l : TokenList)

/-- Looking ahead never moves the place of the scan. -/
theorem rest_after (ops : List StreamOperation) :
    ((ofTokens l).after maxKind ops).rest = l.toList.drop (ops.count .scan) := by
  induction ops using List.reverseRecOn with
  | nil => rfl
  | append_singleton ops op ih =>
      rw [after_concat, List.count_append]
      cases op with
      | scan =>
          rw [next, scan_eq, ih, List.tail_drop]
          rfl
      | peek =>
          rw [next, peek_eq, ih]
          rfl
      | resetPeek => exact ih

/-- Of the tokens behind the scan that are seen, those looked at are left out. -/
theorem filter_ahead_after (ops : List StreamOperation) :
    ((ofTokens l).after maxKind ops).ahead.filter (·.kind ≤ maxKind) =
      ((l.toList.drop (ops.count .scan)).filter (·.kind ≤ maxKind)).drop (peeks ops) := by
  induction ops using List.reverseRecOn with
  | nil => rfl
  | append_singleton ops op ih =>
      have rest := rest_after maxKind l (ops ++ [op])
      rw [StreamOperation.peeks_concat, ← rest, after_concat]
      cases op with
      | scan =>
          rw [next, scan_eq]
          rfl
      | peek =>
          rw [next, peek_eq, (filter_visible maxKind _ l.last).2, ih, List.tail_drop,
            rest_after]
          rfl
      | resetPeek => rfl

end TokenStream

/-! ## Reading with indices -/

/-- The indices of the tokens scanned and looked at last. -/
structure Indices where
  scanned? : Option Nat
  peeked? : Option Nat
deriving DecidableEq, Repr

namespace Indices

def start : Indices := ⟨none, none⟩

variable (l : TokenList) (maxKind : Kind)

/-- The index that a look ahead finds, if it takes no more rounds than there are tokens, and one. -/
def look (x : Indices) : Option Nat := l.look maxKind (l.length + 1) x.peeked?

def next? (x : Indices) : StreamOperation → Option Indices
  | .scan => some ⟨some (l.successor x.scanned?), some (l.successor x.scanned?)⟩
  | .peek => (x.look l maxKind).map fun i => ⟨x.scanned?, some i⟩
  | .resetPeek => some ⟨x.scanned?, x.scanned?⟩

/-- The indices after some operations, if every look ahead ends. -/
def after? (x : Indices) (ops : List StreamOperation) : Option Indices :=
  ops.foldlM (next? l maxKind) x

theorem after?_concat (x : Indices) (ops : List StreamOperation) (op : StreamOperation) :
    x.after? l maxKind (ops ++ [op]) =
      (x.after? l maxKind ops).bind fun y => y.next? l maxKind op := by
  rw [after?, List.foldlM_append]
  simp only [List.foldlM_cons, List.foldlM_nil, bind_pure]
  rfl

/-- The indices tell what is left of a stream. -/
structure Tracks (x : Indices) (s : TokenStream) : Prop where
  tokens_eq : s.tokens = l
  rest_eq : s.rest = l.behind x.scanned?
  ahead_eq : s.ahead = l.behind x.peeked?

namespace Tracks

variable {l maxKind} {x : Indices} {s : TokenStream}

theorem scan (tracks : Tracks l x s) : l.get? (l.successor x.scanned?) = some s.scan.1 := by
  rw [l.get?_successor, TokenStream.scan_eq, tracks.tokens_eq, tracks.rest_eq]

theorem peek (tracks : Tracks l x s) :
    ∃ i, x.look l maxKind = some i ∧ l.get? i = some (s.peek maxKind).1 ∧
      Tracks l ⟨x.scanned?, some i⟩ (s.peek maxKind).2 := by
  have enough := Nat.lt_succ_of_le (l.length_behind_le x.peeked?)
  obtain ⟨i, found, token, left⟩ := l.look_spec maxKind x.peeked? enough
  rw [TokenStream.peek_eq, tracks.tokens_eq, tracks.ahead_eq]
  exact ⟨i, found, token, rfl, tracks.rest_eq, left.symm⟩

/-- Every operation goes on, and the indices go with it. -/
theorem next (tracks : Tracks l x s) (op : StreamOperation) :
    ∃ y, x.next? l maxKind op = some y ∧ Tracks l y (s.next maxKind op) := by
  cases op with
  | scan =>
      have left := l.behind_successor x.scanned?
      rw [← tracks.rest_eq] at left
      refine ⟨_, rfl, ?_⟩
      rw [TokenStream.next, TokenStream.scan_eq]
      exact ⟨tracks.tokens_eq, left.symm, left.symm⟩
  | peek =>
      obtain ⟨i, found, -, after⟩ := tracks.peek
      exact ⟨_, congrArg (Option.map _) found, after⟩
  | resetPeek => exact ⟨_, rfl, tracks.tokens_eq, tracks.rest_eq, tracks.rest_eq⟩

end Tracks

theorem exists_after? (ops : List StreamOperation) :
    ∃ x, start.after? l maxKind ops = some x ∧
      Tracks l x ((TokenStream.ofTokens l).after maxKind ops) := by
  induction ops using List.reverseRecOn with
  | nil => exact ⟨start, rfl, rfl, rfl, rfl⟩
  | append_singleton ops op ih =>
      obtain ⟨x, runs, tracks⟩ := ih
      obtain ⟨y, goes, after⟩ := tracks.next op
      rw [after?_concat, runs, TokenStream.after_concat]
      exact ⟨y, goes, after⟩

end Indices

/-! ## What is read -/

namespace TokenStream

/-- From any tokens a sequence is made that begins with them and is closed by an end of text; made
from the tokens of a sequence it is this sequence again.  Whatever was done with a stream over it,
the next token scanned is the one at the number of scans, or the last one.  The token looked at is
the next one behind the scan that is seen and was not looked at since, or the last one.  A reader
that keeps indices and goes over the tokens that are not seen one by one hands out the same. -/
theorem reads_in_order (tokens : List Token) (maxKind : Kind) :
    let l := TokenList.ofTokens tokens
    (l.toList ≠ [] ∧ l.last.kind = Kind.eof ∧ tokens <+: l.toList ∧
      TokenList.ofTokens l.toList = l) ∧
    ∀ ops : List StreamOperation,
      let s := (ofTokens l).after maxKind ops
      let scans := ops.count .scan
      l.get? (min scans (l.length - 1)) = some s.scan.1 ∧
      (s.peek maxKind).1 =
        ((l.toList.drop scans).filter (·.kind ≤ maxKind))[peeks ops]?.getD l.last ∧
      ∃ x, Indices.start.after? l maxKind ops = some x ∧
        l.get? (l.successor x.scanned?) = some s.scan.1 ∧
        ∃ i, x.look l maxKind = some i ∧ l.get? i = some (s.peek maxKind).1 := by
  intro l
  refine ⟨⟨l.ne_nil, l.last_kind, TokenList.prefix_ofTokens tokens, l.ofTokens_toList⟩, ?_⟩
  intro ops s scans
  have tokens_eq : s.tokens = l := tokens_after (ofTokens l) maxKind ops
  have rest_eq : s.rest = l.toList.drop scans := rest_after maxKind l ops
  refine ⟨?scan, ?peek, ?indices⟩
  case scan =>
    rw [scan_eq, tokens_eq, rest_eq]
    exact l.get?_min scans
  case peek =>
    rw [peek_eq, (filter_visible maxKind s.ahead _).1, filter_ahead_after, tokens_eq,
      List.headD_eq_head?_getD, List.head?_drop]
  case indices =>
    obtain ⟨x, runs, tracks⟩ := Indices.exists_after? l maxKind ops
    obtain ⟨i, found, token, -⟩ := tracks.peek
    exact ⟨x, runs, tracks.scan, i, found, token⟩

end TokenStream

end OberonFront
