import OberonFront.Proofs.Parser.Operations

/-!
# What a parser does, event by event

The operations of a parser go through events: the parser consumes the lookahead
or attempts a report.  So a count of events is a count of what happened, repeated
ends of the text included.
-/

namespace OberonFront

namespace Parser

theorem replay_append (p : Parser) (events more : List Event) :
    p.replay (events ++ more) = (p.replay events).replay more :=
  List.foldl_append

theorem errorsBefore_replay (p : Parser) (events : List Event) :
    (p.replay events).errorsBefore = p.errorsBefore := by
  induction events generalizing p with
  | nil => rfl
  | cons event events ih =>
      rw [replay_cons, ih]
      cases event <;> rfl

def consumed (p : Parser) : List Event → List Token
  | [] => []
  | .consume :: events => p.lookahead :: p.get.consumed events
  | .report code :: events => (p.fail code).consumed events

theorem consumed_append (p : Parser) (events more : List Event) :
    p.consumed (events ++ more) = p.consumed events ++ (p.replay events).consumed more := by
  induction events generalizing p with
  | nil => rfl
  | cons event events ih =>
      cases event with
      | consume => exact congrArg (p.lookahead :: ·) (ih p.get)
      | report code => exact ih (p.fail code)

theorem length_consumed (p : Parser) (events : List Event) :
    (p.consumed events).length = events.count .consume := by
  induction events generalizing p with
  | nil => rfl
  | cons event events ih =>
      cases event with
      | consume => rw [consumed, List.length_cons, ih, List.count_cons_self]
      | report code => rw [consumed, ih, List.count_cons_of_ne (by simp)]

theorem count_expectEvents_le (p : Parser) (kind : Kind) :
    (p.expectEvents kind).count .consume ≤ 1 := by
  unfold expectEvents
  split <;> simp

/-! ## Reports -/

theorem errors_le_fail (p : Parser) (code : Nat) : p.queue.errors ≤ (p.fail code).queue.errors := by
  by_cases h : p.distance < minDistance
  · exact Nat.le_of_eq (congrArg Queue.errors (queue_fail_of_lt h code).symm)
  · rw [queue_fail (Nat.not_lt.mp h)]
    exact Nat.le_add_right _ _

theorem errors_le_replay (p : Parser) (events : List Event) :
    p.queue.errors ≤ (p.replay events).queue.errors := by
  induction events generalizing p with
  | nil => exact Nat.le_refl _
  | cons event events ih =>
      refine Nat.le_trans ?_ (ih (p.act event))
      cases event with
      | consume => exact Nat.le_refl _
      | report code => exact p.errors_le_fail code

/-- The first report is passed on, so where none was passed on there was none. -/
theorem eq_replicate_of_errors_le {p : Parser} {events : List Event}
    (far : minDistance ≤ p.distance) (h : (p.replay events).queue.errors ≤ p.queue.errors) :
    events = List.replicate events.length .consume := by
  induction events generalizing p with
  | nil => rfl
  | cons event events ih =>
      cases event with
      | consume =>
          rw [List.length_cons, List.replicate_succ, ← ih (p := p.get) (Nat.le_succ_of_le far) h]
      | report code =>
          exfalso
          have more : p.queue.errors + 1 ≤ (p.fail code).queue.errors := by
            rw [queue_fail far]
            exact Nat.le_refl _
          have kept := (p.fail code).errors_le_replay events
          rw [replay_cons, act] at h
          omega

/-! ## Reports in the operations -/

theorem report_not_mem_skipEvents (p : Parser) (stop : KindSet) (code : Nat) :
    .report code ∉ p.skipEvents stop := by
  induction p using skip_induction stop with
  | stops p h =>
      rw [skipEvents_eq, if_pos h]
      exact List.not_mem_nil
  | goes p h ih =>
      rw [skipEvents_eq, if_neg h]
      simpa using ih

section

variable {p : Parser} {kind code : Nat}

theorem of_report_mem_expectEvents (mem : .report code ∈ p.expectEvents kind) :
    code = kind ∧ p.lookahead.kind ≠ kind := by
  unfold expectEvents at mem
  split at mem
  · simp at mem
  · rename_i missing
    exact ⟨by simpa using mem, missing⟩

theorem of_report_mem_expectWeakEvents {follow : Nat}
    (mem : .report code ∈ p.expectWeakEvents kind follow) :
    code = kind ∧ p.lookahead.kind ≠ kind := by
  unfold expectWeakEvents at mem
  split at mem
  · simp at mem
  · rename_i missing
    refine ⟨?_, missing⟩
    split at mem
    · simpa [report_not_mem_skipEvents] using mem
    · simpa using mem

theorem eq_of_report_mem_weakSeparatorEvents {element behind : Nat}
    (mem : .report code ∈ p.weakSeparatorEvents kind element behind) : code = kind := by
  unfold weakSeparatorEvents at mem
  split at mem
  · simp at mem
  · split at mem
    · simpa [report_not_mem_skipEvents] using mem
    · simp at mem

end

/-! ## Consuming in order -/

def Closed (p : Parser) : Prop := ∃ t, p.ahead.getLast? = some t ∧ t.kind = Kind.eof

/-- Before the end of the text there is a token to go on with. -/
theorem Closed.exists_ahead {p : Parser} (closed : p.Closed) (h : p.lookahead.kind ≠ Kind.eof) :
    ∃ t ts, p.ahead = p.lookahead :: t :: ts := by
  obtain ⟨last, eq, eof⟩ := closed
  unfold ahead at eq ⊢
  cases behind : p.stream.rest.filter (·.kind ≤ p.tables.maxKind) with
  | nil =>
      rw [behind] at eq
      cases eq
      exact absurd eof h
  | cons t ts => exact ⟨t, ts, rfl⟩

theorem Closed.get {p : Parser} (closed : p.Closed) (h : p.lookahead.kind ≠ Kind.eof) :
    p.get.Closed ∧ p.ahead = p.lookahead :: p.get.ahead := by
  obtain ⟨t, ts, eq⟩ := closed.exists_ahead h
  have left := ahead_get eq
  obtain ⟨last, last_eq, eof⟩ := closed
  rw [eq, List.getLast?_cons_cons, ← left] at last_eq
  rw [eq, left]
  exact ⟨⟨last, last_eq, eof⟩, rfl⟩

def SparesEnd (p : Parser) (events : List Event) : Prop :=
  ∀ t ∈ p.consumed events, t.kind ≠ Kind.eof

theorem sparesEnd_append {p : Parser} {events more : List Event} :
    p.SparesEnd (events ++ more) ↔ p.SparesEnd events ∧ (p.replay events).SparesEnd more := by
  unfold SparesEnd
  rw [consumed_append]
  exact List.forall_mem_append

/-- What is consumed is what was ahead and is ahead no more. -/
theorem SparesEnd.consumed_append_ahead {p : Parser} {events : List Event}
    (spares : p.SparesEnd events) (closed : p.Closed) :
    (p.replay events).Closed ∧ p.consumed events ++ (p.replay events).ahead = p.ahead := by
  induction events generalizing p with
  | nil => exact ⟨closed, rfl⟩
  | cons event events ih =>
      cases event with
      | consume =>
          obtain ⟨real, spares⟩ := List.forall_mem_cons.mp spares
          obtain ⟨closed', eq⟩ := closed.get real
          obtain ⟨closed'', eq'⟩ := ih spares closed'
          refine ⟨closed'', ?_⟩
          rw [eq]
          exact congrArg (p.lookahead :: ·) eq'
      | report code => exact ih spares closed

/-! ## The end of the text in the operations -/

theorem sparesEnd_nil (p : Parser) : p.SparesEnd [] := fun _ mem => absurd mem List.not_mem_nil

theorem sparesEnd_consume {p : Parser} (h : p.lookahead.kind ≠ Kind.eof) :
    p.SparesEnd [.consume] :=
  List.forall_mem_singleton.mpr h

theorem sparesEnd_report (p : Parser) (code : Nat) : p.SparesEnd [.report code] :=
  p.sparesEnd_nil

theorem sparesEnd_skipEvents (p : Parser) (stop : KindSet) : p.SparesEnd (p.skipEvents stop) := by
  induction p using skip_induction stop with
  | stops p h =>
      rw [skipEvents_eq, if_pos h]
      exact p.sparesEnd_nil
  | goes p h ih =>
      rw [skipEvents_eq, if_neg h]
      exact List.forall_mem_cons.mpr ⟨fun eof => h (.inr eof), ih⟩

section

variable {kind : Kind} (p : Parser) (real : kind ≠ Kind.eof)

include real

theorem sparesEnd_expectEvents : p.SparesEnd (p.expectEvents kind) := by
  unfold expectEvents
  split
  · rename_i eq
    exact sparesEnd_consume (eq ▸ real)
  · exact p.sparesEnd_report kind

theorem sparesEnd_expectWeakEvents (follow : Nat) :
    p.SparesEnd (p.expectWeakEvents kind follow) := by
  unfold expectWeakEvents
  split
  · rename_i eq
    exact sparesEnd_consume (eq ▸ real)
  · split
    · exact (p.fail kind).sparesEnd_skipEvents _
    · exact p.sparesEnd_report kind

theorem sparesEnd_weakSeparatorEvents (element behind : Nat) :
    p.SparesEnd (p.weakSeparatorEvents kind element behind) := by
  unfold weakSeparatorEvents
  split
  · rename_i eq
    exact sparesEnd_consume (eq ▸ real)
  · split
    · exact (p.fail kind).sparesEnd_skipEvents _
    · exact p.sparesEnd_nil

end

end Parser

end OberonFront
