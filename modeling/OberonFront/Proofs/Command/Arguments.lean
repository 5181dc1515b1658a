import OberonFront.Command.Arguments

/-!
# Options and operands

Which arguments of a check are options, and which are operands.  The options stand
before the first pair of hyphens that is an argument of its own, and nothing but
the option for immediate reports may start with hyphens there.
-/

namespace OberonFront

namespace CheckArguments

/-- The arguments before the first one that is `--`. -/
def leading (args : List String) : List String := args.takeWhile (· ≠ "--")

def trailing (args : List String) : List String := (args.dropWhile (· ≠ "--")).tail

/-- The arguments that are no options, if there are no other options. -/
def operands (args : List String) : List String :=
  (leading args).filter (· ≠ "--immediate") ++ trailing args

def Unknown (arg : String) : Prop := "--".toList <+: arg.toList ∧ arg ≠ "--immediate"

section

variable {arg : String} {args : List String}

theorem leading_hyphens : leading ("--" :: args) = [] := by simp [leading]

theorem leading_cons (h : arg ≠ "--") : leading (arg :: args) = arg :: leading args := by
  simp [leading, h]

theorem operands_hyphens : operands ("--" :: args) = args := by
  simp [operands, leading, trailing]

theorem operands_cons (h : arg ≠ "--") :
    operands (arg :: args) =
      if arg = "--immediate" then operands args else arg :: operands args := by
  by_cases immediate : arg = "--immediate"
  · simp [operands, leading, trailing, immediate]
  · simp [operands, leading, trailing, h, immediate]

end

/-- The option and the operands are found, unless there is an option that there is not. -/
theorem operands?_cases (args : List String) :
    (∃ arg ∈ leading args, Unknown arg) ∧ operands? args = none ∨
      (∀ arg ∈ leading args, ¬ Unknown arg) ∧
        operands? args = some (decide ("--immediate" ∈ leading args), operands args) := by
  induction args with
  | nil => exact .inr ⟨fun arg mem => absurd mem List.not_mem_nil, rfl⟩
  | cons arg args ih =>
      by_cases hyphens : arg = "--"
      · subst hyphens
        rw [leading_hyphens, operands_hyphens]
        exact .inr ⟨fun arg mem => absurd mem List.not_mem_nil, rfl⟩
      · rw [operands?, if_neg hyphens, leading_cons hyphens, operands_cons hyphens]
        by_cases immediate : arg = "--immediate"
        · subst immediate
          have known : ¬ Unknown "--immediate" := fun unknown => unknown.2 rfl
          rcases ih with ⟨⟨bad, mem, unknown⟩, refused⟩ | ⟨all, found⟩
          · exact .inl ⟨⟨bad, List.mem_cons_of_mem _ mem, unknown⟩, by simp [refused]⟩
          · exact .inr ⟨List.forall_mem_cons.mpr ⟨known, all⟩, by simp [found]⟩
        · by_cases dashed : "--".toList <+: arg.toList
          · refine .inl ⟨⟨arg, List.mem_cons_self, dashed, immediate⟩, ?_⟩
            rw [if_neg immediate, if_pos (List.isPrefixOf_iff_prefix.mpr dashed)]
          · have known : ¬ Unknown arg := fun unknown => dashed unknown.1
            rw [if_neg immediate, if_neg fun h => dashed (List.isPrefixOf_iff_prefix.mp h),
              if_neg immediate]
            rcases ih with ⟨⟨bad, mem, unknown⟩, refused⟩ | ⟨all, found⟩
            · exact .inl ⟨⟨bad, List.mem_cons_of_mem _ mem, unknown⟩, by simp [refused]⟩
            · exact .inr ⟨List.forall_mem_cons.mpr ⟨known, all⟩, by
                simp [found, Ne.symm immediate]⟩

/-- The arguments of a check are understood, or refused with the one message about usage. -/
theorem parse_cases (args : List String) :
    ((∃ arg ∈ leading args, Unknown arg) ∨ (operands args).length < 2) ∧
        parse args = .error (.usage .check) ∨
      (∀ arg ∈ leading args, ¬ Unknown arg) ∧ ∃ arguments : CheckArguments,
        operands args = arguments.grammar :: arguments.paths ∧ arguments.paths ≠ [] ∧
          arguments.immediate = decide ("--immediate" ∈ leading args) ∧
          parse args = .ok arguments := by
  rcases operands?_cases args with ⟨unknown, refused⟩ | ⟨known, found⟩
  · exact .inl ⟨.inl unknown, by rw [parse, refused]⟩
  · rw [parse, found]
    match operands args with
    | [] | [_] => exact .inl ⟨.inr (by simp), rfl⟩
    | name :: path :: paths =>
        exact .inr ⟨known, ⟨name, path :: paths, _⟩, rfl, List.cons_ne_nil _ _, rfl, rfl⟩

end CheckArguments

end OberonFront
