namespace DietExchange

variable {ε α β : Type}

/-- A sequence succeeds exactly when its first step does and the next does with what that gave. -/
theorem bind_eq_ok_iff {first : Except ε α} {next : α → Except ε β} {value : β} :
    (first >>= next) = .ok value ↔ ∃ middle, first = .ok middle ∧ next middle = .ok value := by
  cases first <;> simp [bind, Except.bind]

/-- A sequence is refused exactly when its first step is, or else the next with what the first
    gave. -/
theorem bind_eq_error_iff {first : Except ε α} {next : α → Except ε β} {error : ε} :
    (first >>= next) = .error error ↔
      first = .error error ∨ ∃ middle, first = .ok middle ∧ next middle = .error error := by
  cases first <;> simp [bind, Except.bind]

theorem eq_ok_of_toOption {result : Except ε α} {value : α} (hsome : result.toOption = some value) :
    result = .ok value := by
  cases result with
  | error => cases hsome
  | ok found => exact congrArg Except.ok (Option.some.inj hsome)

theorem exists_error_iff {result : Except ε α} :
    (∃ error, result = .error error) ↔ ¬∃ value, result = .ok value := by
  cases result <;> simp

theorem pure_eq_ok_iff {given value : α} : (pure given : Except ε α) = .ok value ↔
    given = value := by
  simp [pure, Except.pure]

theorem throw_ne_ok {error : ε} {value : α} : (throw error : Except ε α) ≠ .ok value := by
  simp [throw, throwThe, MonadExceptOf.throw]

/-- What is made of a value is refused only if there is none. -/
theorem eq_error_of_map {f : α → β} {result : Except ε α} {error : ε}
    (hmap : f <$> result = .error error) : result = .error error := by
  cases result with
  | ok value => cases hmap
  | error found => exact congrArg Except.error (Except.error.inj hmap)

/-- A choice between a refusal and something else succeeds exactly when the other is chosen and
    succeeds. -/
theorem ite_error_eq_ok_iff {condition : Prop} [Decidable condition] {error : ε}
    {other : Except ε α} {value : α} :
    (if condition then .error error else other) = .ok value ↔ ¬condition ∧ other = .ok value := by
  by_cases hcondition : condition <;> simp [hcondition]

end DietExchange
