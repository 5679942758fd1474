/-! Chains of computations that may fail: a chain succeeds exactly if each of its parts does. -/

namespace Folio

variable {ε α β : Type}

/-- A chain of two parts succeeds if the first does, and the second does with its result. -/
theorem bind_eq_ok {first : Except ε α} {next : α → Except ε β} {result : β}
    : (first >>= next) = .ok result ↔ ∃ value, first = .ok value ∧ next value = .ok result := by
  cases first with
  | error fault => exact ⟨fun h => (nomatch h), fun ⟨_, failed, _⟩ => nomatch failed⟩
  | ok value =>
      refine ⟨fun h => ⟨value, rfl, h⟩, ?_⟩
      rintro ⟨_, same, h⟩
      obtain rfl := Except.ok.inj same
      exact h

theorem exists_of_isOk {result : Except ε α} (h : result.isOk = true)
    : ∃ value, result = .ok value := by
  cases result with
  | error fault => exact nomatch h
  | ok value => exact ⟨value, rfl⟩

theorem eq_ok_of_toOption {result : Except ε α} {value : α} (h : result.toOption = some value)
    : result = .ok value := by
  cases result with
  | error fault => exact nomatch h
  | ok other => exact congrArg Except.ok (Option.some.inj h)

theorem toOption_eq_some {result : Except ε α} {value : α}
    : result.toOption = some value ↔ result = .ok value := by
  refine ⟨eq_ok_of_toOption, ?_⟩
  rintro rfl
  rfl

end Folio
