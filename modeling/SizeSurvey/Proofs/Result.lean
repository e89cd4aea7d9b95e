/-! # Results that may be faults

A run of steps has a value if every step has one.
-/
namespace SizeSurvey
variable {ε α β : Type} {result : Except ε α}

theorem bind_eq_ok_iff {next : α → Except ε β} {value : β} :
    result >>= next = .ok value ↔ ∃ found, result = .ok found ∧ next found = .ok value := by
  cases result with
  | error fault => simp [bind,Except.bind]
  | ok found => simp [bind,Except.bind]

theorem mapError_eq_ok_iff {ε' : Type} {change : ε → ε'} {value : α} :
    result.mapError change = .ok value ↔ result = .ok value := by
  cases result with
  | error fault =>
    change Except.error (change fault) = .ok value ↔ Except.error fault = .ok value
    simp
  | ok found =>
    change Except.ok found = .ok value ↔ Except.ok found = .ok value
    simp

end SizeSurvey
