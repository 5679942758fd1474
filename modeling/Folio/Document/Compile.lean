import Folio.Document.Builder
import Folio.Document.Transform
import Folio.Unit.Text

/-! Compiling a document: its body, after a prelude that imports the declared names, becomes a
syntax tree, the tree is transformed, and the result is written as a unit.
-/

namespace Folio.Document

/-- Compiles a body in which the names may be used as components. -/
def compile (transforms : List Transform) (body : String) (names : List String)
    : Except CompileError CompiledUnit := do
  match nameFault? names with
  | some fault => throw (.invalidNames fault)
  | none =>
      let (bound, nodes) ← parse (names.length + 1) (withPrelude names body.toList)
      return { text := Unit.render (Unit.program bound (Transform.applyAll transforms nodes)) }

end Folio.Document
