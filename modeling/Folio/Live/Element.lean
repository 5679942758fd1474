import Folio.Tree.Wire

/-! Live trees: trees whose elements are resolved. A component has an implementation, about which
nothing is known here but its type `ι`.
-/

namespace Folio.Live

/-- What an element of a live tree is. -/
inductive Kind (ι : Type) where
  /-- A container that only contributes its children. -/
  | fragment
  /-- A tag of markup. -/
  | intrinsic (tag : String)
  | component (name : String) (implementation : ι)
deriving DecidableEq, Inhabited

/-- A live tree. -/
abbrev Node (ι : Type) :=
  Tree.Node (Kind ι)

/-- The components that a reader knows, by their names. -/
abbrev Registry (ι : Type) :=
  Json.Fields ι

end Folio.Live
