import Folio.Live.Hydration

/-! Names that a reader cannot resolve cost no more than a warning. A wire value in which all
elements of such names are made groups is read in the same way: the same node, or the same error,
and no warnings. What the reader warns about are the names that were replaced, as far as it reads.
-/

namespace Folio.Live

variable {ι : Type} {α β γ : Type}

-----------------------------------------------------------------------------------------
-- Unknown names, and values without them
-----------------------------------------------------------------------------------------

/-- Holds for the names that a reader cannot resolve: not the name of groups, not registered, and
not in lower case.
-/
def isUnknown (registry : Registry ι) (name : String) : Bool :=
  name != "#group" && !registry.has name && !name.toList.head?.any Text.isLowercase

/-- What follows the marker of an element, with the name of groups in place of an unknown one. -/
def renamed (registry : Registry ι) : List Json.Value → List Json.Value
  | .string name :: rest =>
      .string (if isUnknown registry name then "#group" else name) :: rest
  | items => items

/-- The items of an array, which are renamed if the array is an element. -/
def withoutUnknown (registry : Registry ι) : List Json.Value → List Json.Value
  | .string marker :: rest =>
      .string marker :: if marker = "$r" then renamed registry rest else rest
  | items => items

mutual

/-- A wire value in which the elements of unknown names are groups. -/
def grouped (registry : Registry ι) : Json.Value → Json.Value
  | .null => .null
  | .bool b => .bool b
  | .number n => .number n
  | .string s => .string s
  | .array items => .array (withoutUnknown registry (groupedItems registry items))
  | .object fields => .object (groupedFields registry fields)

def groupedItems (registry : Registry ι) : List Json.Value → List Json.Value
  | [] => []
  | v :: rest => grouped registry v :: groupedItems registry rest

def groupedFields (registry : Registry ι)
    : List (String × Json.Value) → List (String × Json.Value)
  | [] => []
  | (name, v) :: rest => (name, grouped registry v) :: groupedFields registry rest

end

/-- Holds if an element of this name keeps its children only: it is a group, or unknown. -/
def dropsProps (registry : Registry ι) (name : String) : Bool :=
  name == "#group" || isUnknown registry name

mutual

/-- The names of the elements that are met in a wire value, an element before those inside it. What
is in a property that is dropped is not met.
-/
def metNames (registry : Registry ι) : Json.Value → List String
  | .array (.string marker :: rest) =>
      if marker = "$r" then metInElement registry rest else metInItems registry rest
  | .array items => metInItems registry items
  | .object fields => metInFields registry fields
  | _ => []

def metInItems (registry : Registry ι) : List Json.Value → List String
  | [] => []
  | v :: rest => metNames registry v ++ metInItems registry rest

def metInFields (registry : Registry ι) : List (String × Json.Value) → List String
  | [] => []
  | (_, v) :: rest => metNames registry v ++ metInFields registry rest

def metInChildren (registry : Registry ι) : List (String × Json.Value) → List String
  | [] => []
  | (name, v) :: rest =>
      if name = "children" then metNames registry v else metInChildren registry rest

/-- The names that are met in an element, which is given without its marker. -/
def metInElement (registry : Registry ι) : List Json.Value → List String
  | [.string name, _, .object fields] =>
      name
        :: if dropsProps registry name then metInChildren registry fields
          else metInFields registry fields
  | _ => []

end

-----------------------------------------------------------------------------------------
-- Two runs in step
-----------------------------------------------------------------------------------------

/-- What two readings have in common, of which the first met `names` and the second met no unknown
one: they fail with the same error, or both give the same result, the first with the unknown names
as its warnings.
-/
inductive InStep (registry : Registry ι) (names : List String)
    : (first second : Except ElementFault (Revived α)) → Prop where
  | fault (fault : ElementFault) : InStep registry names (.error fault) (.error fault)
  | result (value : α) {warnings : List String}
    (warned : warnings = names.filter (isUnknown registry))
    : InStep registry names (.ok (value, warnings)) (.ok (value, []))

namespace InStep

variable {registry : Registry ι} {names more : List String}
  {first second : Except ElementFault (Revived α)}

/-- Readings stay in step when their results are used in the same way. -/
theorem map (h : InStep registry names first second) (use : α → β)
    : InStep registry names (do let read ← first; return (use read.1, read.2))
        (do let read ← second; return (use read.1, read.2)) := by
  cases h with
  | fault fault => exact .fault fault
  | result value warned => exact .result (use value) warned

/-- Readings stay in step when others that are in step follow them. -/
theorem append {third fourth : Except ElementFault (Revived β)}
    (h : InStep registry names first second) (later : InStep registry more third fourth)
    (use : α → β → γ)
    : InStep registry (names ++ more)
        (do
          let read ← first
          let next ← third
          return (use read.1 next.1, read.2 ++ next.2))
        (do
          let read ← second
          let next ← fourth
          return (use read.1 next.1, read.2 ++ next.2)) := by
  cases h with
  | fault fault => exact .fault fault
  | result value warned =>
      cases later with
      | fault fault => exact .fault fault
      | result next others =>
          exact .result (use value next) (by rw [warned, others, List.filter_append])

/-- A name that is known goes without a warning. -/
theorem known (h : InStep registry names first second) {name : String}
    (known : isUnknown registry name = false)
    : InStep registry (name :: names) first second := by
  cases h with
  | fault fault => exact .fault fault
  | result value warned =>
      exact .result value (by rw [warned, List.filter_cons_of_neg (by simp [known])])

/-- The first reading warns about a name that is unknown. -/
theorem unknown (h : InStep registry names first second) {name : String}
    (unknown : isUnknown registry name = true) (use : α → β)
    : InStep registry (name :: names) (do let read ← first; return (use read.1, name :: read.2))
        (do let read ← second; return (use read.1, read.2)) := by
  cases h with
  | fault fault => exact .fault fault
  | result value warned =>
      exact .result (use value) (by rw [warned, List.filter_cons_of_pos unknown])

end InStep

-----------------------------------------------------------------------------------------
-- Elements
-----------------------------------------------------------------------------------------

variable {registry : Registry ι}

/-- The key of an element is not touched. -/
theorem elementKey?_grouped (v : Json.Value)
    : elementKey? (grouped registry v) = elementKey? v := by
  cases v <;> rfl

/-- An element with a fault has the same fault afterwards. -/
theorem elementFault_renamed (items : List Json.Value)
    : elementFault (renamed registry (groupedItems registry items)) = elementFault items := by
  match items with
  | [] => rfl
  | [name] => cases name <;> rfl
  | [name, _] => cases name <;> rfl
  | [name, key, _] => cases name <;> simp [groupedItems, grouped, renamed, elementFault,
      elementKey?_grouped]
  | name :: _ :: _ :: _ :: _ => cases name <;> rfl

/-- What is no element of a name, a key and properties has a fault. -/
theorem reviveElement_eq_error {items : List Json.Value}
    (shapeless : ∀ name key fields, items ≠ [.string name, key, .object fields])
    : reviveElement registry items = .error (elementFault items) := by
  unfold reviveElement
  split
  · exact absurd rfl (shapeless _ _ _)
  · rfl

/-- An array becomes an element only if it was one. -/
theorem exists_element {items : List Json.Value} {name : String} {key : Json.Value}
    {fields : List (String × Json.Value)}
    (h : renamed registry (groupedItems registry items) = [.string name, key, .object fields])
    : ∃ name key fields, items = [.string name, key, .object fields] := by
  match items with
  | [] => cases h
  | [v] => cases v <;> cases h
  | [name, _] => cases name <;> cases h
  | [name, key, props] => cases name <;> cases props <;> first | exact ⟨_, _, _, rfl⟩ | cases h
  | v :: _ :: _ :: _ :: _ => cases v <;> simp [groupedItems, grouped, renamed] at h

/-- A name is that of groups, or it is unknown, or its element keeps its properties. -/
theorem resolve_cases (registry : Registry ι) (name : String)
    : (name = "#group" ∧ resolve registry name = .group)
      ∨ (isUnknown registry name = true ∧ resolve registry name = .unknown)
      ∨ (dropsProps registry name = false ∧ ∃ kind, resolve registry name = .kept kind) := by
  unfold resolve dropsProps isUnknown
  by_cases isGroup : name = "#group"
  · exact Or.inl ⟨isGroup, if_pos (beq_iff_eq.mpr isGroup)⟩
  · refine Or.inr ?_
    cases found : Json.Fields.get? registry name with
    | some implementation => simp [isGroup, Document.groupName, Json.Fields.has, found]
    | none =>
        cases lower : name.toList.head?.any Text.isLowercase <;>
          simp [isGroup, Document.groupName, Json.Fields.has, found]

theorem isUnknown_group : isUnknown registry "#group" = false :=
  rfl

mutual

/-- Reading a value stays in step with reading it without unknown names, by induction on the value.
-/
theorem inStep_revive (v : Json.Value)
    : InStep registry (metNames registry v) (revive registry v)
        (revive registry (grouped registry v)) := by
  match v with
  | .null | .bool _ | .number _ | .string _ => exact .result _ rfl
  | .object fields => exact (inStep_reviveFields fields).map Tree.Node.map
  | .array [] => exact .result _ rfl
  | .array (.string marker :: rest) =>
      by_cases isElement : marker = "$r"
      · subst isElement
        exact inStep_reviveElement rest
      · have notElement : (marker == Tree.elementMarker) = false := by
          simpa [Tree.elementMarker] using isElement
        simp only [metNames, grouped, groupedItems, withoutUnknown, isElement, if_false, revive,
          notElement, Bool.false_eq_true]
        exact (inStep_reviveItems rest).map fun items =>
          Tree.Node.list (if marker == Tree.listMarker then items else .string marker :: items)
  | .array (.null :: rest) | .array (.bool _ :: rest) | .array (.number _ :: rest)
  | .array (.array _ :: rest) | .array (.object _ :: rest) =>
      exact (inStep_reviveItems _).map Tree.Node.list

/-- Reading items, by induction on the items. -/
theorem inStep_reviveItems (items : List Json.Value)
    : InStep registry (metInItems registry items) (reviveItems registry items)
        (reviveItems registry (groupedItems registry items)) := by
  match items with
  | [] => exact .result [] rfl
  | v :: rest => exact (inStep_revive v).append (inStep_reviveItems rest) List.cons

/-- Reading fields, by induction on the fields. -/
theorem inStep_reviveFields (fields : List (String × Json.Value))
    : InStep registry (metInFields registry fields) (reviveFields registry fields)
        (reviveFields registry (groupedFields registry fields)) := by
  match fields with
  | [] => exact .result [] rfl
  | (name, v) :: rest =>
      exact (inStep_revive v).append (inStep_reviveFields rest) fun node nodes =>
        (name, node) :: nodes

/-- Reading the children among properties, by induction on the properties. -/
theorem inStep_reviveChildren (fields : List (String × Json.Value))
    : InStep registry (metInChildren registry fields) (reviveChildren registry fields)
        (reviveChildren registry (groupedFields registry fields)) := by
  match fields with
  | [] => exact .result [] rfl
  | (name, v) :: rest =>
      by_cases isChildren : name = "children"
      · subst isChildren
        exact (inStep_revive v).map fun node => [("children", node)]
      · have other : name ≠ Tree.childrenProp := isChildren
        simp only [metInChildren, groupedFields, reviveChildren, if_neg isChildren, if_neg other]
        exact inStep_reviveChildren rest

/-- Reading an element. -/
theorem inStep_reviveElement (items : List Json.Value)
    : InStep registry (metInElement registry items) (reviveElement registry items)
        (reviveElement registry (renamed registry (groupedItems registry items))) := by
  by_cases shaped : ∃ name key fields, items = [.string name, key, .object fields]
  · obtain ⟨name, key, fields, rfl⟩ := shaped
    simp only [groupedItems, grouped, renamed, reviveElement, elementKey?_grouped, metInElement]
    cases elementKey? key with
    | none => exact .fault .key
    | some key =>
        rcases resolve_cases registry name with
          ⟨rfl, resolved⟩ | ⟨unknown, resolved⟩ | ⟨keeps, kind, resolved⟩
        · rw [isUnknown_group, if_neg Bool.false_ne_true, resolved]
          exact ((inStep_reviveChildren fields).map (Tree.Node.element .fragment key)).known rfl
        · rw [dropsProps, unknown, Bool.or_true, if_pos rfl, if_pos rfl, resolved]
          exact (inStep_reviveChildren fields).unknown unknown (Tree.Node.element .fragment key)
        · have known : isUnknown registry name = false := (Bool.or_eq_false_iff.mp keeps).2
          rw [keeps, known, if_neg Bool.false_ne_true, if_neg Bool.false_ne_true, resolved]
          exact ((inStep_reviveFields fields).map (Tree.Node.element kind key)).known known
  · have unshaped (name key fields) : items ≠ [.string name, key, .object fields] :=
      fun same => shaped ⟨name, key, fields, same⟩
    rw [reviveElement_eq_error unshaped, reviveElement_eq_error, elementFault_renamed]
    · exact .fault _
    · exact fun name key fields same => shaped (exists_element same)

end

/-- Unknown names become groups, and nothing else changes. Reading a wire value and reading it with
groups in place of all elements of unknown names fail together, with the same error, or give the
same node. The second reading has no warnings, and those of the first are the unknown ones among the
names that it meets.
-/
theorem fromWire_grouped (registry : Registry ι) (v : Json.Value)
    : fromWire registry (grouped registry v)
        = (fromWire registry v).map (fun read => (read.1, []))
      ∧ (fromWire registry v).map Prod.snd
        = (fromWire registry v).map
            fun _ => (metNames registry v).filter (isUnknown registry) := by
  have both : InStep registry (metNames registry v) (revive registry v)
      (revive registry (grouped registry v)) :=
    inStep_revive v
  unfold fromWire
  generalize revive registry v = first, revive registry (grouped registry v) = second at both
  cases both with
  | fault fault => exact ⟨rfl, rfl⟩
  | result value warned => exact ⟨rfl, congrArg Except.ok warned⟩

end Folio.Live
