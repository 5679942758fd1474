import Folio.Proofs.Unit.Lines
import Folio.Unit.Run
import Mathlib.Data.List.Forall2
import Mathlib.Data.List.Induction

/-! What the lines of a unit mean by themselves. Which names are imported before a line, which
elements are open there and whether the line is faulty is said by the lines before it, without any
run.
-/

namespace Folio.Unit

open Folio.Tree (Kind)

-----------------------------------------------------------------------------------------
-- Lines
-----------------------------------------------------------------------------------------

def imported? (line : List Char) : Option String :=
  match Instruction.ofLine line with
  | .ok (.bind name) => some name
  | _ => none

def isOpening (line : List Char) : Bool :=
  match Instruction.ofLine line with
  | .ok (.openTag _) | .ok (.openComponent _) => true
  | _ => false

def isClosing (line : List Char) : Bool :=
  match Instruction.ofLine line with
  | .ok .close => true
  | _ => false

def imports (lines : List (List Char)) : List String :=
  lines.filterMap imported?

def opens (lines : List (List Char)) : Nat :=
  lines.countP isOpening

def closes (lines : List (List Char)) : Nat :=
  lines.countP isClosing

/-- Each line with the lines before it, of which `earlier` are the first. -/
def withEarlier (earlier : List (List Char))
    : List (List Char) → List (List (List Char) × List Char)
  | [] => []
  | line :: rest => (earlier, line) :: withEarlier (earlier ++ [line]) rest

def openings (lines : List (List Char)) : List (List (List Char) × List Char) :=
  (withEarlier [] lines).filter fun entry => isOpening entry.2

/-- The kind of the element that a line opens, given the lines before it. -/
inductive OpensAs (env : Environment) (before : List (List Char)) (line : List Char)
    : Kind → Prop where
  | tag {name : String} (read : Instruction.ofLine line = .ok (.openTag name))
      : OpensAs env before line (.tag name)
  | component {name : String} {binding : Binding}
      (read : Instruction.ofLine line = .ok (.openComponent name))
      (imported : name ∈ imports before) (bound : env.get? name = some binding)
      : OpensAs env before line binding.kind

/-- Holds for the kinds of the elements that lines open, in the order of the lines. -/
def Opened (env : Environment) (lines : List (List Char)) (kinds : List Kind) : Prop :=
  List.Forall₂ (fun opening kind => OpensAs env opening.1 opening.2 kind) (openings lines) kinds

/-- Holds for lines that are closed among themselves: each element that they open they close, and
nothing else.
-/
structure Balanced (lines : List (List Char)) : Prop where
  same : opens lines = closes lines
  inside : ∀ n, closes (lines.take n) ≤ opens (lines.take n)

-----------------------------------------------------------------------------------------
-- Faults
-----------------------------------------------------------------------------------------

/-- Holds for instructions that are about the element that is open. -/
def Instruction.needsElement : Instruction → Bool
  | .key _ | .prop _ _ | .close => true
  | _ => false

/-- The number of the line after the header and some more lines, counted from one. -/
def lineNumber (before : List (List Char)) : Nat :=
  before.length + 2

/-- What is wrong with a line, given the lines between the header and it. Empty lines are never
faulty.
-/
def fault? (env : Environment) (before : List (List Char)) (line : List Char) : Option RunError :=
  if line.isEmpty then none
  else
    match Instruction.ofLine line with
    | .error fault => some (.badLine fault (lineNumber before))
    | .ok (.bind name) =>
        if env.has name then none else some (.unboundName name (lineNumber before))
    | .ok (.openComponent name) =>
        if name ∈ imports before then none else some (.notImported name (lineNumber before))
    | .ok i =>
        if i.needsElement && opens before ≤ closes before then
          some (.noOpenElement i.word (lineNumber before))
        else none

/-- Lines without a fault are empty or instructions for which all is there: the name that is
imported is bound, the component that is opened was imported, and an element is open if one is
needed.
-/
theorem fault?_eq_none_iff {env : Environment} {before : List (List Char)} {line : List Char}
    : fault? env before line = none
      ↔ line = []
        ∨ ∃ i : Instruction,
            (∃ argument, IsCall line i.word argument ∧ i.Takes argument)
            ∧ (∀ name, i = .bind name → env.has name = true)
            ∧ (∀ name, i = .openComponent name → name ∈ imports before)
            ∧ (i.needsElement = true → closes before < opens before) := by
  by_cases empty : line = []
  · simp [fault?, empty]
  have filled : line.isEmpty = false := by simpa using empty
  simp only [fault?, filled, empty, false_or, Bool.false_eq_true, if_false,
    ← ofLine_eq_ok_iff_exists]
  cases Instruction.ofLine line with
  | error fault => simp
  | ok i => cases i <;> simp [Instruction.needsElement]

def Clean (env : Environment) (lines : List (List Char)) : Prop :=
  ∀ entry ∈ withEarlier [] lines, fault? env entry.1 entry.2 = none

instance (env : Environment) (lines : List (List Char)) : Decidable (Clean env lines) :=
  inferInstanceAs (Decidable (∀ entry ∈ withEarlier [] lines, fault? env entry.1 entry.2 = none))

-----------------------------------------------------------------------------------------
-- One line more
-----------------------------------------------------------------------------------------

theorem withEarlier_append (earlier first later : List (List Char))
    : withEarlier earlier (first ++ later)
      = withEarlier earlier first ++ withEarlier (earlier ++ first) later := by
  induction first generalizing earlier with
  | nil => simp [withEarlier]
  | cons line rest ih => simp [withEarlier, ih]

theorem withEarlier_concat (lines : List (List Char)) (line : List Char)
    : withEarlier [] (lines ++ [line]) = withEarlier [] lines ++ [(lines, line)] :=
  withEarlier_append [] lines [line]

@[simp]
theorem imports_concat (lines : List (List Char)) (line : List Char)
    : imports (lines ++ [line]) = imports lines ++ (imported? line).toList := by
  cases found : imported? line <;> simp [imports, found]

@[simp]
theorem opens_concat (lines : List (List Char)) (line : List Char)
    : opens (lines ++ [line]) = opens lines + (isOpening line).toNat := by
  cases found : isOpening line <;> simp [opens, found]

@[simp]
theorem closes_concat (lines : List (List Char)) (line : List Char)
    : closes (lines ++ [line]) = closes lines + (isClosing line).toNat := by
  cases found : isClosing line <;> simp [closes, found]

theorem openings_concat (lines : List (List Char)) (line : List Char)
    : openings (lines ++ [line])
      = openings lines ++ if isOpening line then [(lines, line)] else [] := by
  rw [openings, withEarlier_concat, List.filter_append]
  cases found : isOpening line <;> simp [openings, found]

theorem clean_concat {env : Environment} {lines : List (List Char)} {line : List Char}
    : Clean env (lines ++ [line]) ↔ Clean env lines ∧ fault? env lines line = none := by
  rw [Clean, withEarlier_concat, List.forall_mem_append, List.forall_mem_singleton, Clean]

/-- Lines that are not clean have a first faulty one, by induction on the lines from the end. -/
theorem exists_firstFault {env : Environment} {lines : List (List Char)} (h : ¬Clean env lines)
    : ∃ before line after error,
        lines = before ++ line :: after
        ∧ Clean env before
        ∧ fault? env before line = some error := by
  induction lines using List.reverseRecOn with
  | nil => exact absurd (List.forall_mem_nil _) h
  | append_singleton lines line ih =>
      by_cases clean : Clean env lines
      · have faulty : fault? env lines line ≠ none := fun none => h (clean_concat.mpr ⟨clean, none⟩)
        obtain ⟨error, found⟩ := Option.ne_none_iff_exists'.mp faulty
        exact ⟨lines, line, [], error, rfl, clean, found⟩
      · obtain ⟨before, first, after, error, rfl, clean, found⟩ := ih clean
        exact ⟨before, first, after ++ [line], error, by simp, clean, found⟩

-----------------------------------------------------------------------------------------
-- Opened elements
-----------------------------------------------------------------------------------------

theorem OpensAs.isOpening {env : Environment} {before : List (List Char)} {line : List Char}
    {kind : Kind} (h : OpensAs env before line kind)
    : isOpening line = true := by
  cases h with
  | tag read => simp [Unit.isOpening, read]
  | component read => simp [Unit.isOpening, read]

theorem OpensAs.imported?_eq_none {env : Environment} {before : List (List Char)}
    {line : List Char} {kind : Kind} (h : OpensAs env before line kind)
    : imported? line = none := by
  cases h with
  | tag read => simp [imported?, read]
  | component read => simp [imported?, read]

theorem opened_nil (env : Environment) : Opened env [] [] :=
  .nil

theorem Opened.concat {env : Environment} {lines : List (List Char)} {line : List Char}
    {kinds : List Kind} {kind : Kind} (h : Opened env lines kinds)
    (opening : OpensAs env lines line kind)
    : Opened env (lines ++ [line]) (kinds ++ [kind]) := by
  rw [Opened, openings_concat, if_pos opening.isOpening]
  exact List.rel_append h (.cons opening .nil)

theorem Opened.idle {env : Environment} {lines : List (List Char)} {line : List Char}
    {kinds : List Kind} (h : Opened env lines kinds) (noOpening : isOpening line = false)
    : Opened env (lines ++ [line]) kinds := by
  have same : openings (lines ++ [line]) = openings lines := by
    simp [openings_concat, noOpening]
  rw [Opened, same]
  exact h

/-- As many elements are opened as lines open one, by induction on the lines from the end. -/
theorem length_openings (lines : List (List Char)) : (openings lines).length = opens lines := by
  induction lines using List.reverseRecOn with
  | nil => rfl
  | append_singleton lines line ih =>
      rw [openings_concat, List.length_append, opens_concat, ih]
      cases isOpening line <;> rfl

-----------------------------------------------------------------------------------------
-- Balanced lines
-----------------------------------------------------------------------------------------

@[simp]
theorem opens_append (first later : List (List Char))
    : opens (first ++ later) = opens first + opens later :=
  List.countP_append

@[simp]
theorem closes_append (first later : List (List Char))
    : closes (first ++ later) = closes first + closes later :=
  List.countP_append

@[simp]
theorem opens_cons (line : List Char) (rest : List (List Char))
    : opens (line :: rest) = opens rest + (isOpening line).toNat := by
  cases found : isOpening line <;> simp [opens, found]

@[simp]
theorem closes_cons (line : List Char) (rest : List (List Char))
    : closes (line :: rest) = closes rest + (isClosing line).toNat := by
  cases found : isClosing line <;> simp [closes, found]

@[simp]
theorem opens_nil : opens [] = 0 :=
  rfl

@[simp]
theorem closes_nil : closes [] = 0 :=
  rfl

theorem isClosing_of_isOpening {line : List Char} (h : isOpening line = true)
    : isClosing line = false := by
  unfold isOpening at h
  unfold isClosing
  split at h <;> simp_all

theorem balanced_nil : Balanced [] :=
  ⟨rfl, by simp⟩

/-- Balanced lines one after the other are balanced. -/
theorem Balanced.append {first later : List (List Char)} (h : Balanced first)
    (more : Balanced later)
    : Balanced (first ++ later) := by
  refine ⟨by simp [h.same, more.same], fun n => ?_⟩
  have before := h.inside n
  have after := more.inside (n - first.length)
  rw [List.take_append, opens_append, closes_append]
  omega

/-- A line that opens and closes nothing is balanced. -/
theorem balanced_idle {line : List Char} (noOpening : isOpening line = false)
    (noClosing : isClosing line = false)
    : Balanced [line] := by
  refine ⟨by simp [noOpening, noClosing], fun n => ?_⟩
  cases n <;> simp [noClosing]

/-- Balanced lines between a line that opens an element and one that closes it. -/
theorem Balanced.enclose {line last : List Char} {inner : List (List Char)} (h : Balanced inner)
    (opening : isOpening line = true) (closing : isClosing last = true)
    : Balanced (line :: (inner ++ [last])) := by
  have opensOnly := isClosing_of_isOpening opening
  have closesOnly : isOpening last = false := by
    by_contra both
    exact absurd (isClosing_of_isOpening (Bool.not_eq_false _ ▸ both)) (by simp [closing])
  refine ⟨by simp [opening, closing, opensOnly, closesOnly, h.same], fun n => ?_⟩
  cases n with
  | zero => simp
  | succ n =>
      have within := h.inside n
      rw [List.take_succ_cons, List.take_append, opens_cons, closes_cons, opens_append,
        closes_append, opening, opensOnly]
      have one : closes ([last].take (n - inner.length)) ≤ 1 := by
        cases n - inner.length <;> simp [closing]
      have := Nat.zero_le (opens ([last].take (n - inner.length)))
      simp only [Bool.toNat_true, Bool.toNat_false]
      omega

end Folio.Unit
