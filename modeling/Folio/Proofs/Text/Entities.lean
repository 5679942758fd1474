import Folio.Text.Lines
import Mathlib.Data.List.Infix

/-! Named entities in a text, and their reading in one pass. What one pass replaces it does not read
again, so writing characters by their names and reading them back is the identity. Replacing the
entities one kind after the other is the same, as long as no character that is put in is part of a
name that is still to be read.
-/

namespace Folio.Text

-----------------------------------------------------------------------------------------
-- Occurrences
-----------------------------------------------------------------------------------------

theorem stripLead?_eq_some {lead s rest : List Char}
    : stripLead? lead s = some rest ↔ lead ++ rest = s := by
  induction lead generalizing s with
  | nil => simp [stripLead?, eq_comm]
  | cons a lead ih =>
      cases s with
      | nil => simp [stripLead?]
      | cons c s =>
          by_cases same : a = c
          · simp [stripLead?, same, ih]
          · simp [stripLead?, same]

/-- What starts a text is a prefix of it. -/
theorem startsWith_iff {lead s : List Char} : startsWith lead s = true ↔ lead <+: s := by
  rw [startsWith, Option.isSome_iff_exists]
  exact exists_congr fun _ => stripLead?_eq_some

section

variable {part by_ : List Char}

@[simp] theorem replace_nil : replace part by_ [] = [] :=
  rfl

theorem replace_skip (skipped rest : List Char)
    : replace.go part by_ (skipped ++ rest) skipped.length = replace part by_ rest := by
  induction skipped with
  | nil => rfl
  | cons c skipped ih => exact ih

/-- An occurrence is replaced. -/
theorem replace_part (notNil : part ≠ []) (rest : List Char)
    : replace part by_ (part ++ rest) = by_ ++ replace part by_ rest := by
  obtain ⟨c, more, rfl⟩ := List.exists_cons_of_ne_nil notNil
  have starts : startsWith (c :: more) (c :: (more ++ rest)) = true :=
    startsWith_iff.mpr (List.prefix_append (c :: more) rest)
  simp [replace, replace.go, starts]
  exact replace_skip more rest

/-- A character that starts no occurrence stays. -/
theorem replace_cons {c : Char} {rest : List Char} (other : ¬part <+: c :: rest)
    : replace part by_ (c :: rest) = c :: replace part by_ rest := by
  have noStart : startsWith part (c :: rest) = false :=
    Bool.eq_false_iff.mpr (mt startsWith_iff.mp other)
  simp [replace, replace.go, noStart]

/-- Characters with which no occurrence starts stay. -/
theorem replace_append {s : List Char} (other : ∀ c ∈ s, part.head? ≠ some c)
    (notNil : part ≠ []) (rest : List Char)
    : replace part by_ (s ++ rest) = s ++ replace part by_ rest := by
  induction s with
  | nil => rfl
  | cons c s ih =>
      obtain ⟨first, later⟩ := List.forall_mem_cons.mp other
      have noStart : ¬part <+: c :: (s ++ rest) := by
        obtain ⟨d, more, rfl⟩ := List.exists_cons_of_ne_nil notNil
        intro starts
        exact first (congrArg some (List.cons_prefix_cons.mp starts).1)
      rw [List.cons_append, replace_cons noStart, ih later, List.cons_append]

/-- What starts a text after a replacement started it before, unless it has the character in it that
was put in.
-/
theorem prefix_of_replace {character : Char} {lead s : List Char} (fresh : character ∉ lead)
    (starts : lead <+: replace part [character] s) (notNil : part ≠ [])
    : lead <+: s := by
  induction lead generalizing s with
  | nil => exact List.nil_prefix
  | cons a lead ih =>
      simp only [List.mem_cons, not_or] at fresh
      by_cases replaced : part <+: s
      · obtain ⟨rest, rfl⟩ := replaced
        rw [replace_part notNil] at starts
        exact absurd (List.cons_prefix_cons.mp starts).1.symm fresh.1
      · cases s with
        | nil => exact absurd starts (by simp)
        | cons c s =>
            rw [replace_cons replaced] at starts
            obtain ⟨rfl, later⟩ := List.cons_prefix_cons.mp starts
            exact List.cons_prefix_cons.mpr ⟨rfl, ih fresh.2 later⟩

end

-----------------------------------------------------------------------------------------
-- Entities
-----------------------------------------------------------------------------------------

/-- The entity of a table with which a text starts: its name and its character. -/
def entityAt? (table : List (List Char × Char)) (s : List Char) : Option (List Char × Char) :=
  table.find? fun entity => startsWith entity.1 s

/-- A text with the entities of a table replaced by their characters, in one pass from left to
right.
-/
def readEntities (table : List (List Char × Char)) (s : List Char) : List Char :=
  go s 0
where
  go : List Char → Nat → List Char
    | [], _ => []
    | _ :: rest, skip + 1 => go rest skip
    | c :: rest, 0 =>
        match entityAt? table (c :: rest) with
        | some (name, character) => character :: go rest (name.length - 1)
        | none => c :: go rest 0

/-- Holds for tables in which each name starts with its only ampersand, and no name starts another.
-/
structure IsTable (table : List (List Char × Char)) : Prop where
  ampersand : ∀ entity ∈ table, entity.1.head? = some '&'
  once : ∀ entity ∈ table, '&' ∉ entity.1.tail
  apart : ∀ entity ∈ table, ∀ other ∈ table, entity.1 <+: other.1 → entity = other

variable {table : List (List Char × Char)}

theorem IsTable.exists_name (h : IsTable table) {entity : List Char × Char}
    (member : entity ∈ table)
    : ∃ more, entity.1 = '&' :: more ∧ '&' ∉ more := by
  obtain ⟨more, name⟩ := List.head?_eq_some_iff.mp (h.ampersand entity member)
  exact ⟨more, name, by simpa [name] using h.once entity member⟩

theorem IsTable.name_ne_nil (h : IsTable table) {entity : List Char × Char}
    (member : entity ∈ table)
    : entity.1 ≠ [] := by
  obtain ⟨more, name, -⟩ := h.exists_name member
  simp [name]

theorem IsTable.of_cons {entity : List Char × Char} (h : IsTable (entity :: table))
    : IsTable table where
  ampersand other member := h.ampersand other (List.mem_cons_of_mem _ member)
  once other member := h.once other (List.mem_cons_of_mem _ member)
  apart other member third known :=
    h.apart other (List.mem_cons_of_mem _ member) third (List.mem_cons_of_mem _ known)

theorem entityAt?_eq_none_iff {s : List Char}
    : entityAt? table s = none ↔ ∀ entity ∈ table, ¬entity.1 <+: s := by
  simp [entityAt?, startsWith_iff]

theorem of_entityAt? {entity : List Char × Char} {s : List Char}
    (found : entityAt? table s = some entity)
    : entity ∈ table ∧ entity.1 <+: s := by
  have starts := List.find?_some found
  exact ⟨List.mem_of_find?_eq_some found, startsWith_iff.mp starts⟩

/-- The entity at the start of a text is the one whose name starts the text. -/
theorem IsTable.entityAt?_iff (h : IsTable table) {entity : List Char × Char} {s : List Char}
    : entityAt? table s = some entity ↔ entity ∈ table ∧ entity.1 <+: s := by
  refine ⟨of_entityAt?, ?_⟩
  rintro ⟨member, starts⟩
  cases found : entityAt? table s with
  | none => exact absurd starts (entityAt?_eq_none_iff.mp found entity member)
  | some other =>
      obtain ⟨known, otherStarts⟩ := of_entityAt? found
      rcases List.prefix_or_prefix_of_prefix starts otherStarts with inside | inside
      · rw [h.apart entity member other known inside]
      · rw [h.apart other known entity member inside]

theorem IsTable.entityAt?_cons_of_ne (h : IsTable table) {c : Char} (other : c ≠ '&')
    (rest : List Char)
    : entityAt? table (c :: rest) = none := by
  refine entityAt?_eq_none_iff.mpr fun entity member starts => ?_
  obtain ⟨more, name, -⟩ := h.exists_name member
  rw [name] at starts
  exact other (List.cons_prefix_cons.mp starts).1.symm

-----------------------------------------------------------------------------------------
-- Reading
-----------------------------------------------------------------------------------------

theorem readEntities_skip (skipped rest : List Char)
    : readEntities.go table (skipped ++ rest) skipped.length = readEntities table rest := by
  induction skipped with
  | nil => rfl
  | cons c skipped ih => exact ih

/-- An entity is read as its character, whatever stands after it. -/
theorem IsTable.readEntities_entity (h : IsTable table) {entity : List Char × Char}
    (member : entity ∈ table) (rest : List Char)
    : readEntities table (entity.1 ++ rest) = entity.2 :: readEntities table rest := by
  have found : entityAt? table (entity.1 ++ rest) = some entity :=
    h.entityAt?_iff.mpr ⟨member, List.prefix_append _ _⟩
  obtain ⟨more, name, -⟩ := h.exists_name member
  rw [name, List.cons_append] at found ⊢
  simp [readEntities, readEntities.go, found, name]
  exact readEntities_skip more rest

/-- A character at which no entity starts is read as it is. -/
theorem readEntities_cons {c : Char} {rest : List Char}
    (unknown : entityAt? table (c :: rest) = none)
    : readEntities table (c :: rest) = c :: readEntities table rest := by
  simp [readEntities, readEntities.go, unknown]

/-- Without entities nothing is replaced. -/
theorem readEntities_noTable (s : List Char) : readEntities [] s = s := by
  induction s with
  | nil => rfl
  | cons c rest ih => rw [readEntities_cons rfl, ih]

/-- A text is read back whose characters are written by a name of the table, or as they are if they
are no ampersands. By induction on the text.
-/
theorem IsTable.readEntities_written (h : IsTable table) {write : Char → List Char}
    (written : ∀ c, (write c, c) ∈ table ∨ (write c = [c] ∧ c ≠ '&')) (s : List Char)
    : readEntities table (s.flatMap write) = s := by
  induction s with
  | nil => rfl
  | cons c s ih =>
      rw [List.flatMap_cons]
      rcases written c with named | ⟨same, other⟩
      · rw [h.readEntities_entity named, ih]
      · rw [same, List.singleton_append, readEntities_cons (h.entityAt?_cons_of_ne other _), ih]

/-- What one pass from left to right makes of a text: the name of an entity becomes its character
where it stands, and any other character is copied. What was read is not read again.
-/
inductive ReadOnce (table : List (List Char × Char)) : List Char → List Char → Prop
  | nil : ReadOnce table [] []
  | entity {entity rest read} (member : entity ∈ table) (later : ReadOnce table rest read)
    : ReadOnce table (entity.1 ++ rest) (entity.2 :: read)
  | other {c rest read} (unnamed : ∀ entity ∈ table, ¬entity.1 <+: c :: rest)
    (later : ReadOnce table rest read)
    : ReadOnce table (c :: rest) (c :: read)

/-- By induction on the length of the text. -/
theorem readOnce_readEntities (h : IsTable table) (s : List Char)
    : ReadOnce table s (readEntities table s) := by
  match s with
  | [] => exact .nil
  | c :: rest =>
      cases found : entityAt? table (c :: rest) with
      | none =>
          rw [readEntities_cons found]
          exact .other (entityAt?_eq_none_iff.mp found) (readOnce_readEntities h rest)
      | some entity =>
          obtain ⟨member, more, whole⟩ := of_entityAt? found
          have shorter : more.length < (c :: rest).length := by
            have positive := List.length_pos_of_ne_nil (h.name_ne_nil member)
            rw [← whole, List.length_append]
            omega
          rw [← whole, h.readEntities_entity member]
          exact .entity member (readOnce_readEntities h more)
termination_by s.length
decreasing_by
  · exact Nat.lt_succ_self _
  · exact shorter

/-- A pass has one result, by induction on it. -/
theorem IsTable.readEntities_eq_iff (h : IsTable table) {s read : List Char}
    : readEntities table s = read ↔ ReadOnce table s read := by
  refine ⟨fun same => same ▸ readOnce_readEntities h s, fun once => ?_⟩
  induction once with
  | nil => rfl
  | entity member later ih => rw [h.readEntities_entity member, ih]
  | other unnamed later ih => rw [readEntities_cons (entityAt?_eq_none_iff.mpr unnamed), ih]

/-- The name of one entity is left as it is where another one is replaced. -/
theorem IsTable.replace_name (h : IsTable table) {entity other : List Char × Char}
    (member : entity ∈ table) (known : other ∈ table) (differs : entity ≠ other)
    (by_ rest : List Char)
    : replace entity.1 by_ (other.1 ++ rest) = other.1 ++ replace entity.1 by_ rest := by
  have noStart : ¬entity.1 <+: other.1 ++ rest := fun starts => by
    have found := h.entityAt?_iff.mpr ⟨member, starts⟩
    have foundOther := h.entityAt?_iff.mpr ⟨known, List.prefix_append other.1 rest⟩
    exact differs (Option.some.inj (found.symm.trans foundOther))
  obtain ⟨more, name, once⟩ := h.exists_name known
  have noAmpersand : ∀ c ∈ more, entity.1.head? ≠ some c := by
    rintro c inName head
    obtain rfl := Option.some.inj ((h.ampersand entity member).symm.trans head)
    exact once inName
  rw [name, List.cons_append] at noStart ⊢
  rw [replace_cons noStart, replace_append noAmpersand (h.name_ne_nil member), List.cons_append]

/-- No name starts with a character that is in none. -/
theorem IsTable.entityAt?_fresh (h : IsTable table) {character : Char}
    (fresh : ∀ other ∈ table, character ∉ other.1) (rest : List Char)
    : entityAt? table (character :: rest) = none := by
  refine entityAt?_eq_none_iff.mpr fun other member starts => fresh other member ?_
  obtain ⟨more, name, -⟩ := h.exists_name member
  rw [name] at starts ⊢
  rw [(List.cons_prefix_cons.mp starts).1]
  exact List.mem_cons_self

/-- The first entity of a table may be replaced before the others are read, if its character is in
none of their names. By induction on the length of the text: a name that is read in what the
replacement leaves was there before, and one that was there is left as it is.
-/
theorem readEntities_replace {entity : List Char × Char} (h : IsTable (entity :: table))
    (fresh : ∀ other ∈ table, entity.2 ∉ other.1) (s : List Char)
    : readEntities table (replace entity.1 [entity.2] s) = readEntities (entity :: table) s := by
  have notNil : entity.1 ≠ [] := h.name_ne_nil List.mem_cons_self
  match s with
  | [] => rfl
  | c :: rest =>
      cases found : entityAt? (entity :: table) (c :: rest) with
      | none =>
          obtain ⟨notHere, others⟩ := List.forall_mem_cons.mp (entityAt?_eq_none_iff.mp found)
          have kept
              : replace entity.1 [entity.2] (c :: rest) = c :: replace entity.1 [entity.2] rest :=
            replace_cons notHere
          have unknown : entityAt? table (c :: replace entity.1 [entity.2] rest) = none := by
            refine entityAt?_eq_none_iff.mpr fun other member starts => others other member ?_
            rw [← kept] at starts
            exact prefix_of_replace (fresh other member) starts notNil
          rw [kept, readEntities_cons unknown, readEntities_cons found,
            readEntities_replace h fresh rest]
      | some other =>
          obtain ⟨member, more, whole⟩ := of_entityAt? found
          have shorter : more.length < (c :: rest).length := by
            have positive := List.length_pos_of_ne_nil (h.name_ne_nil member)
            rw [← whole, List.length_append]
            omega
          rw [← whole, h.readEntities_entity member, ← readEntities_replace h fresh more]
          by_cases same : entity = other
          · rw [← same, replace_part notNil, List.singleton_append,
              readEntities_cons (h.of_cons.entityAt?_fresh fresh _)]
          · have known : other ∈ table := (List.mem_cons.mp member).resolve_left (Ne.symm same)
            rw [h.replace_name List.mem_cons_self member same, h.of_cons.readEntities_entity known]
termination_by s.length
decreasing_by
  · exact Nat.lt_succ_self _
  · exact shorter

/-- Entities may be replaced one kind after the other, if no character that is put in is in a name
that comes later. By induction on the table.
-/
theorem foldl_replace_eq_readEntities (h : IsTable table)
    (fresh : table.Pairwise fun entity later => entity.2 ∉ later.1) (s : List Char)
    : table.foldl (fun s entity => replace entity.1 [entity.2] s) s = readEntities table s := by
  induction table generalizing s with
  | nil => exact (readEntities_noTable s).symm
  | cons entity table ih =>
      obtain ⟨here, later⟩ := List.pairwise_cons.mp fresh
      rw [List.foldl_cons, ih h.of_cons later, readEntities_replace h here]

end Folio.Text
