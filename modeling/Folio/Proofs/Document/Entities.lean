import Folio.Document.Markup
import Folio.Proofs.Text.Entities

/-! The entities of markup. They are replaced one kind after the other, which is the same as reading
a text once, since the ampersand comes last. So a text is read back in which ampersands, and maybe
more, are written by their names.
-/

namespace Folio.Document.Markup

theorem isTable_entities : Text.IsTable entities :=
  ⟨by decide, by decide, by decide⟩

/-- Nothing that an entity is replaced by is read again. -/
theorem decodeEntities_eq_readEntities (text : List Char)
    : decodeEntities text = Text.readEntities entities text :=
  Text.foldl_replace_eq_readEntities isTable_entities (by decide) text

/-- A character as it is written where `marked` characters are written by their names. -/
def writeChar (marked : List Char) (c : Char) : List Char :=
  match entities.find? fun entity => marked.contains c && entity.2 == c with
  | some (name, _) => name
  | none => [c]

def writeText (marked s : List Char) : List Char :=
  s.flatMap (writeChar marked)

variable {marked : List Char}

/-- A character is written by a name of its own, or as it is if it is not marked or has no name. -/
theorem writeChar_cases (marked : List Char) (c : Char)
    : (writeChar marked c, c) ∈ entities
      ∨ (writeChar marked c = [c] ∧ (c ∈ marked → ∀ entity ∈ entities, entity.2 ≠ c)) := by
  cases found : entities.find? fun entity => marked.contains c && entity.2 == c with
  | none =>
      refine .inr ⟨by rw [writeChar, found], fun isMarked entity member same => ?_⟩
      have refused := List.find?_eq_none.mp found entity member
      simp [isMarked, same] at refused
  | some entity =>
      have member : entity ∈ entities := List.mem_of_find?_eq_some found
      have same := List.find?_some found
      simp only [Bool.and_eq_true, beq_iff_eq] at same
      have written : writeChar marked c = entity.1 := by rw [writeChar, found]
      rw [written, ← same.2]
      exact .inl member

/-- A text is read back if ampersands are written by their names. -/
theorem decodeEntities_writeText (ampersand : '&' ∈ marked) (s : List Char)
    : decodeEntities (writeText marked s) = s := by
  rw [decodeEntities_eq_readEntities]
  refine isTable_entities.readEntities_written (fun c => ?_) s
  rcases writeChar_cases marked c with named | ⟨same, noName⟩
  · exact .inl named
  · refine .inr ⟨same, ?_⟩
    rintro rfl
    exact noName ampersand ("&amp;".toList, '&') (by decide) rfl

/-- A character is not in a written text if it is in no name, and it is not in the text or is
written by its name.
-/
theorem not_mem_writeText {c : Char} (noName : ∀ entity ∈ entities, c ∉ entity.1)
    {s : List Char} (h : c ∈ s → c ∈ marked ∧ ∃ entity ∈ entities, entity.2 = c)
    : c ∉ writeText marked s := by
  intro member
  obtain ⟨x, inText, written⟩ := List.mem_flatMap.mp member
  rcases writeChar_cases marked x with named | ⟨same, unnamed⟩
  · exact noName _ named written
  · rw [same] at written
    obtain rfl := List.mem_singleton.mp written
    obtain ⟨isMarked, entity, known, named⟩ := h inText
    exact unnamed isMarked entity known named

/-- What is not blank is not blank as it is written. -/
theorem exists_visible_writeText {s : List Char} (h : ∃ c ∈ s, Text.isBlank c = false)
    : ∃ c ∈ writeText marked s, Text.isBlank c = false := by
  obtain ⟨c, member, visible⟩ := h
  rcases writeChar_cases marked c with named | ⟨same, -⟩
  · have all : (entities.all fun entity => entity.1.any (!Text.isBlank ·)) = true := by decide
    obtain ⟨x, inName, nameVisible⟩ := List.any_eq_true.mp (List.all_eq_true.mp all _ named)
    exact ⟨x, List.mem_flatMap.mpr ⟨c, member, inName⟩, by simpa using nameVisible⟩
  · exact ⟨c, List.mem_flatMap.mpr ⟨c, member, same ▸ List.mem_singleton_self c⟩, visible⟩

/-- A character as it is written where the four characters that markup gives a meaning of their own
are written by their names.
-/
def writeSpecial : Char → List Char
  | '&' => "&amp;".toList
  | '<' => "&lt;".toList
  | '>' => "&gt;".toList
  | '"' => "&quot;".toList
  | c => [c]

theorem writeSpecial_cases (c : Char)
    : (writeSpecial c, c) ∈ entities ∨ (writeSpecial c = [c] ∧ c ≠ '&') := by
  unfold writeSpecial
  split
  · exact .inl (by decide)
  · exact .inl (by decide)
  · exact .inl (by decide)
  · exact .inl (by decide)
  · next ampersand _ _ _ => exact .inr ⟨rfl, ampersand⟩

/-- Entities are decoded once: replacing one kind after the other reads a text in one pass, whatever
names meet or arise in it. So a text is read back in which the special characters are written by
their names.
-/
theorem decodeEntities_once
    : (∀ text read, decodeEntities text = read ↔ Text.ReadOnce entities text read)
      ∧ ∀ s, decodeEntities (s.flatMap writeSpecial) = s := by
  refine ⟨fun text read => ?_, fun s => ?_⟩
  · rw [decodeEntities_eq_readEntities, isTable_entities.readEntities_eq_iff]
  · rw [decodeEntities_eq_readEntities]
    exact isTable_entities.readEntities_written writeSpecial_cases s

/-- Names that arise are not read, and what is no name is kept. -/
example
    : decodeEntities "&amp;lt; &am&amp;p; &LT; &#39&#39;".toList
      = "&lt; &am&p; &LT; &#39'".toList := by
  decide

end Folio.Document.Markup
