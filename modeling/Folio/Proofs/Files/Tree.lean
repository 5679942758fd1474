import Folio.Files.Tree
import Folio.Proofs.Json.Fields

/-! Trees of files: what is where after an entry was put in or taken away. What counts at a place is
the shape of the entry there: the bytes of a file, or that there is a directory.
-/

namespace Folio.Files

open Json (Fields)

/-- What an entry is by itself: a file with its bytes, or a directory, whatever is in it. -/
inductive Shape where
  | file (bytes : Bytes)
  | directory
deriving DecidableEq, Inhabited

namespace Entry

def shape : Entry → Shape
  | file bytes => .file bytes
  | directory _ => .directory

def shapeAt? (e : Entry) (place : List String) : Option Shape :=
  (e.get? place).map shape

/-- Holds for the places in a tree at which an entry may stand: all that is outside of them are
directories.
-/
def Leads (e : Entry) (place : List String) : Prop :=
  ∀ outer name inner, place = outer ++ name :: inner → e.shapeAt? outer = some .directory

theorem shapeAt?_eq_file {e : Entry} {place : List String} {bytes : Bytes}
    : e.shapeAt? place = some (.file bytes) ↔ e.get? place = some (.file bytes) := by
  rw [shapeAt?]
  cases e.get? place with
  | none => simp
  | some entry => cases entry <;> simp [shape]

theorem shapeAt?_eq_directory {e : Entry} {place : List String}
    : e.shapeAt? place = some .directory
      ↔ ∃ entries, e.get? place = some (.directory entries) := by
  rw [shapeAt?]
  cases e.get? place with
  | none => simp
  | some entry => cases entry <;> simp [shape]

-----------------------------------------------------------------------------------------
-- Places inside of places
-----------------------------------------------------------------------------------------

/-- What is at a place inside of a place is found in the entry at the outer one. -/
theorem get?_append (e : Entry) (outer inner : List String)
    : e.get? (outer ++ inner) = (e.get? outer).bind (·.get? inner) := by
  induction outer generalizing e with
  | nil => rfl
  | cons name rest ih =>
      simp only [List.cons_append, get?]
      cases e.entries.get? name with
      | none => rfl
      | some entry => exact ih entry

/-- The shape at a place that begins with a name is one in the entry of the name. -/
theorem shapeAt?_cons (e : Entry) (name : String) (rest : List String)
    : e.shapeAt? (name :: rest) = (e.entries.get? name).bind (·.shapeAt? rest) := by
  simp only [shapeAt?, get?]
  cases e.entries.get? name <;> rfl

/-- There is a directory around everything that stands in a tree. -/
theorem shapeAt?_outer {e : Entry} {outer inner : List String} {name : String} {shape : Shape}
    (h : e.shapeAt? (outer ++ name :: inner) = some shape)
    : e.shapeAt? outer = some .directory := by
  rw [shapeAt?, get?_append] at h
  rw [shapeAt?]
  cases found : e.get? outer with
  | none => simp [found] at h
  | some entry =>
      cases entry with
      | file bytes => simp [found, get?, entries] at h
      | directory entries => rfl

theorem leads_append_singleton {e : Entry} {place : List String} (name : String)
    (h : e.shapeAt? place = some .directory)
    : e.Leads (place ++ [name]) := by
  intro outer other inner same
  rcases List.append_eq_append_iff.mp same with ⟨between, rfl, rest⟩ | ⟨between, rfl, rest⟩
  · cases between with
    | nil => exact (List.append_nil place).symm ▸ h
    | cons first later => simp at rest
  · cases between with
    | nil => exact (List.append_nil outer) ▸ h
    | cons first later => exact shapeAt?_outer h

/-- Directories lead to a place if they lead to a place inside of it. -/
theorem Leads.dropLast {e : Entry} {place : List String} (h : e.Leads place)
    : e.Leads place.dropLast := by
  intro outer name inner same
  rcases List.eq_nil_or_concat place with rfl | ⟨before, last, rfl⟩
  · simp at same
  · rw [List.concat_eq_append, List.dropLast_concat] at same
    exact h outer name (inner ++ [last]) (by simp [same])

-----------------------------------------------------------------------------------------
-- Putting in and taking away
-----------------------------------------------------------------------------------------

theorem shapeAt?_put_below (e new : Entry) (place inner : List String)
    : (e.put new place).shapeAt? (place ++ inner) = new.shapeAt? inner := by
  induction place generalizing e with
  | nil => rfl
  | cons name rest ih =>
      rw [List.cons_append, shapeAt?_cons, put, entries, Json.Fields.get?_insert, if_pos rfl]
      exact ih _

/-- At all other places nothing changes. By induction on the place: the entry of its first name is
a directory, unless the place ends there.
-/
theorem shapeAt?_put_other {e : Entry} (new : Entry) {place other : List String}
    (leads : e.Leads place) (apart : ¬place <+: other)
    : (e.put new place).shapeAt? other = e.shapeAt? other := by
  induction place generalizing e other with
  | nil => exact absurd List.nil_prefix apart
  | cons name rest ih =>
      have isDirectory : e.shapeAt? [] = some .directory := leads [] name rest rfl
      cases other with
      | nil => exact isDirectory.symm
      | cons first later =>
          rw [shapeAt?_cons, shapeAt?_cons, put, entries, Json.Fields.get?_insert]
          by_cases same : name = first
          · subst same
            have apart : ¬rest <+: later := fun h =>
              apart (List.cons_prefix_cons.mpr ⟨rfl, h⟩)
            have inside (outer next inner) (split : rest = outer ++ next :: inner)
                : (e.entries.get? name).bind (·.shapeAt? outer) = some .directory := by
              rw [← shapeAt?_cons]
              exact leads (name :: outer) next inner (split ▸ rfl)
            rw [if_pos rfl]
            cases found : e.entries.get? name with
            | some entry =>
                exact ih (fun outer next inner split =>
                  by simpa [found] using inside outer next inner split) apart
            | none =>
                cases rest with
                | nil => exact absurd List.nil_prefix apart
                | cons next inner => simpa [found] using inside [] next inner rfl
          · rw [if_neg same]

/-- An entry without entries that is put in where there is no directory changes that place only. -/
theorem shapeAt?_put {e new : Entry} {place : List String} (leads : e.Leads place)
    (free : e.shapeAt? place ≠ some .directory) (bare : new.entries = []) (other : List String)
    : (e.put new place).shapeAt? other
      = if other = place then some new.shape else e.shapeAt? other := by
  by_cases same : other = place
  · subst same
    have here := shapeAt?_put_below e new other []
    rw [List.append_nil] at here
    rw [if_pos rfl, here]
    rfl
  · rw [if_neg same]
    by_cases below : place <+: other
    · obtain ⟨inner, rfl⟩ := below
      cases inner with
      | nil => exact absurd (List.append_nil place) same
      | cons name rest =>
          rw [shapeAt?_put_below, shapeAt?_cons, bare]
          cases nothing : e.shapeAt? (place ++ name :: rest) with
          | none => rfl
          | some shape => exact absurd (shapeAt?_outer nothing) free
    · exact shapeAt?_put_other new leads below

/-- At and below a place from which everything was taken away there is no file. -/
theorem shapeAt?_erase_below (e : Entry) (place inner : List String) (bytes : Bytes)
    : (e.erase place).shapeAt? (place ++ inner) ≠ some (.file bytes) := by
  induction place generalizing e with
  | nil => cases inner <;> simp [erase, empty, shapeAt?, get?, entries, shape]
  | cons name rest ih =>
      rw [List.cons_append, shapeAt?_cons]
      cases rest with
      | nil => simp [erase, entries, Json.Fields.get?_erase]
      | cons next later =>
          unfold erase
          cases found : e.entries.get? name with
          | none => simp [found]
          | some entry =>
              simp only [entries, Json.Fields.get?_insert, if_pos]
              exact ih entry

/-- Taking away adds no file anywhere. By induction on the place: only the entry of its first name
changes.
-/
theorem file_of_shapeAt?_erase {e : Entry} {place other : List String} {bytes : Bytes}
    (h : (e.erase place).shapeAt? other = some (.file bytes))
    : e.shapeAt? other = some (.file bytes) := by
  induction place generalizing e other with
  | nil => exact absurd h (shapeAt?_erase_below e [] other bytes)
  | cons name rest ih =>
      cases rest with
      | nil =>
          cases other with
          | nil => cases h
          | cons first later =>
              rw [shapeAt?_cons] at h ⊢
              rw [erase, entries, Json.Fields.get?_erase] at h
              split at h
              · cases h
              · exact h
      | cons next inner =>
          unfold erase at h
          split at h
          · next entry found =>
              cases other with
              | nil => cases h
              | cons first later =>
                  rw [shapeAt?_cons] at h ⊢
                  rw [entries, Json.Fields.get?_insert] at h
                  split at h
                  · next same =>
                      rw [← same, found]
                      exact ih h
                  · exact h
          · exact h

/-- Where a file was taken away there is nothing, and at all other places nothing changes. By
induction on the place: only the entry of its first name changes, and nothing is inside of a file.
-/
theorem shapeAt?_erase {e : Entry} {place : List String} {bytes : Bytes}
    (there : e.shapeAt? place = some (.file bytes)) (notNil : place ≠ []) (other : List String)
    : (e.erase place).shapeAt? other = if other = place then none else e.shapeAt? other := by
  induction place generalizing e other with
  | nil => exact absurd rfl notNil
  | cons name rest ih =>
      have isDirectory : e.shapeAt? [] = some .directory := @shapeAt?_outer e [] rest name _ there
      rw [shapeAt?_cons] at there
      obtain ⟨entry, found, inside⟩ := Option.bind_eq_some_iff.mp there
      cases rest with
      | nil =>
          cases other with
          | nil => exact isDirectory.symm
          | cons first later =>
              rw [erase, shapeAt?_cons, shapeAt?_cons, entries, Json.Fields.get?_erase]
              by_cases same : name = first
              · subst same
                obtain rfl : entry = .file bytes := by simpa [shapeAt?_eq_file, get?] using inside
                rw [found]
                cases later <;> simp [shapeAt?, get?, entries]
              · simp [same, Ne.symm same]
      | cons next inner =>
          unfold erase
          rw [found]
          dsimp only
          cases other with
          | nil => exact isDirectory.symm
          | cons first later =>
              rw [shapeAt?_cons, shapeAt?_cons, entries, Json.Fields.get?_insert]
              by_cases same : name = first
              · subst same
                simpa [found] using ih inside (List.cons_ne_nil next inner) later
              · simp [same, Ne.symm same]

/-- A file that was moved stands at its new place only, and at all other places nothing changes. -/
theorem shapeAt?_move {e : Entry} {old new : List String} {bytes : Bytes}
    (there : e.shapeAt? old = some (.file bytes)) (notNil : old ≠ []) (leads : e.Leads new)
    (free : e.shapeAt? new ≠ some .directory) (other : List String)
    : ((e.erase old).put (.file bytes) new).shapeAt? other
      = if other = new then some (.file bytes)
        else if other = old then none
        else e.shapeAt? other := by
  have erased := shapeAt?_erase there notNil
  have leadsStill : (e.erase old).Leads new := by
    intro outer name inner split
    have isDirectory := leads outer name inner split
    have elsewhere : outer ≠ old := by
      rintro rfl
      cases there.symm.trans isDirectory
    rw [erased, if_neg elsewhere]
    exact isDirectory
  have freeStill : (e.erase old).shapeAt? new ≠ some .directory := by
    rw [erased]
    split
    · simp
    · exact free
  rw [shapeAt?_put leadsStill freeStill rfl, erased]
  rfl

-----------------------------------------------------------------------------------------
-- Files in order
-----------------------------------------------------------------------------------------

/-- The files of an entry are among those of the directory. -/
theorem files_subset_filesOf {entries : Fields Entry} {name : String} {e : Entry}
    (found : entries.get? name = some e) (outer : List String)
    : e.files (outer ++ [name]) ⊆ filesOf outer entries := by
  induction entries with
  | nil => cases found
  | cons first rest ih =>
      obtain ⟨other, entry⟩ := first
      rw [Fields.get?] at found
      rw [filesOf]
      split at found
      · next same =>
          obtain rfl := Option.some.inj found
          rw [same]
          exact List.subset_append_left _ _
      · exact List.subset_append_of_subset_right _ (ih found)

/-- Each file of a tree is listed with its place, by induction on the place. -/
theorem mem_files {e : Entry} {place : List String} {bytes : Bytes} (outer : List String)
    (there : e.shapeAt? place = some (.file bytes))
    : (outer ++ place, bytes) ∈ e.files outer := by
  induction place generalizing e outer with
  | nil =>
      obtain rfl := Option.some.inj (shapeAt?_eq_file.mp there)
      rw [files, List.append_nil]
      exact List.mem_singleton_self _
  | cons name rest ih =>
      rw [shapeAt?_cons] at there
      obtain ⟨inner, found, there⟩ := Option.bind_eq_some_iff.mp there
      have member := ih (outer ++ [name]) there
      rw [List.append_assoc, List.singleton_append] at member
      cases e with
      | file bytes => cases found
      | directory entries => exact files_subset_filesOf found outer member

end Entry

end Folio.Files
