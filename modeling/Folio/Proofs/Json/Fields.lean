import Folio.Json.Value

/-! Maps as sorted lists of entries: what is under a name after an entry was put in or taken out,
and that the order of the names is kept.
-/

namespace Folio.Json.Fields

variable {α β : Type}

instance (fields : Fields α) : Decidable (Sorted fields) :=
  inferInstanceAs (Decidable (List.Pairwise (fun a b : String × α => a.1 < b.1) fields))

@[simp]
theorem get?_cons (entry : String × α) (fields : Fields α) (name : String)
    : get? (entry :: fields) name = if entry.1 = name then some entry.2 else get? fields name :=
  rfl

/-- Of two different names one comes before the other. -/
theorem lt_of_not_lt {a b : String} (different : a ≠ b) (h : ¬a < b) : b < a := by
  apply Decidable.byContradiction
  intro other
  exact different (String.le_antisymm (String.not_lt.mp other) (String.not_lt.mp h))

/-- The entries of a map after one was put in are the new one and old ones. -/
theorem mem_insert {fields : Fields α} {name : String} {value : α} {entry : String × α}
    (h : entry ∈ insert fields name value)
    : entry = (name, value) ∨ entry ∈ fields := by
  induction fields with
  | nil => exact Or.inl (List.mem_singleton.mp h)
  | cons head rest ih =>
      obtain ⟨n, v⟩ := head
      unfold insert at h
      split at h
      · rcases List.mem_cons.mp h with new | old
        · exact Or.inl new
        · exact Or.inr (List.mem_cons_of_mem _ old)
      · split at h
        · exact List.mem_cons.mp h
        · rcases List.mem_cons.mp h with first | later
          · exact Or.inr (first ▸ List.mem_cons_self)
          · exact (ih later).imp_right (List.mem_cons_of_mem _)

/-- Putting an entry in keeps the order, by induction on the entries. -/
theorem Sorted.insert {fields : Fields α} (h : Sorted fields) (name : String) (value : α)
    : Sorted (insert fields name value) := by
  induction fields with
  | nil => exact List.pairwise_singleton _ _
  | cons head rest ih =>
      obtain ⟨n, v⟩ := head
      obtain ⟨smallest, sorted⟩ := List.pairwise_cons.mp h
      unfold Fields.insert
      by_cases same : n = name
      · subst same
        rw [if_pos rfl]
        exact List.pairwise_cons.mpr ⟨smallest, sorted⟩
      · rw [if_neg same]
        by_cases before : name < n
        · rw [if_pos before]
          refine List.pairwise_cons.mpr ⟨?_, h⟩
          intro entry member
          rcases List.mem_cons.mp member with rfl | later
          · exact before
          · exact String.lt_trans before (smallest entry later)
        · rw [if_neg before]
          refine List.pairwise_cons.mpr ⟨?_, ih sorted⟩
          intro entry member
          rcases mem_insert member with rfl | later
          · exact lt_of_not_lt (Ne.symm same) before
          · exact smallest entry later

/-- What is put in before all entries stands first. -/
theorem insert_of_lt {fields : Fields α} {name : String}
    (before : ∀ entry ∈ fields, name < entry.1) (value : α)
    : insert fields name value = (name, value) :: fields := by
  cases fields with
  | nil => rfl
  | cons head rest =>
      have first : name < head.1 := before head List.mem_cons_self
      have other : head.1 ≠ name := fun same => String.lt_irrefl _ (same ▸ first)
      rw [insert, if_neg other, if_pos first]

/-- What is put in after all entries stands last. -/
theorem insert_of_gt {fields : Fields α} {name : String}
    (after : ∀ entry ∈ fields, entry.1 < name) (value : α)
    : insert fields name value = fields ++ [(name, value)] := by
  induction fields with
  | nil => rfl
  | cons head rest ih =>
      obtain ⟨first, later⟩ := List.forall_mem_cons.mp after
      have other : head.1 ≠ name := fun same => String.lt_irrefl _ (same ▸ first)
      rw [insert, if_neg other, if_neg (String.lt_asymm first), ih later]
      rfl

/-- The map of sorted entries has just these entries, by induction on those that are still to be put
in.
-/
theorem ofList_of_sorted {entries : Fields α} (sorted : Sorted entries)
    : ofList entries = entries := by
  have fold (before later : Fields α) (sorted : Sorted (before ++ later))
      : later.foldl (fun fields entry => Fields.insert fields entry.1 entry.2) before
        = before ++ later := by
    induction later generalizing before with
    | nil => simp
    | cons entry rest ih =>
        have after : ∀ other ∈ before, other.1 < entry.1 := fun other member =>
          (List.pairwise_append.mp sorted).2.2 other member entry List.mem_cons_self
        rw [List.foldl_cons, insert_of_gt after, ih _ (by simpa using sorted), List.append_assoc]
        rfl
  exact fold [] entries sorted

/-- Taking an entry out keeps the order. -/
theorem Sorted.erase {fields : Fields α} (h : Sorted fields) (name : String)
    : Sorted (erase fields name) :=
  List.Pairwise.filter _ h

/-- The later names of a map are not the first one. -/
theorem Sorted.ne_head {entry : String × α} {rest : Fields α} (h : Sorted (entry :: rest))
    : ∀ later ∈ rest, later.1 ≠ entry.1 := by
  intro later member same
  have greater : entry.1 < later.1 := (List.pairwise_cons.mp h).1 later member
  rw [same] at greater
  exact String.lt_irrefl _ greater

/-- An entry that was taken out is not there, and under the other names nothing changes. -/
theorem get?_erase (fields : Fields α) (name other : String)
    : (erase fields name).get? other = if name = other then none else fields.get? other := by
  induction fields with
  | nil => simp [erase, get?]
  | cons head rest ih =>
      obtain ⟨n, v⟩ := head
      unfold erase at ih ⊢
      by_cases taken : n = name
      · subst taken
        rw [List.filter_cons_of_neg (by simp), ih]
        by_cases same : n = other <;> simp [get?, same]
      · rw [List.filter_cons_of_pos (by simpa using taken)]
        simp only [get?, ih]
        by_cases first : n = other
        · subst first
          simp [Ne.symm taken]
        · simp [first]

/-- What was put under a name does not matter once it is taken out again. -/
theorem erase_insert (fields : Fields α) (name : String) (value : α)
    : (insert fields name value).erase name = fields.erase name := by
  induction fields with
  | nil => simp [insert, erase]
  | cons head rest ih =>
      unfold erase at ih ⊢
      unfold insert
      split
      · next same => simp [same]
      · split
        · simp
        · rw [List.filter_cons, List.filter_cons, ih]

/-- The value under a name that none of the entries has. -/
theorem get?_eq_none {fields : Fields α} {name : String} (h : ∀ entry ∈ fields, entry.1 ≠ name)
    : fields.get? name = none := by
  induction fields with
  | nil => rfl
  | cons head rest ih =>
      rw [get?_cons, if_neg (h head List.mem_cons_self), ih fun entry member =>
        h entry (List.mem_cons_of_mem _ member)]

/-- Putting sorted entries in, one after the other: each name then has its value, and the other
names have the values from before. By induction on the entries, of which no two have one name.
-/
theorem get?_foldl_insert {entries : Fields α} (sorted : Sorted entries) (write : α → β)
    (fields : Fields β) (name : String)
    : (entries.foldl (fun fields entry => Fields.insert fields entry.1 (write entry.2)) fields).get?
          name
      = ((entries.get? name).map write).or (fields.get? name) := by
  induction entries generalizing fields with
  | nil => simp
  | cons head rest ih =>
      obtain ⟨n, v⟩ := head
      obtain ⟨smallest, sorted⟩ := List.pairwise_cons.mp sorted
      rw [List.foldl_cons, ih sorted, get?_insert, get?_cons]
      by_cases same : n = name
      · subst same
        have later : get? rest n = none :=
          get?_eq_none fun entry member equal =>
            String.lt_irrefl _ (equal ▸ smallest entry member)
        rw [if_pos rfl, if_pos rfl, later]
        rfl
      · rw [if_neg same, if_neg same]

/-- Putting entries in keeps the order of what is there. -/
theorem sorted_foldl_insert (entries : List (String × α)) (write : α → β) {fields : Fields β}
    (sorted : Sorted fields)
    : Sorted
        (entries.foldl (fun fields entry => Fields.insert fields entry.1 (write entry.2))
          fields) := by
  induction entries generalizing fields with
  | nil => exact sorted
  | cons head rest ih => exact ih (sorted.insert head.1 (write head.2))

/-- What is found under a name is an entry, by induction on the entries. -/
theorem mem_of_get? {fields : Fields α} {name : String} {value : α}
    (found : fields.get? name = some value)
    : (name, value) ∈ fields := by
  induction fields with
  | nil => cases found
  | cons head rest ih =>
      rw [get?_cons] at found
      split at found
      · next same =>
          obtain rfl := Option.some.inj found
          rw [← same]
          exact List.mem_cons_self
      · exact List.mem_cons_of_mem head (ih found)

/-- An entry of a map is found under its name, because no other entry has it. By induction on the
entries.
-/
theorem get?_of_mem {fields : Fields α} (sorted : Sorted fields) {entry : String × α}
    (member : entry ∈ fields)
    : fields.get? entry.1 = some entry.2 := by
  induction fields with
  | nil => cases member
  | cons head rest ih =>
      rw [get?_cons]
      rcases List.mem_cons.mp member with rfl | later
      · exact if_pos rfl
      · rw [if_neg (Ne.symm (sorted.ne_head entry later))]
        exact ih (List.pairwise_cons.mp sorted).2 later

/-- The map of a list of entries has no other entries, by induction on the list. -/
theorem mem_ofList {entries : List (String × α)} {entry : String × α}
    (h : entry ∈ ofList entries)
    : entry ∈ entries := by
  have fold (fields : Fields α)
      (given : entry
        ∈ entries.foldl (fun fields entry => Fields.insert fields entry.1 entry.2) fields)
      : entry ∈ fields ∨ entry ∈ entries := by
    clear h
    induction entries generalizing fields with
    | nil => exact .inl given
    | cons first rest ih =>
        rcases ih _ given with put | later
        · rcases mem_insert put with rfl | old
          · exact .inr List.mem_cons_self
          · exact .inl old
        · exact .inr (List.mem_cons_of_mem first later)
  exact (fold [] h).resolve_left List.not_mem_nil

/-- Every name of a list of entries is in the map of the list, by induction on the entries. -/
theorem has_ofList {entries : List (String × α)} {entry : String × α} (h : entry ∈ entries)
    : has (ofList entries) entry.1 = true := by
  have fold (fields : Fields α)
      (given : has fields entry.1 = true ∨ entry ∈ entries)
      : has (entries.foldl (fun fields entry => Fields.insert fields entry.1 entry.2) fields)
          entry.1
        = true := by
    clear h
    induction entries generalizing fields with
    | nil => exact given.resolve_right List.not_mem_nil
    | cons first rest ih =>
        refine ih _ ?_
        rw [has, get?_insert]
        rcases given with old | member
        · exact Or.inl (by split <;> simp_all [has])
        · rcases List.mem_cons.mp member with rfl | later
          · exact Or.inl (by simp)
          · exact Or.inr later
  exact fold [] (Or.inr h)

/-- A name has a value after one was put under it, unless it had one, and the other names are left.
-/
theorem has_insertNew (fields : Fields α) (name other : String) (value : α)
    : (insertNew fields name value).has other = (decide (name = other) || fields.has other) := by
  unfold insertNew
  split
  · next present =>
      by_cases same : name = other
      · subst same
        simp [present]
      · simp [same]
  · by_cases same : name = other <;> simp [has, get?_insert, same]

end Folio.Json.Fields
