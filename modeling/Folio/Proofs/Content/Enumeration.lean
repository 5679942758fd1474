import Folio.Content.Store
import Folio.Proofs.Files.Below
import Mathlib.Data.List.TakeDrop
import Mathlib.Data.List.TakeWhile

/-! A directory of documents lists what it has. Listing turns the names of files into paths, and
looking a path up turns it into names of files; the two agree on which files a path is kept in.
Stores list their documents in order: files are put in order when they are listed, and documents in
memory are kept in order.
-/

namespace Folio.Content

open Files (Entry Disk IsStep IsEntryName)

-----------------------------------------------------------------------------------------
-- Paths in order
-----------------------------------------------------------------------------------------

/-- Of two different paths one comes before the other. -/
theorem LogicalPath.precedes_of_not {p q : LogicalPath} (different : p ≠ q)
    (h : ¬p.precedes q = true)
    : q.precedes p = true := by
  unfold precedes at h ⊢
  rw [decide_eq_true_eq] at h ⊢
  apply Decidable.byContradiction
  intro other
  have same : p.segments = q.segments :=
    List.le_antisymm (List.not_lt.mp other) (List.not_lt.mp h)
  cases p
  cases q
  exact different (by simpa using same)

theorem LogicalPath.precedes_trans {p q r : LogicalPath} (first : p.precedes q = true)
    (second : q.precedes r = true)
    : p.precedes r = true := by
  unfold precedes at *
  rw [decide_eq_true_eq] at *
  exact List.lt_trans first second

theorem mem_insertPath {path p : LogicalPath} {paths : List LogicalPath}
    : p ∈ insertPath path paths ↔ p = path ∨ p ∈ paths := by
  induction paths with
  | nil => simp [insertPath]
  | cons first rest ih =>
      unfold insertPath
      split
      · next same => simp [same]
      · split
        · exact List.mem_cons
        · rw [List.mem_cons, ih, List.mem_cons, or_left_comm]

/-- Holds for lists of paths in order, each once. -/
def Ascending (paths : List LogicalPath) : Prop :=
  paths.Pairwise fun p q => p.precedes q = true

/-- A path is put in where the order wants it. -/
theorem Ascending.insertPath {paths : List LogicalPath} (h : Ascending paths) (path : LogicalPath)
    : Ascending (insertPath path paths) := by
  induction paths with
  | nil => exact List.pairwise_singleton _ _
  | cons first rest ih =>
      obtain ⟨smallest, ascending⟩ := List.pairwise_cons.mp h
      unfold Content.insertPath
      split
      · exact h
      · next different =>
          split
          · next before =>
              refine List.pairwise_cons.mpr ⟨?_, h⟩
              intro p member
              rcases List.mem_cons.mp member with rfl | later
              · exact before
              · exact LogicalPath.precedes_trans before (smallest p later)
          · next notBefore =>
              refine List.pairwise_cons.mpr ⟨?_, ih ascending⟩
              intro p member
              rcases mem_insertPath.mp member with rfl | later
              · exact LogicalPath.precedes_of_not (Ne.symm different) notBefore
              · exact smallest p later

theorem ascending_foldr (paths : List LogicalPath) : Ascending (paths.foldr insertPath []) := by
  induction paths with
  | nil => exact List.Pairwise.nil
  | cons first rest ih => exact ih.insertPath first

theorem mem_foldr_insertPath {p : LogicalPath} {paths : List LogicalPath}
    : p ∈ paths.foldr insertPath [] ↔ p ∈ paths := by
  induction paths with
  | nil => exact Iff.rfl
  | cons first rest ih => rw [List.foldr_cons, mem_insertPath, ih, List.mem_cons]

-----------------------------------------------------------------------------------------
-- Names of documents
-----------------------------------------------------------------------------------------

/-- Holds for names that do not begin with a dot. -/
def IsVisible (name : String) : Prop :=
  name.toList.head? ≠ some '.'

instance (name : String) : Decidable (IsVisible name) :=
  inferInstanceAs (Decidable (name.toList.head? ≠ some '.'))

/-- Holds for the extensions that a store of documents can have: texts without dots and slashes. -/
structure IsExtension (extension : String) : Prop where
  notEmpty : extension ≠ ""
  noDot : '.' ∉ extension.toList
  noSlash : '/' ∉ extension.toList

theorem isExtension_md : IsExtension "md" :=
  ⟨by decide, by decide, by decide⟩

theorem isStep_of_isSegment {name : String} (h : isSegment name = true) : IsStep name := by
  simp only [isSegment, Bool.and_eq_true, Bool.not_eq_true', bne_iff_ne, ne_eq] at h
  obtain ⟨⟨⟨notEmpty, notHere⟩, notUp⟩, plain⟩ := h
  refine ⟨by simpa using notEmpty, notHere, notUp, fun slash => ?_⟩
  have := List.any_eq_false.mp plain '/' slash
  simp at this

theorem LogicalPath.ofSegments_eq_ok {segments : List String} {p : LogicalPath}
    : ofSegments segments = .ok p ↔ segments = p.segments := by
  unfold ofSegments
  constructor
  · intro h
    split at h
    · cases h
    · exact congrArg LogicalPath.segments (Except.ok.inj h)
  · rintro rfl
    split
    · next bad found =>
        have valid := p.valid bad (List.mem_of_find?_eq_some found)
        have invalid := List.find?_some found
        simp [valid] at invalid
    · rfl

end Folio.Content

namespace Folio.Files.Path

/-- The extension of a name is what follows its last dot, unless the name begins with that dot. -/
theorem extension?_eq_some {name extension : String}
    : extension? name = some extension
      ↔ ∃ stem,
          stem ≠ []
          ∧ name.toList = stem ++ '.' :: extension.toList
          ∧ '.' ∉ extension.toList := by
  unfold extension?
  rw [List.span_eq_takeWhile_dropWhile]
  dsimp only
  constructor
  · intro h
    split at h
    · cases h
    · cases h
    · next dot before notNil found =>
        have whole := List.takeWhile_append_dropWhile (p := (· != '.')) (l := name.toList.reverse)
        have first := List.head?_dropWhile_not (· != '.') name.toList.reverse
        have isDot : dot = '.' := by simpa [found] using first
        have notLater : '.' ∉ name.toList.reverse.takeWhile (· != '.') := fun member => by
          simpa using List.mem_takeWhile_imp member
        rw [found, isDot] at whole
        obtain rfl := Option.some.inj h
        refine ⟨before.reverse, by simpa using notNil, ?_, by simpa using notLater⟩
        calc
          name.toList = name.toList.reverse.reverse := name.toList.reverse_reverse.symm
          _ = (name.toList.reverse.takeWhile (· != '.') ++ '.' :: before).reverse := by rw [whole]
          _ = _ := by simp
  · rintro ⟨stem, notEmpty, whole, noDot⟩
    have reversed : name.toList.reverse = extension.toList.reverse ++ '.' :: stem.reverse := by
      simp [whole]
    have kept : ∀ c ∈ extension.toList.reverse, (c != '.') = true := fun c member =>
      bne_iff_ne.mpr fun same => noDot (same ▸ List.mem_reverse.mp member)
    rw [reversed, List.takeWhile_append_of_pos kept, List.dropWhile_append_of_pos kept,
      List.takeWhile_cons_of_neg (by decide), List.dropWhile_cons_of_neg (by decide)]
    cases reversed : stem.reverse with
    | nil => exact absurd (List.reverse_eq_nil_iff.mp reversed) notEmpty
    | cons c rest => simp

end Folio.Files.Path

namespace Folio.Content.FileStore

open Files (Disk Entry IsStep Path.below Path.join Path.steps
  Path.size_below Path.le_size_below Path.size_join)

variable {s : FileStore}

/-- The places of the files that may hold a document, in the directory of a store. -/
def places (s : FileStore) (p : LogicalPath) : List (List String) :=
  match p.segments.getLast? with
  | none => [[s.fileName indexName]]
  | some last =>
      if last == indexName then []
      else [p.segments.dropLast ++ [s.fileName last], p.segments ++ [s.fileName indexName]]

/-- The files that are looked for are those at the places of a document. -/
theorem candidates_eq (s : FileStore) (p : LogicalPath)
    : s.candidates p = (s.places p).map (Path.below s.directory) := by
  unfold candidates places
  cases found : p.segments.getLast? with
  | none => rfl
  | some last =>
      obtain ⟨outer, segments⟩ := List.getLast?_eq_some_iff.mp found
      dsimp only
      split
      · rfl
      · simp [segments, Path.below]

/-- A file is at one of the places of a document exactly if its name is made of the last segment of
the path, or of the name of an index.
-/
theorem mem_places {p : LogicalPath} {outer : List String} {name : String}
    : outer ++ [name] ∈ s.places p
      ↔ p.segments.getLast? ≠ some indexName
        ∧ ∃ stem,
            name = s.fileName stem
            ∧ p.segments = if stem == indexName then outer else outer ++ [stem] := by
  unfold places
  rcases List.eq_nil_or_concat p.segments with root | ⟨before, last, segments⟩
  · rw [root]
    constructor
    · intro member
      have alone : outer ++ [name] = [] ++ [s.fileName indexName] := List.mem_singleton.mp member
      obtain ⟨rfl, rfl⟩ := List.append_singleton_inj.mp alone
      exact ⟨nofun, indexName, rfl, rfl⟩
    · rintro ⟨-, stem, rfl, same⟩
      split at same
      · next isIndex =>
          obtain rfl := beq_iff_eq.mp isIndex
          exact same ▸ List.mem_singleton_self _
      · simp at same
  · rw [List.concat_eq_append] at segments
    rw [segments, List.getLast?_concat, List.dropLast_concat]
    dsimp only
    split
    · next isIndex => simp [beq_iff_eq.mp isIndex]
    · next notIndex =>
        rw [beq_iff_eq] at notIndex
        rw [List.mem_cons, List.mem_singleton, List.append_singleton_inj, List.append_singleton_inj]
        constructor
        · rintro (⟨rfl, rfl⟩ | ⟨rfl, rfl⟩)
          · exact ⟨by simpa using notIndex, last, rfl, by simp [notIndex]⟩
          · exact ⟨by simpa using notIndex, indexName, rfl, rfl⟩
        · rintro ⟨-, stem, rfl, same⟩
          split at same
          · next isIndex => exact .inr ⟨same.symm, by rw [beq_iff_eq.mp isIndex]⟩
          · obtain ⟨rfl, rfl⟩ := List.append_singleton_inj.mp same
            exact .inl ⟨rfl, rfl⟩

theorem toList_fileName (s : FileStore) (stem : String)
    : (s.fileName stem).toList = stem.toList ++ '.' :: s.extension.toList := by
  simp [fileName]

/-- The path of a document is made of the place of its file: a visible name at a place of the
document.
-/
theorem pathOf?_eq_some (extension : IsExtension s.extension) {p : LogicalPath}
    {outer : List String} {name : String}
    : s.pathOf? outer name = some p ↔ IsVisible name ∧ outer ++ [name] ∈ s.places p := by
  have stemOf (stem : String)
      : String.ofList
          ((s.fileName stem).toList.take ((s.fileName stem).length - (s.extension.length + 1)))
        = stem := by
    have length : (s.fileName stem).length = stem.toList.length + (s.extension.length + 1) := by
      simp [fileName, ← String.length_toList]
    rw [length, Nat.add_sub_cancel, toList_fileName, List.take_left, String.ofList_toList]
  rw [mem_places]
  unfold pathOf?
  constructor
  · intro h
    split at h
    · cases h
    · next shown =>
        simp only [Bool.or_eq_true, not_or, bne_iff_ne, ne_eq, Decidable.not_not, beq_iff_eq]
          at shown
        obtain ⟨visible, found⟩ := shown
        obtain ⟨stem, -, whole, -⟩ := Files.Path.extension?_eq_some.mp found
        obtain rfl : name = s.fileName (String.ofList stem) := by
          apply String.toList_injective
          rw [whole, toList_fileName, String.toList_ofList]
        rw [stemOf] at h
        dsimp only at h
        split at h
        · next path segments =>
            split at h
            · cases h
            · next notIndex =>
                obtain rfl := Option.some.inj h
                rw [beq_iff_eq] at notIndex
                exact ⟨visible, notIndex, _, rfl, (LogicalPath.ofSegments_eq_ok.mp segments).symm⟩
        · cases h
  · rintro ⟨visible, notIndex, stem, rfl, same⟩
    have notEmpty : stem.toList ≠ [] := fun empty => visible (by simp [toList_fileName, empty])
    have found : Files.Path.extension? (s.fileName stem) = some s.extension :=
      Files.Path.extension?_eq_some.mpr
        ⟨stem.toList, notEmpty, toList_fileName s stem, extension.noDot⟩
    have shown
        : ((s.fileName stem).toList.head? == some '.'
            || Files.Path.extension? (s.fileName stem) != some s.extension) = false := by
      rw [found, bne_self_eq_false, Bool.or_false]
      exact beq_eq_false_iff_ne.mpr visible
    have segments := LogicalPath.ofSegments_eq_ok.mpr same.symm
    rw [shown, stemOf, if_neg Bool.false_ne_true]
    dsimp only
    rw [segments]
    exact if_neg (by simpa using notIndex)

/-- The name of a file with an extension leads one step downwards. -/
theorem isStep_fileName (extension : IsExtension s.extension) {stem : String} (h : IsStep stem)
    : IsStep (s.fileName stem) := by
  have stemNotNil := mt String.toList_eq_nil_iff.mp h.notEmpty
  have extensionNotNil := mt String.toList_eq_nil_iff.mp extension.notEmpty
  have other (text : String) (short : text.toList.length ≤ 2) : s.fileName stem ≠ text := by
    rintro rfl
    have stemLength := List.length_pos_iff.mpr stemNotNil
    have extensionLength := List.length_pos_iff.mpr extensionNotNil
    rw [toList_fileName, List.length_append, List.length_cons] at short
    omega
  refine ⟨other _ (by decide), other _ (by decide), other _ (by decide), ?_⟩
  rw [toList_fileName, List.mem_append, List.mem_cons]
  simp [h.noSlash, extension.noSlash]

/-- A place of a document ends with the name of a file, made of the last segment of the path or of
the name of an index; what is before it is the rest of the path.
-/
theorem exists_of_mem_places {p : LogicalPath} {place : List String} (member : place ∈ s.places p)
    : ∃ outer stem,
        place = outer ++ [s.fileName stem]
        ∧ p.segments = (if stem == indexName then outer else outer ++ [stem])
        ∧ ((∀ name ∈ outer, name ∈ p.segments) ∧ (stem = indexName ∨ stem ∈ p.segments)) := by
  have notNil : place ≠ [] := by
    rintro rfl
    unfold places at member
    split at member
    · simp at member
    · split at member <;> simp at member
  rcases List.eq_nil_or_concat place with rfl | ⟨outer, name, rfl⟩
  · exact absurd rfl notNil
  · rw [List.concat_eq_append] at *
    obtain ⟨-, stem, rfl, same⟩ := mem_places.mp member
    refine ⟨outer, stem, rfl, same, ?_⟩
    split at same
    · next isIndex => exact ⟨by simp [same], .inl (beq_iff_eq.mp isIndex)⟩
    · exact ⟨by simp +contextual [same], .inr (by simp [same])⟩

/-- The places of a document lead downwards. -/
theorem isStep_of_mem_places (extension : IsExtension s.extension) {p : LogicalPath}
    {place : List String} (member : place ∈ s.places p)
    : ∀ name ∈ place, IsStep name := by
  obtain ⟨outer, stem, rfl, -, outerMember, stemMember⟩ := exists_of_mem_places member
  refine List.forall_mem_append.mpr ⟨fun name inside => ?_, List.forall_mem_singleton.mpr ?_⟩
  · exact isStep_of_isSegment (p.valid name (outerMember name inside))
  · refine isStep_fileName extension ?_
    rcases stemMember with rfl | inside
    · decide
    · exact isStep_of_isSegment (p.valid stem inside)

/-- A place of a document is seen exactly if the segments of its path are. -/
theorem visible_place {p : LogicalPath} {place : List String} (member : place ∈ s.places p)
    : (∀ name ∈ place, IsVisible name) ↔ ∀ name ∈ p.segments, IsVisible name := by
  obtain ⟨outer, stem, rfl, segments, -, stemMember⟩ := exists_of_mem_places member
  have first : stem ≠ "" → (IsVisible (s.fileName stem) ↔ IsVisible stem) := by
    intro notEmpty
    obtain ⟨c, rest, characters⟩ :=
      List.exists_cons_of_ne_nil (mt String.toList_eq_nil_iff.mp notEmpty)
    simp [IsVisible, toList_fileName, characters]
  rw [List.forall_mem_append, List.forall_mem_singleton]
  split at segments
  · next isIndex =>
      obtain rfl := beq_iff_eq.mp isIndex
      have visible : IsVisible (s.fileName indexName) := (first (by decide)).mpr (by decide)
      simp [segments, visible]
  · have inside : stem ∈ p.segments := by simp [segments]
    rw [segments, List.forall_mem_append, List.forall_mem_singleton,
      first (isStep_of_isSegment (p.valid stem inside)).notEmpty]

-----------------------------------------------------------------------------------------
-- Listing
-----------------------------------------------------------------------------------------

/-- Holds if a file at a place in a directory is listed under a path: the directories that lead
there are seen, and the path is that of the file. The directory itself is at the place `outer`.
-/
def Lists (s : FileStore) (outer place : List String) (p : LogicalPath) : Prop :=
  ∃ inner name,
    place = inner ++ [name]
    ∧ (∀ name ∈ inner, IsVisible name)
    ∧ s.pathOf? (outer ++ inner) name = some p

theorem lists_singleton {outer : List String} {name : String} {p : LogicalPath}
    : s.Lists outer [name] p ↔ s.pathOf? outer name = some p := by
  constructor
  · rintro ⟨inner, last, same, -, found⟩
    obtain ⟨rfl, rfl⟩ : [] = inner ∧ name = last := List.append_singleton_inj.mp same
    simpa using found
  · intro found
    exact ⟨[], name, rfl, by simp, by simpa using found⟩

theorem lists_cons {outer place : List String} {name : String} {p : LogicalPath}
    (notNil : place ≠ [])
    : s.Lists outer (name :: place) p ↔ IsVisible name ∧ s.Lists (outer ++ [name]) place p := by
  constructor
  · rintro ⟨inner, last, same, visible, found⟩
    cases inner with
    | nil => simp [notNil] at same
    | cons first rest =>
        obtain ⟨rfl, rfl⟩ := List.cons_eq_cons.mp same
        obtain ⟨here, later⟩ := List.forall_mem_cons.mp visible
        exact ⟨here, rest, last, rfl, later, by simpa using found⟩
  · rintro ⟨here, inner, last, rfl, visible, found⟩
    exact ⟨name :: inner, last, rfl, List.forall_mem_cons.mpr ⟨here, visible⟩, by simpa using found⟩

mutual

/-- Listing an entry finds the files in it that are seen, if the directories that are seen can be
read. By induction on the tree.
-/
theorem scanEntry_spec (directory : String) (outer : List String) (name : String) {e : Entry}
    (regular : e.IsRegular)
    (opens : ∀ inner entries, (∀ n ∈ name :: inner, IsVisible n)
      → e.get? inner = some (.directory entries)
      → ∃ there, s.disk.find (Path.below directory (name :: inner)) = .ok there)
    : ∃ found,
        s.scanEntry directory outer name e = .ok found
        ∧ ∀ p, p ∈ found
          ↔ ∃ inner bytes, e.get? inner = some (.file bytes) ∧ s.Lists outer (name :: inner) p := by
  cases e with
  | file bytes =>
      refine ⟨_, by rw [scanEntry], fun p => ?_⟩
      rw [Option.mem_toList, ← lists_singleton]
      constructor
      · exact fun listed => ⟨[], bytes, rfl, listed⟩
      · rintro ⟨inner, held, there, listed⟩
        cases inner with
        | nil => exact listed
        | cons first rest => simp [Entry.get?, Entry.entries] at there
  | directory entries =>
      by_cases hidden : name.toList.head? = some '.'
      · refine ⟨[], by rw [scanEntry, if_pos (beq_iff_eq.mpr hidden)], fun p => ?_⟩
        refine iff_of_false List.not_mem_nil ?_
        rintro ⟨inner, bytes, there, listed⟩
        exact ((lists_cons (Entry.ne_nil_of_file there)).mp listed).1 hidden
      · obtain ⟨there, readable⟩ := opens [] entries (List.forall_mem_singleton.mpr hidden) rfl
        obtain ⟨found, scanned, lists⟩ :=
          scanEntries_spec (Path.join directory name) (outer ++ [name]) regular
            fun inner entries visible there =>
              opens inner entries (List.forall_mem_cons.mpr ⟨hidden, visible⟩) there
        refine ⟨found, ?_, fun p => ?_⟩
        · have readable : s.disk.find (Path.join directory name) = .ok there := readable
          rw [scanEntry, if_neg (by simpa using hidden)]
          dsimp only
          rw [readable]
          exact scanned
        · rw [lists]
          constructor
          · rintro ⟨inner, bytes, there, listed⟩
            refine ⟨inner, bytes, there, ?_⟩
            exact (lists_cons (Entry.ne_nil_of_file there)).mpr ⟨hidden, listed⟩
          · rintro ⟨inner, bytes, there, listed⟩
            exact ⟨inner, bytes, there, ((lists_cons (Entry.ne_nil_of_file there)).mp listed).2⟩

/-- The same of the entries of a directory. -/
theorem scanEntries_spec (directory : String) (outer : List String)
    {entries : List (String × Entry)} (regular : (Entry.directory entries).IsRegular)
    (opens : ∀ inner found, (∀ n ∈ inner, IsVisible n)
      → (Entry.directory entries).get? inner = some (.directory found)
      → ∃ there, s.disk.find (Path.below directory inner) = .ok there)
    : ∃ found,
        s.scanEntries directory outer entries = .ok found
        ∧ ∀ p, p ∈ found
          ↔ ∃ inner bytes,
              (Entry.directory entries).get? inner = some (.file bytes)
              ∧ s.Lists outer inner p := by
  cases entries with
  | nil =>
      refine ⟨[], by rw [scanEntries], fun p => iff_of_false List.not_mem_nil ?_⟩
      rintro ⟨inner, bytes, there, -⟩
      cases inner <;> simp [Entry.get?, Entry.entries] at there
  | cons first rest =>
      obtain ⟨name, e⟩ := first
      obtain ⟨sorted, named, regularHere, regularLater⟩ := regular
      have inside {inner : List String} (notNil : inner ≠ []) {x : Entry}
          : (Entry.directory ((name, e) :: rest)).get? inner = some x
            ↔ (∃ more, inner = name :: more ∧ e.get? more = some x)
              ∨ (Entry.directory rest).get? inner = some x :=
        Entry.get?_directory_cons sorted notNil
      obtain ⟨first, scannedFirst, listsFirst⟩ :=
        scanEntry_spec directory outer name regularHere
          fun inner found visible there =>
            opens (name :: inner) found visible
              ((inside (List.cons_ne_nil _ _)).mpr (.inl ⟨inner, rfl, there⟩))
      obtain ⟨later, scannedLater, listsLater⟩ :=
        scanEntries_spec directory outer (And.intro (List.pairwise_cons.mp sorted).2 regularLater)
          fun inner found visible there => by
            by_cases isNil : inner = []
            · subst isNil
              exact opens [] _ visible rfl
            · exact opens inner found visible ((inside isNil).mpr (.inr there))
      refine ⟨first ++ later, ?_, fun p => ?_⟩
      · rw [scanEntries, scannedFirst, scannedLater]
        rfl
      · rw [List.mem_append, listsFirst, listsLater]
        constructor
        · rintro (⟨inner, bytes, there, listed⟩ | ⟨inner, bytes, there, listed⟩)
          · exact ⟨name :: inner, bytes,
              (inside (List.cons_ne_nil _ _)).mpr (.inl ⟨inner, rfl, there⟩), listed⟩
          · exact ⟨inner, bytes, (inside (Entry.ne_nil_of_file there)).mpr (.inr there), listed⟩
        · rintro ⟨inner, bytes, there, listed⟩
          rcases (inside (Entry.ne_nil_of_file there)).mp there with ⟨more, rfl, within⟩ | there
          · exact .inl ⟨more, bytes, within, listed⟩
          · exact .inr ⟨inner, bytes, there, listed⟩

end

-----------------------------------------------------------------------------------------
-- Reading
-----------------------------------------------------------------------------------------

/-- The text of a document is that of the first of its files; reading it fails because a file cannot
be read, or because there is none. By induction on the files.
-/
theorem firstText_cases (s : FileStore) (p : LogicalPath) (files : List String)
    : (∃ text file, s.firstText p files = .ok text ∧ file ∈ files ∧ s.disk.hasFile file = true)
      ∨ (∃ file e, s.firstText p files = .error (.unreadable .files file e) ∧ e ≠ .notFound)
      ∨ (s.firstText p files = .error (.missing .files p.display)
        ∧ ∀ file ∈ files, s.disk.hasFile file = false) := by
  induction files with
  | nil => exact .inr (.inr ⟨rfl, by simp⟩)
  | cons file rest ih =>
      have absent {e : Files.Error} (failed : s.disk.readText file = .error e)
          (notText : e ≠ .invalidText)
          : s.disk.hasFile file = false := by
        refine Bool.eq_false_iff.mpr fun there => ?_
        rcases Disk.readText_of_hasFile there with ⟨text, read⟩ | read
        · cases read.symm.trans failed
        · exact notText (Except.error.inj (failed.symm.trans read))
      have next (failed : s.disk.hasFile file = false)
          : (∃ text other, s.firstText p rest = .ok text ∧ other ∈ file :: rest
                ∧ s.disk.hasFile other = true)
            ∨ (∃ other e, s.firstText p rest = .error (.unreadable .files other e) ∧ e ≠ .notFound)
            ∨ (s.firstText p rest = .error (.missing .files p.display)
              ∧ ∀ other ∈ file :: rest, s.disk.hasFile other = false) := by
        rcases ih with ⟨text, other, read, member, there⟩ | unreadable | ⟨missing, none⟩
        · exact .inl ⟨text, other, read, List.mem_cons_of_mem file member, there⟩
        · exact .inr (.inl unreadable)
        · exact .inr (.inr ⟨missing, List.forall_mem_cons.mpr ⟨failed, none⟩⟩)
      unfold firstText
      split
      · next text read =>
          exact .inl ⟨text, file, rfl, List.mem_cons_self, Disk.hasFile_of_readText read⟩
      · next failed => exact next (absent failed (by decide))
      · next failed => exact next (absent failed (by decide))
      · next failed => exact next (absent failed (by decide))
      · next e notFound _ _ failed => exact .inr (.inl ⟨file, e, rfl, notFound⟩)

/-- A text is no document only because of its metadata. -/
theorem kind_of_document {backend : Backend} {p : LogicalPath} {text : String} {e : StorageError}
    (failed : Store.document backend p text = .error e)
    : e.kind = .invalidMetadata := by
  unfold Store.document at failed
  dsimp only at failed
  split at failed
  · cases failed
  · next yaml _ =>
      cases read : Metadata.ofYaml yaml with
      | ok metadata => rw [read] at failed; cases failed
      | error fault =>
          rw [read] at failed
          obtain rfl := Except.error.inj failed
          rfl

/-- Reading a document that is there never fails because it is not found. -/
theorem kind_ne_notFound_of_read {p : LogicalPath} (there : s.has p = true) {e : StorageError}
    (failed : (Store.files s).read p = .error e)
    : e.kind ≠ .notFound := by
  obtain ⟨file, member, isFile⟩ := List.any_eq_true.mp there
  rcases firstText_cases s p (s.candidates p) with
    ⟨text, -, read, -⟩ | ⟨other, fault, read, notFound⟩ | ⟨-, none⟩
  · rw [Store.read, Store.text, FileStore.text, read] at failed
    rw [kind_of_document failed]
    decide
  · rw [Store.read, Store.text, FileStore.text, read] at failed
    obtain rfl := Except.error.inj failed
    simp [StorageError.kind, notFound]
  · simp [none file member] at isFile

/-- Reading a document that is not there fails. -/
theorem exists_error_of_not_has {p : LogicalPath} (absent : s.has p = false)
    : ∃ e, (Store.files s).read p = .error e := by
  have absent := List.any_eq_false.mp absent
  rcases firstText_cases s p (s.candidates p) with
    ⟨text, file, -, member, isFile⟩ | ⟨other, fault, read, -⟩ | ⟨read, -⟩
  · exact absurd isFile (absent file member)
  · exact ⟨_, by rw [Store.read, Store.text, FileStore.text, read]; rfl⟩
  · exact ⟨_, by rw [Store.read, Store.text, FileStore.text, read]; rfl⟩

-----------------------------------------------------------------------------------------
-- What is listed
-----------------------------------------------------------------------------------------

/-- Holds if the directory of a store is there with these entries, which are a regular tree in which
no path is too long, and if its documents have an extension.
-/
structure Keeps (s : FileStore) (entries : List (String × Entry)) : Prop where
  there : s.disk.find s.directory = .ok (.directory entries)
  regular : (Entry.directory entries).IsRegular
  fits
    : ∀ place e, (Entry.directory entries).get? place = some e
        → (Path.below s.directory place).utf8ByteSize ≤ Files.maxPathSize
  extension : IsExtension s.extension

/-- A document is there if a file is at one of its places. -/
theorem Keeps.has_iff {entries : List (String × Entry)} (keeps : s.Keeps entries)
    {p : LogicalPath}
    : s.has p = true
      ↔ ∃ place ∈ s.places p, ∃ bytes,
          (Entry.directory entries).get? place = some (.file bytes) := by
  rw [has, candidates_eq, List.any_map, List.any_eq_true]
  refine exists_congr fun place => and_congr_right fun member => ?_
  have steps := isStep_of_mem_places keeps.extension member
  rw [Function.comp_apply, Disk.hasFile_eq_true]
  refine exists_congr fun bytes => ⟨Disk.get?_of_find_below keeps.there steps, fun inside => ?_⟩
  exact Disk.find_below keeps.there keeps.regular inside (keeps.fits _ _ inside)

/-- A directory of documents can be listed, and lists in order, each once, the paths of the
documents that are there and have no hidden segment. What is listed is found when it is read, and
what is not there cannot be read.
-/
theorem scan_iff_has {entries : List (String × Entry)} (keeps : s.Keeps entries)
    : ∃ paths,
        s.scan = .ok paths
        ∧ Ascending paths
        ∧ (∀ p, p ∈ paths ↔ (∀ name ∈ p.segments, IsVisible name) ∧ s.has p = true)
        ∧ (∀ p ∈ paths, ∀ e, (Store.files s).read p = .error e → e.kind ≠ .notFound)
        ∧ ∀ p, s.has p = false → ∃ e, (Store.files s).read p = .error e := by
  obtain ⟨found, scanned, lists⟩ :=
    scanEntries_spec s.directory [] keeps.regular fun inner held _ inside =>
      ⟨_, Disk.find_below keeps.there keeps.regular inside (keeps.fits _ _ inside)⟩
  have listed (p : LogicalPath)
      : p ∈ found.foldr insertPath []
        ↔ (∀ name ∈ p.segments, IsVisible name) ∧ s.has p = true := by
    rw [mem_foldr_insertPath, lists, keeps.has_iff]
    constructor
    · rintro ⟨place, bytes, inside, outer, name, rfl, visible, path⟩
      obtain ⟨shown, member⟩ := (pathOf?_eq_some keeps.extension).mp path
      rw [List.nil_append] at member
      refine ⟨(visible_place member).mp ?_, _, member, bytes, inside⟩
      exact List.forall_mem_append.mpr ⟨visible, List.forall_mem_singleton.mpr shown⟩
    · rintro ⟨visible, place, member, bytes, inside⟩
      have shown := (visible_place member).mpr visible
      obtain ⟨outer, stem, rfl, -⟩ := exists_of_mem_places member
      obtain ⟨outerShown, nameShown⟩ := List.forall_mem_append.mp shown
      refine ⟨_, bytes, inside, outer, s.fileName stem, rfl, outerShown, ?_⟩
      exact (pathOf?_eq_some keeps.extension).mpr
        ⟨List.forall_mem_singleton.mp nameShown, member⟩
  refine ⟨found.foldr insertPath [], ?_, ascending_foldr found, listed, ?_, ?_⟩
  · rw [scan, keeps.there]
    dsimp only
    rw [scanned]
    rfl
  · intro p member e failed
    exact kind_ne_notFound_of_read ((listed p).mp member).2 failed
  · intro p absent
    exact exists_error_of_not_has absent

/-- A directory of documents: one that is hidden, one with two files, one in a directory that is
named like a document, and one that ends in the name of an index.
-/
def mixedEntries : List (String × Entry) :=
  [
    (".a.md", .file []),
    ("a", .directory [("index.md", .file [])]),
    ("a.md", .file []),
    ("b.md", .directory [("c.d.md", .file []), ("index", .directory [("index.md", .file [])])])
  ]

def mixedStore : FileStore :=
  { disk := { root := .directory [("content", .directory mixedEntries)] },
    directory := "/content",
    extension := "md" }

theorem keeps_mixedEntries : mixedStore.Keeps mixedEntries := by
  have regular : (Entry.directory mixedEntries).IsRegular := by
    simp only [mixedEntries, Entry.IsRegular, Entry.AllRegular, and_true, true_and]
    decide
  refine ⟨rfl, regular, ?_, isExtension_md⟩
  · intro place e there
    have deepest : (Entry.directory mixedEntries).depth = 3 := rfl
    have shallow := deepest ▸ Entry.length_le_depth there
    refine (Path.size_below _ (regular.get? there)).trans ?_
    exact (Nat.add_le_add_left (Nat.mul_le_mul_left _ shallow) _).trans (by decide)

/-- What is listed of such a directory. -/
theorem scan_mixedStore
    : mixedStore.Keeps mixedEntries
      ∧ ∃ paths,
          mixedStore.scan = .ok paths
          ∧ Ascending paths
          ∧ (∀ p, p ∈ paths ↔ (∀ name ∈ p.segments, IsVisible name) ∧ mixedStore.has p = true)
          ∧ (∀ p ∈ paths, ∀ e, (Store.files mixedStore).read p = .error e → e.kind ≠ .notFound)
          ∧ ∀ p, mixedStore.has p = false → ∃ e, (Store.files mixedStore).read p = .error e :=
  ⟨keeps_mixedEntries, scan_iff_has keeps_mixedEntries⟩

/-- A long path of a directory: its dots lead nowhere. -/
def dottedPath : Nat → String
  | 0 => "/content"
  | n + 1 => dottedPath n ++ "/."

theorem size_dottedPath (n : Nat) : (dottedPath n).utf8ByteSize = 8 + 2 * n := by
  induction n with
  | zero => rfl
  | succ n ih =>
      rw [dottedPath, String.utf8ByteSize_append, ih]
      rfl

theorem steps_dottedPath (n : Nat) : Path.steps (dottedPath n) = ["content"] := by
  induction n with
  | zero => decide
  | succ n ih =>
      have split : dottedPath (n + 1) = String.ofList ((dottedPath n).toList ++ '/' :: ['.']) := by
        apply String.toList_injective
        simp [dottedPath]
      have idle : Path.steps (String.ofList ['.']) = [] := by decide
      rw [split, Files.Path.steps_slash, String.ofList_toList, ih, idle]
      rfl

theorem isAbsolute_dottedPath (n : Nat) : Files.Path.isAbsolute (dottedPath n) = true := by
  induction n with
  | zero => rfl
  | succ n ih =>
      rw [Files.Path.isAbsolute] at ih ⊢
      rw [dottedPath, String.toList_append]
      cases characters : (dottedPath n).toList with
      | nil => simp [characters] at ih
      | cons c rest => simpa [characters] using ih

theorem noNul_dottedPath (n : Nat) : '\x00' ∉ (dottedPath n).toList := by
  induction n with
  | zero => decide
  | succ n ih =>
      rw [dottedPath, String.toList_append, List.mem_append]
      exact not_or.mpr ⟨ih, by decide⟩

/-- The store of a directory with one document, at a path of some length. -/
def dottedStore (n : Nat) : FileStore :=
  { disk := { root := .directory [("content", .directory [("a.md", .file [])])] },
    directory := dottedPath n,
    extension := "md" }

theorem find_dottedStore {n : Nat} (short : 8 + 2 * n ≤ Files.maxPathSize)
    : (dottedStore n).disk.find (dottedStore n).directory
      = .ok (.directory [("a.md", .file [])]) := by
  have absolute : Files.Path.isAbsolute (dottedStore n).directory = true := isAbsolute_dottedPath n
  have steps : Path.steps (dottedStore n).directory = ["content"] := steps_dottedPath n
  have size : (dottedStore n).directory.utf8ByteSize = 8 + 2 * n := size_dottedPath n
  refine Disk.find_eq_ok.mpr
    ⟨{ names := ["content"], asDirectory := _ }, Disk.locate_eq_ok.mpr ⟨?_, ?_, ?_, ?_, ?_, rfl⟩,
      rfl, nofun⟩
  · have noNul : '\x00' ∉ (dottedStore n).directory.toList := noNul_dottedPath n
    simpa using noNul
  · have notEmpty : (dottedStore n).directory ≠ "" := fun empty => by
      simp [empty] at size
      omega
    simpa using notEmpty
  · omega
  · rw [Files.Path.join_absolute _ absolute, steps]
    rfl
  · exact fun _ => rfl

/-- What is below a path that is almost too long is not found. -/
theorem has_dottedStore {n : Nat} (long : Files.maxPathSize < 8 + 2 * n + 3) (p : LogicalPath)
    : (dottedStore n).has p = false := by
  have extension : IsExtension (dottedStore n).extension := isExtension_md
  have size : (dottedStore n).directory.utf8ByteSize = 8 + 2 * n := size_dottedPath n
  rw [has, candidates_eq, List.any_map]
  refine List.any_eq_false.mpr fun place member => ?_
  have steps := isStep_of_mem_places extension member
  obtain ⟨outer, stem, rfl, -⟩ := exists_of_mem_places member
  obtain ⟨outerSteps, nameStep⟩ := List.forall_mem_append.mp steps
  have named : ((dottedStore n).fileName stem).utf8ByteSize = stem.utf8ByteSize + 3 := by
    rw [fileName, String.utf8ByteSize_append, String.utf8ByteSize_append, Nat.add_assoc]
    rfl
  have outside := Path.le_size_below (dottedStore n).directory outerSteps
  have joined :=
    (Path.size_join (Path.below (dottedStore n).directory outer)
      (List.forall_mem_singleton.mp nameStep)).1
  rw [Function.comp_apply, Files.Path.below_append_singleton, Disk.hasFile_of_long (by omega)]
  exact Bool.false_ne_true

/-- A document is listed whose file is not found, because its path is too long, although that of the
directory is not.
-/
theorem scan_dottedStore
    : (dottedStore 2043).disk.find (dottedStore 2043).directory
        = .ok (.directory [("a.md", .file [])])
      ∧ (Entry.directory [("a.md", .file [])]).IsRegular
      ∧ IsExtension (dottedStore 2043).extension
      ∧ ∃ paths p,
          (dottedStore 2043).scan = .ok paths
          ∧ p ∈ paths
          ∧ (∀ name ∈ p.segments, IsVisible name)
          ∧ (dottedStore 2043).has p = false := by
  have there := find_dottedStore (n := 2043) (by decide)
  have extension : IsExtension (dottedStore 2043).extension := isExtension_md
  let p : LogicalPath := { segments := ["a"], valid := by decide }
  have found : (dottedStore 2043).pathOf? [] "a.md" = some p :=
    (pathOf?_eq_some extension).mpr ⟨by decide, by decide⟩
  refine ⟨there, ?_, extension, [p], p, ?_, List.mem_singleton_self p, by decide, ?_⟩
  · simp only [Entry.IsRegular, Entry.AllRegular, and_true]
    decide
  · rw [scan, there]
    dsimp only
    rw [scanEntries, scanEntry, scanEntries, found]
    rfl
  · exact has_dottedStore (by decide) p

end Folio.Content.FileStore

namespace Folio.Content

-----------------------------------------------------------------------------------------
-- The order of what is listed
-----------------------------------------------------------------------------------------

/-- No path is twice in a list that is in order. -/
theorem Ascending.nodup {paths : List LogicalPath} (h : Ascending paths) : paths.Nodup := by
  refine h.imp ?_
  intro p q before same
  rw [same, LogicalPath.precedes, decide_eq_true_eq] at before
  exact List.lt_irrefl _ before

/-- Holds for stores as they are made: documents in memory are in the order of their paths. -/
def Store.IsOrdered : Store → Prop
  | .files _ => True
  | .memory s => Ascending (s.map (·.1))

/-- A text that is put into a store in memory is put where its path belongs. -/
theorem MemoryStore.keys_insert (s : MemoryStore) (path : LogicalPath) (text : String)
    : (s.insert path text).map (·.1) = insertPath path (s.map (·.1)) := by
  induction s with
  | nil => rfl
  | cons first rest ih =>
      obtain ⟨p, t⟩ := first
      unfold MemoryStore.insert
      rw [List.map_cons, insertPath]
      split
      · next same => rw [List.map_cons, same]
      · split
        · rfl
        · rw [List.map_cons, ih]

/-- A store in memory stays in order. -/
theorem Store.IsOrdered.insert {s : MemoryStore} (h : (Store.memory s).IsOrdered)
    (path : LogicalPath) (text : String)
    : (Store.memory (s.insert path text)).IsOrdered := by
  show Ascending ((s.insert path text).map (·.1))
  rw [MemoryStore.keys_insert]
  exact Ascending.insertPath h path

/-- Stores list their paths in order, each once. -/
theorem Store.IsOrdered.ascending_scan {s : Store} (h : s.IsOrdered) {paths : List LogicalPath}
    (scanned : s.scan = .ok paths)
    : Ascending paths := by
  cases s with
  | memory entries =>
      obtain rfl := Except.ok.inj scanned
      exact h
  | files s =>
      unfold Store.scan FileStore.scan at scanned
      dsimp only at scanned
      split at scanned
      · obtain ⟨found, -, listed⟩ := bind_eq_ok.mp scanned
        obtain rfl := Except.ok.inj listed
        exact ascending_foldr found
      · cases scanned

end Folio.Content
