import Folio.Proofs.Files.Disk

/-! What stands below a directory. A path that goes on from the path of a directory by names finds
what is at those names in the directory, as long as it is not too long for the operating system, and
it never finds anything else. Files that an operation leaves alone are read as before, and are not
found if they were not: new directories could only help to find a file whose path leads outwards
again, by `..`, from a directory that is missing.
-/

namespace Folio.Files

open Json (Fields)

-----------------------------------------------------------------------------------------
-- Names of entries
-----------------------------------------------------------------------------------------

/-- Holds for texts that lead one step downwards as a piece of a path. -/
structure IsStep (name : String) : Prop where
  notEmpty : name ≠ ""
  notHere : name ≠ "."
  notUp : name ≠ ".."
  noSlash : '/' ∉ name.toList

structure IsEntryName (name : String) : Prop extends IsStep name where
  noNul : '\x00' ∉ name.toList
  short : name.utf8ByteSize ≤ maxNameSize

instance (name : String) : Decidable (IsStep name) :=
  decidable_of_iff (name ≠ "" ∧ name ≠ "." ∧ name ≠ ".." ∧ '/' ∉ name.toList)
    ⟨fun h => ⟨h.1, h.2.1, h.2.2.1, h.2.2.2⟩,
      fun h => ⟨h.notEmpty, h.notHere, h.notUp, h.noSlash⟩⟩

instance (name : String) : Decidable (IsEntryName name) :=
  decidable_of_iff (IsStep name ∧ '\x00' ∉ name.toList ∧ name.utf8ByteSize ≤ maxNameSize)
    ⟨fun h => ⟨h.1, h.2.1, h.2.2⟩, fun h => ⟨h.toIsStep, h.noNul, h.short⟩⟩

namespace Entry

mutual

/-- Holds for trees that a file system can hold: in each directory the names are names of entries,
in order and each once.
-/
def IsRegular : Entry → Prop
  | .file _ => True
  | .directory entries => Fields.Sorted entries ∧ AllRegular entries

def AllRegular : List (String × Entry) → Prop
  | [] => True
  | (name, e) :: rest => IsEntryName name ∧ e.IsRegular ∧ AllRegular rest

end

theorem AllRegular.get? {entries : Fields Entry} (h : AllRegular entries) {name : String}
    {e : Entry} (found : entries.get? name = some e)
    : IsEntryName name ∧ e.IsRegular := by
  induction entries with
  | nil => cases found
  | cons first rest ih =>
      obtain ⟨other, entry⟩ := first
      obtain ⟨named, regular, later⟩ := h
      rw [Fields.get?_cons] at found
      split at found
      · next same =>
          obtain rfl := Option.some.inj found
          exact ⟨same ▸ named, regular⟩
      · exact ih later found

/-- What is in a directory is in its first entry, at the name of that entry, or in another one. -/
theorem get?_directory_cons {name : String} {e inner : Entry} {rest : List (String × Entry)}
    (sorted : Fields.Sorted ((name, e) :: rest)) {place : List String} (notNil : place ≠ [])
    : (Entry.directory ((name, e) :: rest)).get? place = some inner
      ↔ (∃ more, place = name :: more ∧ e.get? more = some inner)
        ∨ (Entry.directory rest).get? place = some inner := by
  obtain ⟨first, more, rfl⟩ := List.exists_cons_of_ne_nil notNil
  rw [Entry.get?, Entry.get?, Entry.entries, Entry.entries, Fields.get?_cons]
  by_cases same : name = first
  · subst same
    have absent : Fields.get? rest name = none :=
      Fields.get?_eq_none (Fields.Sorted.ne_head sorted)
    simp [absent]
  · simp [same, Ne.symm same]

/-- A directory is no file itself. -/
theorem ne_nil_of_file {entries : List (String × Entry)} {place : List String} {bytes : Bytes}
    (there : (Entry.directory entries).get? place = some (.file bytes))
    : place ≠ [] := by
  rintro rfl
  cases Option.some.inj there

mutual

/-- How many names lead to the deepest entry of a tree. -/
def depth : Entry → Nat
  | .file _ => 0
  | .directory entries => depthOfEntries entries

def depthOfEntries : List (String × Entry) → Nat
  | [] => 0
  | (_, e) :: rest => max (e.depth + 1) (depthOfEntries rest)

end

theorem depth_lt_of_get? {entries : Fields Entry} {name : String} {e : Entry}
    (found : entries.get? name = some e)
    : e.depth < depthOfEntries entries := by
  induction entries with
  | nil => cases found
  | cons first rest ih =>
      rw [Fields.get?_cons] at found
      rw [depthOfEntries]
      split at found
      · obtain rfl := Option.some.inj found
        omega
      · have := ih found
        omega

/-- No entry is deeper in a tree than its deepest one. -/
theorem length_le_depth {e inner : Entry} {place : List String}
    (found : e.get? place = some inner)
    : place.length ≤ e.depth := by
  induction place generalizing e with
  | nil => exact Nat.zero_le _
  | cons name rest ih =>
      cases e with
      | file bytes => cases found
      | directory entries =>
          rw [Entry.get?, Entry.entries] at found
          split at found
          · next entry there =>
              have inside := ih found
              have deeper := depth_lt_of_get? there
              rw [List.length_cons, depth]
              omega
          · cases found

/-- All names on the way to an entry of a regular tree are names of entries. -/
theorem IsRegular.get? {e inner : Entry} {place : List String} (h : e.IsRegular)
    (found : e.get? place = some inner)
    : ∀ name ∈ place, IsEntryName name := by
  induction place generalizing e with
  | nil => exact fun name member => absurd member List.not_mem_nil
  | cons name rest ih =>
      cases e with
      | file bytes => cases found
      | directory entries =>
          rw [Entry.get?, Entry.entries] at found
          split at found
          · next entry there =>
              obtain ⟨named, regular⟩ := AllRegular.get? h.2 there
              exact List.forall_mem_cons.mpr ⟨named, ih regular found⟩
          · cases found

end Entry

-----------------------------------------------------------------------------------------
-- Paths below a directory
-----------------------------------------------------------------------------------------

namespace Path

def below (directory : String) (place : List String) : String :=
  place.foldl join directory

end Path

section

variable {name : String} {directory : String} {place : List String}

theorem IsStep.isIdle (h : IsStep name) : Path.isIdle name = false := by
  simp [Path.isIdle, h.notEmpty, h.notHere]

theorem IsStep.isAbsolute (h : IsStep name) : Path.isAbsolute name = false := by
  unfold Path.isAbsolute
  cases characters : name.toList with
  | nil => rfl
  | cons c rest =>
      have notSlash : c ≠ '/' := fun same =>
        h.noSlash (characters ▸ same ▸ List.mem_cons_self)
      simpa using notSlash

theorem IsStep.pieces (h : IsStep name) : Path.pieces name = [name] := by
  have whole : Text.splitBy (· == '/') name.toList = [name.toList] :=
    Text.splitBy_of_forall fun c member =>
      beq_eq_false_iff_ne.mpr fun isSlash => h.noSlash (isSlash ▸ member)
  rw [Path.pieces, whole, List.map_singleton, String.ofList_toList]

theorem IsStep.steps (h : IsStep name) : Path.steps name = [name] := by
  rw [Path.steps, h.pieces, List.filter_cons_of_pos (by simp [h.isIdle]), List.filter_nil]

/-- The last piece of a path is still the last one below a directory. -/
theorem Path.getLast?_pieces_join (directory path : String)
    : (Path.pieces (Path.join directory path)).getLast? = (Path.pieces path).getLast? := by
  cases absolute : Path.isAbsolute path with
  | true => rw [Path.join_absolute _ absolute]
  | false =>
      by_cases named : directory = ""
      · subst named
        rw [Path.join, absolute]
        rfl
      · obtain ⟨before, joined, -⟩ := Path.join_relative absolute named
        have notNil : (Text.splitBy (· == '/') path.toList).map String.ofList ≠ [] := by
          simpa using Text.splitBy_ne_nil _ path.toList
        rw [joined, Path.pieces, Path.pieces, String.toList_ofList, Text.splitBy_append_cons rfl,
          List.map_append, List.getLast?_append, List.getLast?_eq_some_getLast notNil,
          Option.some_or]

/-- A path whose last piece leads somewhere does not end in `.`. -/
theorem Path.endsHere_of_getLast? {path last : String}
    (ends : (Path.pieces path).getLast? = some last) (leads : Path.isIdle last = false)
    : Path.endsHere path = false := by
  obtain ⟨front, pieces⟩ := List.getLast?_eq_some_iff.mp ends
  have named : last ≠ "" ∧ last ≠ "." := by simpa [Path.isIdle] using leads
  simp [Path.endsHere, pieces, named]

/-- A path below a directory is not empty. -/
theorem Path.join_ne_empty (h : IsStep name) : Path.join directory name ≠ "" := by
  by_cases named : directory = ""
  · subst named
    rw [Path.join, h.isAbsolute]
    simpa using h.notEmpty
  · obtain ⟨before, joined, -⟩ := Path.join_relative h.isAbsolute named
    rw [joined]
    intro empty
    simpa using congrArg String.toList empty

/-- A path below a directory is as long as its parts, and a slash may be between them. -/
theorem Path.size_join (directory : String) (h : IsStep name)
    : directory.utf8ByteSize + name.utf8ByteSize ≤ (Path.join directory name).utf8ByteSize
      ∧ (Path.join directory name).utf8ByteSize
        ≤ directory.utf8ByteSize + name.utf8ByteSize + 1 := by
  have slash : "/".utf8ByteSize = 1 := rfl
  unfold Path.join
  split
  · next alone =>
      rw [h.isAbsolute, Bool.false_or] at alone
      obtain rfl : directory = "" := by simpa using alone
      simp
  · split
    · rw [String.utf8ByteSize_append]
      omega
    · rw [String.utf8ByteSize_append, String.utf8ByteSize_append]
      omega

theorem Path.le_size_below (directory : String) (h : ∀ name ∈ place, IsStep name)
    : directory.utf8ByteSize ≤ (Path.below directory place).utf8ByteSize := by
  induction place generalizing directory with
  | nil => exact Nat.le_refl _
  | cons name rest ih =>
      obtain ⟨first, later⟩ := List.forall_mem_cons.mp h
      calc
        directory.utf8ByteSize ≤ directory.utf8ByteSize + name.utf8ByteSize := Nat.le_add_right _ _
        _ ≤ (Path.join directory name).utf8ByteSize := (Path.size_join directory first).1
        _ ≤ (Path.below (Path.join directory name) rest).utf8ByteSize := ih _ later

/-- Names of entries add no more than the longest name and a slash each to a path. -/
theorem Path.size_below (directory : String) (h : ∀ name ∈ place, IsEntryName name)
    : (Path.below directory place).utf8ByteSize
      ≤ directory.utf8ByteSize + (maxNameSize + 1) * place.length := by
  induction place generalizing directory with
  | nil => exact Nat.le_refl _
  | cons name rest ih =>
      obtain ⟨first, later⟩ := List.forall_mem_cons.mp h
      have longest := first.short
      have joined := (Path.size_join directory first.toIsStep).2
      have below := ih (Path.join directory name) later
      rw [List.length_cons, Nat.mul_succ]
      exact Nat.le_trans below (by omega)

theorem Path.below_append_singleton (directory : String) (place : List String) (name : String)
    : Path.below directory (place ++ [name]) = Path.join (Path.below directory place) name :=
  List.foldl_append

theorem Path.below_ne_empty (named : directory ≠ "") (h : ∀ name ∈ place, IsStep name)
    : Path.below directory place ≠ "" := by
  induction place generalizing directory with
  | nil => exact named
  | cons name rest ih =>
      obtain ⟨first, later⟩ := List.forall_mem_cons.mp h
      exact ih (Path.join_ne_empty first) later

/-- A path below a directory takes the steps of the directory, and then its names. -/
theorem Path.steps_below (workingDirectory directory : String) (h : ∀ name ∈ place, IsStep name)
    : Path.steps (Path.join workingDirectory (Path.below directory place))
      = Path.steps (Path.join workingDirectory directory) ++ place := by
  induction place generalizing directory with
  | nil => exact (List.append_nil _).symm
  | cons name rest ih =>
      obtain ⟨first, later⟩ := List.forall_mem_cons.mp h
      calc
        Path.steps (Path.join workingDirectory (Path.below (Path.join directory name) rest))
            = Path.steps (Path.join workingDirectory (Path.join directory name)) ++ rest :=
          ih (Path.join directory name) later
        _ = Path.steps (Path.join workingDirectory directory) ++ name :: rest := by
          rw [Path.steps_join_join _ _ first.isAbsolute, first.steps, List.append_assoc,
            List.singleton_append]

/-- Only what is in the path of a directory or in the names below it is in a path below it, besides
slashes.
-/
theorem Path.notMem_below {c : Char} (notSlash : c ≠ '/') (outside : c ∉ directory.toList)
    (h : ∀ name ∈ place, IsStep name ∧ c ∉ name.toList)
    : c ∉ (Path.below directory place).toList := by
  induction place generalizing directory with
  | nil => exact outside
  | cons name rest ih =>
      obtain ⟨⟨first, notHere⟩, later⟩ := List.forall_mem_cons.mp h
      refine ih ?_ later
      by_cases named : directory = ""
      · subst named
        rw [Path.join, first.isAbsolute]
        simpa using notHere
      · obtain ⟨before, joined, closed⟩ := Path.join_relative first.isAbsolute named
        have notBefore : c ∉ before := by
          rcases closed with same | closed
          · exact same ▸ outside
          · exact fun member => outside (closed ▸ List.mem_append_left _ member)
        rw [joined, String.toList_ofList, List.mem_append, List.mem_cons]
        simp [notBefore, notSlash, notHere]

end

-----------------------------------------------------------------------------------------
-- Finding entries below a directory
-----------------------------------------------------------------------------------------

namespace Disk

variable {d : Disk} {directory : String} {entries : List (String × Entry)} {place : List String}

/-- A walk along pieces goes on from where a walk along the first of them ends. -/
theorem walk_append (root : Entry) (place first later : List String)
    : walk root place (first ++ later)
      = (walk root place first).bind fun names => walk root names later := by
  induction first generalizing place with
  | nil => rfl
  | cons piece rest ih =>
      simp only [List.cons_append, walk]
      split
      · rfl
      · rfl
      · split
        · exact ih _
        · split
          · rfl
          · exact ih _

/-- A walk along steps that never lead outwards ends where they lead, if something is there and none
of them is too long. By induction on the steps.
-/
theorem walk_downwards {root : Entry} {outer steps : List String} (downwards : ".." ∉ steps)
    (short : ∀ step ∈ steps, step.utf8ByteSize ≤ maxNameSize) {shape : Shape}
    (there : root.shapeAt? (outer ++ steps) = some shape)
    : walk root outer steps = .ok (outer ++ steps) := by
  induction steps generalizing outer with
  | nil => rw [walk, List.append_nil]
  | cons step rest ih =>
      obtain ⟨notUp, later⟩ := List.ne_and_not_mem_of_not_mem_cons downwards
      obtain ⟨first, others⟩ := List.forall_mem_cons.mp short
      obtain ⟨entries, found⟩ := Entry.shapeAt?_eq_directory.mp (Entry.shapeAt?_outer there)
      have next : walk root (outer ++ [step]) rest = .ok (outer ++ [step] ++ rest) :=
        ih later others (by simpa using there)
      rw [walk, found]
      simpa [Ne.symm notUp, Nat.not_lt.mpr first] using next

/-- A walk along names of entries ends where they lead, if something is there. -/
theorem walk_entries {root : Entry} {outer names : List String}
    (entries : ∀ name ∈ names, IsEntryName name) {shape : Shape}
    (there : root.shapeAt? (outer ++ names) = some shape)
    : walk root outer names = .ok (outer ++ names) :=
  walk_downwards (fun up => (entries _ up).notUp rfl)
    (fun name member => (entries name member).short)
    there

/-- A path below a directory names the place below that of the directory. -/
theorem target_below (h : ∀ name ∈ place, IsStep name)
    : d.target (Path.below directory place) = d.target directory ++ place := by
  rw [target, Path.steps_below _ _ h, follow, List.foldl_append]
  exact follow_downwards fun up => (h _ up).notUp rfl

theorem ne_empty_of_locate {path : String} {place : Place} (h : d.locate path = .ok place)
    : path ≠ "" := by
  obtain ⟨-, named, -⟩ := locate_eq_ok.mp h
  simpa using named

/-- A file is there if it is found. -/
theorem hasFile_eq_true {path : String}
    : d.hasFile path = true ↔ ∃ bytes, d.find path = .ok (.file bytes) := by
  unfold hasFile
  split
  · next e found =>
      cases e with
      | file bytes => exact iff_of_true rfl ⟨bytes, found⟩
      | directory entries =>
          refine iff_of_false Bool.false_ne_true ?_
          rintro ⟨bytes, other⟩
          cases found.symm.trans other
  · next e failed =>
      refine iff_of_false Bool.false_ne_true ?_
      rintro ⟨bytes, found⟩
      cases failed.symm.trans found

/-- At a path that is too long there is no file. -/
theorem hasFile_of_long {path : String} (long : path.utf8ByteSize > maxPathSize)
    : d.hasFile path = false := by
  refine Bool.eq_false_iff.mpr fun there => ?_
  obtain ⟨bytes, found⟩ := hasFile_eq_true.mp there
  obtain ⟨place, located, -⟩ := find_eq_ok.mp found
  obtain ⟨-, -, short, -⟩ := locate_eq_ok.mp located
  exact short long

/-- The text of a file is read unless its bytes write none. -/
theorem readText_of_hasFile {path : String} (h : d.hasFile path = true)
    : (∃ text, d.readText path = .ok text) ∨ d.readText path = .error .invalidText := by
  obtain ⟨bytes, found⟩ := hasFile_eq_true.mp h
  have read : d.read path = .ok bytes := bind_eq_ok.mpr ⟨_, found, rfl⟩
  unfold readText
  rw [read]
  cases written : Text.ofUtf8? bytes with
  | some text => exact .inl ⟨text, by simp [bind, Except.bind, written, pure, Except.pure]⟩
  | none => exact .inr (by simp [bind, Except.bind, written, throw, throwThe, MonadExceptOf.throw])

theorem hasFile_of_readText {path text : String} (h : d.readText path = .ok text)
    : d.hasFile path = true := by
  obtain ⟨bytes, read, -⟩ := readText_eq_ok.mp h
  obtain ⟨e, found, held⟩ := bind_eq_ok.mp read
  cases e with
  | file bytes => exact hasFile_eq_true.mpr ⟨bytes, found⟩
  | directory entries => cases held

/-- What is found below a directory is in it, at the names that lead there. -/
theorem get?_of_find_below (h : d.find directory = .ok (.directory entries))
    (steps : ∀ name ∈ place, IsStep name) {e : Entry}
    (found : d.find (Path.below directory place) = .ok e)
    : (Entry.directory entries).get? place = some e := by
  obtain ⟨outer, located, there, -⟩ := find_eq_ok.mp h
  obtain ⟨inner, locatedBelow, thereBelow, -⟩ := find_eq_ok.mp found
  have names : inner.names = outer.names ++ place := by
    rw [(target_of_locate locatedBelow).1, (target_of_locate located).1,
      target_below steps]
  rw [names, Entry.get?_append, there] at thereBelow
  exact thereBelow

/-- What is in a directory is found below it, unless its path is too long. -/
theorem find_below (h : d.find directory = .ok (.directory entries))
    (regular : (Entry.directory entries).IsRegular) {e : Entry}
    (there : (Entry.directory entries).get? place = some e)
    (fits : (Path.below directory place).utf8ByteSize ≤ maxPathSize)
    : d.find (Path.below directory place) = .ok e := by
  rcases List.eq_nil_or_concat place with rfl | ⟨before, last, rfl⟩
  · obtain rfl := Option.some.inj there
    exact h
  rw [List.concat_eq_append] at *
  have named := regular.get? there
  have steps : ∀ name ∈ before ++ [last], IsStep name := fun name member =>
    (named name member).toIsStep
  have lastStep := steps last (List.mem_append_right _ List.mem_cons_self)
  obtain ⟨outer, located, thereOuter, -⟩ := find_eq_ok.mp h
  obtain ⟨noNul, notEmpty, -, walked, -⟩ := locate_eq_ok.mp located
  have notEmpty : directory ≠ "" := ne_empty_of_locate located
  have whole : d.root.get? (outer.names ++ (before ++ [last])) = some e := by
    rw [Entry.get?_append, thereOuter]
    exact there
  have absent : '\x00' ∉ (Path.below directory (before ++ [last])).toList :=
    Path.notMem_below (by decide) (by simpa using noNul) fun name member =>
      ⟨steps name member, (named name member).noNul⟩
  have ends : (Path.pieces (Path.below directory (before ++ [last]))).getLast? = some last := by
    rw [Path.below_append_singleton, Path.getLast?_pieces_join, lastStep.pieces,
      List.getLast?_singleton]
  refine find_eq_ok.mpr
    ⟨{ names := outer.names ++ (before ++ [last]), asDirectory := false },
      locate_eq_ok.mpr ⟨by simpa using absent, ?_, Nat.not_lt.mpr fits, ?_, ?_, ?_⟩, whole,
      fun _ => rfl⟩
  · simpa using Path.below_ne_empty notEmpty steps
  · rw [Path.steps_below _ _ steps, walk_append, walked]
    have shape : d.root.shapeAt? (outer.names ++ (before ++ [last])) = some e.shape := by
      rw [Entry.shapeAt?, whole]
      rfl
    exact walk_entries named shape
  · intro here
    rw [Path.endsHere_of_getLast? ends lastStep.isIdle] at here
    cases here
  · rw [Path.getLast?_pieces_join, ends, Option.any_some, lastStep.isIdle]

end Disk

-----------------------------------------------------------------------------------------
-- Files that are left alone
-----------------------------------------------------------------------------------------

namespace Disk

variable {d later : Disk} {except : List (List String)} {directory path : String}
  {inner : List String}

/-- Holds for paths that new directories lead nowhere else: they are found to be those of
directories, or there is no `..` in them.
-/
def Settled (d : Disk) (directory : String) : Prop :=
  d.hasDirectory directory = true
  ∨ ".." ∉ Path.steps (Path.join d.workingDirectory directory)

/-- No step of a walk that succeeds is too long, by induction on the steps. -/
theorem short_of_walk {root : Entry} {place steps names : List String} (downwards : ".." ∉ steps)
    (walked : walk root place steps = .ok names)
    : ∀ step ∈ steps, step.utf8ByteSize ≤ maxNameSize := by
  induction steps generalizing place with
  | nil => exact List.forall_mem_nil _
  | cons step rest ih =>
      obtain ⟨notUp, below⟩ := List.ne_and_not_mem_of_not_mem_cons downwards
      unfold walk at walked
      split at walked
      · cases walked
      · cases walked
      · split at walked
        · next up => exact absurd (beq_iff_eq.mp up).symm notUp
        · split at walked
          · cases walked
          · next short => exact List.forall_mem_cons.mpr ⟨Nat.not_lt.mp short, ih below walked⟩

/-- A walk that succeeds on another disk, along steps that never lead outwards, succeeds where
something stands at its end.
-/
theorem walk_of_shapeAt? {root other : Entry} {place steps names : List String}
    (downwards : ".." ∉ steps) (walked : walk other place steps = .ok names) {shape : Shape}
    (there : root.shapeAt? names = some shape)
    : walk root place steps = .ok names := by
  have ends : names = place ++ steps := (walk_follow walked).trans (follow_downwards downwards)
  rw [ends] at there ⊢
  exact walk_downwards downwards (short_of_walk downwards walked) there

/-- A path that goes on downwards from a settled one leads where it leads on a later disk, if there
was something before.
-/
theorem Settled.walk (settled : d.Settled directory) (grows : Grows except d later)
    (downwards : ".." ∉ inner) {names : List String}
    (walked
      : Disk.walk later.root []
          (Path.steps (Path.join d.workingDirectory directory) ++ inner)
        = .ok names)
    {shape : Shape} (there : d.root.shapeAt? names = some shape)
    : Disk.walk d.root [] (Path.steps (Path.join d.workingDirectory directory) ++ inner)
      = .ok names := by
  rcases settled with found | plain
  · obtain ⟨outer, located, -⟩ := hasDirectory_eq_true.mp found
    obtain ⟨-, -, -, first, -⟩ := locate_eq_ok.mp located
    rw [walk_append, walk_mono grows.directories first] at walked
    rw [walk_append, first]
    exact walk_of_shapeAt? downwards walked there
  · refine walk_of_shapeAt? ?_ walked there
    rw [List.mem_append]
    exact not_or.mpr ⟨plain, downwards⟩

/-- A file that is no exception is read from a disk that grew exactly if it was read before, and
with the same bytes, as long as its path goes on downwards from a settled one.
-/
theorem Grows.read_iff (grows : Grows except d later) (settled : d.Settled directory)
    (steps
      : Path.steps (Path.join d.workingDirectory path)
        = Path.steps (Path.join d.workingDirectory directory) ++ inner)
    (downwards : ".." ∉ inner) (apart : d.target path ∉ except) {bytes : Bytes}
    : later.read path = .ok bytes ↔ d.read path = .ok bytes := by
  constructor
  · intro read
    obtain ⟨place, located, isFile, there⟩ := read_eq_ok.mp read
    have names : place.names = d.target path :=
      (target_of_locate located).1.trans (grows.target path)
    have before : d.root.shapeAt? place.names = some (.file bytes) :=
      (grows.files _ bytes (names ▸ apart)).mp there
    obtain ⟨noNul, notEmpty, short, walked, ended, asDirectory⟩ := locate_eq_ok.mp located
    rw [grows.workingDirectory] at walked asDirectory
    have elsewhere : ¬Path.endsHere path = true := by
      intro here
      rw [ended here] at there
      cases there
    have walked : Disk.walk d.root [] (Path.steps (Path.join d.workingDirectory path))
        = .ok place.names := by
      rw [steps] at walked ⊢
      exact settled.walk grows downwards walked before
    exact read_eq_ok.mpr
      ⟨place,
        locate_eq_ok.mpr
          ⟨noNul, notEmpty, short, walked, fun here => absurd here elsewhere, asDirectory⟩,
        isFile, before⟩
  · exact grows.read apart

end Disk

end Folio.Files
