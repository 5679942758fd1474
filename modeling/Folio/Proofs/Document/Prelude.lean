import Folio.Document.Compile
import Folio.Proofs.Document.TagJoining

/-! The prelude of a body moves its text and makes names known, and does nothing else. What follows
the prelude is read as if it stood alone: every offset and every line is larger by what the prelude
takes, and the lines that errors report are not.
-/

namespace Folio.Document

variable {names : List String}

-----------------------------------------------------------------------------------------
-- A body on its own
-----------------------------------------------------------------------------------------

/-- The lines of a body after its blank lines and imports, and how many lines were skipped. Only
declared names may be imported.
-/
def skipImports (names : List String) (skipped : Nat)
    : List (List Char) → Except CompileError (Nat × List (List Char))
  | [] => .ok (skipped, [])
  | line :: rest =>
      let trimmed := Text.trim line
      if trimmed.isEmpty then skipImports names (skipped + 1) rest
      else
        match importedName? trimmed with
        | none => .ok (skipped, line :: rest)
        | some name =>
            let name := String.ofList name
            if names.contains name then skipImports names (skipped + 1) rest
            else .error (.unresolvedImport name (skipped + 1))

/-- The syntax tree of a body in which the names may be used as components. -/
def parseBody (names : List String) (body : List Char) : Except CompileError (List Node) := do
  let (skipped, lines) ← skipImports names 0 (Text.linesWithEnds body)
  let text := lines.flatten
  Builder.build { names, text, firstLine := skipped + 1 } (Markdown.events (joinTags text))

/-- All of a body is read if what it starts with is neither blank nor the start of an import. -/
theorem parseBody_noImports {c : Char} (notBlank : Text.isBlank c = false) (notImport : c ≠ 'i')
    (rest : List Char)
    : parseBody names (c :: rest)
      = Builder.build { names, text := c :: rest, firstLine := 1 }
          (Markdown.events (joinTags (c :: rest))) := by
  have notFeed : c ≠ '\n' := by
    rintro rfl
    exact absurd notBlank (by decide)
  have skipped
      : skipImports names 0 (Text.linesWithEnds (c :: rest))
        = .ok (0, Text.linesWithEnds (c :: rest)) := by
    have first : (Text.firstLine (c :: rest)).1 = c :: (Text.firstLine rest).1 := by
      rw [Text.firstLine]
      exact notFeed
    have trimmed (s : List Char) : Text.trim (c :: s) = c :: Text.trimEnd s := by
      rw [Text.trim, Text.trimStart, List.dropWhile_cons_of_neg (by simp [notBlank]),
        Text.trimEnd_cons notBlank]
    have noImport (s : List Char) : importedName? (c :: s) = none := by
      have word : "import".toList = 'i' :: "mport".toList := rfl
      simp [importedName?, word, Text.stripLead?, Ne.symm notImport]
    rw [Text.linesWithEnds_eq_cons (List.cons_ne_nil c rest), first]
    simp only [skipImports, trimmed, noImport, List.isEmpty_cons, Bool.false_eq_true, if_false]
  have text := Text.flatten_linesWithEnds (c :: rest)
  rw [parseBody, skipped]
  simp only [bind, Except.bind, text]
  rfl

-----------------------------------------------------------------------------------------
-- Declared names
-----------------------------------------------------------------------------------------

structure IsIdentifier (name : List Char) : Prop where
  start : name.head?.any isNameStart = true
  chars : ∀ c ∈ name, isNameChar c = true

/-- What starts a name may also stand in it. -/
theorem isNameChar_of_isNameStart {c : Char} (h : isNameStart c = true) : isNameChar c = true := by
  simp only [isNameStart, Bool.or_eq_true] at h
  simp only [isNameChar, Char.isAlphanum, Bool.or_eq_true]
  exact h.imp_left Or.inl

theorem isTagNameChar_of_isNameChar {c : Char} (h : isNameChar c = true)
    : Markup.isTagNameChar c = true := by
  simp only [isNameChar, Bool.or_eq_true] at h
  simp only [Markup.isTagNameChar, Bool.or_eq_true]
  exact Or.inl (Or.inl (Or.inl h))

theorem isIdentifier_of_isComponentName {name : String} (h : isComponentName name = true)
    : IsIdentifier name.toList := by
  unfold isComponentName at h
  split at h
  · exact absurd h Bool.false_ne_true
  · next c rest same =>
      obtain ⟨start, later⟩ := Bool.and_eq_true_iff.mp h
      rw [same]
      exact ⟨start, List.forall_mem_cons.mpr
        ⟨isNameChar_of_isNameStart start, List.all_eq_true.mp later⟩⟩

theorem IsIdentifier.ne_nil {name : List Char} (h : IsIdentifier name) : name ≠ [] := by
  rintro rfl
  cases h.start

/-- No blank, no quote and no line feed is in an identifier. -/
theorem IsIdentifier.not_mem {name : List Char} (h : IsIdentifier name) {c : Char}
    (other : isNameChar c = false)
    : c ∉ name :=
  fun member => absurd (h.chars c member) (by simp [other])

/-- Names that may be declared can be used and differ from each other, by induction on them. -/
theorem distinct_of_firstNameFault? {earlier : List String}
    (h : firstNameFault? earlier names = none)
    : names.Nodup ∧ ∀ name ∈ names, isComponentName name = true ∧ name ∉ earlier := by
  induction names generalizing earlier with
  | nil => exact ⟨List.nodup_nil, List.forall_mem_nil _⟩
  | cons name rest ih =>
      unfold firstNameFault? at h
      split at h
      · exact nomatch h
      · split at h
        · exact nomatch h
        · next isName =>
            split at h
            · exact nomatch h
            · next isNew =>
                obtain ⟨distinct, others⟩ := ih h
                refine ⟨List.nodup_cons.mpr ⟨fun again => ?_, distinct⟩,
                  List.forall_mem_cons.mpr
                    ⟨⟨by simpa using isName, by simpa using isNew⟩, fun other member => ?_⟩⟩
                · exact (others name again).2 List.mem_cons_self
                · exact ⟨(others other member).1,
                    fun before => (others other member).2 (List.mem_cons_of_mem name before)⟩

theorem isComponentName_of_nameFault? (noFault : nameFault? names = none)
    : ∀ name ∈ names, isComponentName name = true :=
  fun name member => ((distinct_of_firstNameFault? noFault).2 name member).1

/-- Names that may be declared are identifiers. -/
theorem isIdentifier_of_nameFault? (noFault : nameFault? names = none)
    : ∀ name ∈ names, IsIdentifier name.toList :=
  fun name member =>
    isIdentifier_of_isComponentName (isComponentName_of_nameFault? noFault name member)

-----------------------------------------------------------------------------------------
-- The prelude
-----------------------------------------------------------------------------------------

/-- A blank before a character that is not blank is skipped. -/
theorem blanks1_cons {c : Char} (h : Text.isBlank c = false) (rest : List Char)
    : importedName?.blanks1 (' ' :: c :: rest) = some (c :: rest) := by
  have trimmed : Text.trimStart (' ' :: c :: rest) = c :: rest := by
    rw [Text.trimStart, List.dropWhile_cons_of_pos (by decide),
      List.dropWhile_cons_of_neg (by simp [h])]
  rw [importedName?.blanks1, trimmed]
  rfl

def importText (name : String) : String :=
  "import " ++ name ++ " from \"" ++ name ++ "\";"

theorem toList_importText (name : String)
    : (importText name).toList
      = "import ".toList
          ++ (name.toList ++ (" from \"".toList ++ (name.toList ++ "\";".toList))) := by
  simp only [importText, String.toList_append, List.append_assoc]

theorem toList_importLine (name : String)
    : (importLine name).toList = (importText name).toList ++ ['\n'] := by
  have end_ : "\";\n".toList = "\";".toList ++ ['\n'] := rfl
  simp only [importLine, importText, String.toList_append, end_, List.append_assoc]

/-- An import of a name is read as that, part by part. -/
theorem importedName?_importText {name : String} (h : IsIdentifier name.toList)
    : importedName? (importText name).toList = some name.toList := by
  have word (rest : List Char)
      : Text.stripLead? "import".toList ("import ".toList ++ rest) = some (' ' :: rest) :=
    rfl
  have beforeName (rest : List Char)
      : importedName?.blanks1 (' ' :: (name.toList ++ rest)) = some (name.toList ++ rest) := by
    obtain ⟨c, more, same⟩ := List.exists_cons_of_ne_nil h.ne_nil
    rw [same]
    refine blanks1_cons (Markup.not_isBlank_of_isTagNameChar ?_) _
    exact isTagNameChar_of_isNameChar (h.chars c (same ▸ List.mem_cons_self))
  have nameRead (rest : List Char)
      : (name.toList ++ (" from \"".toList ++ rest)).takeWhile isNameChar = name.toList :=
    Text.takeWhile_append_stop h.chars (by decide) _
  have beforeFrom (rest : List Char)
      : importedName?.blanks1 (" from \"".toList ++ rest) = some ("from \"".toList ++ rest) :=
    rfl
  have from_ (rest : List Char)
      : Text.stripLead? "from".toList ("from \"".toList ++ rest) = some (" \"".toList ++ rest) :=
    rfl
  have beforeAddress (rest : List Char)
      : importedName?.blanks1 (" \"".toList ++ rest) = some ('"' :: rest) :=
    rfl
  have quote (rest : List Char) : Text.stripLead? ['"'] ('"' :: rest) = some rest :=
    rfl
  have addressRead : (name.toList ++ "\";".toList).takeWhile (· != '"') = name.toList := by
    refine Text.takeWhile_append_stop (fun c member => ?_) (by decide) [';']
    have differs : c ≠ '"' := fun same => h.not_mem (c := '"') (by decide) (same ▸ member)
    simpa using differs
  have end_ : Text.stripLead? ['"'] "\";".toList = some [';'] :=
    rfl
  rw [toList_importText]
  unfold importedName?
  simp only [word, beforeName, nameRead, h.start, beforeFrom, from_, beforeAddress, quote,
    addressRead, end_, List.drop_left, Option.bind_eq_bind, Option.bind_some, Bool.not_true,
    Bool.false_eq_true, if_false]
  rfl

/-- Neither blanks at its ends nor a line feed are in what the line of an import says. -/
theorem trim_importLine (name : String)
    : Text.trim (importLine name).toList = (importText name).toList := by
  have start (rest : List Char)
      : Text.trimStart ("import ".toList ++ rest) = "import ".toList ++ rest :=
    rfl
  have started
      : Text.trimStart ((importText name).toList ++ ['\n'])
        = (importText name).toList ++ ['\n'] := by
    rw [toList_importText, List.append_assoc, start]
  have last
      : (importText name).toList
        = ("import ".toList ++ (name.toList ++ (" from \"".toList ++ (name.toList ++ ['"']))))
            ++ [';'] := by
    have end_ : "\";".toList = ['"'] ++ [';'] := rfl
    simp only [toList_importText, end_, List.append_assoc]
  rw [Text.trim, toList_importLine, started, Text.trimEnd_append_feed, last,
    Text.trimEnd_concat (by decide)]

theorem noFeed_importText {name : String} (h : IsIdentifier name.toList)
    : '\n' ∉ (importText name).toList := by
  have noFeed : '\n' ∉ name.toList := h.not_mem (by decide)
  simp only [toList_importText, List.mem_append, not_or]
  exact ⟨by decide, noFeed, by decide, noFeed, by decide⟩

/-- The lines of a body come after those of its prelude, by induction on the names. -/
theorem linesWithEnds_withPrelude (h : ∀ name ∈ names, IsIdentifier name.toList)
    (body : List Char)
    : Text.linesWithEnds (withPrelude names body)
      = names.map (fun name => (importLine name).toList)
          ++ ['\n'] :: Text.linesWithEnds body := by
  induction names with
  | nil => exact Text.linesWithEnds_append_feed List.not_mem_nil body
  | cons name rest ih =>
      obtain ⟨first, others⟩ := List.forall_mem_cons.mp h
      have text : withPrelude (name :: rest) body
          = (importText name).toList ++ '\n' :: withPrelude rest body := by
        rw [withPrelude, List.flatMap_cons, List.append_assoc, toList_importLine,
          List.append_assoc]
        rfl
      rw [text, Text.linesWithEnds_append_feed (noFeed_importText first), ih others,
        ← toList_importLine]
      rfl

/-- The lines of the prelude make the names known one by one, by induction on the names. -/
theorem readImports_importLines {bound : List String}
    (h : ∀ name ∈ names, IsIdentifier name.toList) (distinct : (bound ++ names).Nodup)
    {prelude index : Nat} (early : index + names.length ≤ prelude) (base : Nat)
    (rest : List (List Char))
    : readImports prelude bound index base
        (names.map (fun name => (importLine name).toList) ++ rest)
      = readImports prelude (bound ++ names) (index + names.length)
          (base + (names.flatMap fun name => (importLine name).toList).length) rest := by
  induction names generalizing bound index base with
  | nil => simp
  | cons name more ih =>
      obtain ⟨first, others⟩ := List.forall_mem_cons.mp h
      have isNew : bound.contains name = false := by
        have apart := (List.nodup_append.mp distinct).2.2
        simpa using fun member => apart name member name List.mem_cons_self rfl
      have notEmpty : (importText name).toList.isEmpty = false := by
        rw [toList_importText]
        rfl
      have line
          : readImports prelude bound index base
              ((importLine name).toList
                :: (more.map (fun name => (importLine name).toList) ++ rest))
            = readImports prelude (bound ++ [name]) (index + 1)
                (base + (importLine name).toList.length)
                (more.map (fun name => (importLine name).toList) ++ rest) := by
        have before : index < prelude := by
          rw [List.length_cons] at early
          omega
        simp only [readImports, trim_importLine, notEmpty, importedName?_importText first,
          String.ofList_toList, isNew, before, Bool.false_eq_true, if_false, if_true]
      rw [List.map_cons, List.cons_append, line, ih others (by simpa using distinct)
        (by rw [List.length_cons] at early; omega)]
      simp only [List.append_assoc, List.singleton_append, List.length_cons, List.flatMap_cons,
        List.length_append, Nat.add_assoc, Nat.add_comm 1]

-----------------------------------------------------------------------------------------
-- The body
-----------------------------------------------------------------------------------------

/-- How the lines of a body are read, after a prelude and alone: the same lines are skipped, or the
same line fails. Before them, `base` characters of a text and `skipped` lines of the body were read.
-/
inductive ReadAlike (names : List String) (prelude skipped base : Nat) (lines : List (List Char))
    : Prop
  | skips (before rest : List (List Char)) (split : lines = before ++ rest)
      (alone : skipImports names skipped lines = .ok (skipped + before.length, rest))
      (after : readImports prelude names (prelude + skipped) base lines
        = .ok (names, base + before.flatten.length))
  | fails (name : String) (before : List (List Char)) (line : List Char)
      (rest : List (List Char)) (split : lines = before ++ line :: rest)
      (alone : skipImports names skipped lines
        = .error (.unresolvedImport name (skipped + before.length + 1)))
      (after : readImports prelude names (prelude + skipped) base lines
        = .error (.unresolvedImport name (skipped + before.length + 1)))

/-- A line that is skipped adds to the lines that were skipped before. -/
theorem ReadAlike.cons {prelude skipped base : Nat} {line : List Char} {rest : List (List Char)}
    (alone : skipImports names skipped (line :: rest) = skipImports names (skipped + 1) rest)
    (after : readImports prelude names (prelude + skipped) base (line :: rest)
      = readImports prelude names (prelude + (skipped + 1)) (base + line.length) rest)
    (later : ReadAlike names prelude (skipped + 1) (base + line.length) rest)
    : ReadAlike names prelude skipped base (line :: rest) := by
  have count (before : List (List Char))
      : skipped + 1 + before.length = skipped + (line :: before).length := by
    rw [List.length_cons]
    omega
  have length (before : List (List Char))
      : base + line.length + before.flatten.length = base + (line :: before).flatten.length := by
    rw [List.flatten_cons, List.length_append, Nat.add_assoc]
  cases later with
  | skips before last split alone' after' =>
      refine .skips (line :: before) last (congrArg (line :: ·) split) ?_ ?_
      · rw [alone, alone', count]
      · rw [after, after', length]
  | fails name before failing last split alone' after' =>
      refine .fails name (line :: before) failing last (congrArg (line :: ·) split) ?_ ?_
      · rw [alone, alone', count]
      · rw [after, after', count]

/-- The lines of a body are read after a prelude as they are read alone, by induction on them. -/
theorem readAlike (names : List String) (prelude skipped base : Nat) (lines : List (List Char))
    : ReadAlike names prelude skipped base lines := by
  induction lines generalizing skipped base with
  | nil => exact .skips [] [] rfl rfl rfl
  | cons line rest ih =>
      have later := ih (skipped + 1) (base + line.length)
      by_cases empty : (Text.trim line).isEmpty = true
      · refine later.cons ?_ ?_ <;>
          simp only [skipImports, readImports, empty, if_true, Nat.add_assoc]
      · cases imported : importedName? (Text.trim line) with
        | none =>
            refine .skips [] (line :: rest) rfl ?_ ?_ <;>
              simp [skipImports, readImports, empty, imported]
        | some name =>
            by_cases known : String.ofList name ∈ names
            · refine later.cons ?_ ?_ <;>
                simp [skipImports, readImports, empty, imported, known, Nat.add_assoc]
            · have late : ¬prelude + skipped < prelude := by omega
              refine .fails (String.ofList name) [] line rest rfl ?_ ?_ <;>
                simp [skipImports, readImports, empty, imported, known, late]

-----------------------------------------------------------------------------------------
-- Trees
-----------------------------------------------------------------------------------------

section Same

variable {source other : Source}

theorem Builder.markup_congr (names : source.names = other.names)
    (lines : ∀ offset, source.lineAt offset = other.lineAt offset) (offset : Nat) (b : Builder)
    (tokens : List Markup.Placed)
    : Builder.markup source offset b tokens = Builder.markup other offset b tokens := by
  induction tokens generalizing b with
  | nil => rfl
  | cons t rest ih => simp only [Builder.markup, names, lines, ih]

theorem Builder.run_congr (names : source.names = other.names)
    (lines : ∀ offset, source.lineAt offset = other.lineAt offset) (b : Builder)
    (events : List Markdown.Placed)
    : Builder.run source b events = Builder.run other b events := by
  have event (b : Builder) (e : Markdown.Placed)
      : Builder.event source b e = Builder.event other b e := by
    simp only [Builder.event, lines, Builder.markup_congr names lines]
  induction events generalizing b with
  | nil => rfl
  | cons e rest ih => simp only [Builder.run, event, ih]

/-- Sources in which the same names are known and the lines are the same have the same tree. -/
theorem Builder.build_congr (names : source.names = other.names)
    (lines : ∀ offset, source.lineAt offset = other.lineAt offset) (events : List Markdown.Placed)
    : Builder.build source events = Builder.build other events := by
  simp only [Builder.build, Builder.run_congr names lines]

end Same

-----------------------------------------------------------------------------------------
-- Bodies after a prelude
-----------------------------------------------------------------------------------------

/-- The prelude has a line for each name and an empty one. -/
theorem count_feed_withPrelude (h : ∀ name ∈ names, IsIdentifier name.toList) (body : List Char)
    : (withPrelude names body).count '\n' = names.length + 1 + body.count '\n' := by
  have imports
      : (names.flatMap fun name => (importLine name).toList).count '\n' = names.length := by
    induction names with
    | nil => rfl
    | cons name rest ih =>
        obtain ⟨first, others⟩ := List.forall_mem_cons.mp h
        rw [List.flatMap_cons, List.count_append, ih others, toList_importLine, List.count_append,
          List.count_eq_zero_of_not_mem (noFeed_importText first), List.length_cons, Nat.add_comm]
        rfl
  rw [withPrelude, List.count_append, imports, List.count_cons_self, Nat.add_assoc,
    Nat.add_comm 1]

/-- The line of an offset does not depend on the prelude: what the prelude adds to the line feeds
before the offset is what its lines are counted below one.
-/
theorem lineAt_withPrelude (h : ∀ name ∈ names, IsIdentifier name.toList)
    {before rest : List (List Char)} (count : before.flatten.count '\n' = before.length)
    (offset : Nat)
    : Source.lineAt
        { names, text := withPrelude names (before ++ rest).flatten,
          firstLine := 1 - ((names.length + 1 : Nat) : Int),
          base := (withPrelude names before.flatten).length }
        offset
      = Source.lineAt { names, text := rest.flatten, firstLine := (before.length : Int) + 1 }
          offset := by
  have text
      : withPrelude names (before ++ rest).flatten
        = withPrelude names before.flatten ++ rest.flatten := by
    simp [withPrelude]
  have feeds := count_feed_withPrelude h before.flatten
  simp only [Source.lineAt, text, List.take_length_add_append, List.count_append, Nat.zero_add,
    feeds, count]
  congr 1
  omega

/-- The lines of the prelude bind all names, and its empty line is skipped. -/
theorem readImports_prelude (noFault : nameFault? names = none) (lines : List (List Char))
    : readImports (names.length + 1) [] 0 0
        (names.map (fun name => (importLine name).toList) ++ ['\n'] :: lines)
      = readImports (names.length + 1) names (names.length + 1 + 0)
          (withPrelude names []).length lines := by
  have distinct := (distinct_of_firstNameFault? noFault).1
  have identifiers := isIdentifier_of_nameFault? noFault
  have blank : (Text.trim ['\n']).isEmpty = true := rfl
  have allNew : ([] ++ names).Nodup := distinct
  rw [readImports_importLines identifiers allNew (by omega)]
  simp only [readImports, blank, withPrelude, List.nil_append, Nat.zero_add, if_true,
    List.length_append, List.length_cons, List.length_nil, Nat.add_zero]

theorem events_joinTags_nil : Markdown.events (joinTags []) = [] := by
  rw [joinTags, joinTagsFrom]
  rfl

/-- A body after its prelude has the tree that it has alone, and the names of the prelude are bound.
-/
theorem parse_withPrelude (noFault : nameFault? names = none) (body : List Char)
    : parse (names.length + 1) (withPrelude names body)
      = (parseBody names body).map fun nodes => (names, nodes) := by
  have identifiers := isIdentifier_of_nameFault? noFault
  cases readAlike names (names.length + 1) 0 (withPrelude names []).length
      (Text.linesWithEnds body) with
  | fails name before line rest split alone after =>
      rw [parse, linesWithEnds_withPrelude identifiers, readImports_prelude noFault, after,
        parseBody, alone]
      rfl
  | skips before rest split alone after =>
      have text : body = (before ++ rest).flatten := by
        rw [← split, Text.flatten_linesWithEnds]
      have base
          : (withPrelude names []).length + before.flatten.length
            = (withPrelude names before.flatten).length := by
        simp only [withPrelude, List.length_append, List.length_cons, List.length_nil]
        omega
      have markdown
          : (withPrelude names body).drop (withPrelude names before.flatten).length
            = rest.flatten := by
        have whole : withPrelude names body = withPrelude names before.flatten ++ rest.flatten := by
          simp [withPrelude, text]
        rw [whole, List.drop_left]
      have tree
          : Builder.build
              { names, text := withPrelude names body,
                firstLine := 1 - ((names.length + 1 : Nat) : Int),
                base := (withPrelude names before.flatten).length }
              (Markdown.events (joinTags rest.flatten))
            = Builder.build
                { names, text := rest.flatten, firstLine := ((0 + before.length : Nat) : Int) + 1 }
                (Markdown.events (joinTags rest.flatten)) := by
        by_cases last : rest = []
        · -- Nothing is left, and no event asks for its line.
          rw [last, List.flatten_nil, events_joinTags_nil]
          rfl
        · rw [text, Nat.zero_add]
          refine Builder.build_congr ?_ ?_ _
          · rfl
          · exact lineAt_withPrelude identifiers (Text.count_feed_linesWithEnds split last)
      rw [parse, linesWithEnds_withPrelude identifiers, readImports_prelude noFault, after,
        parseBody, alone, base]
      simp only [bind, Except.bind, markdown, tree]
      cases Builder.build _ _ <;> rfl

/-- A document is compiled from the tree that its body has alone. -/
theorem compile_eq_map (noFault : nameFault? names = none) (transforms : List Transform)
    (body : String)
    : compile transforms body names
      = (parseBody names body.toList).map fun nodes =>
          { text := Unit.render (Unit.program names (Transform.applyAll transforms nodes)) } := by
  simp only [compile, noFault, parse_withPrelude noFault]
  cases parseBody names body.toList <;> rfl

theorem compile_eq_error_iff (noFault : nameFault? names = none) {transforms : List Transform}
    {body : String} {error : CompileError}
    : compile transforms body names = .error error
      ↔ parseBody names body.toList = .error error := by
  rw [compile_eq_map noFault]
  cases parseBody names body.toList with
  | error other => simp only [Except.map, Except.error.injEq]
  | ok nodes => simp only [Except.map, reduceCtorEq]

end Folio.Document
