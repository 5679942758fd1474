import Folio.Proofs.Document.Execution
import Folio.Proofs.Document.Nesting
import Folio.Proofs.Document.WrittenTokens
import Folio.Proofs.Markdown.HtmlBlock

/-! A body of one tag that closes itself, for each name that may be declared. Markup takes every
such name for the name of a tag; Markdown takes a line for markup only if its names have no
underscore in them. With one, the tag is the text of a paragraph.
-/

namespace Folio.Document

/-- A body of the tag of a component, without attributes and closed by itself. -/
def tagBody (name : String) : String :=
  "<" ++ name ++ " />\n"

def tagKind (name : String) : Kind :=
  if name.toList.head?.any Char.isLower then .tag name else .component name

theorem toList_tagBody (name : String)
    : (tagBody name).toList = '<' :: (name.toList ++ " />\n".toList) := by
  simp only [tagBody, String.toList_append, List.append_assoc]
  rfl

-----------------------------------------------------------------------------------------
-- The tag as markup
-----------------------------------------------------------------------------------------

namespace Markup

/-- A line end alone is no text. -/
theorem tokensFrom_feed (offset : Nat) : tokensFrom offset [] ['\n'] = [] := by
  rw [tokensFrom, tokensFrom]
  rfl

/-- The tag of an identifier that closes itself is one token. -/
theorem tokens_tagBody {name : List Char} (h : IsIdentifier name)
    : tokens ('<' :: (name ++ " />\n".toList))
      = [{ offset := 0, token := .opening name [] true }] := by
  have named : IsName name :=
    ⟨h.start, fun c member => isTagNameChar_of_isNameChar (h.chars c member)⟩
  have writable : (Token.opening name [] true).IsWritable := ⟨named, List.forall_mem_nil _⟩
  have written
      : '<' :: (name ++ " />\n".toList) = (Token.opening name [] true).write ++ ['\n'] := by
    simp [Token.write, writeAttributes]
  rw [tokens, written, tokensFrom_tag writable rfl, tokensFrom_feed]
  rfl

end Markup

-----------------------------------------------------------------------------------------
-- The tag as a body
-----------------------------------------------------------------------------------------

/-- The tag is a line. -/
theorem tagBody_line {name : List Char} (h : IsIdentifier name)
    : ∃ line, '<' :: (name ++ " />\n".toList) = line ++ ['\n'] ∧ '\n' ∉ line := by
  refine ⟨'<' :: (name ++ " />".toList), (List.append_assoc ('<' :: name) " />".toList _).symm, ?_⟩
  have inName : '\n' ∉ name := h.not_mem (by decide)
  simp [inName]

/-- The tag stands on one line, so that nothing is joined. -/
theorem joinTags_tagBody {name : List Char} (h : IsIdentifier name)
    : joinTags ('<' :: (name ++ " />\n".toList)) = '<' :: (name ++ " />\n".toList) := by
  obtain ⟨line, text, noFeed⟩ := tagBody_line h
  rw [joinTags, text, joinTagsFrom_last noFeed]

-----------------------------------------------------------------------------------------
-- The tag in Markdown
-----------------------------------------------------------------------------------------

/-- Holds for letters and digits, which are the characters of identifiers other than underscores. -/
theorem isAlphanum_of_isNameChar {c : Char} (h : isNameChar c = true) (plain : c ≠ '_')
    : c.isAlphanum = true := by
  simpa [isNameChar, plain] using h

section

open Markdown

variable {name : List Char}

/-- Without underscores, the tag is a whole tag on a line of its own. -/
theorem startsTagLine_tagBody (h : IsIdentifier name) (plain : '_' ∉ name)
    : Html.startsTagLine (name ++ " />\n".toList) = true := by
  have ends : (Html.afterTagName none " />\n".toList).map (·.length) = some 3 := by
    decide +kernel
  obtain ⟨piece, after, length⟩ := Option.map_eq_some_iff.mp ends
  obtain ⟨c, more, rfl⟩ := List.exists_cons_of_ne_nil h.ne_nil
  obtain ⟨notFirst, notLater⟩ := not_or.mp (mt List.mem_cons.mpr plain)
  have letter : c.isAlpha = true := by
    simpa [isNameStart, Ne.symm notFirst] using h.start
  have notSlash : c ≠ '/' := by
    rintro rfl
    exact absurd letter (by decide)
  have read
      : (more ++ " />\n".toList).takeWhile (fun x => x.isAlphanum || x == '-') = more := by
    refine Text.takeWhile_append_stop (fun x member => ?_) (by decide) _
    have inside := isAlphanum_of_isNameChar (h.chars x (List.mem_cons_of_mem c member))
      fun same => notLater (same ▸ member)
    rw [inside, Bool.true_or]
  have tag
      : (Html.tag? none (c :: more ++ " />\n".toList)).map (·.length)
        = some ((c :: more).length + 3) := by
    simp only [List.cons_append, Html.tag?, List.head?_cons, Option.some_beq_some,
      beq_eq_false_iff_ne.mpr notSlash, Bool.false_eq_true, if_false, List.drop_zero, letter,
      Bool.not_true, read, List.drop_left, after]
    have joined (front : Html.Piece) : (front ++ piece).length = front.length + piece.length := rfl
    have front (n : Nat) : (Html.Piece.ofTake (c :: (more ++ " />\n".toList)) n).length = n := rfl
    rw [Option.map_some, Option.map_some, joined, front, length, List.length_cons, Nat.zero_add,
      Nat.add_comm 1]
  obtain ⟨whole, found, long⟩ := Option.map_eq_some_iff.mp tag
  have rest : (c :: more ++ " />\n".toList).drop whole.length = ['\n'] := by
    rw [long]
    exact List.drop_length_add_append 3
  simp only [Html.startsTagLine, found, rest]
  rfl

/-- A name with an underscore goes on after the name of an element that it starts with. -/
theorem exists_drop_of_startsWithAnyCase (h : IsIdentifier name) (underscore : '_' ∈ name)
    {lead : List Char} (noUnderscore : '_' ∉ lead)
    (starts : Html.startsWithAnyCase lead (name ++ " />\n".toList) = true)
    : ∃ c rest, (name ++ " />\n".toList).drop lead.length = c :: rest ∧ isNameChar c = true := by
  have same : ((name ++ " />\n".toList).take lead.length).map Char.toLower = lead :=
    beq_iff_eq.mp starts
  have short : lead.length < name.length := by
    rw [← Nat.not_le]
    intro long
    rw [List.take_append, List.take_of_length_le long, List.map_append] at same
    have inside : Char.toLower '_' ∈ lead :=
      same ▸ List.mem_append_left _ (List.mem_map_of_mem underscore)
    exact noUnderscore inside
  obtain ⟨c, rest, split⟩ : ∃ c rest, name.drop lead.length = c :: rest :=
    List.exists_cons_of_ne_nil (by simpa using short)
  refine ⟨c, rest ++ " />\n".toList, ?_, h.chars c ?_⟩
  · rw [List.drop_append_of_le_length short.le, split]
    rfl
  · exact List.mem_of_mem_drop (split ▸ List.mem_cons_self)

/-- Characters of names are neither blank nor the end of a tag. -/
theorem not_endsName {c : Char} (h : isNameChar c = true)
    : (Text.isAsciiBlank c || c == '>') = false := by
  have notBlank := Markup.not_isBlank_of_isTagNameChar (isTagNameChar_of_isNameChar h)
  have notAscii : Text.isAsciiBlank c = false := by
    rw [Bool.eq_false_iff]
    intro blank
    rw [Text.isBlank_of_isAsciiBlank blank] at notBlank
    cases notBlank
  rw [notAscii, Bool.false_or]
  exact beq_eq_false_iff_ne.mpr
    (Markup.isPlain_of_isTagNameChar (isTagNameChar_of_isNameChar h)).1

/-- The block of such a tag has no end of its own. -/
theorem blockEnd?_eq_none (h : IsIdentifier name) (underscore : '_' ∈ name)
    : Html.blockEnd? (name ++ " />\n".toList) = none := by
  have noUnderscore : ∀ lead ∈ Html.verbatimNames, '_' ∉ lead.toList := by decide
  unfold Html.blockEnd?
  simp only
  split
  · next close verbatim =>
      obtain ⟨lead, member, found⟩ := List.exists_of_findSome?_eq_some verbatim
      split at found
      · next starts =>
          obtain ⟨c, rest, after, goesOn⟩ :=
            exists_drop_of_startsWithAnyCase h underscore (noUnderscore lead member) starts
          rw [String.length_toList] at after
          simp only [after, not_endsName goesOn, Bool.false_eq_true, if_false] at found
          cases found
      · cases found
  · obtain ⟨c, more, rfl⟩ := List.exists_cons_of_ne_nil h.ne_nil
    have start : isNameStart c = true := h.start
    split
    case h_5 => rfl
    all_goals
      next same =>
        obtain ⟨rfl, -⟩ := List.cons.inj same
        exact absurd start (by decide)

/-- What comes before the first underscore of a name are letters and digits. -/
theorem exists_split_underscore (h : IsIdentifier name) (underscore : '_' ∈ name)
    : ∃ before after, name = before ++ '_' :: after ∧ ∀ c ∈ before, c.isAlphanum = true := by
  obtain ⟨before, after, rfl, first⟩ := List.eq_append_cons_of_mem underscore
  refine ⟨before, after, rfl, fun c member => ?_⟩
  exact isAlphanum_of_isNameChar (h.chars c (List.mem_append_left _ member))
    fun same => first (same ▸ member)

/-- Such a tag does not start with the name of a block: an underscore follows. -/
theorem startsNamedBlock_eq_false (h : IsIdentifier name) (underscore : '_' ∈ name)
    : Html.startsNamedBlock (name ++ " />\n".toList) = false := by
  obtain ⟨before, after, rfl, isAlphanum⟩ := exists_split_underscore h underscore
  have goesOn
      : ∃ d rest, before ++ '_' :: after ++ " />\n".toList = before ++ '_' :: d :: rest := by
    obtain ⟨d, rest, same⟩ : ∃ d rest, after ++ " />\n".toList = d :: rest :=
      List.exists_cons_of_ne_nil (by simp)
    exact ⟨d, rest, by rw [List.append_assoc, List.cons_append, same]⟩
  obtain ⟨d, rest, text⟩ := goesOn
  have notSlash : ((before ++ '_' :: d :: rest).head? == some '/') = false := by
    cases before with
    | nil => rfl
    | cons c before =>
        refine beq_eq_false_iff_ne.mpr fun slash => ?_
        obtain rfl := Option.some.inj slash
        exact absurd (isAlphanum '/' List.mem_cons_self) (by decide)
  have read : (before ++ '_' :: d :: rest).takeWhile Char.isAlphanum = before :=
    Text.takeWhile_append_stop isAlphanum (by decide) _
  rw [text]
  unfold Html.startsNamedBlock
  simp only [notSlash, Bool.false_eq_true, if_false, read, List.drop_left]
  simp

/-- Nor is it a whole tag. -/
theorem startsTagLine_eq_false (h : IsIdentifier name) (underscore : '_' ∈ name)
    : Html.startsTagLine (name ++ " />\n".toList) = false := by
  obtain ⟨before, after, rfl, isAlphanum⟩ := exists_split_underscore h underscore
  have noTag : Html.tag? none (before ++ '_' :: after ++ " />\n".toList) = none := by
    cases before with
    | nil => rfl
    | cons c before =>
        have notSlash : c ≠ '/' := by
          rintro rfl
          exact absurd (isAlphanum '/' List.mem_cons_self) (by decide)
        have read
            : (before ++ '_' :: (after ++ " />\n".toList)).takeWhile
                (fun x => x.isAlphanum || x == '-') = before := by
          refine Text.takeWhile_append_stop (fun x member => ?_) (by decide) _
          rw [isAlphanum x (List.mem_cons_of_mem c member), Bool.true_or]
        have noEnd (rest : List Char) : Html.afterTagName none ('_' :: rest) = none := by
          have noGap : Html.blanksAcross none ('_' :: rest) = some { text := [], length := 0 } := by
            rw [Html.blanksAcross]
            rfl
          rw [Html.afterTagName]
          simp only [noGap]
          rfl
        rw [List.append_assoc, List.cons_append, List.cons_append]
        simp only [Html.tag?, List.head?_cons, Option.some_beq_some,
          beq_eq_false_iff_ne.mpr notSlash, Bool.false_eq_true, if_false, List.drop_zero, read,
          List.drop_left, noEnd, Option.map_none, ite_self]
  simp only [Html.startsTagLine, noTag]

/-- A tag starts a block of HTML unless its name has an underscore. -/
theorem htmlEnd?_tagBody (h : IsIdentifier name)
    : (htmlEnd? (name ++ " />\n".toList)).isSome = true ↔ '_' ∉ name := by
  constructor
  · intro starts underscore
    simp only [htmlEnd?, blockEnd?_eq_none h underscore, startsNamedBlock_eq_false h underscore,
      startsTagLine_eq_false h underscore, Bool.or_self, Bool.false_eq_true, if_false] at starts
    cases starts
  · intro plain
    unfold htmlEnd?
    rw [startsTagLine_tagBody h plain, Bool.or_true]
    split <;> rfl

/-- With an underscore, the tag is the text of a paragraph. -/
theorem events_underscore (h : IsIdentifier name) (underscore : '_' ∈ name)
    : ∃ inside, events ('<' :: (name ++ " />\n".toList)) = enclose .paragraph 0 inside := by
  have isText : ∀ c ∈ name ++ " />".toList, isTagText c = true := by
    refine List.forall_mem_append.mpr ⟨fun c member => ?_, List.all_eq_true.mp (by decide)⟩
    have inName := h.chars c member
    simp only [isNameChar, Bool.or_eq_true] at inName
    simp only [isTagText, Bool.or_eq_true]
    exact .inl (.inl (.inl (.inl inName)))
  have split : name ++ " />\n".toList = name ++ " />".toList ++ ['\n'] :=
    (List.append_assoc name " />".toList ['\n']).symm
  have noHtml : htmlEnd? (name ++ " />\n".toList) = none :=
    Option.not_isSome_iff_eq_none.mp fun starts => (htmlEnd?_tagBody h).mp starts underscore
  rw [split] at noHtml ⊢
  exact events_tagText isText noHtml

/-- Without, it is a line of HTML. -/
theorem events_plainTag (h : IsIdentifier name) (plain : '_' ∉ name)
    : ∃ offset,
        events ('<' :: (name ++ " />\n".toList))
          = enclose .html 0
              [{ event := .html ('<' :: (name ++ " />\n".toList)), offset }] := by
  obtain ⟨line, text, noFeed⟩ := tagBody_line h
  have first
      : Text.firstLine (Cursor.ofText ('<' :: (name ++ " />\n".toList))).rest
        = ('<' :: (name ++ " />\n".toList), []) := by
    have read := Text.firstLine_append_feed noFeed []
    rwa [← text] at read
  have texts
      : htmlTexts ('<' :: (name ++ " />\n".toList)) = ['<' :: (name ++ " />\n".toList)] := by
    simp [htmlTexts]
  have placed := events_htmlPieces (Cursor.ofText ('<' :: (name ++ " />\n".toList)))
  rw [first, texts, List.map_singleton] at placed
  obtain ⟨close, starts⟩ := Option.isSome_iff_exists.mp ((htmlEnd?_tagBody h).mpr plain)
  have last
      : htmlLines [] close ((name ++ " />\n".toList).length + 2) 0
          (.ofText ('<' :: (name ++ " />\n".toList)))
        = (htmlPieces 0 (.ofText ('<' :: (name ++ " />\n".toList))),
          afterLine (.ofText ('<' :: (name ++ " />\n".toList)))) :=
    htmlLines_last (congrArg Prod.snd first)
  have atEnd : (afterLine (Cursor.ofText ('<' :: (name ++ " />\n".toList)))).rest = [] := by
    rw [afterLine_rest, first]
  obtain ⟨piece, one, event⟩ := List.map_eq_singleton_iff.mp placed
  refine ⟨piece.placed.offset, ?_⟩
  rw [events_html starts (by rw [last]; exact atEnd), last, one, List.map_singleton, ← event]

end

-----------------------------------------------------------------------------------------
-- The tree of the tag
-----------------------------------------------------------------------------------------

section

open Markdown (enclose)

variable {name : String} {source : Source}

/-- The tag of a declared name, as HTML, is one element without children. -/
theorem build_plainTag (h : IsIdentifier name.toList) (declared : name ∈ source.names)
    (offset : Nat)
    : Builder.build source
        (enclose .html 0
          [{ event := .html ('<' :: (name.toList ++ " />\n".toList)), offset }])
      = .ok [.element (tagKind name) none [] []] := by
  let opened (line : Nat) : OpenElement :=
    { kind := tagKind name, key := none, attributes := [], children := [], isTag := true, line }
  have element (line : Nat)
      : Builder.tagElement source.names (String.ofList name.toList) [] line
        = .ok (opened line) := by
    rw [String.ofList_toList]
    simp only [Builder.tagElement, opened, tagKind, List.contains_iff_mem.mpr declared, if_true]
    split <;> rfl
  have markup
      : Builder.markup source offset {}
          (Markup.tokens ('<' :: (name.toList ++ " />\n".toList)))
        = .ok { root := [.element (tagKind name) none [] []] } := by
    rw [Markup.tokens_tagBody h]
    simp only [Builder.markup, Builder.token, element, Bool.true_or, if_true]
    rfl
  have run
      : Builder.run source {}
          (enclose .html 0
            [{ event := .html ('<' :: (name.toList ++ " />\n".toList)), offset }])
        = Builder.markup source offset {}
            (Markup.tokens ('<' :: (name.toList ++ " />\n".toList))) :=
    bind_pure (Builder.markup source offset {} _)
  rw [Builder.build, run, markup]
  rfl

/-- A document that is a paragraph is an element of Markdown, whatever is in it. -/
theorem kind?_build_paragraph {inside : List Markdown.Placed} {nodes : List Node}
    (balanced : Markdown.Balanced .flow (enclose .paragraph 0 inside))
    (built : Builder.build source (enclose .paragraph 0 inside) = .ok nodes)
    : ∃ more, nodes.map Node.kind? = some (.tag "p") :: more := by
  obtain ⟨emitted, nested, rfl⟩ :=
    ((build_iff_nested balanced (Builder.valid_of_build built)).1 nodes).mp built
  have first
      : ∃ rest, pieces source {} (enclose .paragraph 0 inside)
          = .enter .paragraph {} (source.lineAt 0) :: rest :=
    ⟨_, rfl⟩
  obtain ⟨rest, split⟩ := first
  rw [split] at nested
  cases nested with
  | @construct _ _ _ _ within after children nodes mayStand _ _ =>
      have notText : (Node.element (.tag "p") none [] (Node.joined children)).isText = false := rfl
      obtain ⟨more, joined⟩ := Node.exists_joined_cons notText nodes
      exact ⟨more.map Node.kind?, congrArg (List.map Node.kind?) joined⟩

end

-----------------------------------------------------------------------------------------
-- Compiled tags
-----------------------------------------------------------------------------------------

/-- An element with nothing in it has no heading text and no address, so that transforms keep it. -/
theorem applyAll_bare (builtIns : List BuiltIn) (kind : Kind)
    : Transform.applyAll (builtIns.map BuiltIn.transform) [.element kind none [] []]
      = [.element kind none [] []] := by
  refine Transform.applyAll_eq_self (fun builtIn => ?_) builtIns
  cases builtIn with
  | headingIds =>
      have settled : Transform.IsSettled kind [] [] := .inr (.inr rfl)
      simp only [BuiltIn.transform, Transform.headingIds, Transform.listAssignIds,
        Transform.assignIds, Transform.withId_of_isSettled _ settled]
  | externalLinks =>
      have noAddress : ¬Transform.LeadsAway kind [] := by
        intro away
        obtain ⟨-, address, found, -⟩ := away
        cases found
      simp only [BuiltIn.transform, Transform.externalLinks, Transform.listMarkExternal,
        Transform.markExternal, Transform.markedAttributes_of_not noAddress]

/-- The lines of nodes that start with an element open it first. -/
theorem exists_lowerList_opening {nodes : List Node} {kind : Kind} {more : List (Option Kind)}
    (kinds : nodes.map Node.kind? = some kind :: more)
    : ∃ rest, Unit.lowerList nodes = .opening kind :: rest := by
  obtain ⟨node, later, rfl, isKind, -⟩ := List.map_eq_cons_iff.mp kinds
  cases node with
  | text t => cases isKind
  | element _ key attributes children =>
      obtain rfl := Option.some.inj isKind
      exact ⟨_, rfl⟩

/-- The line that opens a declared name is the name, with an at sign for components. -/
theorem words_tagKind (name : String)
    : ∃ lead, (Unit.Instruction.opening (tagKind name)).words = lead ++ name.toList
        ∧ '\n' ∉ lead := by
  unfold tagKind
  split
  · exact ⟨"open".toList ++ [' '],
      (Unit.words_of_argument rfl).trans (List.append_assoc _ [' '] _).symm, by decide⟩
  · exact ⟨"open".toList ++ [' ', '@'],
      (Unit.words_of_argument rfl).trans (List.append_assoc _ [' ', '@'] _).symm, by decide⟩

/-- No unit that opens a paragraph first is the one of a name with an underscore. -/
theorem render_program_ne {name : String} (h : IsIdentifier name.toList)
    (underscore : '_' ∈ name.toList) {nodes : List Node} {more : List (Option Kind)}
    (kinds : nodes.map Node.kind? = some (.tag "p") :: more) (names : List String)
    : Unit.render (Unit.program names nodes)
      ≠ Unit.render (names.map .bind ++ [.opening (tagKind name), .close]) := by
  intro same
  obtain ⟨rest, lowered⟩ := exists_lowerList_opening kinds
  obtain ⟨lead, words, noFeed⟩ := words_tagKind name
  have inName : '\n' ∉ name.toList := h.not_mem (by decide)
  rw [Unit.program, lowered] at same
  have opened : (Unit.Instruction.opening (.tag "p")).words = lead ++ name.toList :=
    (Unit.words_eq_of_flatMap_line (by decide) (by simp [words, noFeed, inName])
      (Unit.render_append_inj.mp same)).trans words
  have inWords : '_' ∈ (Unit.Instruction.opening (.tag "p")).words := by
    rw [opened]
    exact List.mem_append_right _ underscore
  exact absurd inWords (by decide)

/-- The tag is all that is read: no import comes before it, and it is on one line. -/
theorem parseBody_tagBody {name : String} (h : IsIdentifier name.toList) (names : List String)
    : parseBody names (tagBody name).toList
      = Builder.build { names, text := '<' :: (name.toList ++ " />\n".toList), firstLine := 1 }
          (Markdown.events ('<' :: (name.toList ++ " />\n".toList))) := by
  rw [toList_tagBody, parseBody_noImports (by decide) (by decide), joinTags_tagBody h]

/-- A body of the tag of a declared name compiles to one element of that name without children,
exactly if the name has no underscore. With one, Markdown takes the line for a paragraph.
-/
theorem compile_tagBody_iff (builtIns : List BuiltIn) {names : List String}
    (noFault : nameFault? names = none) {name : String} (declared : name ∈ names)
    : compile (builtIns.map BuiltIn.transform) (tagBody name) names
        = .ok
          { text :=
              Unit.render (names.map .bind ++ [.opening (tagKind name), .close]) }
      ↔ '_' ∉ name.toList := by
  have h := isIdentifier_of_nameFault? noFault name declared
  constructor
  · intro compiled underscore
    obtain ⟨-, nodes, parsed, text⟩ := compile_eq_ok compiled
    obtain ⟨inside, events⟩ := events_underscore h underscore
    have balanced := Markdown.balanced_events ('<' :: (name.toList ++ " />\n".toList))
    rw [parseBody_tagBody h, events] at parsed
    rw [events] at balanced
    obtain ⟨more, kinds⟩ := kind?_build_paragraph balanced parsed
    rw [← map_kind?_applyAll builtIns] at kinds
    exact render_program_ne h underscore kinds names text.symm
  · intro plain
    obtain ⟨offset, events⟩ := events_plainTag h plain
    rw [compile_eq_map noFault, parseBody_tagBody h, events, build_plainTag h declared]
    simp only [Except.map, applyAll_bare]
    rfl

/-- The tag of a component and that of a name in lower case, which may be declared as well. -/
theorem compile_tagBody_note
    : nameFault? ["Note", "note"] = none
      ∧ compile Transform.standard (tagBody "Note") ["Note", "note"]
        = .ok
          { text :=
              Unit.render [.bind "Note", .bind "note", .openComponent "Note", .close] }
      ∧ compile Transform.standard (tagBody "note") ["Note", "note"]
        = .ok { text := Unit.render [.bind "Note", .bind "note", .openTag "note", .close] } := by
  have noFault : nameFault? ["Note", "note"] = none := by decide
  have component : "Note" ∈ ["Note", "note"] := by decide
  have tag : "note" ∈ ["Note", "note"] := by decide
  exact ⟨noFault,
    (compile_tagBody_iff BuiltIn.standard noFault component).mpr (by decide),
    (compile_tagBody_iff BuiltIn.standard noFault tag).mpr (by decide)⟩

/-- A name with an underscore may be declared, and its tag is printed as text. -/
theorem compile_tagBody_underscore
    : nameFault? ["My_Note"] = none
      ∧ compile Transform.standard (tagBody "My_Note") ["My_Note"]
        = .ok
          { text :=
              Unit.render
                [.bind "My_Note", .openTag "p", .text "<My_Note />", .close] }
      ∧ compile Transform.standard (tagBody "My_Note") ["My_Note"]
        ≠ .ok { text := Unit.render [.bind "My_Note", .openComponent "My_Note", .close] } := by
  have compiled
      : (compile Transform.standard (tagBody "My_Note") ["My_Note"]).toOption
        = some
          { text := Unit.render [.bind "My_Note", .openTag "p", .text "<My_Note />", .close] } := by
    decide +kernel
  have differs
      : Unit.render [.bind "My_Note", .openTag "p", .text "<My_Note />", .close]
        ≠ Unit.render [.bind "My_Note", .openComponent "My_Note", .close] := by
    decide +kernel
  rw [eq_ok_of_toOption compiled]
  exact ⟨by decide, rfl, fun same => differs (congrArg CompiledUnit.text (Except.ok.inj same))⟩

end Folio.Document
