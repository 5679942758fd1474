import Folio.Proofs.Document.Execution
import Folio.Proofs.Document.Nesting
import Folio.Proofs.Document.Tokens
import Folio.Proofs.Markdown.HtmlBlock

/-! A body of one comment and nothing else. Markdown gives it line by line, and the tokens of each
line are read on their own, so that a line inside of the comment is dropped only if it is silent.
-/

namespace Folio.Document

open Text (unlines unlines_cons)

def commentBody (text : String) : String :=
  "<!--" ++ text ++ "-->\n"

/-- Holds for lines in which no tag and no comment ends. -/
structure IsInside (line : List Char) : Prop where
  noFeed : '\n' ∉ line
  noEnd : '>' ∉ line

theorem IsInside.append {s t : List Char} (hs : IsInside s) (ht : IsInside t)
    : IsInside (s ++ t) where
  noFeed := by simp [hs.noFeed, ht.noFeed]
  noEnd := by simp [hs.noEnd, ht.noEnd]

/-- Holds for the lines of a text that ends with the end of a comment, the only `>` in it. -/
inductive Comment : List (List Char) → Prop where
  | last {line : List Char} (inside : IsInside line) : Comment [line ++ "-->".toList]
  | more {line : List Char} {lines : List (List Char)} (inside : IsInside line)
      (later : Comment lines)
      : Comment (line :: lines)

def AllSilent (lines : List (List Char)) : Prop :=
  ∀ line ∈ lines, Markup.isSilent line = true

namespace Comment

variable {line : List Char} {lines : List (List Char)}

theorem ne_nil (h : Comment lines) : lines ≠ [] := by
  cases h <;> exact List.cons_ne_nil _ _

theorem noFeed (h : Comment lines) : ∀ line ∈ lines, '\n' ∉ line := by
  induction h with
  | last inside => exact List.forall_mem_singleton.mpr (by simp [inside.noFeed])
  | more inside _ ih => exact List.forall_mem_cons.mpr ⟨inside.noFeed, ih⟩

/-- No comment ends before the last line. -/
theorem noEnd_dropLast (h : Comment lines) : ∀ line ∈ lines.dropLast, '>' ∉ line := by
  induction h with
  | last inside => exact List.forall_mem_nil _
  | more inside later ih =>
      rw [List.dropLast_cons_of_ne_nil later.ne_nil]
      exact List.forall_mem_cons.mpr ⟨inside.noEnd, ih⟩

/-- The end of the comment is the end of the text. -/
theorem exists_text (h : Comment lines)
    : ∃ before, unlines lines = before ++ "-->\n".toList ∧ '>' ∉ before := by
  induction h with
  | @last line inside =>
      refine ⟨line, ?_, inside.noEnd⟩
      rw [unlines_cons, List.append_assoc]
      rfl
  | @more line lines inside _ ih =>
      obtain ⟨before, text, noEnd⟩ := ih
      refine ⟨line ++ '\n' :: before, ?_, by simp [inside.noEnd, noEnd]⟩
      rw [unlines_cons, text, List.append_assoc]
      rfl

/-- More may come before the first line. -/
theorem lead {lead : List Char} (inside : IsInside lead) (h : Comment (line :: lines))
    : Comment ((lead ++ line) :: lines) := by
  cases h with
  | last lineInside =>
      rw [← List.append_assoc]
      exact .last (inside.append lineInside)
  | more lineInside later => exact .more (inside.append lineInside) later

end Comment

/-- Each text without a `>` can stand before the end of a comment, by induction on its characters.
-/
theorem exists_comment {s : List Char} (noEnd : '>' ∉ s)
    : ∃ line lines, s ++ "-->\n".toList = unlines (line :: lines) ∧ Comment (line :: lines) := by
  induction s with
  | nil => exact ⟨"-->".toList, [], rfl, .last ⟨List.not_mem_nil, List.not_mem_nil⟩⟩
  | cons c s ih =>
      obtain ⟨notHere, notLater⟩ := not_or.mp (mt List.mem_cons.mpr noEnd)
      obtain ⟨line, lines, text, comment⟩ := ih notLater
      by_cases feed : c = '\n'
      · refine ⟨[], line :: lines, ?_, .more ⟨List.not_mem_nil, List.not_mem_nil⟩ comment⟩
        rw [feed, List.cons_append, text, unlines_cons []]
        rfl
      · refine ⟨[c] ++ line, lines, ?_, comment.lead ⟨?_, ?_⟩⟩
        · rw [List.cons_append, text, unlines_cons, unlines_cons]
          rfl
        · simpa using Ne.symm feed
        · simpa using notHere

-----------------------------------------------------------------------------------------
-- The joining of tags
-----------------------------------------------------------------------------------------

/-- What starts with a tag is not silent. -/
theorem not_isSilent_of_startsTag {line : List Char}
    (start : startsTag (line.drop (indentOf line)) = true) (t : List Char)
    : Markup.isSilent (line ++ t) = false := by
  obtain ⟨indent, c, rest, rfl, blank, letter⟩ := startsTag_drop_iff.mp start
  have isBlank : ∀ x ∈ indent, Text.isBlank x = true := by
    intro x member
    obtain rfl : x = ' ' := by simpa using blank x member
    rfl
  have notMark : '!' ≠ c := by
    rintro rfl
    exact absurd letter (by decide)
  have visible : Text.isBlank '<' = false := by decide
  have trimmed
      : Text.trimStart (indent ++ '<' :: c :: rest ++ t) = '<' :: c :: (rest ++ t) := by
    rw [List.append_assoc, Text.trimStart, List.dropWhile_append_of_pos isBlank]
    exact List.dropWhile_cons_of_neg (by simp [visible])
  have notBlank : Text.isAllBlank (indent ++ '<' :: c :: rest ++ t) = false := by
    simp [Text.isAllBlank, visible]
  rw [Markup.isSilent, notBlank, trimmed]
  simp [Text.startsWith, Text.stripLead?, notMark]

/-- A tag that goes over lines of a comment goes on to its end. What it is joined to starts with it.
-/
theorem exists_joined_toEnd {line rest : List Char} (noEnd : '>' ∉ line ++ '\n' :: rest)
    {length : Nat}
    (found : leadingTag? (line ++ '\n' :: (rest ++ "-->\n".toList)) = some length)
    : ∃ last, IsInside last
        ∧ joinTagsFrom none (line ++ '\n' :: (rest ++ "-->\n".toList))
          = unlines [last ++ "-->".toList]
        ∧ startsTag (last.drop (indentOf last)) = true := by
  obtain ⟨-, start, many⟩ := leadingTag?_eq_some found
  obtain ⟨stop, rfl, close, -⟩ := manyLineTag?_eq_some many
  have cut
      : line ++ '\n' :: (rest ++ "-->\n".toList)
        = (line ++ '\n' :: rest ++ "-->".toList) ++ ([] ++ '\n' :: []) := by
    simp
  have place : (line ++ '\n' :: rest ++ "-->".toList).length = indentOf line + (stop + 2) := by
    have whole
        : line ++ '\n' :: (rest ++ "-->\n".toList) = (line ++ '\n' :: rest) ++ "-->\n".toList := by
      simp
    rw [← drop_indentOf, List.getElem?_drop, whole] at close
    have last := Markup.eq_length_of_closed noEnd close
    have long : "-->".toList.length = 3 := rfl
    rw [List.length_append, long]
    omega
  refine ⟨flatten (line ++ '\n' :: rest), ⟨fun feed => ?_, fun ends => ?_⟩, ?_, ?_⟩
  · exact (unbroken_flatten _ _ feed).1 rfl
  · obtain ⟨c, member, same⟩ := List.mem_map.mp ends
    split at same
    · cases same
    · exact noEnd (same ▸ member)
  · have end_ : flatten "-->".toList = "-->".toList := rfl
    rw [joinTagsFrom_joined found cut place List.not_mem_nil, flatten_append, end_,
      joinTagsFrom.eq_1, List.append_nil]
    exact (unlines_cons _ []).symm
  · have long : indentOf line + 2 ≤ (line ++ '\n' :: rest).length := by
      obtain ⟨c, more, text, -⟩ := startsTag_iff.mp start
      have size := congrArg List.length text
      rw [List.length_drop, List.length_cons, List.length_cons] at size
      rw [List.length_append]
      omega
    have whole : line ++ '\n' :: rest = (line ++ '\n' :: rest) ++ [] :=
      (List.append_nil _).symm
    have joined := (startsTag_joined start whole long []).2
    rwa [List.append_nil] at joined

/-- The lines of a comment are joined to lines of a comment, all silent exactly if they all were. By
induction on the lines: none that starts with a tag is silent, joined or not.
-/
theorem exists_joined_comment {lines : List (List Char)} (h : Comment lines)
    (fence : Option (List Char))
    : ∃ joined,
        Comment joined
        ∧ joinTagsFrom fence (unlines lines) = unlines joined
        ∧ (AllSilent joined ↔ AllSilent lines) := by
  induction h generalizing fence with
  | @last line inside =>
      refine ⟨_, .last inside, ?_, .rfl⟩
      have noFeed : '\n' ∉ line ++ "-->".toList := by
        simp [inside.noFeed]
      have text : unlines [line ++ "-->".toList] = line ++ "-->".toList ++ ['\n'] :=
        unlines_cons _ []
      rw [text, joinTagsFrom_last noFeed]
  | @more line rest inside later ih =>
      rw [unlines_cons]
      by_cases kept : fence = none → leadingTag? (line ++ '\n' :: unlines rest) = none
      · obtain ⟨joined, comment, text, silent⟩ := ih (fenceAfter fence line)
        refine ⟨line :: joined, .more inside comment, ?_, ?_⟩
        · rw [joinTagsFrom_line inside.noFeed _ kept, text, unlines_cons]
        · unfold AllSilent at silent ⊢
          rw [List.forall_mem_cons, List.forall_mem_cons, silent]
      · obtain ⟨rfl, many⟩ := Classical.not_imp.mp kept
        obtain ⟨length, found⟩ := Option.ne_none_iff_exists'.mp many
        obtain ⟨-, start, -⟩ := leadingTag?_eq_some found
        obtain ⟨before, text, noEnd⟩ := later.exists_text
        rw [text] at found ⊢
        obtain ⟨last, lastInside, joined, lastStart⟩ :=
          exists_joined_toEnd (by simp [inside.noEnd, noEnd]) found
        refine ⟨_, .last lastInside, joined, iff_of_false ?_ ?_⟩
        · intro silent
          have last := silent _ List.mem_cons_self
          rw [not_isSilent_of_startsTag lastStart] at last
          cases last
        · intro silent
          have first := silent line List.mem_cons_self
          rw [← List.append_nil line, not_isSilent_of_startsTag start] at first
          cases first

/-- The line on which a comment starts is kept. -/
theorem joinTags_opened {line : List Char} (noFeed : '\n' ∉ "<!--".toList ++ line)
    (rest : List Char)
    : ∃ more, joinTags ("<!--".toList ++ line ++ '\n' :: rest) = "<!--".toList ++ more := by
  have noTag : leadingTag? ("<!--".toList ++ line ++ '\n' :: rest) = none := by
    rw [leadingTag?_line]
    rfl
  rw [joinTags, joinTagsFrom_line noFeed rest fun _ => noTag, List.append_assoc]
  exact ⟨_, rfl⟩

-----------------------------------------------------------------------------------------
-- The comment in Markdown
-----------------------------------------------------------------------------------------

section

open Markdown

/-- A comment starts a block of HTML that goes on to the end of a comment. -/
theorem htmlEnd?_comment (rest : List Char)
    : htmlEnd? ("!--".toList ++ rest) = some (some "-->".toList) :=
  rfl

/-- A comment is a block of HTML. Its lines come one by one. -/
theorem events_comment {lines : List (List Char)} (h : Comment lines) {rest : List Char}
    (opened : unlines lines = "<!--".toList ++ rest)
    : ∃ placed,
        events (unlines lines) = enclose .html 0 placed
        ∧ placed.map Placed.event
          = (lines.flatMap fun line => htmlTexts (line ++ ['\n'])).map Event.html := by
  have split := Text.linesWithEnds_unlines h.noFeed
  have open_
      : ∀ line ∈ (Text.linesWithEnds (unlines lines)).dropLast,
          Html.lengthThrough? "-->".toList line = none := by
    rw [split, ← List.map_dropLast]
    refine List.forall_mem_map.mpr fun line member => Markup.lengthThrough?_eq_none ?_
    simp [h.noEnd_dropLast line member]
  have notNil : unlines lines ≠ [] := by
    simp [opened]
  have block :=
    htmlLines_all (c := .ofText (unlines lines)) (Nat.lt_succ_self _) notNil open_
  have texts
      : (Text.linesWithEnds (unlines lines)).flatMap htmlTexts
        = lines.flatMap fun line => htmlTexts (line ++ ['\n']) := by
    rw [split, List.flatMap_map]
  have here : (Cursor.ofText (unlines lines)).rest = unlines lines := rfl
  rw [here, texts, opened] at block
  obtain ⟨pieces, atEnd⟩ := block
  refine ⟨_, ?_, (List.map_map ..).trans pieces⟩
  rw [opened]
  exact events_html (htmlEnd?_comment rest) atEnd

end

-----------------------------------------------------------------------------------------
-- The tokens of the comment
-----------------------------------------------------------------------------------------

section

open Markdown (htmlTexts htmlTexts_line)

def NoTokens (line : List Char) : Prop :=
  ∀ text ∈ htmlTexts (line ++ ['\n']), Markup.tokens text = []

theorem tokens_feed : Markup.tokens ['\n'] = [] :=
  (Markup.tokens_eq_nil_iff (by decide)).mpr rfl

/-- A line inside of the comment has no tokens exactly if it is silent. -/
theorem noTokens_iff {line : List Char} (inside : IsInside line)
    : (∀ text ∈ htmlTexts (line ++ ['\n']), Markup.Hyphened text)
      ∧ (NoTokens line ↔ Markup.isSilent line = true) := by
  unfold NoTokens
  rcases htmlTexts_line line with whole | ⟨before, rfl, split⟩
  · have noEnd : '>' ∉ line ++ ['\n'] := by
      simp [inside.noEnd]
    rw [whole, List.forall_mem_singleton, List.forall_mem_singleton, Markup.tokens_eq_nil_iff noEnd,
      Markup.isSilent_append_feed]
    exact ⟨Markup.hyphened_of_noEnd noEnd, .rfl⟩
  · have noEnd : '>' ∉ before := fun ends => inside.noEnd (List.mem_append_left _ ends)
    rw [split, List.forall_mem_cons, List.forall_mem_singleton, List.forall_mem_cons,
      List.forall_mem_singleton, Markup.tokens_eq_nil_iff noEnd,
      Markup.isSilent_append (List.forall_mem_singleton.mpr rfl)]
    exact ⟨⟨Markup.hyphened_of_noEnd noEnd, Markup.hyphened_of_noEnd (by decide)⟩,
      and_iff_left tokens_feed⟩

/-- So does its last line. -/
theorem noTokens_closed_iff {last : List Char} (inside : IsInside last)
    : (∀ text ∈ htmlTexts (last ++ "-->".toList ++ ['\n']), Markup.Hyphened text)
      ∧ (NoTokens (last ++ "-->".toList) ↔ Markup.isSilent (last ++ "-->".toList) = true) := by
  have oneText : htmlTexts (last ++ "-->".toList ++ ['\n']) = [last ++ "-->\n".toList] := by
    rcases htmlTexts_line (last ++ "-->".toList) with whole | ⟨before, same, -⟩
    · rw [whole, List.append_assoc]
      rfl
    · have ends := congrArg List.getLast? same
      rw [List.getLast?_concat, List.getLast?_append] at ends
      cases ends
  have silent
      : Markup.isSilent (last ++ "-->\n".toList) = Markup.isSilent (last ++ "-->".toList) := by
    have split : last ++ "-->\n".toList = last ++ "-->".toList ++ ['\n'] :=
      (List.append_assoc last "-->".toList ['\n']).symm
    rw [split, Markup.isSilent_append_feed]
  unfold NoTokens
  rw [oneText, List.forall_mem_singleton, List.forall_mem_singleton,
    Markup.tokens_closed_eq_nil_iff inside.noEnd, silent]
  exact ⟨Markup.hyphened_closed inside.noEnd, .rfl⟩

/-- The lines of a comment have no tokens exactly if they are silent, by induction on them. -/
theorem noTokens_comment_iff {lines : List (List Char)} (h : Comment lines)
    : (∀ line ∈ lines, ∀ text ∈ htmlTexts (line ++ ['\n']), Markup.Hyphened text)
      ∧ ((∀ line ∈ lines, NoTokens line) ↔ AllSilent lines) := by
  unfold AllSilent
  induction h with
  | last inside =>
      simp only [List.forall_mem_singleton]
      exact noTokens_closed_iff inside
  | more inside _ ih =>
      obtain ⟨hyphened, silent⟩ := noTokens_iff inside
      simp only [List.forall_mem_cons]
      exact ⟨⟨hyphened, ih.1⟩, and_congr silent ih.2⟩

end

-----------------------------------------------------------------------------------------
-- The tree of the comment
-----------------------------------------------------------------------------------------

section

open Markdown (Placed Event enclose)

/-- Pieces without nodes are closing tags that are skipped, by induction on their nesting. -/
theorem closing_of_nested_nil {s : Surround} {pieces : List Piece} {nodes : List Node}
    (h : Nested s pieces nodes) (loose : ∀ piece ∈ pieces, piece.isLoose = true)
    (none : nodes = [])
    : ∀ piece ∈ pieces, ∃ name line, piece = .closing name line
        ∧ Html.voidTags.contains name = true := by
  induction h with
  | nil => exact List.forall_mem_nil _
  | node _ _ _ => cases none
  | @skipped name line rest nodes isVoid _ ih =>
      obtain ⟨-, others⟩ := List.forall_mem_cons.mp loose
      exact List.forall_mem_cons.mpr ⟨⟨name, line, rfl, isVoid⟩, ih others none⟩
  | construct _ _ _ _ _ => cases loose _ List.mem_cons_self
  | tag _ _ _ _ _ => cases none

variable {source : Source}

/-- The pieces of HTML are no constructs. -/
theorem isLoose_pieces_html {placed : List Placed} {texts : List (List Char)}
    (events : placed.map Placed.event = texts.map Event.html) (t : TablePlace)
    : ∀ piece ∈ pieces source t (enclose .html 0 placed), piece.isLoose = true := by
  have leafs (t : TablePlace) : ∀ piece ∈ pieces source t placed, piece.isLoose = true := by
    induction placed generalizing t texts with
    | nil => exact List.forall_mem_nil _
    | cons e rest ih =>
        obtain ⟨text, more, rfl, isHtml, later⟩ := List.map_eq_cons_iff.mp events.symm
        have isLeaf : e.event.isLeaf = true := by
          rw [← isHtml]
          rfl
        exact List.forall_mem_append.mpr ⟨isLoose_eventPieces isLeaf, ih later.symm _⟩
  have inside
      : pieces source t (enclose .html 0 placed)
        = pieces source (t.after (.enter .html)) placed := by
    rw [enclose, List.cons_append, pieces, pieces_append]
    exact List.append_nil _
  rw [inside]
  exact leafs _

/-- HTML without tokens leaves a tree as it is. -/
theorem run_noTokens {placed : List Placed} {texts : List (List Char)}
    (events : placed.map Placed.event = texts.map Event.html)
    (noTokens : ∀ text ∈ texts, Markup.tokens text = []) (b : Builder) (rest : List Placed)
    : Builder.run source b (placed ++ rest) = Builder.run source b rest := by
  induction placed generalizing texts with
  | nil => rfl
  | cons e placed ih =>
      obtain ⟨text, more, rfl, isHtml, later⟩ := List.map_eq_cons_iff.mp events.symm
      obtain ⟨first, others⟩ := List.forall_mem_cons.mp noTokens
      have skipped : Builder.event source b e = .ok b := by
        rw [Builder.event, ← isHtml]
        simp only [first]
        rfl
      rw [List.cons_append, Builder.run, skipped]
      exact ih later.symm others

/-- Each valid token of HTML is a piece, which is a closing tag only if the token is. -/
theorem exists_piece_of_token {events : List Placed} {e : Placed} (member : e ∈ events)
    {text : List Char} (isHtml : e.event = .html text) {token : Markup.Placed}
    (inTokens : token ∈ Markup.tokens text)
    (isValid : isValidToken source.names token.token = true) (t : TablePlace)
    : ∃ piece ∈ pieces source t events,
        ∀ name line, piece = .closing name line → token.token = .closing name.toList := by
  obtain ⟨place, inPieces⟩ := mem_pieces member t
  obtain ⟨piece, one, onlyClosing⟩ :=
    Builder.exists_tokenPieces isValid (source.lineAt (e.offset + token.offset))
  refine ⟨piece, inPieces piece ?_, onlyClosing⟩
  rw [eventPieces, isHtml]
  exact List.mem_flatMap.mpr ⟨token, inTokens, one ▸ List.mem_cons_self⟩

/-- HTML in which a hyphen comes before each `>` builds nothing exactly if it has no tokens: none of
its closing tags could be skipped.
-/
theorem build_html_eq_nil_iff {placed : List Placed} {texts : List (List Char)}
    (events : placed.map Placed.event = texts.map Event.html)
    (balanced : Markdown.Balanced .flow (enclose .html 0 placed))
    (hyphened : ∀ text ∈ texts, Markup.Hyphened text)
    : Builder.build source (enclose .html 0 placed) = .ok []
      ↔ ∀ text ∈ texts, Markup.tokens text = [] := by
  constructor
  · intro built text member
    have valid := Builder.valid_of_build built
    obtain ⟨emitted, nested, nothing⟩ := ((build_iff_nested balanced valid).1 []).mp built
    have closing :=
      closing_of_nested_nil nested (isLoose_pieces_html events {})
        (Node.joined_eq_nil_iff.mp nothing.symm)
    obtain ⟨e, inPlaced, isHtml⟩ := List.mem_map.mp (events ▸ List.mem_map_of_mem member)
    have inside : e ∈ enclose .html 0 placed :=
      List.mem_append_left _ (List.mem_cons_of_mem _ inPlaced)
    refine List.eq_nil_iff_forall_not_mem.mpr fun token inTokens => ?_
    have isValid : isValidToken source.names token.token = true := by
      have all := valid e inside
      rw [isHtml] at all
      exact List.all_eq_true.mp all token inTokens
    obtain ⟨piece, inPieces, onlyClosing⟩ := exists_piece_of_token inside isHtml inTokens isValid {}
    obtain ⟨name, line, rfl, isVoid⟩ := closing piece inPieces
    have isIn := Markup.isIn_tokens text token inTokens
    rw [onlyClosing name line rfl] at isIn
    have noVoid : ∀ void ∈ Html.voidTags, void.toList.getLast? ≠ some '-' := by decide
    exact noVoid name (List.contains_iff_mem.mp isVoid)
      (Markup.getLast?_of_closing (hyphened text member) isIn)
  · intro noTokens
    have run : Builder.run source {} (enclose .html 0 placed) = .ok {} := by
      have opened
          : Builder.run source {} (enclose .html 0 placed)
            = Builder.run source {} (placed ++ [{ event := .leave .html, offset := 0 }]) :=
        rfl
      rw [opened, run_noTokens events noTokens]
      rfl
    rw [Builder.build, run]
    rfl

end

-----------------------------------------------------------------------------------------
-- Compiled comments
-----------------------------------------------------------------------------------------

/-- A document without nodes, and no other one, compiles to its imports alone. -/
theorem compile_eq_imports_iff {names : List String} (noFault : nameFault? names = none)
    (builtIns : List BuiltIn) (body : String)
    : compile (builtIns.map BuiltIn.transform) body names
        = .ok { text := Unit.render (names.map .bind) }
      ↔ parseBody names body.toList = .ok [] := by
  have alone (nodes : List Node)
      : Unit.render (Unit.program names nodes) = Unit.render (names.map .bind) ↔ nodes = [] := by
    rw [Unit.program, ← List.append_nil (names.map Unit.Instruction.bind), List.append_assoc,
      Unit.render_append_inj, List.nil_append, List.flatMap_nil, Unit.flatMap_line_eq_nil_iff,
      Unit.lowerList_eq_nil_iff]
  rw [compile_eq_map noFault]
  cases parseBody names body.toList with
  | error error => simp only [Except.map, reduceCtorEq]
  | ok nodes =>
      have kept := map_kind?_applyAll builtIns nodes
      simp only [Except.map, Except.ok.injEq, CompiledUnit.mk.injEq, alone]
      rw [← List.map_eq_nil_iff (f := Node.kind?), kept, List.map_eq_nil_iff]

/-- The tree of a comment has no nodes exactly if its lines are silent. -/
theorem parseBody_comment_eq_nil_iff (names : List String) {line : List Char}
    {lines : List (List Char)} (h : Comment (("<!--".toList ++ line) :: lines))
    : parseBody names (unlines (("<!--".toList ++ line) :: lines)) = .ok []
      ↔ AllSilent (("<!--".toList ++ line) :: lines) := by
  obtain ⟨joined, comment, text, silent⟩ := exists_joined_comment h none
  obtain ⟨rest, opened⟩ := joinTags_opened (h.noFeed _ List.mem_cons_self) (unlines lines)
  have body
      : unlines (("<!--".toList ++ line) :: lines)
        = '<' :: ("!--".toList ++ line ++ '\n' :: unlines lines) :=
    unlines_cons _ _
  rw [← unlines_cons, joinTags, text] at opened
  obtain ⟨placed, events, texts⟩ := events_comment comment opened
  have balanced := Markdown.balanced_events (unlines joined)
  rw [events] at balanced
  obtain ⟨hyphened, noTokens⟩ := noTokens_comment_iff comment
  rw [body, parseBody_noImports (by decide) (by decide), ← body, joinTags, text, events,
    build_html_eq_nil_iff texts balanced (List.forall_mem_flatMap.mpr hyphened),
    List.forall_mem_flatMap, ← silent]
  exact noTokens

/-- A body of one comment compiles to its imports alone, exactly if each of its lines is blank up to
the start of a comment or altogether. The tokens of a line do not depend on the lines before it.
-/
theorem compile_commentBody_iff (builtIns : List BuiltIn) {names : List String}
    (noFault : nameFault? names = none) {text : String} (noEnd : '>' ∉ text.toList)
    : compile (builtIns.map BuiltIn.transform) (commentBody text) names
        = .ok { text := Unit.render (names.map .bind) }
      ↔ ∀ line ∈ Text.linesWithEnds (commentBody text).toList, Markup.isSilent line = true := by
  obtain ⟨line, lines, end_, comment⟩ := exists_comment noEnd
  have body : (commentBody text).toList = unlines (("<!--".toList ++ line) :: lines) := by
    rw [commentBody, String.toList_append, String.toList_append, List.append_assoc, end_,
      unlines_cons, unlines_cons, List.append_assoc]
  have opened : Comment (("<!--".toList ++ line) :: lines) :=
    comment.lead ⟨by decide, by decide⟩
  rw [compile_eq_imports_iff noFault, body, parseBody_comment_eq_nil_iff names opened,
    Text.linesWithEnds_unlines opened.noFeed, List.forall_mem_map]
  exact forall₂_congr fun line _ => by rw [Markup.isSilent_append_feed]

/-- The text of a comment of which each line starts a comment again, but for one that is blank. -/
def silentText : String :=
  " a\n  <!-- b\n\n<!-- </br"

/-- It is dropped, over all of its lines. -/
theorem compile_silentText
    : nameFault? ["Note"] = none
      ∧ '>' ∉ silentText.toList
      ∧ compile Transform.standard (commentBody silentText) ["Note"]
        = .ok { text := Unit.render [.bind "Note"] } := by
  have noFault : nameFault? ["Note"] = none := by decide
  have noEnd : '>' ∉ silentText.toList := by decide
  have silent
      : ∀ line ∈ Text.linesWithEnds (commentBody silentText).toList,
          Markup.isSilent line = true := by
    decide +kernel
  exact ⟨noFault, noEnd, (compile_commentBody_iff BuiltIn.standard noFault noEnd).mpr silent⟩

/-- A line inside of a comment is printed, and so is the end of the comment. -/
theorem compile_comment_ne
    : nameFault? [] = none
      ∧ '>' ∉ "\nhello\n".toList
      ∧ compile [] (commentBody "\nhello\n") []
        = .ok { text := Unit.render [.text "hello-->"] }
      ∧ compile [] (commentBody "\nhello\n") [] ≠ .ok { text := Unit.render [] } := by
  have compiled
      : (compile [] (commentBody "\nhello\n") []).toOption
        = some { text := Unit.render [.text "hello-->"] } := by
    decide +kernel
  have differs : Unit.render [.text "hello-->"] ≠ Unit.render [] := by
    decide +kernel
  rw [eq_ok_of_toOption compiled]
  exact ⟨rfl, by decide, rfl, fun same => differs (congrArg CompiledUnit.text (Except.ok.inj same))⟩

end Folio.Document
