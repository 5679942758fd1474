import Folio.Proofs.Document.Prelude
import Folio.Proofs.Document.Transforms
import Folio.Proofs.Markdown.FencedCode

/-! A body of fenced code and nothing else. It compiles to one element with the code as its text, in
which only tags are joined that stand outside of what the joining takes for fenced code. It takes
the code to end at a line that starts with three of the fence, whatever follows.
-/

namespace Folio.Document

open Markdown (IsFence closesFence)
open Text (Unbroken unlines unlines_cons unlines_append)

def codeBlock (text : String) : Node :=
  .element (.tag "pre") none [] [.element (.tag "code") none [] [.text text]]

def fencedBody (fence : Char) (count : Nat) (code : List (List Char)) : List Char :=
  unlines (List.replicate count fence :: (code ++ [List.replicate count fence]))

/-- The marker by which the joining of tags knows a fence. -/
def fenceMarker (fence : Char) : List Char :=
  List.replicate 3 fence

-----------------------------------------------------------------------------------------
-- The tree of code
-----------------------------------------------------------------------------------------

/-- Texts one after the other become one text. -/
theorem run_texts (source : Source) (b : Builder) (e : OpenElement) (outer : List OpenElement)
    (text : String) (texts : List (List Char)) (rest : List Markdown.Placed)
    : Builder.run source { b with stack := { e with children := [.text text] } :: outer }
        (texts.map (fun text => { event := .text text, offset := 0 }) ++ rest)
      = Builder.run source
          { b with
            stack :=
              { e with children := [.text (text ++ String.ofList texts.flatten)] } :: outer }
          rest := by
  induction texts generalizing text with
  | nil => simp
  | cons first texts ih =>
      rw [List.map_cons, List.cons_append, Builder.run]
      have := ih (text ++ String.ofList first)
      rw [List.flatten_cons, String.ofList_append, ← String.append_assoc, ← this]
      rfl

/-- The tree of code is one element, whose text is the text of the code. -/
theorem build_code (source : Source) (first : List Char) (texts : List (List Char))
    : Builder.build source
        (Markdown.enclose (.code (some [])) 0
          ((first :: texts).map fun text => { event := .text text, offset := 0 }))
      = .ok [codeBlock (String.ofList (first :: texts).flatten)] := by
  have opened
      : Builder.run source {}
          (Markdown.enclose (.code (some [])) 0
            ((first :: texts).map fun text => { event := .text text, offset := 0 }))
        = Builder.run source
            { ({} : Builder) with
              stack :=
                [
                  { OpenElement.markdown "code" (source.lineAt 0) with
                    children := [.text (String.ofList first)] },
                  OpenElement.markdown "pre" (source.lineAt 0)
                ] }
            (texts.map (fun text => { event := .text text, offset := 0 })
              ++ [{ event := .leave (.code (some [])), offset := 0 }]) :=
    rfl
  rw [Builder.build, opened, run_texts, ← String.ofList_append, ← List.flatten_cons]
  rfl

theorem applyAll_codeBlock (builtIns : List BuiltIn) (text : String)
    : Transform.applyAll (builtIns.map BuiltIn.transform) [codeBlock text] = [codeBlock text] := by
  refine Transform.applyAll_eq_self (fun builtIn => ?_) builtIns
  cases builtIn <;> rfl

-----------------------------------------------------------------------------------------
-- The text of code
-----------------------------------------------------------------------------------------

section

variable {fence : Char} {count : Nat}

/-- Three or more of a fence start with three of it. -/
theorem replicate_eq_fenceMarker (fence : Char) (long : 3 ≤ count)
    : ∃ more, List.replicate count fence = fence :: fence :: fence :: more := by
  obtain ⟨more, rfl⟩ := Nat.exists_eq_add_of_le' long
  exact ⟨List.replicate more fence, rfl⟩

theorem isBlank_fence (isFence : IsFence fence) : Text.isBlank fence = false := by
  rcases isFence with rfl | rfl <;> decide

/-- No tag starts with a fence. -/
theorem leadingTag?_fence (isFence : IsFence fence) (more rest : List Char)
    : leadingTag? ((fence :: more) ++ '\n' :: rest) = none := by
  rw [leadingTag?_line]
  rcases isFence with rfl | rfl <;> rfl

/-- After a fence, the joining of tags is in fenced code. -/
theorem fenceAfter_fence (isFence : IsFence fence) (long : 3 ≤ count)
    : fenceAfter none (List.replicate count fence) = some (fenceMarker fence) := by
  obtain ⟨more, same⟩ := replicate_eq_fenceMarker fence long
  have notBlank := isBlank_fence isFence
  have text
      : Text.trimEnd (fence :: fence :: fence :: more)
        = fence :: fence :: fence :: Text.trimEnd more := by
    rw [Text.trimEnd_cons notBlank, Text.trimEnd_cons notBlank, Text.trimEnd_cons notBlank]
  have shallow : indentOf (fence :: fence :: fence :: more) = 0 := by
    rcases isFence with rfl | rfl <;> rfl
  rw [same]
  simp only [fenceAfter, shallow, List.drop_zero, text]
  rcases isFence with rfl | rfl <;> rfl

/-- A line that starts with a tag does not close fenced code. -/
theorem closesFence_of_startsTag (isFence : IsFence fence) (long : 0 < count) {line : List Char}
    (start : startsTag (line.drop (indentOf line)) = true)
    : closesFence fence count line = false := by
  obtain ⟨c, rest, text, -⟩ := startsTag_iff.mp start
  have text : line.drop (Markdown.runLength ' ' line) = '<' :: c :: rest := text
  have none : Markdown.runLength fence ('<' :: c :: rest) = 0 := by
    refine Markdown.runLength_eq_zero fun more same => ?_
    rcases isFence with rfl | rfl <;> cases same
  simp only [closesFence, text, none, decide_eq_false (Nat.not_le.mpr long), Bool.and_false,
    Bool.false_and]

/-- Neither line feeds nor ends of tags are in a fence. -/
theorem unbroken_fence (isFence : IsFence fence) (count : Nat)
    : Unbroken (List.replicate count fence) ∧ '>' ∉ List.replicate count fence := by
  refine ⟨fun c member => ?_, fun member => ?_⟩
  · obtain rfl := List.eq_of_mem_replicate member
    rcases isFence with rfl | rfl <;> decide
  · have same := List.eq_of_mem_replicate member
    rcases isFence with rfl | rfl <;> cases same

/-- The lines of the code are joined as if the text ended after them. -/
theorem joinTags_fencedBody (isFence : IsFence fence) (long : 3 ≤ count)
    {code : List (List Char)} (unbroken : ∀ line ∈ code, Unbroken line)
    (open_ : ∀ line ∈ code, closesFence fence count line = false)
    : ∃ joined,
        joinTagsFrom (some (fenceMarker fence)) (unlines code) = unlines joined
        ∧ joinTags (fencedBody fence count code) = fencedBody fence count joined
        ∧ (joined = [] → code = [])
        ∧ ∀ line ∈ joined, Unbroken line ∧ closesFence fence count line = false := by
  obtain ⟨fenceUnbroken, noEnd⟩ := unbroken_fence isFence count
  have noFeed := fenceUnbroken.isLine.noFeed
  have noTag (rest : List Char)
      : leadingTag? (List.replicate count fence ++ '\n' :: rest) = none := by
    obtain ⟨more, same⟩ := replicate_eq_fenceMarker fence long
    rw [same]
    exact leadingTag?_fence isFence _ rest
  obtain ⟨joined, last, texts, nonempty, lines⟩ :=
    exists_joined unbroken (some (fenceMarker fence))
  refine ⟨joined, ?_, ?_, nonempty, fun line member => ?_⟩
  · have alone := texts [] List.not_mem_nil
    rwa [List.append_nil, joinTagsFrom.eq_1, List.append_nil] at alone
  · have closing
        : joinTagsFrom last (unlines [List.replicate count fence])
          = unlines [List.replicate count fence] := by
      rw [unlines_cons, joinTagsFrom_line noFeed _ fun _ => noTag _]
      exact congrArg (List.replicate count fence ++ '\n' :: ·) (joinTagsFrom.eq_1 _)
    rw [joinTags, fencedBody, unlines_cons, joinTagsFrom_line noFeed _ fun _ => noTag _,
      fenceAfter_fence isFence long, unlines_append, texts _ (by simpa [unlines] using noEnd),
      closing, ← unlines_append, ← unlines_cons]
    rfl
  · rcases lines line member with kept | ⟨lineUnbroken, start⟩
    · exact ⟨unbroken line kept, open_ line kept⟩
    · exact ⟨lineUnbroken, closesFence_of_startsTag isFence (by omega) start⟩

/-- The tree of a body of fenced code. -/
theorem parseBody_fencedBody (isFence : IsFence fence) (long : 3 ≤ count)
    {code : List (List Char)} (nonempty : code ≠ []) (unbroken : ∀ line ∈ code, Unbroken line)
    (open_ : ∀ line ∈ code, closesFence fence count line = false) (names : List String)
    : parseBody names (fencedBody fence count code)
      = .ok [codeBlock
          (String.ofList (joinTagsFrom (some (fenceMarker fence)) (unlines code)))] := by
  have fenceUnbroken := (unbroken_fence isFence count).1
  obtain ⟨more, same⟩ := replicate_eq_fenceMarker fence long
  obtain ⟨joined, text, body, notNil, lines⟩ := joinTags_fencedBody isFence long unbroken open_
  have events
      : Markdown.events (fencedBody fence count joined)
        = Markdown.enclose (.code (some [])) 0
            ((joined.map (· ++ ['\n'])).map fun text => { event := .text text, offset := 0 }) :=
    Markdown.events_fencedCode isFence long lines fenceUnbroken
      (Markdown.closesFence_replicate isFence count)
  have start
      : fencedBody fence count code
        = fence :: (fence :: fence :: more
            ++ '\n' :: unlines (code ++ [List.replicate count fence])) := by
    rw [fencedBody, unlines_cons, same]
    rfl
  have notImport : fence ≠ 'i' := by
    rcases isFence with rfl | rfl <;> decide
  rw [start, parseBody_noImports (isBlank_fence isFence) notImport, ← start, body, events, text]
  cases joined with
  | nil => exact absurd (notNil rfl) nonempty
  | cons first rest => exact build_code _ (first ++ ['\n']) (rest.map (· ++ ['\n']))

end

-----------------------------------------------------------------------------------------
-- Compiled code
-----------------------------------------------------------------------------------------

/-- A body of fenced code compiles to one element of code. Its text is the code exactly if no tag of
several lines starts a line of it where the joining of tags takes the fenced code to have ended.
-/
theorem compile_fencedBody {fence : Char} (isFence : IsFence fence) {count : Nat}
    (long : 3 ≤ count) {code : List (List Char)} (nonempty : code ≠ [])
    (unbroken : ∀ line ∈ code, Unbroken line)
    (open_ : ∀ line ∈ code, closesFence fence count line = false) {names : List String}
    (noFault : nameFault? names = none) (builtIns : List BuiltIn)
    : compile (builtIns.map BuiltIn.transform) (String.ofList (fencedBody fence count code)) names
        = .ok
          { text :=
              Unit.render
                (Unit.program names
                  [codeBlock
                    (String.ofList (joinTagsFrom (some (fenceMarker fence)) (unlines code)))]) }
      ∧ (joinTagsFrom (some (fenceMarker fence)) (unlines code) = unlines code
        ↔ ∀ before after, code = before ++ after
            → before.foldl fenceAfter (some (fenceMarker fence)) = none
            → leadingTag? (unlines after) = none) := by
  refine ⟨?_, ?_⟩
  · have parsed := parseBody_fencedBody isFence long nonempty unbroken open_ names
    let written (nodes : List Node) : Except CompileError CompiledUnit :=
      .ok { text := Unit.render (Unit.program names nodes) }
    rw [compile_eq_map noFault, String.toList_ofList, parsed]
    exact congrArg written (applyAll_codeBlock builtIns _)
  · have noFeed : ∀ line ∈ code, '\n' ∉ line := fun line member =>
      (unbroken line member).isLine.noFeed
    exact joinTagsFrom_unlines_eq_self_iff noFeed _

/-- Code with a tag of two lines before a line that would close a fence of three. -/
def taggedCode : List (List Char) :=
  ["<a".toList, "b>".toList, "```".toList]

/-- In a fence of four it is code, and nothing of it is joined. -/
theorem compile_taggedCode
    : (∀ line ∈ taggedCode, Unbroken line)
      ∧ (∀ line ∈ taggedCode, closesFence '`' 4 line = false)
      ∧ compile Transform.standard (String.ofList (fencedBody '`' 4 taggedCode)) []
        = .ok
          { text :=
              Unit.render
                (Unit.program []
                  [codeBlock
                    (String.ofList
                      (joinTagsFrom (some (fenceMarker '`')) (unlines taggedCode)))]) }
      ∧ (joinTagsFrom (some (fenceMarker '`')) (unlines taggedCode) = unlines taggedCode
        ↔ ∀ before after, taggedCode = before ++ after
            → before.foldl fenceAfter (some (fenceMarker '`')) = none
            → leadingTag? (unlines after) = none) := by
  have unbroken : ∀ line ∈ taggedCode, Unbroken line := by
    decide
  have open_ : ∀ line ∈ taggedCode, closesFence '`' 4 line = false := by
    decide
  exact ⟨unbroken, open_,
    compile_fencedBody (.inl rfl) (by decide) (List.cons_ne_nil _ _) unbroken open_ rfl
      BuiltIn.standard⟩

/-- Code in which such a line comes before the tag. -/
def markedCode : List (List Char) :=
  ["```".toList, "<a".toList, "b>".toList]

/-- The tag is joined, although it stands in fenced code. -/
theorem compile_markedCode_ne
    : (∀ line ∈ markedCode, Unbroken line)
      ∧ (∀ line ∈ markedCode, closesFence '`' 4 line = false)
      ∧ compile [] (String.ofList (fencedBody '`' 4 markedCode)) []
        ≠ .ok
          { text :=
              Unit.render (Unit.program [] [codeBlock (String.ofList (unlines markedCode))]) } := by
  have differs
      : (compile [] (String.ofList (fencedBody '`' 4 markedCode)) []).toOption.map (·.text)
        ≠ some (Unit.render
            (Unit.program [] [codeBlock (String.ofList (unlines markedCode))])) := by
    decide +kernel
  refine ⟨by decide, by decide, fun same => differs ?_⟩
  rw [same]
  rfl

end Folio.Document
