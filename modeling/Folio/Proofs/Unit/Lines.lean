import Folio.Proofs.Json.Written
import Folio.Proofs.Json.Strings
import Folio.Unit.Instruction

/-! A unit is read as the instructions that were written. Strings and values are quoted, so that no
character of theirs ends a line; names are written as they are, and have to be such that a line
holds them.
-/

namespace Folio.Unit

open Text (IsLine Unbroken)

structure Instruction.Readable (instruction : Instruction) : Prop where
  isLine : IsLine instruction.words
  notEmpty : instruction.words ≠ []
  read : ofLine instruction.words = .ok instruction

/-- The first line of a written unit is the header. -/
theorem lines_header (instructions : List Instruction)
    : Text.lines (render instructions).toList
      = header.toList :: Text.lines (instructions.flatMap Instruction.line) := by
  have isLine : IsLine header.toList :=
    Unbroken.isLine (by decide)
  rw [render, String.toList_ofList, Text.lines_append_feed isLine]

/-- A written unit is taken for one. -/
theorem ofText?_render (instructions : List Instruction)
    : CompiledUnit.ofText? (render instructions) = some { text := render instructions } := by
  rw [CompiledUnit.ofText?, lines_header]
  rfl

/-- The lines that instructions are written as: one each, unless a name in them breaks its line. -/
def linesOf (instructions : List Instruction) : List (List Char) :=
  Text.lines (instructions.flatMap Instruction.line)

/-- Instructions are written one after the other, whatever they hold. -/
theorem linesOf_append (first later : List Instruction)
    : linesOf (first ++ later) = linesOf first ++ linesOf later := by
  unfold linesOf
  rcases List.eq_nil_or_concat first with rfl | ⟨before, last, rfl⟩
  · simp [Text.lines, Text.linesWithEnds]
  · have ended : (before ++ [last]).flatMap Instruction.line
        = before.flatMap Instruction.line ++ last.words ++ ['\n'] := by
      simp [Instruction.line]
    rw [List.concat_eq_append, List.flatMap_append, ended, List.append_assoc, List.singleton_append,
      Text.lines_append]

/-- Instructions that fit on one line are written on one line each. -/
theorem linesOf_eq_map {instructions : List Instruction}
    (fit : ∀ instruction ∈ instructions, IsLine instruction.words)
    : linesOf instructions = instructions.map Instruction.words := by
  have body : instructions.flatMap Instruction.line
      = (instructions.map Instruction.words).flatMap (· ++ ['\n']) := by
    rw [List.flatMap_map]
    exact congrArg (fun write => instructions.flatMap write) (funext fun _ => rfl)
  rw [linesOf, body, Text.lines_flatMap]
  intro words member
  obtain ⟨instruction, isOne, rfl⟩ := List.mem_map.mp member
  exact fit instruction isOne

theorem linesOf_nil : linesOf [] = [] :=
  linesOf_eq_map (List.forall_mem_nil _)

theorem linesOf_singleton {i : Instruction} (fits : IsLine i.words) : linesOf [i] = [i.words] :=
  linesOf_eq_map (List.forall_mem_singleton.mpr fits)

/-- The lines of a written unit: the header, and one line for each instruction that fits on one. -/
theorem lines_render_of_isLine {instructions : List Instruction}
    (fit : ∀ instruction ∈ instructions, IsLine instruction.words)
    : Text.lines (render instructions).toList
      = header.toList :: instructions.map Instruction.words := by
  rw [lines_header, ← linesOf_eq_map fit]
  rfl

theorem lines_render {instructions : List Instruction}
    (readable : ∀ instruction ∈ instructions, instruction.Readable)
    : Text.lines (render instructions).toList
      = header.toList :: instructions.map Instruction.words :=
  lines_render_of_isLine fun instruction member => (readable instruction member).isLine

/-- Units that start alike are the same if the rest of their lines is. -/
theorem render_append_inj {before more later : List Instruction}
    : render (before ++ more) = render (before ++ later)
      ↔ more.flatMap Instruction.line = later.flatMap Instruction.line := by
  simp only [render, String.ofList_inj, List.flatMap_append, List.append_cancel_left_eq,
    List.cons.injEq, true_and]

/-- Instructions that have no lines are none. -/
theorem flatMap_line_eq_nil_iff {instructions : List Instruction}
    : instructions.flatMap Instruction.line = [] ↔ instructions = [] := by
  cases instructions with
  | nil => exact iff_of_true rfl rfl
  | cons i rest =>
      refine iff_of_false (fun none => ?_) (List.cons_ne_nil i rest)
      exact List.append_ne_nil_of_right_ne_nil i.words (List.cons_ne_nil _ _)
        (List.append_eq_nil_iff.mp none).1

theorem lowerList_eq_nil_iff {nodes : List Document.Node} : lowerList nodes = [] ↔ nodes = [] := by
  cases nodes with
  | nil => exact iff_of_true rfl rfl
  | cons node rest =>
      refine iff_of_false (fun none => ?_) (List.cons_ne_nil node rest)
      cases node <;> cases (List.append_eq_nil_iff.mp none).1

/-- Instructions with the same lines have the same first line. -/
theorem words_eq_of_flatMap_line {i j : Instruction} {more later : List Instruction}
    (noFeed : '\n' ∉ i.words) (noFeed' : '\n' ∉ j.words)
    (same : (i :: more).flatMap Instruction.line = (j :: later).flatMap Instruction.line)
    : i.words = j.words := by
  simp only [List.flatMap_cons, Instruction.line, List.append_assoc, List.singleton_append] at same
  have first := congrArg Text.firstLine same
  rw [Text.firstLine_append_feed noFeed, Text.firstLine_append_feed noFeed'] at first
  exact List.append_cancel_right (congrArg Prod.fst first)

theorem splitAtBlank?_append {before : List Char} (h : ' ' ∉ before) (after : List Char)
    : splitAtBlank? (before ++ ' ' :: after) = some (before, after) := by
  induction before with
  | nil => rfl
  | cons c before ih =>
      obtain ⟨notFirst, notLater⟩ : ' ' ≠ c ∧ ' ' ∉ before := by simpa using h
      have later := ih notLater
      unfold splitAtBlank? at later ⊢
      rw [List.cons_append, Text.splitAtFirst?, later]
      simp [Ne.symm notFirst]

/-- Texts without a blank are not split. -/
theorem splitAtBlank?_eq_none {s : List Char} : splitAtBlank? s = none ↔ ' ' ∉ s := by
  constructor
  · intro whole blank
    obtain ⟨before, after, rfl, plain⟩ := List.eq_append_cons_of_mem blank
    cases (splitAtBlank?_append plain after).symm.trans whole
  · intro h
    induction s with
    | nil => rfl
    | cons c rest ih =>
        obtain ⟨notFirst, notLater⟩ : ' ' ≠ c ∧ ' ' ∉ rest := by simpa using h
        have later := ih notLater
        unfold splitAtBlank? at later ⊢
        rw [Text.splitAtFirst?, later]
        simp [Ne.symm notFirst]

/-- A text is split at its first blank. -/
theorem splitAtBlank?_eq_some {s before after : List Char}
    : splitAtBlank? s = some (before, after) ↔ ' ' ∉ before ∧ s = before ++ ' ' :: after := by
  constructor
  · intro split
    have blank : ' ' ∈ s := by
      by_contra none
      cases (splitAtBlank?_eq_none.mpr none).symm.trans split
    obtain ⟨first, rest, rfl, plain⟩ := List.eq_append_cons_of_mem blank
    cases (splitAtBlank?_append plain rest).symm.trans split
    exact ⟨plain, rfl⟩
  · rintro ⟨plain, rfl⟩
    exact splitAtBlank?_append plain after

-----------------------------------------------------------------------------------------
-- Lines that are well formed
-----------------------------------------------------------------------------------------

/-- Holds for the names that a tag may be opened with: not empty, without blanks, and not taken for
the name of a component.
-/
structure IsOpenable (name : List Char) : Prop where
  notEmpty : name ≠ []
  noBlank : ∀ c ∈ name, Text.isBlank c = false
  notComponent : name.head? ≠ some '@'

instance (name : List Char) : Decidable (IsOpenable name) :=
  decidable_of_iff
    (name ≠ [] ∧ name.all (!Text.isBlank ·) = true ∧ name.head? ≠ some '@')
    ⟨fun ⟨notEmpty, noBlank, notComponent⟩ => ⟨notEmpty, by simpa using noBlank, notComponent⟩,
      fun h => ⟨h.notEmpty, by simpa using h.noBlank, h.notComponent⟩⟩

/-- Holds for what an instruction is read from after its word. What follows `close` does not matter.
-/
def Instruction.Takes (argument : List Char) : Instruction → Prop
  | bind name => argument = name.toList
  | openTag name => argument = name.toList ∧ IsOpenable argument
  | openComponent name => argument = '@' :: name.toList
  | key k => Json.parseString (String.ofList argument) = .ok k
  | prop name value =>
      ∃ written, argument = name.toList ++ ' ' :: written
        ∧ ' ' ∉ name.toList
        ∧ Json.parse (String.ofList written) = .ok value
  | text s => Json.parseString (String.ofList argument) = .ok s
  | close => True

/-- Holds for a line, its first word, and what follows that after a blank. -/
def IsCall (line : List Char) (word : String) (argument : List Char) : Prop :=
  ' ' ∉ word.toList
    ∧ (line = word.toList ++ ' ' :: argument ∨ line = word.toList ∧ argument = [])

theorem exists_isCall (line : List Char) : ∃ word argument, IsCall line word argument := by
  cases split : splitAtBlank? line with
  | some parts =>
      obtain ⟨plain, same⟩ := splitAtBlank?_eq_some.mp split
      refine ⟨String.ofList parts.1, parts.2, ?_, .inl ?_⟩ <;> rwa [String.toList_ofList]
  | none =>
      refine ⟨String.ofList line, [], ?_, .inr ⟨String.toList_ofList.symm, rfl⟩⟩
      rw [String.toList_ofList]
      exact splitAtBlank?_eq_none.mp split

/-- A line is read as its first word and what follows that. -/
theorem ofLine_of_isCall {line : List Char} {word : String} {argument : List Char}
    (call : IsCall line word argument)
    : Instruction.ofLine line = Instruction.ofWord word argument := by
  obtain ⟨plain, rfl | ⟨rfl, rfl⟩⟩ := call
  · rw [Instruction.ofLine, splitAtBlank?_append plain, Option.getD_some]
    simp only [String.ofList_toList]
  · rw [Instruction.ofLine, splitAtBlank?_eq_none.mpr plain, Option.getD_none]
    simp only [String.ofList_toList]

/-- What an instruction takes is read as it after its word. -/
theorem ofWord_of_takes {i : Instruction} {argument : List Char} (h : i.Takes argument)
    : Instruction.ofWord i.word argument = .ok i := by
  cases i with
  | bind name =>
      obtain rfl := h
      simp only [Instruction.word, Instruction.ofWord, String.ofList_toList]
  | openTag name =>
      obtain ⟨rfl, openable⟩ := h
      have plain : (name.toList.isEmpty || name.toList.any Text.isBlank) = false := by
        simp only [Bool.or_eq_false_iff, List.isEmpty_eq_false_iff, List.any_eq_false,
          Bool.not_eq_true]
        exact ⟨openable.notEmpty, openable.noBlank⟩
      simp only [Instruction.word, Instruction.ofWord]
      rw [openArgument]
      · rw [plain, String.ofList_toList]
        rfl
      · intro rest same
        exact openable.notComponent (by rw [same]; rfl)
  | openComponent name =>
      obtain rfl := h
      simp only [Instruction.word, Instruction.ofWord, openArgument, String.ofList_toList]
  | key k =>
      have read : Json.parseString (String.ofList argument) = .ok k := h
      simp only [Instruction.word, Instruction.ofWord, stringArgument, read]
      rfl
  | prop name value =>
      obtain ⟨written, rfl, noBlank, read⟩ := h
      simp only [Instruction.word, Instruction.ofWord, propArgument, splitAtBlank?_append noBlank,
        read, String.ofList_toList]
  | text s =>
      have read : Json.parseString (String.ofList argument) = .ok s := h
      simp only [Instruction.word, Instruction.ofWord, stringArgument, read]
      rfl
  | close => rfl

/-- An argument that is a string is what the argument quotes, or else it is malformed. -/
theorem stringArgument_cases (instruction : String) (argument : List Char)
    (make : String → Instruction)
    : (∃ s, (stringArgument instruction argument).map make = .ok (make s)
        ∧ Json.parseString (String.ofList argument) = .ok s)
      ∨ ∃ fault,
          (stringArgument instruction argument).map make
            = .error (.malformedArgument instruction fault) := by
  unfold stringArgument
  cases Json.parseString (String.ofList argument) with
  | ok s => exact .inl ⟨s, rfl, rfl⟩
  | error e => exact .inr ⟨.json e, rfl⟩

/-- A string that is read from an argument is what the argument quotes. -/
theorem parseString_of_map {instruction : String} {argument : List Char} {i : Instruction}
    {make : String → Instruction} (read : (stringArgument instruction argument).map make = .ok i)
    : ∃ s, i = make s ∧ Json.parseString (String.ofList argument) = .ok s := by
  rcases stringArgument_cases instruction argument make with ⟨s, made, parsed⟩ | ⟨fault, failed⟩
  · exact ⟨s, Except.ok.inj (read.symm.trans made), parsed⟩
  · cases read.symm.trans failed

/-- What is read as an instruction after a word is what the instruction takes, and the word is its
own.
-/
theorem takes_of_ofWord {word : String} {argument : List Char} {i : Instruction}
    (read : Instruction.ofWord word argument = .ok i)
    : word = i.word ∧ i.Takes argument := by
  unfold Instruction.ofWord at read
  split at read
  · obtain rfl := Except.ok.inj read
    exact ⟨rfl, String.toList_ofList.symm⟩
  · unfold openArgument at read
    split at read
    · obtain rfl := Except.ok.inj read
      exact ⟨rfl, congrArg _ String.toList_ofList.symm⟩
    · next notComponent =>
        split at read
        · cases read
        · next plain =>
            obtain rfl := Except.ok.inj read
            obtain ⟨notEmpty, noBlank⟩ : ¬_ ∧ ¬_ := by
              simpa only [Bool.or_eq_true, not_or] using plain
            refine ⟨rfl, String.toList_ofList.symm, by simpa using notEmpty,
              by simpa using noBlank, ?_⟩
            intro component
            obtain ⟨name, rfl⟩ := List.head?_eq_some_iff.mp component
            exact notComponent name rfl
  · obtain ⟨k, rfl, parsed⟩ := parseString_of_map read
    exact ⟨rfl, parsed⟩
  · unfold propArgument at read
    split at read
    · cases read
    · next name written split =>
        obtain ⟨noBlank, rfl⟩ := splitAtBlank?_eq_some.mp split
        cases parsed : Json.parse (String.ofList written) with
        | error e =>
            rw [parsed] at read
            cases read
        | ok value =>
            rw [parsed] at read
            obtain rfl := Except.ok.inj read
            refine ⟨rfl, written, ?_, ?_, parsed⟩ <;> rw [String.toList_ofList]
            exact noBlank
  · obtain ⟨s, rfl, parsed⟩ := parseString_of_map read
    exact ⟨rfl, parsed⟩
  · obtain rfl := Except.ok.inj read
    exact ⟨rfl, trivial⟩
  · cases read

def instructionWords : List String :=
  ["import", "open", "key", "prop", "text", "close"]

/-- What is no instruction starts with another word, or with the word of an instruction that does
not take what follows.
-/
theorem ofWord_cases (word : String) (argument : List Char)
    : (∃ i, Instruction.ofWord word argument = .ok i)
      ∨ (word ∉ instructionWords
        ∧ Instruction.ofWord word argument = .error (.unknownInstruction word))
      ∨ (word ∈ instructionWords
        ∧ ∃ fault, Instruction.ofWord word argument = .error (.malformedArgument word fault)) := by
  unfold Instruction.ofWord
  split
  · exact .inl ⟨_, rfl⟩
  · unfold openArgument
    split
    · exact .inl ⟨_, rfl⟩
    · split
      · exact .inr (.inr ⟨by decide, _, rfl⟩)
      · exact .inl ⟨_, rfl⟩
  · exact (stringArgument_cases "key" argument .key).imp (fun ⟨s, made, _⟩ => ⟨_, made⟩)
      fun failed => .inr ⟨by decide, failed⟩
  · unfold propArgument
    split
    · exact .inr (.inr ⟨by decide, _, rfl⟩)
    · split
      · exact .inl ⟨_, rfl⟩
      · exact .inr (.inr ⟨by decide, _, rfl⟩)
  · exact (stringArgument_cases "text" argument .text).imp (fun ⟨s, made, _⟩ => ⟨_, made⟩)
      fun failed => .inr ⟨by decide, failed⟩
  · exact .inl ⟨_, rfl⟩
  · next noImport noOpen noKey noProp noText noClose =>
      have other : word ∉ instructionWords := by
        simpa [instructionWords] using ⟨noImport, noOpen, noKey, noProp, noText, noClose⟩
      exact .inr (.inl ⟨other, rfl⟩)

variable {line : List Char} {word : String} {argument : List Char}

/-- A line is an instruction if it starts with its word and goes on with what it takes. -/
theorem ofLine_eq_ok_iff (call : IsCall line word argument) {i : Instruction}
    : Instruction.ofLine line = .ok i ↔ word = i.word ∧ i.Takes argument := by
  rw [ofLine_of_isCall call]
  refine ⟨takes_of_ofWord, ?_⟩
  rintro ⟨rfl, takes⟩
  exact ofWord_of_takes takes

theorem ofLine_eq_ok_iff_exists {i : Instruction}
    : Instruction.ofLine line = .ok i
      ↔ ∃ argument, IsCall line i.word argument ∧ i.Takes argument := by
  constructor
  · intro read
    obtain ⟨word, argument, call⟩ := exists_isCall line
    obtain ⟨rfl, takes⟩ := (ofLine_eq_ok_iff call).mp read
    exact ⟨argument, call, takes⟩
  · rintro ⟨argument, call, takes⟩
    exact (ofLine_eq_ok_iff call).mpr ⟨rfl, takes⟩

/-- A line is no instruction if it starts with another word. -/
theorem ofLine_eq_unknown_iff (call : IsCall line word argument)
    : Instruction.ofLine line = .error (.unknownInstruction word) ↔ word ∉ instructionWords := by
  have own (i : Instruction) : i.word ∈ instructionWords := by
    cases i <;> dsimp only [Instruction.word] <;> decide
  rw [ofLine_of_isCall call]
  rcases ofWord_cases word argument with ⟨i, read⟩ | ⟨other, failed⟩ | ⟨known, fault, failed⟩
  · obtain ⟨rfl, -⟩ := takes_of_ofWord read
    simp [read, own]
  · simp [failed, other]
  · simp [failed, known]

/-- An argument is malformed if the instructions that start with the word do not take it. -/
theorem ofLine_eq_malformed_iff (call : IsCall line word argument)
    : (∃ fault, Instruction.ofLine line = .error (.malformedArgument word fault))
      ↔ word ∈ instructionWords ∧ ∀ i : Instruction, word = i.word → ¬i.Takes argument := by
  simp only [← not_and, ← ofLine_eq_ok_iff call, ofLine_of_isCall call]
  rcases ofWord_cases word argument with ⟨i, read⟩ | ⟨other, failed⟩ | ⟨known, fault, failed⟩
  · simp [read]
  · simp [failed, other]
  · simp [failed, known]

-----------------------------------------------------------------------------------------
-- Lines of instructions
-----------------------------------------------------------------------------------------

/-- The first word of an instruction has no blank and no line end. -/
theorem word_plain (i : Instruction) : ' ' ∉ i.word.toList ∧ Unbroken i.word.toList := by
  cases i <;> dsimp only [Instruction.word] <;> decide

theorem words_of_argument {i : Instruction} {argument : List Char}
    (h : i.argument? = some argument)
    : i.words = i.word.toList ++ ' ' :: argument := by
  rw [Instruction.words, h]
  rfl

/-- An instruction fits on a line if its argument does. -/
theorem isLine_words {i : Instruction} {argument : List Char} (h : i.argument? = some argument)
    (fits : IsLine argument)
    : IsLine i.words := by
  rw [words_of_argument h, ← List.singleton_append, ← List.append_assoc]
  exact ((word_plain i).2.append (by decide)).append_isLine fits

/-- The line of an instruction starts with its word and goes on with its argument. -/
theorem isCall_words {i : Instruction} {argument : List Char} (h : i.argument? = some argument)
    : IsCall i.words i.word argument :=
  ⟨(word_plain i).1, .inl (words_of_argument h)⟩

/-- A line that starts with the word of properties is read as one, whatever follows. -/
theorem ofLine_prop (argument : List Char)
    : Instruction.ofLine ("prop".toList ++ ' ' :: argument) = propArgument argument :=
  ofLine_of_isCall ⟨by decide, .inl rfl⟩

/-- An instruction is readable if its argument fits on a line and is one that it takes. -/
theorem readable_of_argument {i : Instruction} {argument : List Char}
    (h : i.argument? = some argument) (fits : IsLine argument) (takes : i.Takes argument)
    : i.Readable where
  isLine := isLine_words h fits
  notEmpty := by simp [words_of_argument h]
  read := (ofLine_eq_ok_iff (isCall_words h)).mpr ⟨rfl, takes⟩

theorem readable_bind {name : String} (h : IsLine name.toList)
    : (Instruction.bind name).Readable :=
  readable_of_argument rfl h rfl

theorem readable_openComponent {name : String} (h : IsLine name.toList)
    : (Instruction.openComponent name).Readable :=
  readable_of_argument rfl (Unbroken.append_isLine (by decide : Unbroken ['@']) h) rfl

/-- A text without blanks is not broken, because line ends are blank. -/
theorem unbroken_of_noBlank {s : List Char} (h : ∀ c ∈ s, Text.isBlank c = false)
    : Unbroken s := by
  intro c member
  constructor <;> rintro rfl <;> exact absurd (h _ member) (by decide)

/-- The opening of a tag is readable if its name can be told from that of a component. -/
theorem readable_openTag {name : String} (h : IsOpenable name.toList)
    : (Instruction.openTag name).Readable :=
  readable_of_argument rfl (unbroken_of_noBlank h.noBlank).isLine ⟨rfl, h⟩

theorem readable_key (k : String) : (Instruction.key k).Readable :=
  readable_of_argument rfl (Json.unbroken_quote k).isLine (Json.parseString_quote k)

theorem readable_text (s : String) : (Instruction.text s).Readable :=
  readable_of_argument rfl (Json.unbroken_quote s).isLine (Json.parseString_quote s)

/-- A name and a value fit on a line if the name does not break it. -/
theorem isLine_property {name : String} (noFeed : '\n' ∉ name.toList) (value : Json.Value)
    : IsLine (name.toList ++ ' ' :: value.chars) :=
  Text.isLine_append_cons noFeed (by decide) (Json.unbroken_chars value)

/-- A property is readable if its name is one word on one line, and the written value is read as the
value.
-/
theorem readable_prop {name : String} {value : Json.Value}
    (noBlank : ' ' ∉ name.toList) (noFeed : '\n' ∉ name.toList)
    (read : Json.parse value.render = .ok value)
    : (Instruction.prop name value).Readable :=
  readable_of_argument rfl (isLine_property noFeed value) ⟨value.chars, rfl, noBlank, read⟩

/-- The end of an element is readable. -/
theorem readable_close : Instruction.close.Readable where
  isLine := Unbroken.isLine (by decide)
  notEmpty := by decide
  read := by rfl

/-- Only imports have lines that look like imports. -/
theorem not_import {i : Instruction} (h : ∀ name, i ≠ .bind name)
    : "import ".toList.isPrefixOf i.words = false := by
  cases i with
  | bind name => exact absurd rfl (h name)
  | _ => simp [Instruction.words, Instruction.word, Instruction.argument?, List.isPrefixOf]

end Folio.Unit
