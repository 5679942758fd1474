import Folio.Proofs.Document.Braces
import Folio.Proofs.Document.Entities
import Folio.Proofs.Text.Lines

/-! Tokens of markup as they are written, and the reading of one tag. The values of attributes may
hold whatever they like: quotes, braces, the ends of tags and the names of entities are all read as
they were meant.
-/

namespace Folio.Document.Markup

-----------------------------------------------------------------------------------------
-- Written tokens
-----------------------------------------------------------------------------------------

namespace AttributeValue

def write : AttributeValue → List Char
  | flag => []
  | literal text => '=' :: '"' :: writeText ['&', '"'] text ++ ['"']
  | expression text => '=' :: '\x7b' :: text ++ ['\x7d']

/-- Holds for flags, all literals, and expressions that are the compact written form of a JSON
value.
-/
def IsWritable : AttributeValue → Prop
  | flag | literal _ => True
  | expression text => ∃ v : Json.Value, text = v.chars

end AttributeValue

/-- Attributes as they are written, with a blank before each. -/
def writeAttributes (attributes : List (List Char × AttributeValue)) : List Char :=
  attributes.flatMap fun (name, value) => ' ' :: name ++ value.write

def AreWritable (attributes : List (List Char × AttributeValue)) : Prop :=
  ∀ entry ∈ attributes, IsName entry.1 ∧ entry.2.IsWritable

namespace Token

def write : Token → List Char
  | .opening name attributes selfClosing =>
      '<' :: name ++ writeAttributes attributes ++ if selfClosing then [' ', '/', '>'] else ['>']
  | .closing name => '<' :: '/' :: name ++ ['>']
  | .text s => writeText ['&', '<'] s

/-- Holds for tags with names whose attributes may be written, and for texts of one line that are
not blank.
-/
def IsWritable : Token → Prop
  | .opening name attributes _ => IsName name ∧ AreWritable attributes
  | .closing name => IsName name
  | .text s => (∃ c ∈ s, Text.isBlank c = false) ∧ '\n' ∉ s

end Token

variable {attributes : List (List Char × AttributeValue)}

@[simp] theorem writeAttributes_cons (name : List Char) (value : AttributeValue)
    : writeAttributes ((name, value) :: attributes)
      = ' ' :: (name ++ value.write) ++ writeAttributes attributes :=
  rfl

theorem IsName.exists_cons {name : List Char} (h : IsName name)
    : ∃ c more, name = c :: more ∧ isNameStart c = true ∧ ∀ x ∈ more, isTagNameChar x = true := by
  obtain ⟨start, chars⟩ := h
  cases name with
  | nil => cases start
  | cons c more => exact ⟨c, more, rfl, by simpa using start, (List.forall_mem_cons.mp chars).2⟩

-----------------------------------------------------------------------------------------
-- The end of a tag
-----------------------------------------------------------------------------------------

theorem passes_quoted {s : List Char} (noQuote : '"' ∉ s)
    : Passes (tagEnd? (some '"') 0 false) s (tagEnd? (some '"') 0 false) := by
  induction s with
  | nil => exact .nil
  | cons c s ih =>
      simp only [List.mem_cons, not_or] at noQuote
      have first : Passes (tagEnd? (some '"') 0 false) [c] (tagEnd? (some '"') 0 false) := by
        intro rest
        simp [tagEnd?, Ne.symm noQuote.1]
      exact first.cons (ih noQuote.2)

theorem noQuote_writeText (text : List Char) : '"' ∉ writeText ['&', '"'] text :=
  not_mem_writeText (by decide) fun _ => ⟨by decide, ("&quot;".toList, '"'), by decide, rfl⟩

/-- The search for the end of a tag passes the value of an attribute. -/
theorem AttributeValue.passes_write {value : AttributeValue} (h : value.IsWritable)
    : Passes findTagEnd? value.write findTagEnd? := by
  have equals : Passes findTagEnd? ['='] findTagEnd? := by
    intro rest
    simp [findTagEnd?, tagEnd?]
  cases value with
  | flag => exact .nil
  | literal text =>
      have opened : Passes findTagEnd? ['"'] (tagEnd? (some '"') 0 false) := by
        intro rest
        simp [findTagEnd?, tagEnd?]
      have closed : Passes (tagEnd? (some '"') 0 false) ['"'] findTagEnd? := by
        intro rest
        simp [findTagEnd?, tagEnd?]
      exact equals.cons (opened.cons ((passes_quoted (noQuote_writeText text)).append closed))
  | expression text =>
      obtain ⟨v, rfl⟩ := h
      have opened : Passes findTagEnd? ['\x7b'] (findInBraces false false 1) := by
        intro rest
        simp [findTagEnd?, findInBraces, tagEnd?]
      have closed : Passes (findInBraces false false 1) ['\x7d'] findTagEnd? := by
        intro rest
        simp [findTagEnd?, findInBraces, tagEnd?]
      have inside := braceSearch_findInBraces.passes (enclosable_chars v) 0
      exact equals.cons (opened.cons (inside.append closed))

theorem passes_name {name : List Char} (h : ∀ c ∈ name, isTagNameChar c = true)
    : Passes findTagEnd? name findTagEnd? :=
  passes_plain fun c member => isPlain_of_isTagNameChar (h c member)

theorem passes_writeAttributes (h : AreWritable attributes)
    : Passes findTagEnd? (writeAttributes attributes) findTagEnd? := by
  induction attributes with
  | nil => exact .nil
  | cons entry attributes ih =>
      obtain ⟨⟨named, writable⟩, later⟩ := List.forall_mem_cons.mp h
      have blank : Passes findTagEnd? [' '] findTagEnd? := by
        intro rest
        simp [findTagEnd?, tagEnd?]
      exact (blank.cons ((passes_name named.chars).append (entry.2.passes_write writable))).append
        (ih later)

-----------------------------------------------------------------------------------------
-- Values
-----------------------------------------------------------------------------------------

theorem value?_literal (text rest : List Char)
    : value? ('"' :: (writeText ['&', '"'] text ++ ['"']) ++ rest)
      = some (.literal text, ('"' :: (writeText ['&', '"'] text ++ ['"'])).length) := by
  have taken
      : (writeText ['&', '"'] text ++ '"' :: rest).takeWhile (· != '"')
        = writeText ['&', '"'] text := by
    refine Text.takeWhile_append_stop (fun c member => ?_) (by decide) rest
    have differs : c ≠ '"' := ne_of_mem_of_not_mem member (noQuote_writeText text)
    simpa using differs
  simp [value?, taken, decodeEntities_writeText]

theorem value?_expression (v : Json.Value) (rest : List Char)
    : value? ('\x7b' :: (v.chars ++ ['\x7d']) ++ rest)
      = some (.expression v.chars, ('\x7b' :: (v.chars ++ ['\x7d'])).length) := by
  have opened : Passes (closingBrace? false false 0) ['\x7b'] (closingBrace? false false 1) := by
    intro rest
    simp [closingBrace?]
  have inside := braceSearch_closingBrace?.passes (enclosable_chars v) 0
  have found
      : closingBrace? false false 0 ('\x7b' :: (v.chars ++ '\x7d' :: rest))
        = some (v.chars.length + 1) :=
    (opened.cons inside).stop (by simp [closingBrace?])
  simp [value?, found, trim_chars]

-----------------------------------------------------------------------------------------
-- Attributes
-----------------------------------------------------------------------------------------

/-- The blank before a name is skipped. -/
theorem dropWhile_name {c : Char} (start : isNameStart c = true) (rest : List Char)
    : (' ' :: c :: rest).dropWhile Text.isBlank = c :: rest := by
  have visible : Text.isBlank c = false :=
    not_isBlank_of_isTagNameChar (isTagNameChar_of_isNameStart start)
  rw [List.dropWhile_cons_of_pos (by decide), List.dropWhile_cons_of_neg (by simp [visible])]

/-- A name is an attribute without a value, unless an equals sign comes after it. -/
theorem attributes?_flag {name : List Char} (named : IsName name) {rest : List Char}
    (stops : ∀ c ∈ rest.head?, isTagNameChar c = false)
    (noValue : ∀ source, rest.dropWhile Text.isBlank ≠ '=' :: source)
    : attributes? (' ' :: (name ++ rest)) = (attributes? rest).map ((name, .flag) :: ·) := by
  obtain ⟨c, more, rfl, start, chars⟩ := named.exists_cons
  have started : (' ' :: (c :: more ++ rest)).dropWhile Text.isBlank = c :: (more ++ rest) :=
    dropWhile_name start _
  rw [attributes?]
  split
  · next none => cases started.symm.trans none
  · next d others whole =>
      obtain ⟨rfl, rfl⟩ := List.cons.inj (started.symm.trans whole)
      -- That no equals sign follows decides the match, which simp takes from the context.
      simp only [start, leadingName_append chars stops, List.drop_left, blanks,
        Text.drop_length_takeWhile, Bool.not_true, Bool.false_eq_true, if_false]

/-- An equals sign after a name has the value of the attribute after it. -/
theorem attributes?_value {name : List Char} (named : IsName name) {first : Char}
    (visible : Text.isBlank first = false) {source rest : List Char} {value : AttributeValue}
    (read : value? (first :: source ++ rest) = some (value, (first :: source).length))
    : attributes? (' ' :: (name ++ '=' :: (first :: source ++ rest)))
      = (attributes? rest).map ((name, value) :: ·) := by
  obtain ⟨c, more, rfl, start, chars⟩ := named.exists_cons
  have leading : leadingName (more ++ '=' :: (first :: source ++ rest)) = more :=
    leadingName_append chars (by rintro d head; obtain rfl := Option.some.inj head; decide)
  have noBlanks : blanks ('=' :: (first :: source ++ rest)) = 0 := rfl
  have noBlanks' : blanks (first :: source ++ rest) = 0 := by simp [blanks, visible]
  have used
      : (more ++ '=' :: (first :: source ++ rest)).drop
          (more.length + 0 + 1 + 0 + (first :: source).length) = rest := by
    have whole
        : more ++ '=' :: (first :: source ++ rest) = (more ++ '=' :: first :: source) ++ rest := by
      simp
    rw [whole]
    refine List.drop_left' ?_
    simp
    omega
  have started
      : (' ' :: (c :: more ++ '=' :: (first :: source ++ rest))).dropWhile Text.isBlank
        = c :: (more ++ '=' :: (first :: source ++ rest)) :=
    dropWhile_name start _
  rw [attributes?]
  split
  · next none => cases started.symm.trans none
  · next d others whole =>
      obtain ⟨rfl, rfl⟩ := List.cons.inj (started.symm.trans whole)
      simp only [start, leading, List.drop_left, noBlanks, List.drop_zero, noBlanks', read, used,
        Bool.not_true, Bool.false_eq_true, if_false]

def StartsBlank (s : List Char) : Prop :=
  ∀ c ∈ s.head?, Text.isBlank c = true

theorem StartsBlank.cons {c : Char} (h : Text.isBlank c = true) (s : List Char)
    : StartsBlank (c :: s) := by
  intro d head
  obtain rfl := Option.some.inj head
  exact h

/-- Written attributes start with a blank, if what comes after them does. -/
theorem StartsBlank.writeAttributes {last : List Char} (h : StartsBlank last)
    : StartsBlank (writeAttributes attributes ++ last) := by
  cases attributes with
  | nil => exact h
  | cons entry attributes => exact .cons (by decide) _

/-- No blank is in a name, so that a name ends where blanks start. -/
theorem StartsBlank.stops {s : List Char} (h : StartsBlank s)
    : ∀ c ∈ s.head?, isTagNameChar c = false := by
  intro c head
  refine Bool.eq_false_iff.mpr fun inName => ?_
  cases (h c head).symm.trans (not_isBlank_of_isTagNameChar inName)

/-- No value comes after the blanks where written attributes start. -/
theorem dropWhile_writeAttributes_ne {last : List Char} (h : AreWritable attributes)
    (blank : ∀ c ∈ last, Text.isBlank c = true) (source : List Char)
    : (writeAttributes attributes ++ last).dropWhile Text.isBlank ≠ '=' :: source := by
  cases attributes with
  | nil =>
      have none : last.dropWhile Text.isBlank = [] := List.dropWhile_eq_nil_iff.mpr blank
      simp [writeAttributes, none]
  | cons entry attributes =>
      obtain ⟨name, value⟩ := entry
      obtain ⟨c, more, same, start, -⟩ := (h _ List.mem_cons_self).1.exists_cons
      obtain rfl : name = c :: more := same
      intro equal
      have first := (List.cons.inj ((dropWhile_name start _).symm.trans equal)).1
      rw [first] at start
      cases start

/-- Written attributes are read as they were written, by induction on them. -/
theorem attributes?_writeAttributes (h : AreWritable attributes) {last : List Char}
    (blank : ∀ c ∈ last, Text.isBlank c = true)
    : attributes? (writeAttributes attributes ++ last) = some attributes := by
  induction attributes with
  | nil =>
      have none : last.dropWhile Text.isBlank = [] := List.dropWhile_eq_nil_iff.mpr blank
      rw [attributes?]
      split
      · rfl
      · next c rest whole => cases none.symm.trans whole
  | cons entry attributes ih =>
      obtain ⟨name, value⟩ := entry
      obtain ⟨⟨named, writable⟩, later⟩ := List.forall_mem_cons.mp h
      have rest : attributes? (writeAttributes attributes ++ last) = some attributes := ih later
      cases value with
      | flag =>
          have starts : StartsBlank (writeAttributes attributes ++ last) :=
            StartsBlank.writeAttributes fun c head => blank c (List.mem_of_mem_head? head)
          have noValue := dropWhile_writeAttributes_ne later blank
          have read := attributes?_flag named starts.stops noValue
          simpa [AttributeValue.write, rest] using read
      | literal text =>
          have value := value?_literal text (writeAttributes attributes ++ last)
          have read := attributes?_value named (by decide) value
          simpa [AttributeValue.write, rest] using read
      | expression text =>
          obtain ⟨v, rfl⟩ := writable
          have value := value?_expression v (writeAttributes attributes ++ last)
          have read := attributes?_value named (by decide) value
          simpa [AttributeValue.write, rest] using read

-----------------------------------------------------------------------------------------
-- Tags
-----------------------------------------------------------------------------------------

/-- A written attribute ends neither in a blank nor in a slash. -/
theorem exists_last_attribute {name : List Char} (named : IsName name) (value : AttributeValue)
    : ∃ front last,
        ' ' :: (name ++ value.write) = front ++ [last]
        ∧ Text.isBlank last = false
        ∧ last ≠ '/' := by
  cases value with
  | flag =>
      rcases List.eq_nil_or_concat' name with rfl | ⟨front, last, rfl⟩
      · cases named.start
      · have inName : isTagNameChar last = true := named.chars last (by simp)
        refine ⟨' ' :: front, last, by simp [AttributeValue.write],
          not_isBlank_of_isTagNameChar inName, ?_⟩
        rintro rfl
        cases inName
  | literal text =>
      exact ⟨' ' :: (name ++ '=' :: '"' :: writeText ['&', '"'] text), '"',
        by simp [AttributeValue.write], by decide, by decide⟩
  | expression text =>
      exact ⟨' ' :: (name ++ '=' :: '\x7b' :: text), '\x7d',
        by simp [AttributeValue.write], by decide, by decide⟩

/-- Written attributes lose nothing at their end, where no slash closes the tag. -/
theorem trimEnd_writeAttributes (h : AreWritable attributes)
    : Text.trimEnd (writeAttributes attributes) = writeAttributes attributes
      ∧ (writeAttributes attributes).getLast? ≠ some '/' := by
  rcases List.eq_nil_or_concat' attributes with rfl | ⟨before, ⟨name, value⟩, rfl⟩
  · exact ⟨rfl, nofun⟩
  · obtain ⟨front, last, written, visible, noSlash⟩ :=
      exists_last_attribute (h (name, value) (by simp)).1 value
    have whole
        : writeAttributes (before ++ [(name, value)])
          = (writeAttributes before ++ front) ++ [last] := by
      rw [List.append_assoc, ← written]
      simp [writeAttributes]
    rw [whole, Text.trimEnd_concat visible]
    exact ⟨rfl, by simpa using noSlash⟩

/-- A written closing tag is read, whatever comes after it. -/
theorem tag?_closing {name : List Char} (named : IsName name) (rest : List Char)
    : tag? ((Token.closing name).write ++ rest)
      = some ((Token.closing name).write.length, .closing name) := by
  have leading : leadingName (name ++ '>' :: rest) = name :=
    leadingName_append named.chars (by rintro c head; obtain rfl := Option.some.inj head; decide)
  have noBlanks : blanks ('>' :: rest) = 0 := rfl
  have isTag : isTagName name = true := named.start
  simp [Token.write, tag?, leading, noBlanks, isTag]

/-- An opening tag is read from its name and what comes after it: without blanks at its end and the
slash that closes the tag, that is the attributes.
-/
theorem tag?_of_tail {name tail s : List Char} (selfClosing : Bool) (named : IsName name)
    (passes : Passes findTagEnd? tail findTagEnd?) (tailBlank : StartsBlank tail)
    (closes : ((Text.trimEnd tail).getLast? == some '/') = selfClosing)
    (kept : (if selfClosing then (Text.trimEnd tail).dropLast else Text.trimEnd tail) = s)
    (starts : StartsBlank s) (read : attributes? s = some attributes) (rest : List Char)
    : tag? ('<' :: (name ++ tail ++ ['>']) ++ rest)
      = some (('<' :: (name ++ tail ++ ['>'])).length, .opening name attributes selfClosing) := by
  have stop : findTagEnd? (name ++ tail ++ '>' :: rest) = some (name ++ tail).length :=
    ((passes_name named.chars).append passes).stop rfl
  have leading : leadingName (name ++ tail) = name :=
    leadingName_append named.chars tailBlank.stops
  have isTag : isTagName (name ++ tail ++ '>' :: rest) = true := by
    obtain ⟨c, more, rfl, start, -⟩ := named.exists_cons
    exact start
  have noSlash (after : List Char) : name ++ tail ++ '>' :: rest ≠ '/' :: after := by
    intro slash
    rw [slash] at isTag
    cases isTag
  have accepted : (!s.isEmpty && !s.head?.any Text.isBlank) = false := by
    cases s with
    | nil => rfl
    | cons c s => simp [starts c rfl]
  have whole : '<' :: (name ++ tail ++ ['>']) ++ rest = '<' :: (name ++ tail ++ '>' :: rest) := by
    simp
  have length : ('<' :: (name ++ tail ++ ['>'])).length = (name ++ tail).length + 2 := by
    simp [Nat.add_assoc]
  rw [whole, length, tag?]
  · simp only [isTag, stop, List.take_left, leading, List.drop_left, closes, kept, accepted, read,
      Bool.not_true, Bool.false_eq_true, if_false, Option.map_some]
  · exact noSlash

/-- A written opening tag is read, whatever comes after it. -/
theorem tag?_opening {name : List Char} (named : IsName name) (h : AreWritable attributes)
    (selfClosing : Bool) (rest : List Char)
    : tag? ((Token.opening name attributes selfClosing).write ++ rest)
      = some ((Token.opening name attributes selfClosing).write.length,
          .opening name attributes selfClosing) := by
  have passes := passes_writeAttributes h
  obtain ⟨trimmed, noSlash⟩ := trimEnd_writeAttributes h
  cases selfClosing with
  | false =>
      have written
          : (Token.opening name attributes false).write
            = '<' :: (name ++ writeAttributes attributes ++ ['>']) := by
        simp [Token.write]
      have starts : StartsBlank (writeAttributes attributes ++ []) := .writeAttributes nofun
      have read : attributes? (writeAttributes attributes ++ []) = some attributes :=
        attributes?_writeAttributes h nofun
      rw [List.append_nil] at starts read
      rw [written]
      exact tag?_of_tail false named passes starts (by simpa [trimmed] using noSlash) trimmed starts
        read rest
  | true =>
      have written
          : (Token.opening name attributes true).write
            = '<' :: (name ++ (writeAttributes attributes ++ [' ', '/']) ++ ['>']) := by
        simp [Token.write]
      have passesSlash : Passes findTagEnd? [' ', '/'] findTagEnd? :=
        passes_plain (by simp [IsPlain])
      have starts (last : List Char) : StartsBlank (writeAttributes attributes ++ ' ' :: last) :=
        .writeAttributes (.cons (by decide) last)
      have read : attributes? (writeAttributes attributes ++ [' ']) = some attributes :=
        attributes?_writeAttributes h (List.forall_mem_singleton.mpr rfl)
      have slash
          : Text.trimEnd (writeAttributes attributes ++ [' ', '/'])
            = (writeAttributes attributes ++ [' ']) ++ ['/'] := by
        rw [← Text.trimEnd_concat (by decide)]
        simp
      rw [written]
      exact tag?_of_tail true named (passes.append passesSlash) (starts ['/']) (by simp [slash])
        (by rw [slash]; simp) (starts []) read rest

end Folio.Document.Markup
