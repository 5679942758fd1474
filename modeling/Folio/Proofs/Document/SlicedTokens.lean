import Folio.Document.Markup
import Folio.Proofs.Document.Marks
import Folio.Proofs.Text.Bytes

/-! The tokens of markup by offsets in its bytes. Each step takes slices, subtracts lengths and
counts braces, and fails where that is not possible; that it never fails, and gives the tokens that
reading character by character gives, is shown function by function.
-/

namespace Folio.Document.Markup.Sliced

open Text (OffsetFault findChar? findText? minus offsetOf size slice sliceFrom sliceTo)

-----------------------------------------------------------------------------------------
-- Reading by offsets
-----------------------------------------------------------------------------------------

def name (s : List Char) : Except OffsetFault (List Char × List Char) :=
  Text.cutAt ((findChar? (!isTagNameChar ·) s).getD (size s)) s

/-- The offset of the brace that closes the first one of a text. -/
def closingBrace (inString escaped : Bool) (depth offset : Nat)
    : List Char → Except OffsetFault (Option Nat)
  | [] => .ok none
  | c :: rest =>
      let next := offset + c.utf8Size
      if inString then
        if escaped then closingBrace true false depth next rest
        else if c == '\\' then closingBrace true true depth next rest
        else if c == '"' then closingBrace false escaped depth next rest
        else closingBrace true escaped depth next rest
      else if c == '"' then closingBrace true escaped depth next rest
      else if c == '\x7b' then closingBrace false escaped (depth + 1) next rest
      else if c == '\x7d' then do
        let depth ← minus depth 1
        if depth == 0 then return some offset
        closingBrace false escaped depth next rest
      else closingBrace false escaped depth next rest

def value (s : List Char) : Except OffsetFault (Option (AttributeValue × List Char)) :=
  match s with
  | [] => .ok none
  | c :: _ =>
      if c == '"' || c == '\'' then do
        let body ← sliceFrom 1 s
        match findChar? (· == c) body with
        | none => return none
        | some stop =>
            let text ← sliceTo stop body
            let rest ← sliceFrom (stop + 1) body
            return some (.literal (decodeEntities text), rest)
      else if c == '\x7b' then do
        match ← closingBrace false false 0 0 s with
        | none => return none
        | some stop =>
            let text ← slice 1 stop s
            let rest ← sliceFrom (stop + 1) s
            return some (.expression (Text.trim text), rest)
      else do
        let stop := (findChar? Text.isBlank s).getD (size s)
        let text ← sliceTo stop s
        let rest ← sliceFrom stop s
        return some (.literal text, rest)

def attributes
    : (fuel : Nat) → List Char → Except OffsetFault (Option (List (List Char × AttributeValue)))
  | 0, _ => .error .endless
  | fuel + 1, s => do
      let s := Text.trimStart s
      if s.isEmpty then return some []
      let (name, rest) ← name s
      if !isTagName name then return none
      match Text.trimStart rest with
      | '=' :: source =>
          match ← value (Text.trimStart source) with
          | none => return none
          | some (value, rest) =>
              let later ← attributes fuel rest
              return later.map ((name, value) :: ·)
      | _ =>
          let later ← attributes fuel rest
          return later.map ((name, .flag) :: ·)

def tag (s : List Char) : Except OffsetFault (Option (Nat × Token)) :=
  match s with
  | '<' :: '/' :: after => do
      let (name, rest) ← name after
      if !isTagName name then return none
      let rest := Text.trimStart rest
      if rest.head? != some '>' then return none
      let before ← minus (size s) (size rest)
      return some (before + 1, .closing name)
  | '<' :: after =>
      if !isTagName after then .ok none
      else
        match (findTagEnd? after).map (offsetOf after) with
        | none => .ok none
        | some stop => do
            let inner ← sliceTo stop after
            let (name, rest) ← name inner
            let rest := Text.trimEnd rest
            let selfClosing := rest.getLast? == some '/'
            let rest := if selfClosing then rest.dropLast else rest
            if !rest.isEmpty && !rest.head?.any Text.isBlank then return none
            let attributes ← attributes (size rest + 1) rest
            return attributes.map fun attributes =>
              (stop + 2, .opening name attributes selfClosing)
  | _ => .ok none

def marked (s : List Char) : Except OffsetFault (Option (Nat × Option Token)) :=
  if Text.startsWith "<!--".toList s then
    .ok (some (((findText? "-->".toList s).map (· + 3)).getD (size s), none))
  else do
    let found ← tag s
    return found.map fun (n, token) => (n, some token)

/-- The tokens of a markup from the offset `place` on; the text since `textStart` has no token yet.
-/
def tokensFrom (html : List Char) : (fuel place textStart : Nat) → Except OffsetFault (List Placed)
  | 0, _, _ => .error .endless
  | fuel + 1, place, textStart => do
      let rest ← sliceFrom place html
      match findChar? (· == '<') rest with
      | none =>
          let text ← sliceFrom textStart html
          return textToken textStart text
      | some n =>
          let start := place + n
          let rest ← sliceFrom start html
          match ← marked rest with
          | none => tokensFrom html fuel (start + 1) textStart
          | some (length, token) =>
              let text ← slice textStart start html
              let later ← tokensFrom html fuel (start + length) (start + length)
              return textToken textStart text ++ (token.map (Placed.mk start)).toList ++ later

def tokens (html : List Char) : Except OffsetFault (List Placed) :=
  tokensFrom html (size html + 1) 0 0

-----------------------------------------------------------------------------------------
-- Names, braces and values
-----------------------------------------------------------------------------------------

theorem name_eq (s : List Char)
    : name s = .ok (leadingName s, s.drop (leadingName s).length) := by
  rw [name, Text.findChar?_getD]
  simp only [Bool.not_not]
  rw [Text.cutAt_takeWhile, leadingName, Text.drop_length_takeWhile]

/-- In braces that are open, none is closed that was not opened. By induction on the text: at least
one brace is open until the last one is closed.
-/
theorem closingBrace_eq {inString escaped : Bool} {depth : Nat} (isOpen : 0 < depth)
    (visible : inString = true ∨ escaped = false) (offset : Nat) (s : List Char)
    : closingBrace inString escaped depth offset s
      = .ok ((closingBrace? inString escaped depth s).map (offset + offsetOf s ·)) := by
  induction s generalizing inString escaped depth offset with
  | nil => rfl
  | cons c s ih =>
      have later (found : Option Nat)
          : found.map (offset + c.utf8Size + offsetOf s ·)
            = (found.map (· + 1)).map (offset + offsetOf (c :: s) ·) := by
        rw [Option.map_map]
        refine congrArg (Option.map · found) (funext fun n => ?_)
        rw [Function.comp_apply, Text.offsetOf_cons_succ, Nat.add_assoc]
      unfold closingBrace closingBrace?
      cases inString with
      | true =>
          cases escaped with
          | true =>
              simp only [if_true]
              rw [ih isOpen (.inl rfl), later]
          | false =>
              simp only [if_true, Bool.false_eq_true, if_false]
              split
              · rw [ih isOpen (.inl rfl), later]
              · split
                · rw [ih isOpen (.inr rfl), later]
                · rw [ih isOpen (.inl rfl), later]
      | false =>
          obtain rfl : escaped = false := by simpa using visible
          simp only [Bool.false_eq_true, if_false]
          split
          · rw [ih isOpen (.inl rfl), later]
          · split
            · rw [ih (Nat.succ_pos depth) (.inr rfl), later]
            · split
              · have less : minus depth 1 = .ok (depth - 1) := if_pos isOpen
                rw [less]
                by_cases last : depth ≤ 1
                · obtain rfl : depth = 1 := Nat.le_antisymm last isOpen
                  simp [pure, Except.pure, Text.ok_bind]
                · have more : (depth - 1 == 0) = false := by
                    rw [beq_eq_false_iff_ne]
                    omega
                  simp only [Text.ok_bind, more, Bool.false_eq_true, if_false, if_neg last]
                  rw [ih (by omega) (.inr rfl), later]
              · rw [ih isOpen (.inr rfl), later]

/-- A brace stands where one closes. -/
theorem getElem?_of_closingBrace? {inString escaped : Bool} {depth : Nat} {s : List Char} {n : Nat}
    (found : closingBrace? inString escaped depth s = some n)
    : s[n]? = some '\x7d' := by
  induction s generalizing inString escaped depth n with
  | nil => cases found
  | cons c s ih =>
      have later {inString escaped : Bool} {depth : Nat}
          (found : (closingBrace? inString escaped depth s).map (· + 1) = some n)
          : (c :: s)[n]? = some '\x7d' := by
        obtain ⟨before, foundLater, rfl⟩ := Option.map_eq_some_iff.mp found
        exact ih foundLater
      unfold closingBrace? at found
      split at found
      · split at found
        · exact later found
        · split at found
          · exact later found
          · split at found <;> exact later found
      · split at found
        · exact later found
        · split at found
          · exact later found
          · split at found
            · next closes =>
                split at found
                · obtain rfl := Option.some.inj found
                  exact congrArg some (beq_iff_eq.mp closes)
                · exact later found
            · exact later found

/-- A value in quotes goes on to the next quote of the same kind. -/
theorem value_quoted_eq {c : Char} (quote : (c == '"' || c == '\'') = true) (rest : List Char)
    : value (c :: rest)
      = .ok ((value? (c :: rest)).map fun (value, n) => (value, (c :: rest).drop n)) := by
  have width : size [c] = 1 := by
    rw [Bool.or_eq_true, beq_iff_eq, beq_iff_eq] at quote
    rcases quote with rfl | rfl <;> rfl
  have body : sliceFrom 1 (c :: rest) = .ok rest :=
    width ▸ Text.sliceFrom_append [c] rest
  unfold value value?
  simp only [quote, if_true, body, Text.ok_bind]
  cases found : findChar? (· == c) rest with
  | none =>
      have all : rest.takeWhile (· != c) = rest :=
        List.takeWhile_eq_self_iff.mpr fun x member => by
          rw [bne, Text.findChar?_eq_none found x member]
          rfl
      rw [all, if_neg (Nat.lt_irrefl _)]
      rfl
  | some stop =>
      obtain ⟨text, x, after, rfl, rfl, same, noQuote⟩ := Text.findChar?_eq_some found
      obtain rfl : x = c := by simpa using same
      have inside : (text ++ x :: after).takeWhile (· != x) = text := by
        refine Text.takeWhile_append_stop (p := (· != x)) (fun y member => ?_)
          (bne_self_eq_false x) after
        rw [bne, noQuote y member]
        rfl
      have shorter : text.length < (text ++ x :: after).length := by simp
      have rest : sliceFrom (size text + 1) (text ++ x :: after) = .ok after := by
        rw [← width, ← Text.size_append, List.append_cons text x after, Text.sliceFrom_append]
      simp only [Text.sliceTo_append, rest, Text.ok_bind, inside, if_pos shorter]
      simp [pure, Except.pure]

/-- A value in braces goes on to the brace that closes the first one. -/
theorem value_braced_eq (rest : List Char)
    : value ('\x7b' :: rest)
      = .ok ((value? ('\x7b' :: rest)).map fun (value, n) => (value, ('\x7b' :: rest).drop n)) := by
  have opened
      : closingBrace false false 0 0 ('\x7b' :: rest)
        = closingBrace false false 1 (size ['\x7b']) rest :=
    rfl
  have opened?
      : closingBrace? false false 0 ('\x7b' :: rest)
        = (closingBrace? false false 1 rest).map (· + 1) :=
    rfl
  have noQuote : ('\x7b' == '"' || '\x7b' == '\'') = false := rfl
  unfold value value?
  simp only [noQuote, Bool.false_eq_true, if_false, beq_self_eq_true, if_true]
  rw [opened, opened?, closingBrace_eq Nat.one_pos (.inr rfl), Text.ok_bind]
  cases found : closingBrace? false false 1 rest with
  | none => rfl
  | some n =>
      have closes : ('\x7b' :: rest)[n + 1]? = some '\x7d' :=
        List.getElem?_cons_succ.trans (getElem?_of_closingBrace? found)
      have stop : size ['\x7b'] + offsetOf rest n = offsetOf ('\x7b' :: rest) (n + 1) :=
        (Text.offsetOf_cons_succ '\x7b' rest n).symm
      have after : offsetOf ('\x7b' :: rest) (n + 1) + 1 = offsetOf ('\x7b' :: rest) (n + 2) :=
        (Text.offsetOf_succ closes).symm
      have text := Text.slice_offsetOf ('\x7b' :: rest) (Nat.succ_pos n)
      have first : offsetOf ('\x7b' :: rest) (Nat.succ 0) = 1 := rfl
      rw [first] at text
      simp only [Option.map_some, stop, after, text, Text.sliceFrom_offsetOf, Text.ok_bind]
      rfl

theorem value_eq (s : List Char)
    : value s = .ok ((value? s).map fun (value, n) => (value, s.drop n)) := by
  match s with
  | [] => rfl
  | c :: rest =>
      by_cases quote : (c == '"' || c == '\'') = true
      · exact value_quoted_eq quote rest
      · by_cases brace : (c == '\x7b') = true
        · obtain rfl : c = '\x7b' := by simpa using brace
          exact value_braced_eq rest
        · unfold value value?
          simp only [quote, brace, Bool.false_eq_true, if_false]
          rw [Text.findChar?_getD, sliceTo, sliceFrom, Text.cutAt_takeWhile,
            ← Text.drop_length_takeWhile]
          rfl

-----------------------------------------------------------------------------------------
-- Attributes and tags
-----------------------------------------------------------------------------------------

theorem length_trimStart_le (s : List Char) : (Text.trimStart s).length ≤ s.length :=
  (List.dropWhile_sublist Text.isBlank).length_le

/-- Blanks have no attributes. -/
theorem attributes?_of_blank {s : List Char} (blank : s.dropWhile Text.isBlank = [])
    : attributes? s = some [] := by
  rw [attributes?]
  split
  · rfl
  · next whole => cases blank.symm.trans whole

/-- What starts no name is no attribute. -/
theorem attributes?_of_not_start {s : List Char} {c : Char} {rest : List Char}
    (first : s.dropWhile Text.isBlank = c :: rest) (noStart : isNameStart c = false)
    : attributes? s = none := by
  rw [attributes?]
  split
  · next none => cases first.symm.trans none
  · next whole =>
      obtain ⟨rfl, rfl⟩ := List.cons.inj (first.symm.trans whole)
      rw [noStart, Bool.not_false, if_pos rfl]

/-- An attribute at the start of a text, and the attributes after it. -/
theorem attributes?_of_name {s : List Char} {c : Char} {rest : List Char}
    (first : s.dropWhile Text.isBlank = c :: rest) (start : isNameStart c = true)
    : attributes? s
      = match Text.trimStart (rest.drop (leadingName rest).length) with
        | '=' :: source =>
            (value? (Text.trimStart source)).bind fun (value, n) =>
              (attributes? ((Text.trimStart source).drop n)).map
                ((c :: leadingName rest, value) :: ·)
        | _ =>
            (attributes? (rest.drop (leadingName rest).length)).map
              ((c :: leadingName rest, .flag) :: ·) := by
  rw [attributes?]
  split
  · next none => cases first.symm.trans none
  · next d others whole =>
      obtain ⟨rfl, rfl⟩ := List.cons.inj (first.symm.trans whole)
      simp only [start, Bool.not_true, Bool.false_eq_true, if_false]
      split
      · next source value =>
          have after (n : Nat)
              : rest.drop ((leadingName rest).length + blanks (rest.drop (leadingName rest).length)
                  + 1 + blanks source + n)
                = (Text.trimStart source).drop n := by
            rw [← List.drop_drop, ← List.drop_drop, ← List.drop_drop, ← List.drop_drop, value,
              List.drop_one, List.tail_cons, drop_blanks]
          rw [← drop_blanks, value]
          simp only [after, drop_blanks]
          cases value? (Text.trimStart source) <;> rfl
      · next noValue =>
          rw [drop_blanks] at noValue
          split
          · next source value => exact absurd value (noValue source)
          · rfl

/-- The name at the start of a text is one if the text starts like one. -/
theorem isTagName_leadingName (s : List Char) : isTagName (leadingName s) = isTagName s := by
  cases s with
  | nil => rfl
  | cons c rest =>
      have first : isTagName (c :: rest) = isNameStart c := rfl
      rw [leadingName, first]
      cases start : isNameStart c with
      | true =>
          rw [List.takeWhile_cons_of_pos (isTagNameChar_of_isNameStart start)]
          exact start
      | false =>
          rw [List.takeWhile_cons]
          split
          · exact start
          · rfl

/-- As many steps as the text has characters are enough for its attributes, by induction on them. -/
theorem attributes_eq {fuel : Nat} {s : List Char} (enough : s.length < fuel)
    : attributes fuel s = .ok (attributes? s) := by
  induction fuel generalizing s with
  | zero => exact absurd enough (Nat.not_lt_zero _)
  | succ fuel ih =>
      unfold attributes
      cases first : s.dropWhile Text.isBlank with
      | nil =>
          rw [attributes?_of_blank first, Text.trimStart, first]
          rfl
      | cons c rest =>
          have shorter : rest.length < fuel := by
            have trimmed := length_trimStart_le s
            rw [Text.trimStart, first, List.length_cons] at trimmed
            omega
          rw [Text.trimStart, first]
          simp only [List.isEmpty_cons, Bool.false_eq_true, if_false, name_eq, Text.ok_bind,
            isTagName_leadingName]
          have isName : isTagName (c :: rest) = isNameStart c := rfl
          cases start : isNameStart c with
          | false =>
              rw [attributes?_of_not_start first start, isName, start]
              rfl
          | true =>
              have named : leadingName (c :: rest) = c :: leadingName rest :=
                List.takeWhile_cons_of_pos (isTagNameChar_of_isNameStart start)
              rw [attributes?_of_name first start, isName, start, named, List.length_cons,
                List.drop_succ_cons]
              simp only [Bool.not_true, Bool.false_eq_true, if_false]
              split
              · next source value =>
                  rw [value_eq, Text.ok_bind]
                  cases value? (Text.trimStart source) with
                  | none => rfl
                  | some found =>
                      have less : ((Text.trimStart source).drop found.2).length < fuel := by
                        have afterEquals := congrArg List.length value
                        have afterName := length_trimStart_le (rest.drop (leadingName rest).length)
                        have afterBlanks := length_trimStart_le source
                        rw [List.length_drop] at afterName
                        rw [List.length_cons] at afterEquals
                        rw [List.length_drop]
                        omega
                      rw [Option.map_some, Option.bind_some]
                      simp only [ih less, Text.ok_bind]
                      rfl
              · rw [ih]
                · rfl
                · rw [List.length_drop]
                  omega

/-- A closing tag ends after a `>`, so that its length is found in bytes. -/
theorem tag_closing_eq (after : List Char)
    : tag ('<' :: '/' :: after)
      = .ok ((tag? ('<' :: '/' :: after)).map fun (n, token) =>
          (offsetOf ('<' :: '/' :: after) n, token)) := by
  unfold tag
  rw [tag?]
  simp only [name_eq, Text.ok_bind, ← drop_blanks]
  cases isTagName (leadingName after) with
  | false => rfl
  | true =>
      generalize place : blanks (after.drop (leadingName after).length) = n
      have rest
          : (after.drop (leadingName after).length).drop n
            = ('<' :: '/' :: after).drop ((leadingName after).length + n + 2) := by
        rw [List.drop_drop]
        rfl
      by_cases closes : ((after.drop (leadingName after).length).drop n).head? = some '>'
      · have found : ('<' :: '/' :: after)[(leadingName after).length + n + 2]? = some '>' := by
          rw [← closes, rest, List.head?_drop]
        have stop := Text.offsetOf_succ found
        have before := Text.minus_add_right
          (offsetOf ('<' :: '/' :: after) ((leadingName after).length + n + 2))
          (size (('<' :: '/' :: after).drop ((leadingName after).length + n + 2)))
        rw [← Text.size_eq_add, ← rest] at before
        simp only [closes, before, Text.ok_bind, bne_self_eq_false, beq_self_eq_true,
          Bool.not_true, Bool.true_and, Bool.false_eq_true, if_false, if_true]
        rw [Option.map_some, stop]
        rfl
      · simp only [bne_iff_ne.mpr closes, beq_eq_false_iff_ne.mpr closes, Bool.not_true,
          Bool.and_false, Bool.false_eq_true, if_false, if_true]
        rfl

/-- The attributes of an opening tag are read from what stands before its `>`. -/
theorem tag_opening_eq {after : List Char} (notClosing : ∀ rest, after ≠ '/' :: rest)
    : tag ('<' :: after)
      = .ok ((tag? ('<' :: after)).map fun (n, token) => (offsetOf ('<' :: after) n, token)) := by
  rw [tag.eq_2 after notClosing, tag?.eq_2 after notClosing]
  cases isTagName after with
  | false => rfl
  | true =>
      cases found : findTagEnd? after with
      | none => rfl
      | some stop =>
          have ends : ('<' :: after)[stop + 1]? = some '>' :=
            List.getElem?_cons_succ.trans (getElem?_of_tagEnd? found)
          have place : offsetOf ('<' :: after) (stop + 2) = offsetOf after stop + 2 := by
            rw [Text.offsetOf_succ ends, Text.offsetOf_cons_succ, Nat.add_comm ('<'.utf8Size)]
            rfl
          simp only [Bool.not_true, Bool.false_eq_true, if_false, Option.map_some,
            Text.sliceTo_offsetOf, Text.ok_bind, name_eq]
          generalize Text.trimEnd _ = trimmed
          generalize (if (trimmed.getLast? == some '/') = true then trimmed.dropLast
            else trimmed) = rest
          rw [attributes_eq (Nat.lt_succ_of_le (Text.length_le_size rest))]
          split
          · rfl
          · cases attributes? rest with
            | none => rfl
            | some attributes =>
                rw [Text.ok_bind, Option.map_some, Option.map_some, Option.map_some, place]
                rfl

theorem tag_eq (s : List Char)
    : tag s = .ok ((tag? s).map fun (n, token) => (offsetOf s n, token)) := by
  unfold tag
  split
  · next after => exact tag_closing_eq after
  · next after notClosing =>
      exact (tag.eq_2 after notClosing).symm.trans (tag_opening_eq notClosing)
  · next noClosing noOpening =>
      rw [tag?.eq_3 s noClosing noOpening]
      rfl

-----------------------------------------------------------------------------------------
-- Comments and tokens
-----------------------------------------------------------------------------------------

/-- Where another text ends that stands in a text for the first time. -/
theorem findText?_eq (part s : List Char)
    : (findText? part s).map (· + size part)
      = (Markdown.Html.lengthThrough? part s).map (offsetOf s) := by
  induction s with
  | nil => rfl
  | cons c s ih =>
      unfold findText? Markdown.Html.lengthThrough?
      by_cases here : part <+: c :: s
      · obtain ⟨rest, whole⟩ := here
        have starts : Text.startsWith part (c :: s) = true := Text.startsWith_iff.mpr ⟨rest, whole⟩
        have taken : ((c :: s).take part.length == part) = true := by
          rw [← whole, List.take_left, beq_self_eq_true]
        rw [starts, taken, if_pos rfl, if_pos rfl, Option.map_some, Option.map_some, ← whole,
          Text.offsetOf_append_length, Nat.zero_add]
      · have starts : Text.startsWith part (c :: s) = false :=
          Bool.eq_false_iff.mpr (mt Text.startsWith_iff.mp here)
        have taken : ((c :: s).take part.length == part) = false := by
          refine beq_eq_false_iff_ne.mpr fun same => here ?_
          rw [← same]
          exact List.take_prefix _ _
        have later (found : Option Nat)
            : (found.map (c.utf8Size + ·)).map (· + size part)
              = (found.map (· + size part)).map (c.utf8Size + ·) := by
          cases found with
          | none => rfl
          | some n => simp [Nat.add_assoc]
        rw [starts, taken, if_neg Bool.false_ne_true, if_neg Bool.false_ne_true, later, ih]
        cases Markdown.Html.lengthThrough? part s with
        | none => rfl
        | some n => simp [Text.offsetOf_cons_succ]

theorem marked_eq (s : List Char)
    : marked s = .ok ((marked? s).map fun (n, token) => (offsetOf s n, token)) := by
  unfold marked marked?
  split
  · have close : ((findText? "-->".toList s).map (· + 3))
        = (Markdown.Html.lengthThrough? "-->".toList s).map (offsetOf s) :=
      findText?_eq _ s
    rw [close]
    cases Markdown.Html.lengthThrough? "-->".toList s with
    | none => simp
    | some n => rfl
  · rw [tag_eq, Text.ok_bind]
    cases tag? s <;> rfl

def atByte (html : List Char) (placed : Placed) : Placed :=
  { placed with offset := offsetOf html placed.offset }

theorem textToken_atByte (html : List Char) (place : Nat) (text : List Char)
    : (textToken place text).map (atByte html) = textToken (offsetOf html place) text := by
  unfold textToken
  split <;> rfl

section

variable {html front text after : List Char}

theorem sliceFrom_pending (whole : html = front ++ (text ++ after))
    : sliceFrom (size front + size text) html = .ok after := by
  rw [whole, ← Text.size_append, ← List.append_assoc, Text.sliceFrom_append]

theorem slice_pending (whole : html = front ++ (text ++ after))
    : slice (size front) (size front + size text) html = .ok text := by
  rw [whole, Text.slice_append]

theorem offsetOf_pending (whole : html = front ++ (text ++ after))
    : offsetOf html (front.length + text.length) = size front + size text := by
  rw [whole, ← List.append_assoc, ← List.length_append, Text.offsetOf_append_length,
    Text.size_append]

/-- The token of text that is pending is where the text starts. -/
theorem textToken_pending (whole : html = front ++ (text ++ after))
    : (textToken (front.length + text.length - text.reverse.length) text.reverse.reverse).map
        (atByte html)
      = textToken (size front) text := by
  rw [List.length_reverse, Nat.add_sub_cancel, List.reverse_reverse, textToken_atByte, whole,
    Text.offsetOf_append_length]

/-- What stands in front once the text and `n` characters after it were read. -/
theorem front_append (whole : html = front ++ (text ++ after)) {n : Nat} (inside : n ≤ after.length)
    : html = front ++ text ++ after.take n ++ ([] ++ after.drop n)
      ∧ size (front ++ text ++ after.take n) = size front + size text + offsetOf after n
      ∧ (front ++ text ++ after.take n).length = front.length + text.length + n := by
  refine ⟨?_, ?_, ?_⟩
  · rw [whole, List.nil_append, List.append_assoc (front ++ text), List.take_append_drop,
      List.append_assoc]
  · rw [Text.size_append, Text.size_append, offsetOf]
  · rw [List.length_append, List.length_append, List.length_take_of_le inside]

end

theorem tokensFrom_pending {s : List Char} (noTag : '<' ∉ s) (start : Nat)
    (pending rest : List Char)
    : Markup.tokensFrom (start + pending.length) pending.reverse (s ++ rest)
      = Markup.tokensFrom (start + (pending ++ s).length) (pending ++ s).reverse rest := by
  rw [Markup.tokensFrom_append noTag, List.reverse_append, List.length_append, Nat.add_assoc]

/-- Reading on from a place of a markup gives the tokens from there on. By induction on the steps,
of which there are enough for the characters that are left.
-/
theorem tokensFrom_eq {fuel : Nat} {html front pending s : List Char}
    (whole : html = front ++ (pending ++ s)) (enough : s.length < fuel)
    : tokensFrom html fuel (size front + size pending) (size front)
      = .ok ((Markup.tokensFrom (front.length + pending.length) pending.reverse s).map
          (atByte html)) := by
  induction fuel generalizing front pending s with
  | zero => exact absurd enough (Nat.not_lt_zero _)
  | succ fuel ih =>
      unfold tokensFrom
      rw [sliceFrom_pending whole, Text.ok_bind]
      cases found : findChar? (· == '<') s with
      | none =>
          have noTag : '<' ∉ s := fun member => by
            cases Text.findChar?_eq_none found _ member
          have all : html = front ++ (pending ++ s ++ []) := by
            rw [whole, List.append_nil]
          have text : sliceFrom (size front) html = .ok (pending ++ s) := by
            rw [whole, Text.sliceFrom_append]
          have last := tokensFrom_pending noTag front.length pending []
          rw [List.append_nil] at last
          rw [last, Markup.tokensFrom, textToken_pending all]
          simp only [text, Text.ok_bind]
          rfl
      | some n =>
          obtain ⟨before, c, after, rfl, rfl, opens, noTag⟩ := Text.findChar?_eq_some found
          obtain rfl : c = '<' := by simpa using opens
          have noTagBefore : '<' ∉ before := fun member => by
            cases noTag _ member
          have fewer : ('<' :: after).length < fuel + 1 := by
            rw [List.length_append] at enough
            exact Nat.lt_of_le_of_lt (Nat.le_add_left _ before.length) enough
          have whole : html = front ++ (pending ++ before ++ '<' :: after) := by
            rw [whole, List.append_assoc]
          dsimp only
          rw [tokensFrom_pending noTagBefore, Nat.add_assoc, ← Text.size_append]
          -- What stands before the `<` is pending as well.
          generalize pending ++ before = text at whole ⊢
          simp only [sliceFrom_pending whole, Text.ok_bind, marked_eq]
          cases mark : marked? ('<' :: after) with
          | none =>
              have split : html = front ++ (text ++ ['<'] ++ after) := by
                rw [whole, List.append_assoc, List.singleton_append]
              have next := ih split (Nat.lt_of_succ_lt_succ fewer)
              have one : size ['<'] = 1 := rfl
              rw [Markup.tokensFrom_unmarked fun _ => mark]
              rwa [Text.size_append, one, List.length_append, List.reverse_concat, ← Nat.add_assoc,
                ← Nat.add_assoc] at next
          | some found =>
              obtain ⟨n, token⟩ := found
              obtain ⟨k, rest, rfl, same, inside⟩ := of_marked? mark
              obtain rfl := (List.cons.inj same).2
              obtain ⟨split, start, count⟩ := front_append whole (Nat.succ_le_succ inside)
              have later : (('<' :: after).drop (k + 1)).length < fuel := by
                rw [List.length_drop]
                rw [List.length_cons] at fewer ⊢
                omega
              have next := ih split later
              rw [Text.size_nil, List.length_nil, Nat.add_zero, Nat.add_zero, start, count] at next
              rw [Markup.tokensFrom_marked mark]
              simp only [Option.map_some, slice_pending whole, next, Text.ok_bind, List.map_append,
                textToken_pending whole]
              rw [← offsetOf_pending whole]
              cases token <;> rfl

/-- Reading by offsets never fails: no slice has an end inside of a character, no number is less
than zero and no loop goes on for too long. It gives the tokens with their offsets in bytes.
-/
theorem tokens_eq (html : List Char)
    : tokens html = .ok ((Markup.tokens html).map (atByte html)) := by
  have whole : html = [] ++ ([] ++ html) := rfl
  exact tokensFrom_eq whole (Nat.lt_succ_of_le (Text.length_le_size html))

end Folio.Document.Markup.Sliced
