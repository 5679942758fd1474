import Folio.Proofs.Document.SlicedTokens
import Folio.Proofs.Document.WrittenTags
import Mathlib.Data.List.Chain

/-! Markup that is written from tokens is read as these tokens. A text goes on to the next tag, so
that two texts side by side would be read as one; all else comes back, each token with the length of
what is written before it as its offset, in characters or in bytes.
-/

namespace Folio.Document.Markup

def Token.isText : Token → Bool
  | .text _ => true
  | .opening _ _ _ | .closing _ => false

def TextsApart (ts : List Token) : Prop :=
  ts.IsChain fun t next => (t.isText && next.isText) = false

instance (ts : List Token) : Decidable (TextsApart ts) :=
  inferInstanceAs (Decidable (ts.IsChain _))

def writeTokens (ts : List Token) : List Char :=
  ts.flatMap Token.write

-----------------------------------------------------------------------------------------
-- Texts
-----------------------------------------------------------------------------------------

/-- A text is read as it was written. -/
theorem textToken_writeText {s : List Char} (h : (Token.text s).IsWritable) (offset : Nat)
    : textToken offset (Token.text s).write = [{ offset, token := .text s }] := by
  obtain ⟨visible, oneLine⟩ := h
  have notBlank : Text.isAllBlank (writeText ['&', '<'] s) = false := by
    obtain ⟨c, member, visible⟩ : ∃ c ∈ writeText ['&', '<'] s, Text.isBlank c = false :=
      exists_visible_writeText visible
    exact List.all_eq_false.mpr ⟨c, member, by simp [visible]⟩
  have noFeed : '\n' ∉ writeText ['&', '<'] s :=
    not_mem_writeText (by decide) fun member => absurd member oneLine
  simp [textToken, Token.write, notBlank, noFeed, decodeEntities_writeText]

theorem noTag_write (s : List Char) : '<' ∉ (Token.text s).write :=
  not_mem_writeText (by decide) fun _ => ⟨by decide, ("&lt;".toList, '<'), by decide, rfl⟩

-----------------------------------------------------------------------------------------
-- Tags
-----------------------------------------------------------------------------------------

/-- A written tag is read as it was written, whatever comes after it. -/
theorem tag?_write {t : Token} (h : t.IsWritable) (isTag : t.isText = false) (rest : List Char)
    : tag? (t.write ++ rest) = some (t.write.length, t) := by
  cases t with
  | opening name attributes selfClosing => exact tag?_opening h.1 h.2 selfClosing rest
  | closing name => exact tag?_closing h rest
  | text s => cases isTag

/-- A written tag is no comment. -/
theorem exists_write_cons {t : Token} (h : t.IsWritable) (isTag : t.isText = false)
    : ∃ c more, t.write = '<' :: c :: more ∧ c ≠ '!' := by
  cases t with
  | opening name attributes selfClosing =>
      obtain ⟨c, more, same, start, -⟩ := h.1.exists_cons
      refine ⟨c, _, by rw [Token.write, same]; rfl, ?_⟩
      rintro rfl
      cases start
  | closing name => exact ⟨'/', _, rfl, by decide⟩
  | text s => cases isTag

/-- A written tag is a token, and the text before it is one. -/
theorem tokensFrom_tag {t : Token} (h : t.IsWritable) (isTag : t.isText = false) (offset : Nat)
    (pending rest : List Char)
    : tokensFrom offset pending (t.write ++ rest)
      = textToken (offset - pending.length) pending.reverse
          ++ { offset, token := t } :: tokensFrom (offset + t.write.length) [] rest := by
  obtain ⟨c, more, written, noMark⟩ := exists_write_cons h isTag
  have noComment : Text.startsWith "<!--".toList (t.write ++ rest) = false := by
    simp [written, Text.startsWith, Text.stripLead?, Ne.symm noMark]
  have marked : marked? (t.write ++ rest) = some (t.write.length, some t) := by
    rw [marked?, noComment, tag?_write h isTag rest]
    rfl
  rw [tokensFrom_marked marked, List.drop_left, List.append_assoc]
  rfl

-----------------------------------------------------------------------------------------
-- Tokens
-----------------------------------------------------------------------------------------

/-- Tokens from an offset on, each after what is written before it. -/
def placed (offset : Nat) (ts : List Token) : List Placed :=
  ts.mapIdx fun i t => { offset := offset + (writeTokens (ts.take i)).length, token := t }

theorem placed_cons (offset : Nat) (t : Token) (ts : List Token)
    : placed offset (t :: ts)
      = { offset, token := t } :: placed (offset + t.write.length) ts := by
  simp [placed, List.mapIdx_cons, writeTokens, Nat.add_assoc]

/-- Written tokens are read from an offset on, after text that has no token yet unless the tokens
start with a text. By induction on the tokens.
-/
theorem tokensFrom_writeTokens {ts : List Token} (writable : ∀ t ∈ ts, t.IsWritable)
    (apart : TextsApart ts) (offset : Nat) {pending : List Char}
    (ready : pending = [] ∨ ∀ t ∈ ts.head?, t.isText = false)
    : tokensFrom offset pending (writeTokens ts)
      = textToken (offset - pending.length) pending.reverse ++ placed offset ts := by
  induction ts generalizing offset pending with
  | nil => simp [writeTokens, tokensFrom, placed]
  | cons t ts ih =>
      obtain ⟨first, later⟩ := List.forall_mem_cons.mp writable
      obtain ⟨next, rest⟩ := List.isChain_cons.mp apart
      have written : writeTokens (t :: ts) = t.write ++ writeTokens ts := rfl
      rw [written, placed_cons]
      cases t with
      | text s =>
          obtain rfl : pending = [] := ready.resolve_right fun noText => by cases noText _ rfl
          have noText : ∀ other ∈ ts.head?, other.isText = false := by
            simpa [Token.isText] using next
          rw [tokensFrom_append (noTag_write s), List.append_nil, ih later rest _ (.inr noText),
            List.length_reverse, Nat.add_sub_cancel, List.reverse_reverse,
            textToken_writeText first offset]
          rfl
      | opening _ _ _ | closing _ =>
          rw [tokensFrom_tag first rfl, ih later rest _ (.inl rfl)]
          rfl

/-- The place after some of the tokens has the size of these as its offset in bytes. -/
theorem offsetOf_writeTokens (ts : List Token) (i : Nat)
    : Text.offsetOf (writeTokens ts) (writeTokens (ts.take i)).length
      = Text.size (writeTokens (ts.take i)) := by
  have parts : writeTokens ts = writeTokens (ts.take i) ++ writeTokens (ts.drop i) := by
    rw [writeTokens, writeTokens, writeTokens, ← List.flatMap_append, List.take_append_drop]
  rw [parts, Text.offsetOf_append_length]

/-- Tokens that are written are read again, each with the length of what is written before it as its
offset, where names are names, texts are lines that are not blank and not side by side, and the
values of attributes are any flags, literals and JSON values. Read by offsets in bytes, each has the
size of what is written before it.
-/
theorem tokens_writeTokens {ts : List Token} (writable : ∀ t ∈ ts, t.IsWritable)
    (apart : TextsApart ts)
    : tokens (writeTokens ts)
        = ts.mapIdx (fun i t => { offset := (writeTokens (ts.take i)).length, token := t })
      ∧ Sliced.tokens (writeTokens ts)
        = .ok (ts.mapIdx fun i t =>
            { offset := Text.size (writeTokens (ts.take i)), token := t }) := by
  have read : tokens (writeTokens ts) = placed 0 ts :=
    tokensFrom_writeTokens writable apart 0 (.inl rfl)
  simp only [placed, Nat.zero_add] at read
  refine ⟨read, ?_⟩
  rw [Sliced.tokens_eq, read]
  refine congrArg Except.ok (List.ext_getElem (by simp) fun i _ _ => ?_)
  simp [Sliced.atByte, offsetOf_writeTokens]

/-- A value in whose string a quote, a brace and the end of a tag stand. -/
def hostileValue : Json.Value :=
  .object [("a", .string "\x7d>\""), ("b", .array [.number (.ofUInt32 1), .null])]

/-- A tag around a text. In its values stands what means something in markup. -/
def hostileTokens : List Token :=
  [.opening "Note".toList
      [("title".toList, .literal "a > \"b\" &lt;".toList), ("open".toList, .flag),
        ("data".toList, .expression hostileValue.chars), ("open".toList, .flag)] false,
    .text "é < y & z".toList, .closing "Note".toList, .opening "br".toList [] true]

theorem tokens_hostileTokens
    : (∀ t ∈ hostileTokens, t.IsWritable)
      ∧ TextsApart hostileTokens
      ∧ writeTokens hostileTokens
        = ("<Note title=\"a > &quot;b&quot; &amp;lt;\" open data=\x7b\x7b\"a\":\"\x7d>\\\"\"".toList
            ++ ",\"b\":[1,null]\x7d\x7d open>é &lt; y &amp; z</Note><br />".toList)
      ∧ tokens (writeTokens hostileTokens)
        = [0, 84, 100, 107].zipWith Placed.mk hostileTokens
      ∧ Sliced.tokens (writeTokens hostileTokens)
        = .ok ([0, 84, 101, 108].zipWith Placed.mk hostileTokens) := by
  have attributes
      : AreWritable
          [("title".toList, .literal "a > \"b\" &lt;".toList), ("open".toList, .flag),
            ("data".toList, .expression hostileValue.chars), ("open".toList, .flag)] := by
    simp only [AreWritable, List.forall_mem_cons]
    exact ⟨⟨by decide, trivial⟩, ⟨by decide, trivial⟩, ⟨by decide, hostileValue, rfl⟩,
      ⟨by decide, trivial⟩, List.forall_mem_nil _⟩
  have writable : ∀ t ∈ hostileTokens, t.IsWritable := by
    simp only [hostileTokens, List.forall_mem_cons]
    have named : IsName "Note".toList := by decide
    exact ⟨⟨named, attributes⟩, ⟨⟨'y', by decide, by decide⟩, by decide⟩, named,
      ⟨by decide, List.forall_mem_nil _⟩, List.forall_mem_nil _⟩
  have apart : TextsApart hostileTokens := by decide
  obtain ⟨byPlace, byOffset⟩ := tokens_writeTokens writable apart
  refine ⟨writable, apart, by decide, ?_, ?_⟩
  · rw [byPlace]
    decide
  · exact byOffset.trans (congrArg Except.ok (by decide +kernel))

end Folio.Document.Markup
