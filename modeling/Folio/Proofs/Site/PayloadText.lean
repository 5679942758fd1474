import Folio.Content.Decode
import Folio.Proofs.Json.Decoding
import Folio.Proofs.Json.Fields
import Folio.Proofs.Json.StringLists
import Folio.Site.Page

/-! The written form of a payload is read back as the payload. Its metadata is decoded as it was: a
field that is not written is one that says nothing, a list is written as such however many items it
has, and what has no meaning of its own is found under the names that are left.
-/

namespace Folio.Content.Metadata

open Json (Decodes Decoder TakesAll Value)

/-- Holds for metadata that there can be: the rank is an integer of 64 bits, and the other fields
are in the order of their names, none of which is that of a field with a meaning.
-/
structure IsProper (m : Metadata) : Prop where
  order : ∀ n ∈ m.order, -9223372036854775808 ≤ n ∧ n ≤ 9223372036854775807
  sorted : Json.Fields.Sorted m.extra
  others : ∀ entry ∈ m.extra, entry.1 ∉ Field.all.map Field.name

variable {room : Nat}

-----------------------------------------------------------------------------------------
-- Fields with a meaning
-----------------------------------------------------------------------------------------

theorem ofName?_name (field : Field) : Field.ofName? field.name = some field := by
  cases field <;> rfl

theorem decodes_texts (texts : List String) {room : Nat} (enough : 1 ≤ room)
    : Decodes (decodeTexts room) (Value.array (texts.map Value.string)).chars texts := by
  have fits : (Value.array (texts.map Value.string)).depth ≤ room := by
    rwa [Json.depth_strings]
  refine (Json.decodes_value (Json.parse_render_strings texts) fits).of_ok fun xs rest read => ?_
  have items : (texts.map Value.string).mapM Value.asString? = some texts := by
    clear fits read
    induction texts with
    | nil => rfl
    | cons s rest ih => simp [List.mapM_cons, Value.asString?, ih]
  simp only [decodeTexts, read, bind, Except.bind, jsonTexts?, items]
  rfl

/-- A field of a draft that was not seen before is taken with its value. -/
theorem takes_field {d : Draft Value} {field : Field} (unseen : field ∉ d.seen) {α : Type}
    {read : Decoder α} {set : α → Metadata}
    (reads : ∀ xs,
      d.readField field (Decoder.optional Decoder.string) (Decoder.optional Decoder.integer)
          (decodeTexts room) xs
        = (read xs).map fun (v, rest) =>
            ({ d with metadata := set v, seen := field :: d.seen }, rest))
    {v : Value} {a : α} (decodes : Decodes read v.chars a)
    : Decodes (decodeField room d field.name) (':' :: v.chars)
        { d with metadata := set a, seen := field :: d.seen } := by
  refine decodes.afterColon fun xs ys rest colon read => ?_
  have new : d.seen.contains field = false := by simpa using unseen
  simp only [decodeField, ofName?_name, new, colon, bind, Except.bind]
  rw [if_neg (by decide), reads, read]
  rfl

/-- The written entries of a field: none if it says nothing, or else one whose value is decoded. -/
def Writes {α : Type} (field : Field) (read : Decoder α) (nothing a : α)
    (entries : List (String × Value)) : Prop :=
  entries = [] ∧ a = nothing ∨ ∃ v, entries = [(field.name, v)] ∧ Decodes read v.chars a

theorem writes_text (field : Field) (text : Option String)
    : Writes field (Decoder.optional Decoder.string) none text (textField field text) := by
  cases text with
  | none => exact .inl ⟨rfl, rfl⟩
  | some s =>
      have begins (p : Json.Position) (rest : List Char) (_ : Json.EndsNumber rest) :=
        Json.begins_quote p s rest
      refine .inr ⟨.string s, rfl, Json.decodes_optional begins ?_ (Json.decodes_string s)⟩
      exact fun same => by cases same

theorem writes_integer (field : Field) {n : Option Int}
    (fits : ∀ k ∈ n, -9223372036854775808 ≤ k ∧ k ≤ 9223372036854775807)
    : Writes field (Decoder.optional Decoder.integer) none n (integerField field n) := by
  cases n with
  | none => exact .inl ⟨rfl, rfl⟩
  | some k =>
      obtain ⟨low, high⟩ := fits k rfl
      have within : -9223372036854775808 ≤ k ∧ k ≤ 18446744073709551615 := ⟨low, by omega⟩
      refine .inr ⟨.number (.integer k within), ?_, Json.decodes_optional
        (Json.readAs_integer k within) ?_ (Json.decodes_integer within high)⟩
      · rw [integerField, Option.bind_some, Json.Number.ofInt?, dif_pos within]
        rfl
      · exact fun same => by cases same

theorem writes_list (field : Field) (texts : List String) (enough : 1 ≤ room)
    : Writes field (decodeTexts room) [] texts (listField field texts) := by
  cases texts with
  | nil => exact .inl ⟨rfl, rfl⟩
  | cons s rest => exact .inr ⟨_, rfl, decodes_texts (s :: rest) enough⟩

/-- Holds for a draft with some metadata, of which no other fields than some were seen. -/
structure Drafted (m : Metadata) (fields : List Field) (d : Draft Value) : Prop where
  metadata : d.metadata = m
  seen : ∀ field ∈ d.seen, field ∈ fields
  others : d.others = []

/-- The entries of a field are taken into a draft. -/
theorem exists_drafted {room : Nat} {m : Metadata} {fields : List Field} {d : Draft Value}
    (drafted : Drafted m fields d) {α : Type} {field : Field} {read : Decoder α} {nothing a : α}
    {entries : List (String × Value)} (written : Writes field read nothing a entries)
    (unseen : field ∉ fields) (set : Metadata → α → Metadata)
    (reads : ∀ (d : Draft Value) xs,
      d.readField field (Decoder.optional Decoder.string) (Decoder.optional Decoder.integer)
          (decodeTexts room) xs
        = (read xs).map fun (v, rest) =>
            ({ d with metadata := set d.metadata v, seen := field :: d.seen }, rest))
    (silent : set m nothing = m)
    : ∃ d', TakesAll (decodeField room) d entries d' ∧ Drafted (set m a) (field :: fields) d' := by
  obtain ⟨rfl, seen, others⟩ := drafted
  rcases written with ⟨rfl, rfl⟩ | ⟨v, rfl, decodes⟩
  · refine ⟨d, .nil, silent.symm, ?_, others⟩
    exact fun field member => List.mem_cons_of_mem _ (seen field member)
  · have taken := takes_field (fun member => unseen (seen field member)) (reads d) decodes
    refine ⟨_, .cons taken .nil, rfl, ?_, others⟩
    intro other member
    rcases List.mem_cons.mp member with rfl | earlier
    · exact List.mem_cons_self
    · exact List.mem_cons_of_mem field (seen other earlier)

-----------------------------------------------------------------------------------------
-- The other fields
-----------------------------------------------------------------------------------------

theorem ofName?_eq_none {name : String} (other : name ∉ Field.all.map Field.name)
    : Field.ofName? name = none := by
  refine List.find?_eq_none.mpr fun field member same => other ?_
  exact List.mem_map.mpr ⟨field, member, beq_iff_eq.mp same⟩

/-- Fields without a meaning are kept as they are, by induction on them. -/
theorem takesAll_others (d : Draft Value) {entries : List (String × Value)}
    (others : ∀ entry ∈ entries, entry.1 ∉ Field.all.map Field.name)
    (readBack : ∀ entry ∈ entries,
      Json.parse entry.2.render = .ok entry.2 ∧ entry.2.depth ≤ room)
    : TakesAll (decodeField room) d entries { d with others := d.others ++ entries } := by
  induction entries generalizing d with
  | nil =>
      rw [List.append_nil]
      exact .nil
  | cons entry rest ih =>
      obtain ⟨name, v⟩ := entry
      obtain ⟨other, others⟩ := List.forall_mem_cons.mp others
      obtain ⟨⟨same, fits⟩, readBack⟩ := List.forall_mem_cons.mp readBack
      have taken : Decodes (decodeField room d name) (':' :: v.chars) (d.keepOther name v) := by
        refine (Json.decodes_value same fits).afterColon fun xs ys after colon read => ?_
        simp only [decodeField, ofName?_eq_none other, colon, read, bind, Except.bind]
        rfl
      have more := ih (d.keepOther name v) others readBack
      rw [Draft.keepOther, List.append_assoc] at more
      exact .cons taken more

-----------------------------------------------------------------------------------------
-- All fields
-----------------------------------------------------------------------------------------

/-- Written metadata is decoded as the metadata, if the values of the other fields are read back. -/
theorem decodes_json {m : Metadata} (proper : m.IsProper) (enough : 1 ≤ room)
    (readBack : ∀ entry ∈ m.extra,
      Json.parse entry.2.render = .ok entry.2 ∧ entry.2.depth ≤ room)
    : Decodes (decode room) m.json.chars m := by
  have start : Drafted {} [] {} := ⟨rfl, List.forall_mem_nil _, rfl⟩
  obtain ⟨_, title, drafted⟩ :=
    exists_drafted start (writes_text .title m.title) (by decide)
      (fun m v => { m with title := v }) (fun _ _ => rfl) rfl
  obtain ⟨_, order, drafted⟩ :=
    exists_drafted drafted (writes_integer .order proper.order) (by decide)
      (fun m v => { m with order := v }) (fun _ _ => rfl) rfl
  obtain ⟨_, prev, drafted⟩ :=
    exists_drafted drafted (writes_text .prev m.prev) (by decide)
      (fun m v => { m with prev := v }) (fun _ _ => rfl) rfl
  obtain ⟨_, next, drafted⟩ :=
    exists_drafted drafted (writes_text .next m.next) (by decide)
      (fun m v => { m with next := v }) (fun _ _ => rfl) rfl
  obtain ⟨_, permalink, drafted⟩ :=
    exists_drafted drafted (writes_text .permalink m.permalink) (by decide)
      (fun m v => { m with permalink := v }) (fun _ _ => rfl) rfl
  obtain ⟨_, author, drafted⟩ :=
    exists_drafted drafted (writes_list .author m.author enough) (by decide)
      (fun m v => { m with author := v }) (fun _ _ => rfl) rfl
  obtain ⟨d, redirectFrom, drafted⟩ :=
    exists_drafted drafted (writes_list .redirectFrom m.redirectFrom enough) (by decide)
      (fun m v => { m with redirectFrom := v }) (fun _ _ => rfl) rfl
  have typed := (((((title.append order).append prev).append next).append permalink).append
    author).append redirectFrom
  have taken := typed.append (takesAll_others d proper.others readBack)
  have opens (x : Json.Lexeme) (rest : List Json.Lexeme) (token : x.token = .punctuation '\x7b')
      : decode room (x :: rest) = Decoder.objectBody (decodeField room) {} ofJsonDraft rest := by
    simp only [decode, token]
  have finished : ofJsonDraft { d with others := d.others ++ m.extra } = .ok m := by
    have metadata : d.metadata = { m with extra := [] } := drafted.metadata
    simp only [ofJsonDraft, metadata, drafted.others, List.nil_append,
      Json.Fields.ofList_of_sorted proper.sorted]
  exact Json.decodes_object opens taken finished

end Folio.Content.Metadata

-----------------------------------------------------------------------------------------
-- Payloads
-----------------------------------------------------------------------------------------

namespace Folio.Site.Payload

open Json (Decodes Decoder TakesAll Value)

/-- The fields of a written payload are taken one after the other. -/
theorem takesAll_json {p : Payload}
    (decodes : Decodes (Content.Metadata.decode metadataRoom) p.metadata.json.chars p.metadata)
    : TakesAll decodeField {}
        [("content", .string p.content), ("toc", .string p.toc), ("meta", p.metadata.json)]
        { content := some p.content, toc := some p.toc, metadata := some p.metadata } := by
  refine .cons (t := { content := some p.content }) ?_
    (.cons (t := { content := some p.content, toc := some p.toc }) ?_ (.cons ?_ .nil))
  · refine (Json.decodes_string p.content).afterColon fun xs ys rest colon read => ?_
    simp only [decodeField, Partial.has, Option.isSome, colon, read, bind, Except.bind]
    rfl
  · refine (Json.decodes_string p.toc).afterColon fun xs ys rest colon read => ?_
    simp only [decodeField, Partial.has, Option.isSome, colon, read, bind, Except.bind]
    rfl
  · refine decodes.afterColon fun xs ys rest colon read => ?_
    simp only [decodeField, Partial.has, Option.isSome, colon, read, bind, Except.bind]
    rfl

theorem decodes_json {p : Payload}
    (decodes : Decodes (Content.Metadata.decode metadataRoom) p.metadata.json.chars p.metadata)
    : Decodes decode p.json.chars p := by
  have opens (x : Json.Lexeme) (rest : List Json.Lexeme) (token : x.token = .punctuation '\x7b')
      : decode (x :: rest) = Decoder.objectBody decodeField {} ofPartial rest := by
    simp only [decode, token]
  exact Json.decodes_object opens (takesAll_json decodes) rfl

/-- A written payload is read back, whatever it says of its document: the texts, every field with a
meaning, be it written or not, lists of any length, and all other fields with their values. The
values of the latter have to be read back from their own written forms, and may nest as deep as they
are read in a payload.
-/
theorem ofJson_render {p : Payload} (proper : p.metadata.IsProper)
    (readBack : ∀ entry ∈ p.metadata.extra,
      Json.parse entry.2.render = .ok entry.2 ∧ entry.2.depth ≤ metadataRoom)
    : ofJson p.json.render = .ok p :=
  Json.run_of_decodes (decodes_json (Content.Metadata.decodes_json proper (by decide) readBack))

/-- A payload with a list of one text and with fields of its own. -/
def introduction : Payload where
  content := "[\"$\",\"p\",null,\x7b\x7d]"
  toc := "[]"
  metadata :=
    { title := some "Intro"
      order := some (-3)
      author := ["gaearon"]
      redirectFrom := ["a.html", "b.html"]
      extra := [("layout", .string "docs"), ("tags", .array [.string "a", .string "b"])] }

theorem ofJson_render_introduction : ofJson introduction.json.render = .ok introduction := by
  refine ofJson_render ⟨by decide, by decide, by decide⟩ ?_
  refine List.forall_mem_cons.mpr ⟨⟨Json.parse_quote "docs", by decide⟩, ?_⟩
  exact List.forall_mem_singleton.mpr ⟨Json.parse_render_strings ["a", "b"], by decide⟩

end Folio.Site.Payload
