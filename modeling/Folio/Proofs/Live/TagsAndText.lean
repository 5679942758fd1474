import Folio.Html
import Folio.Live.Rendering
import Folio.Proofs.Json.Written
import Folio.Proofs.Text.Entities
import Folio.Proofs.Tree.Elements

/-! Text as it is written in HTML, and the tags and the text in the HTML of a live tree. No text, no
value of an attribute and no style starts a tag or ends one: the tags that are read in the HTML are
those of the elements of the tree, and around them stands its text.
-/

namespace Folio.Html

-----------------------------------------------------------------------------------------
-- Text as it is written in HTML
-----------------------------------------------------------------------------------------

/-- Holds for the characters that are written by a name. -/
def isSpecial (c : Char) : Bool :=
  c == '&' || c == '<' || c == '>' || c == '"' || c == '\''

def IsHarmless (s : List Char) : Prop :=
  ∀ c ∈ s, isSpecial c = false

instance (s : List Char) : Decidable (IsHarmless s) :=
  List.decidableBAll _ s

def specialEntities : List (List Char × Char) :=
  [("&amp;".toList, '&'), ("&lt;".toList, '<'), ("&gt;".toList, '>'), ("&quot;".toList, '"'),
    ("&#x27;".toList, '\'')]

/-- A character is written by the name of an entity if it is special, and as it is if not. -/
theorem escapeChar_cases (c : Char)
    : (escapeChar c, c) ∈ specialEntities ∨ (isSpecial c = false ∧ escapeChar c = [c]) := by
  by_cases special : isSpecial c = true
  · simp only [isSpecial, Bool.or_eq_true, beq_iff_eq, or_assoc] at special
    rcases special with rfl | rfl | rfl | rfl | rfl <;> exact .inl (by decide)
  · refine .inr ⟨by simpa using special, ?_⟩
    simp only [isSpecial, Bool.or_eq_true, beq_iff_eq, not_or] at special
    unfold escapeChar
    split <;> simp_all

@[simp] theorem escape_nil : escape [] = [] :=
  rfl

@[simp] theorem escape_append (s t : List Char) : escape (s ++ t) = escape s ++ escape t :=
  List.flatMap_append

/-- A harmless text is written as it is, by induction on the text. -/
theorem escape_eq_self {s : List Char} (h : IsHarmless s) : escape s = s := by
  induction s with
  | nil => rfl
  | cons c rest ih =>
      obtain ⟨first, later⟩ := List.forall_mem_cons.mp h
      rcases escapeChar_cases c with named | ⟨_, same⟩
      · have all : ∀ entity ∈ specialEntities, isSpecial entity.2 = true := by decide
        cases first.symm.trans (all _ named)
      · rw [escape, List.flatMap_cons, same]
        exact congrArg (c :: ·) (ih later)

/-- Of the special characters only the ampersand is in a written text. -/
theorem isSpecial_of_mem_escape {s : List Char} {c : Char} (member : c ∈ escape s)
    : c = '&' ∨ isSpecial c = false := by
  obtain ⟨x, _, written⟩ := List.mem_flatMap.mp member
  rcases escapeChar_cases x with named | ⟨plain, same⟩
  · have all
        : (specialEntities.all fun entity =>
            entity.1.all fun c => c == '&' || !isSpecial c) = true := by
      decide
    simpa using List.all_eq_true.mp (List.all_eq_true.mp all _ named) c written
  · rw [same] at written
    obtain rfl := List.mem_singleton.mp written
    exact .inr plain

theorem isTable_specialEntities : Text.IsTable specialEntities :=
  ⟨by decide, by decide, by decide⟩

/-- A written text is read back. -/
theorem readEntities_escape (s : List Char)
    : Text.readEntities specialEntities (escape s) = s := by
  refine isTable_specialEntities.readEntities_written (fun c => ?_) s
  rcases escapeChar_cases c with named | ⟨plain, same⟩
  · exact .inl named
  · refine .inr ⟨same, ?_⟩
    rintro rfl
    cases plain

end Folio.Html

namespace Folio.Live

open Html (IsHarmless escape isSpecial)

-----------------------------------------------------------------------------------------
-- Tags in a text
-----------------------------------------------------------------------------------------

def throughEnd : List Char → List Char
  | [] => []
  | c :: rest => if c = '>' then [c] else c :: throughEnd rest

/-- What stands from each `<` through the next `>`. -/
def tagsIn : List Char → List (List Char)
  | [] => []
  | c :: rest => if c = '<' then (c :: throughEnd rest) :: tagsIn rest else tagsIn rest

/-- A text less what stands from each `<` through the next `>`. The text starts `inTag` if the `<`
of a tag stands before it.
-/
def textAround (inTag : Bool) : List Char → List Char
  | [] => []
  | c :: rest =>
      if inTag then textAround (c != '>') rest
      else if c = '<' then textAround true rest
      else c :: textAround false rest

def withoutTags (s : List Char) : List Char :=
  textAround false s

/-- Holds for texts that neither start a tag nor end one. -/
def IsUntagged (s : List Char) : Prop :=
  ∀ c ∈ s, c ≠ '<' ∧ c ≠ '>'

instance (s : List Char) : Decidable (IsUntagged s) :=
  List.decidableBAll _ s

theorem IsUntagged.append {s t : List Char} (hs : IsUntagged s) (ht : IsUntagged t)
    : IsUntagged (s ++ t) :=
  List.forall_mem_append.mpr ⟨hs, ht⟩

theorem IsUntagged.cons {c : Char} {s : List Char} (hc : c ≠ '<' ∧ c ≠ '>') (hs : IsUntagged s)
    : IsUntagged (c :: s) :=
  List.forall_mem_cons.mpr ⟨hc, hs⟩

theorem isUntagged_of_isHarmless {s : List Char} (h : IsHarmless s) : IsUntagged s := by
  intro c member
  have plain := h c member
  constructor <;> rintro rfl <;> cases plain

theorem isUntagged_escape (s : List Char) : IsUntagged (escape s) := by
  intro c member
  rcases Html.isSpecial_of_mem_escape member with rfl | plain
  · decide
  · constructor <;> rintro rfl <;> cases plain

theorem throughEnd_append {inside : List Char} (h : IsUntagged inside) (rest : List Char)
    : throughEnd (inside ++ '>' :: rest) = inside ++ ['>'] := by
  induction inside with
  | nil => rfl
  | cons c inside ih =>
      obtain ⟨first, later⟩ := List.forall_mem_cons.mp h
      simp [throughEnd, first.2, ih later]

theorem tagsIn_append {s : List Char} (h : IsUntagged s) (rest : List Char)
    : tagsIn (s ++ rest) = tagsIn rest := by
  induction s with
  | nil => rfl
  | cons c s ih =>
      obtain ⟨first, later⟩ := List.forall_mem_cons.mp h
      simp [tagsIn, first.1, ih later]

theorem textAround_append {s : List Char} (h : IsUntagged s) (rest : List Char)
    : textAround false (s ++ rest) = s ++ textAround false rest
      ∧ textAround true (s ++ rest) = textAround true rest := by
  induction s with
  | nil => exact ⟨rfl, rfl⟩
  | cons c s ih =>
      obtain ⟨first, later⟩ := List.forall_mem_cons.mp h
      have stays : (c != '>') = true := by simp [first.2]
      simp [textAround, first.1, stays, ih later]

-----------------------------------------------------------------------------------------
-- Pieces of HTML
-----------------------------------------------------------------------------------------

/-- A tag: it starts with `<`, and the next `>` is its end. -/
def IsTag (tag : List Char) : Prop :=
  ∃ inside, tag = '<' :: inside ++ ['>'] ∧ IsUntagged inside

/-- A piece of HTML holds `tags`, around which `text` stands, whatever HTML comes after it. -/
structure Holds (piece : List Char) (tags : List (List Char)) (text : List Char) : Prop where
  formed : ∀ tag ∈ tags, IsTag tag
  tags : ∀ rest, tagsIn (piece ++ rest) = tags ++ tagsIn rest
  text : ∀ rest, withoutTags (piece ++ rest) = text ++ withoutTags rest

theorem Holds.nil : Holds [] [] [] where
  formed := List.forall_mem_nil _
  tags _ := rfl
  text _ := rfl

theorem Holds.append {piece other : List Char} {tags more : List (List Char)}
    {text later : List Char} (h : Holds piece tags text) (next : Holds other more later)
    : Holds (piece ++ other) (tags ++ more) (text ++ later) where
  formed := List.forall_mem_append.mpr ⟨h.formed, next.formed⟩
  tags rest := by simp [h.tags, next.tags]
  text rest := by simp [h.text, next.text]

/-- Text that neither starts a tag nor ends one holds no tags. -/
theorem IsUntagged.holds {s : List Char} (h : IsUntagged s) : Holds s [] s where
  formed := List.forall_mem_nil _
  tags rest := by simp [tagsIn_append h]
  text rest := (textAround_append h rest).1

/-- A tag is one tag, and no text. -/
theorem IsTag.holds {tag : List Char} (h : IsTag tag) : Holds tag [tag] [] where
  formed := List.forall_mem_singleton.mpr h
  tags rest := by
    obtain ⟨inside, rfl, untagged⟩ := h
    simp [tagsIn, throughEnd_append untagged, tagsIn_append untagged]
  text rest := by
    obtain ⟨inside, rfl, untagged⟩ := h
    simp [withoutTags, textAround, (textAround_append untagged _).2]

-----------------------------------------------------------------------------------------
-- Tags and text of a tree
-----------------------------------------------------------------------------------------

def openingTag (tag : String) (props : List (String × Node ι)) : List Char :=
  '<' :: (tag.toList ++ propAttributes props) ++ ['>']

def closingTag (tag : String) : List Char :=
  '<' :: '/' :: tag.toList ++ ['>']

mutual

/-- The tags of a tree in their order: those that open and close an element, and between them those
of its children. An element without an end has one tag, and its children have none.
-/
def tagsOf : Node ι → List (List Char)
  | .list items => tagsOfItems items
  | .element (.intrinsic tag) _ props =>
      if Html.voidTags.contains tag then [openingTag tag props]
      else openingTag tag props :: tagsOfChildren props ++ [closingTag tag]
  | .element _ _ props => tagsOfChildren props
  | .null | .bool _ | .number _ | .string _ | .map _ => []

def tagsOfItems : List (Node ι) → List (List Char)
  | [] => []
  | node :: rest => tagsOf node ++ tagsOfItems rest

def tagsOfChildren : List (String × Node ι) → List (List Char)
  | [] => []
  | (name, node) :: rest => if name = Tree.childrenProp then tagsOf node else tagsOfChildren rest

end

mutual

/-- The text of a tree: its strings and numbers in their order, less those in elements without an
end.
-/
def textOf : Node ι → List Char
  | .number n => n.text
  | .string s => s.toList
  | .list items => textOfItems items
  | .element (.intrinsic tag) _ props =>
      if Html.voidTags.contains tag then [] else textOfChildren props
  | .element _ _ props => textOfChildren props
  | .null | .bool _ | .map _ => []

def textOfItems : List (Node ι) → List Char
  | [] => []
  | node :: rest => textOf node ++ textOfItems rest

def textOfChildren : List (String × Node ι) → List Char
  | [] => []
  | (name, node) :: rest => if name = Tree.childrenProp then textOf node else textOfChildren rest

end

/-- Holds for what is no component, and is written by a harmless name. -/
def Kind.IsPlain : Kind ι → Prop
  | .fragment => True
  | .intrinsic tag => IsHarmless tag.toList
  | .component _ _ => False

instance (kind : Kind ι) : Decidable kind.IsPlain :=
  match kind with
  | .fragment => inferInstanceAs (Decidable True)
  | .intrinsic tag => inferInstanceAs (Decidable (IsHarmless tag.toList))
  | .component _ _ => inferInstanceAs (Decidable False)

/-- Holds for trees without components in which all names of tags and properties are harmless.
Nothing is asked of the values of properties.
-/
def IsPlain (node : Node ι) : Prop :=
  ∀ e ∈ node.elements (fun _ => false),
    e.kind.IsPlain ∧ ∀ prop ∈ e.props, IsHarmless prop.1.toList

instance (node : Node ι) : Decidable (IsPlain node) :=
  inferInstanceAs (Decidable (∀ e ∈ node.elements (fun _ => false), _ ∧ _))

-----------------------------------------------------------------------------------------
-- Attributes
-----------------------------------------------------------------------------------------

theorem isUntagged_attributeName {name : String} (h : IsHarmless name.toList)
    : IsUntagged (attributeName name).toList := by
  unfold attributeName
  split
  · decide
  · decide
  · exact isUntagged_of_isHarmless h

theorem isUntagged_valuedAttribute {name : String} (h : IsUntagged name.toList)
    (value : List Char)
    : IsUntagged (valuedAttribute name value) := by
  have quoted : IsUntagged ('=' :: '"' :: escape value ++ ['"']) :=
    ((isUntagged_escape value).cons (by decide)).cons (by decide) |>.append (by decide)
  simpa [valuedAttribute] using (h.append quoted).cons (c := ' ') (by decide)

/-- An attribute stays in its tag, whatever its value is. -/
theorem isUntagged_propAttribute {name : String} (h : IsHarmless name.toList) (node : Node ι)
    : IsUntagged (propAttribute name node) := by
  have named := isUntagged_attributeName h
  unfold propAttribute
  split
  · exact named.cons (by decide)
  · exact isUntagged_valuedAttribute named _
  · exact isUntagged_valuedAttribute named _
  · simp only
    split
    · exact isUntagged_valuedAttribute named _
    · exact List.forall_mem_nil _
  all_goals exact List.forall_mem_nil _

theorem isUntagged_propAttributes {props : List (String × Node ι)}
    (h : ∀ prop ∈ props, IsHarmless prop.1.toList)
    : IsUntagged (propAttributes props) := by
  intro c member
  obtain ⟨⟨name, node⟩, known, written⟩ := List.mem_flatMap.mp member
  simp only at written
  split at written
  · cases written
  · exact isUntagged_propAttribute (h _ known) node c written

theorem isTag_openingTag {tag : String} {props : List (String × Node ι)}
    (ht : IsHarmless tag.toList) (hp : ∀ prop ∈ props, IsHarmless prop.1.toList)
    : IsTag (openingTag tag props) :=
  ⟨_, rfl, (isUntagged_of_isHarmless ht).append (isUntagged_propAttributes hp)⟩

theorem isTag_closingTag {tag : String} (h : IsHarmless tag.toList) : IsTag (closingTag tag) :=
  ⟨_, rfl, (isUntagged_of_isHarmless h).cons (by decide)⟩

-----------------------------------------------------------------------------------------
-- The HTML of a tree
-----------------------------------------------------------------------------------------

theorem holds_escape (s : List Char) : Holds (escape s) [] (escape s) :=
  (isUntagged_escape s).holds

theorem isHarmless_number (n : Json.Number) : IsHarmless n.text := by
  intro c member
  have numeral := Json.isNumeral_text n c member
  by_contra special
  simp only [isSpecial, Bool.not_eq_false, Bool.or_eq_true, beq_iff_eq, or_assoc] at special
  rcases special with rfl | rfl | rfl | rfl | rfl <;> exact absurd numeral (by decide)

/-- An element with a tag, from what its children are. -/
theorem holds_tagHtml {tag : String} {key : Option String} {props : List (String × Node ι)}
    {inside : List Char} (ht : IsHarmless tag.toList)
    (hp : ∀ prop ∈ props, IsHarmless prop.1.toList)
    (children : Holds inside (tagsOfChildren props) (escape (textOfChildren props)))
    : Holds (tagHtml tag (propAttributes props) inside)
        (tagsOf (.element (.intrinsic tag) key props))
        (escape (textOf (.element (.intrinsic tag) key props))) := by
  have opening : Holds (openingTag tag props) [openingTag tag props] [] :=
    (isTag_openingTag ht hp).holds
  have closing : Holds (closingTag tag) [closingTag tag] [] := (isTag_closingTag ht).holds
  unfold tagsOf textOf
  by_cases void : tag ∈ Html.voidTags
  · simpa [tagHtml, void, openingTag] using opening
  · have whole := (opening.append children).append closing
    simpa [tagHtml, void, openingTag, closingTag] using whole

mutual

/-- The HTML of a tree holds the tags of the tree, and around them its text. By induction on the
tree.
-/
theorem holds_html (draw : Drawing ι) (node : Node ι) (plain : IsPlain node)
    : Holds (html draw node) (tagsOf node) (escape (textOf node)) := by
  match node with
  | .null | .bool _ | .map _ => exact Holds.nil
  | .number n =>
      have written : escape n.text = n.text := Html.escape_eq_self (isHarmless_number n)
      simpa [html, tagsOf, textOf, written] using holds_escape n.text
  | .string s => exact holds_escape s.toList
  | .list items => exact holds_htmlOf draw items (Tree.Node.forall_elementsOfItems.mp plain)
  | .element kind key props =>
      obtain ⟨⟨named, names⟩, below⟩ := List.forall_mem_cons.mp plain
      have children := holds_childrenHtml draw props below
      match kind with
      | .fragment => exact children
      | .intrinsic tag => exact holds_tagHtml named names children
      | .component name implementation => cases named

theorem holds_htmlOf (draw : Drawing ι) (items : List (Node ι))
    (plain : ∀ node ∈ items, IsPlain node)
    : Holds (htmlOf draw items) (tagsOfItems items) (escape (textOfItems items)) := by
  match items with
  | [] => exact Holds.nil
  | node :: rest =>
      obtain ⟨first, later⟩ := List.forall_mem_cons.mp plain
      have both := (holds_html draw node first).append (holds_htmlOf draw rest later)
      simpa [htmlOf, tagsOfItems, textOfItems] using both

theorem holds_childrenHtml (draw : Drawing ι) (props : List (String × Node ι))
    (plain : ∀ e ∈ Tree.Node.elementsOfProps (fun _ => false) props,
      e.kind.IsPlain ∧ ∀ prop ∈ e.props, IsHarmless prop.1.toList)
    : Holds (childrenHtml draw props) (tagsOfChildren props) (escape (textOfChildren props)) := by
  match props with
  | [] => exact Holds.nil
  | (name, node) :: rest =>
      obtain ⟨first, later⟩ := List.forall_mem_append.mp plain
      unfold childrenHtml tagsOfChildren textOfChildren
      split
      · exact holds_html draw node first
      · exact holds_childrenHtml draw rest later

end

/-- Content adds no tags to the HTML of a tree. In a tree without components whose names are
harmless, the `<` of the HTML are those that start the tags of its elements, each tag goes through
the next `>`, and without its tags the HTML is the text of the tree as it is written, from which the
text is read back.
-/
theorem html_tags_and_text (draw : Drawing ι) {node : Node ι} (plain : IsPlain node)
    : tagsIn (html draw node) = tagsOf node
      ∧ (∀ tag ∈ tagsOf node, IsTag tag)
      ∧ withoutTags (html draw node) = escape (textOf node)
      ∧ Text.readEntities Html.specialEntities (escape (textOf node)) = textOf node := by
  have holds := holds_html draw node plain
  have tags := holds.tags []
  have text := holds.text []
  simp only [List.append_nil] at tags text
  refine ⟨?_, holds.formed, ?_, Html.readEntities_escape _⟩
  · simpa [tagsIn] using tags
  · simpa [withoutTags, textAround] using text

def hostileTree : Node Unit :=
  .element (.intrinsic "p") none
    [("children",
        .list
          [.string "</p>&lt;", .element (.intrinsic "br") none [("children", .string "unseen")],
            .number (.ofUInt32 3)]),
      ("className", .string "\"><script>"),
      ("style", .map [("color", .string "red'>")])]

theorem html_hostileTree
    : IsPlain hostileTree
      ∧ tagsIn (html (fun _ _ children => children) hostileTree)
        = ["<p class=\"&quot;&gt;&lt;script&gt;\" style=\"color:red&#x27;&gt;\">".toList,
            "<br>".toList, "</p>".toList]
      ∧ withoutTags (html (fun _ _ children => children) hostileTree)
        = "&lt;/p&gt;&amp;lt;3".toList
      ∧ Text.readEntities Html.specialEntities "&lt;/p&gt;&amp;lt;3".toList
        = "</p>&lt;3".toList := by
  have plain : IsPlain hostileTree := by decide
  obtain ⟨tags, _, text, _⟩ := html_tags_and_text (fun _ _ children => children) plain
  refine ⟨plain, tags.trans ?_, text.trans ?_, ?_⟩
  · decide
  · decide
  · decide

end Folio.Live
