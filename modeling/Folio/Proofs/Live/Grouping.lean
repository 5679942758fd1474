import Folio.Live.Rendering
import Folio.Proofs.Json.Fields
import Mathlib.Logic.Relation

/-! Groups do not show in HTML. Siblings that are put into a fragment, and a fragment that is
replaced by what is in it, leave the HTML of a tree as it is, wherever in its children they stand
and however the children are stored, as long as components only see their children as HTML.
-/

namespace Folio.Live

open Json (Fields)
open Folio.Tree (Props childrenProp)

variable {ι : Type} {draw : Drawing ι}

-----------------------------------------------------------------------------------------
-- Groups in a tree
-----------------------------------------------------------------------------------------

/-- Siblings before and after a change of their groups: some of them are put into a fragment, or a
fragment is replaced by its children.
-/
inductive Regroups : List (Node ι) → List (Node ι) → Prop
  | wrap (before run after : List (Node ι)) (key : Option String) (props : Props (Kind ι))
    : Regroups (before ++ run ++ after)
        (before ++ .element .fragment key (props.withChildren run) :: after)
  | splice (before after : List (Node ι)) (key : Option String) (props : Props (Kind ι))
    : Regroups (before ++ .element .fragment key props :: after)
        (before ++ props.children ++ after)

/-- Properties with other children: they are stored by the rule for children, or in any other way in
which they are the children. All other properties stay.
-/
inductive Stores (props : Props (Kind ι)) (children : List (Node ι)) : Props (Kind ι) → Prop
  | byRule : Stores props children (props.withChildren children)
  | otherwise {other : Props (Kind ι)}
      (others : Fields.erase other childrenProp = Fields.erase props childrenProp)
      (stored : other.children = children)
    : Stores props children other

/-- A tree before and after a change of groups among the children of one of its elements, or among
the items of a list. The way there is through children and items only.
-/
inductive Regrouped : Node ι → Node ι → Prop
  | inElement {kind : Kind ι} {key : Option String} {props other : Props (Kind ι)}
      {children : List (Node ι)} (groups : Regroups props.children children)
      (stores : Stores props children other)
    : Regrouped (.element kind key props) (.element kind key other)
  | inList {items other : List (Node ι)} (groups : Regroups items other)
    : Regrouped (.list items) (.list other)
  | ofChildren {kind : Kind ι} {key : Option String} {props : Props (Kind ι)}
      {children other : Node ι} (found : props.get? childrenProp = some children)
      (inside : Regrouped children other)
    : Regrouped (.element kind key props) (.element kind key (props.insert childrenProp other))
  | ofItem {node other : Node ι} (before after : List (Node ι)) (inside : Regrouped node other)
    : Regrouped (.list (before ++ node :: after)) (.list (before ++ other :: after))

/-- Holds if components only see their children as HTML: what they draw depends on that and on their
other properties.
-/
def IgnoresChildren (draw : Drawing ι) : Prop :=
  ∀ implementation (props other : Props (Kind ι)) inside,
    Fields.erase props childrenProp = Fields.erase other childrenProp →
      draw implementation props inside = draw implementation other inside

-----------------------------------------------------------------------------------------
-- Children, however they are stored
-----------------------------------------------------------------------------------------

theorem htmlOf_append (draw : Drawing ι) (nodes more : List (Node ι))
    : htmlOf draw (nodes ++ more) = htmlOf draw nodes ++ htmlOf draw more := by
  induction nodes with
  | nil => rfl
  | cons node rest ih => rw [List.cons_append, htmlOf, htmlOf, ih, List.append_assoc]

theorem htmlOf_asChildren (draw : Drawing ι) (node : Node ι)
    : htmlOf draw node.asChildren = html draw node := by
  cases node with
  | list items => rfl
  | null | bool _ | number _ | string _ | map _ | element _ _ _ => exact List.append_nil _

/-- The HTML of the children is that of each of them, one after the other. -/
theorem childrenHtml_eq_htmlOf (draw : Drawing ι) (props : Props (Kind ι))
    : childrenHtml draw props = htmlOf draw props.children := by
  induction props with
  | nil => rfl
  | cons prop rest ih =>
      obtain ⟨name, node⟩ := prop
      unfold childrenHtml Props.children
      rw [Fields.get?_cons]
      split
      · exact (htmlOf_asChildren draw node).symm
      · exact ih

/-- The rule by which children are stored keeps their HTML. A list that is an only child is stored
like the children in it, but it is also drawn like them.
-/
theorem htmlOf_withChildren (draw : Drawing ι) (props : Props (Kind ι))
    (children : List (Node ι))
    : htmlOf draw (props.withChildren children).children = htmlOf draw children := by
  unfold Props.children
  match children with
  | [] =>
      rw [Props.withChildren, Fields.get?_erase, if_pos rfl]
      rfl
  | [child] =>
      rw [Props.withChildren, Fields.get?_insert, if_pos rfl]
      exact (htmlOf_asChildren draw child).trans (List.append_nil _).symm
  | first :: second :: rest =>
      have stored : props.withChildren (first :: second :: rest)
          = Fields.insert props childrenProp (.list (first :: second :: rest)) := rfl
      rw [stored, Fields.get?_insert, if_pos rfl]
      rfl

/-- Other children leave the other properties as they are. -/
theorem erase_withChildren (props : Props (Kind ι)) (children : List (Node ι))
    : Fields.erase (props.withChildren children) childrenProp
      = Fields.erase props childrenProp := by
  unfold Props.withChildren
  split
  · simp [Fields.erase]
  · exact Fields.erase_insert props childrenProp _
  · exact Fields.erase_insert props childrenProp _

/-- Children are no attribute. -/
theorem propAttributes_erase (props : Props (Kind ι))
    : propAttributes (Fields.erase props childrenProp) = propAttributes props := by
  induction props with
  | nil => rfl
  | cons prop rest ih =>
      obtain ⟨name, node⟩ := prop
      unfold Fields.erase propAttributes at ih ⊢
      by_cases same : name = childrenProp
      · simpa [same] using ih
      · simpa [same] using ih

-----------------------------------------------------------------------------------------
-- Groups and HTML
-----------------------------------------------------------------------------------------

/-- The HTML of an element depends on that of its children and on its other properties. -/
theorem html_element_congr (ignores : IgnoresChildren draw) (kind : Kind ι) (key : Option String)
    {props other : Props (Kind ι)}
    (others : Fields.erase other childrenProp = Fields.erase props childrenProp)
    (children : htmlOf draw other.children = htmlOf draw props.children)
    : html draw (.element kind key other) = html draw (.element kind key props) := by
  have inside : childrenHtml draw other = childrenHtml draw props := by
    rw [childrenHtml_eq_htmlOf, childrenHtml_eq_htmlOf, children]
  cases kind with
  | fragment => exact inside
  | intrinsic tag =>
      have attributes : propAttributes other = propAttributes props := by
        rw [← propAttributes_erase, others, propAttributes_erase]
      rw [html, html, attributes, inside]
  | component name implementation =>
      rw [html, html, inside]
      exact ignores implementation other props _ others

/-- A fragment is drawn as its children. -/
theorem html_fragment (draw : Drawing ι) (key : Option String) (props : Props (Kind ι))
    : html draw (.element .fragment key props) = htmlOf draw props.children :=
  childrenHtml_eq_htmlOf draw props

theorem htmlOf_of_regroups {nodes other : List (Node ι)} (h : Regroups nodes other)
    : htmlOf draw other = htmlOf draw nodes := by
  cases h with
  | wrap before run after key props =>
      rw [htmlOf_append, htmlOf_append, htmlOf_append, htmlOf, html_fragment, htmlOf_withChildren,
        List.append_assoc]
  | splice before after key props =>
      rw [htmlOf_append, htmlOf_append, htmlOf_append, htmlOf, html_fragment, List.append_assoc]

/-- Children that were stored are drawn as those that were to be stored, and the other properties
are those from before.
-/
theorem htmlOf_of_stores (draw : Drawing ι) {props other : Props (Kind ι)}
    {children : List (Node ι)}
    (h : Stores props children other)
    : htmlOf draw other.children = htmlOf draw children
      ∧ Fields.erase other childrenProp = Fields.erase props childrenProp := by
  cases h with
  | byRule => exact ⟨htmlOf_withChildren draw props children, erase_withChildren props children⟩
  | otherwise others stored => exact ⟨by rw [stored], others⟩

/-- One change of groups does not show, by induction on the way to where it is. -/
theorem html_of_regrouped (ignores : IgnoresChildren draw) {node other : Node ι}
    (h : Regrouped node other)
    : html draw other = html draw node := by
  induction h with
  | inElement groups stores =>
      obtain ⟨children, others⟩ := htmlOf_of_stores draw stores
      exact html_element_congr ignores _ _ others (children.trans (htmlOf_of_regroups groups))
  | inList groups => exact htmlOf_of_regroups groups
  | @ofChildren kind key props children other found inside ih =>
      refine html_element_congr ignores kind key (Fields.erase_insert props _ _) ?_
      unfold Props.children
      rw [Fields.get?_insert, if_pos rfl, found]
      exact (htmlOf_asChildren draw other).trans (ih.trans (htmlOf_asChildren draw children).symm)
  | ofItem before after inside ih =>
      rw [html, html, htmlOf_append, htmlOf_append, htmlOf, htmlOf, ih]

/-- Grouping is transparent. Any number of changes of groups, among the children of any elements of
a tree and in either direction, leave its HTML as it is, if components only see their children as
HTML.
-/
theorem html_regrouped (ignores : IgnoresChildren draw) {node other : Node ι}
    (h : Relation.EqvGen Regrouped node other)
    : html draw node = html draw other := by
  induction h with
  | rel node other step => exact (html_of_regrouped ignores step).symm
  | refl node => rfl
  | symm node other _ ih => exact ih.symm
  | trans node middle other _ _ first second => exact first.trans second

/-- Components that are drawn as their other properties and their children in brackets. -/
def drawBrackets : Drawing String :=
  fun name props inside => '[' :: name.toList ++ propAttributes props ++ '|' :: inside ++ [']']

def cardOf (inside : Node String) : Node String :=
  .element (.component "Card" "card") (some "k") [("children", inside), ("tone", .string "warm")]

def boldText : Node String :=
  .element (.intrinsic "b") none [("children", .string "x")]

/-- An element without an end, whose child is not drawn. -/
def lineBreak : Node String :=
  .element (.intrinsic "br") none [("children", .string "unseen")]

def deckOf (children : List (Node String)) : Node String :=
  .element (.intrinsic "ul") none [("children", .list children), ("className", .string "deck")]

/-- The only child of a component is put into a group, and then the component and what stands after
it into another.
-/
theorem html_groupedDeck
    : let groupedCard := cardOf (.element .fragment none [("children", boldText)])
      let groupedDeck := deckOf
        [.string "<",
          .element .fragment (some "g")
            [("children", .list [groupedCard, lineBreak]), ("title", .string "unseen")]]
      IgnoresChildren drawBrackets
      ∧ Relation.EqvGen Regrouped (deckOf [.string "<", cardOf boldText, lineBreak]) groupedDeck
      ∧ html drawBrackets (deckOf [.string "<", cardOf boldText, lineBreak])
        = html drawBrackets groupedDeck
      ∧ html drawBrackets groupedDeck
        = "<ul class=\"deck\">&lt;[card tone=\"warm\"|<b>x</b>]<br></ul>".toList := by
  intro groupedCard groupedDeck
  have ignores : IgnoresChildren drawBrackets := by
    intro name props other inside same
    unfold drawBrackets
    rw [← propAttributes_erase props, same, propAttributes_erase]
  have inCard : Regrouped (cardOf boldText) groupedCard :=
    .inElement (.wrap [] [boldText] [] none []) .byRule
  have inItem : Regrouped (deckOf [.string "<", cardOf boldText, lineBreak])
      (deckOf [.string "<", groupedCard, lineBreak]) :=
    .ofChildren rfl (.ofItem [.string "<"] [lineBreak] inCard)
  have inDeck : Regrouped (deckOf [.string "<", groupedCard, lineBreak]) groupedDeck :=
    .inElement
      (.wrap [.string "<"] [groupedCard, lineBreak] [] (some "g") [("title", .string "unseen")])
      .byRule
  have groups := (Relation.EqvGen.rel _ _ inItem).trans _ _ _ (.rel _ _ inDeck)
  exact ⟨ignores, groups, html_regrouped ignores groups, by decide⟩

end Folio.Live
