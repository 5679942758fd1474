import Folio.Proofs.Document.Execution
import Folio.Proofs.Live.Consistency
import Folio.Proofs.Live.Reencoding
import Folio.Proofs.Unit.Kinds
import Folio.Site.Toc

/-! Whoever registers the declared names of a document knows all names in the content of its page:
each element is a tag that starts with a small letter, or a component of a declared name. The
content is read without warnings, and nothing of it is lost.
-/

namespace Folio.Document

variable {names : List String}

-----------------------------------------------------------------------------------------
-- What compiled documents open
-----------------------------------------------------------------------------------------

/-- Holds for tags that start with a small letter, and for components of declared names. -/
def IsDeclared (names : List String) : Tree.Kind → Prop
  | .tag name => name.toList.head?.any Char.isLower = true
  | .component name => name ∈ names
  | .grouping => False

/-- What stands in for a name is the component of a declared name. -/
theorem isDeclared_of_standIns {name : String} {binding : Unit.Binding}
    (found : (Unit.Environment.standIns names).get? name = some binding)
    : IsDeclared names binding.kind := by
  have bound := Json.Fields.mem_ofList (Json.Fields.mem_of_get? found)
  obtain ⟨declared, member, same⟩ := List.mem_map.mp bound
  obtain rfl := (Prod.mk.inj same).2
  exact member

/-- A line opens declared elements only, and fits on a line. -/
structure OpensDeclared (names : List String) (i : Unit.Instruction) : Prop where
  isLine : Text.IsLine i.words
  declared : ∀ read, Unit.Instruction.ofLine i.words = .ok read →
    ∀ kind, read.Opens (.standIns names) kind → IsDeclared names kind

theorem opensDeclared_of_readable {i : Unit.Instruction} (readable : i.Readable)
    (declared : ∀ kind, i.Opens (.standIns names) kind → IsDeclared names kind)
    : OpensDeclared names i := by
  refine ⟨readable.isLine, ?_⟩
  intro read same
  rw [readable.read] at same
  obtain rfl := Except.ok.inj same
  exact declared

/-- The line of a property opens nothing, even if its value cannot be read. -/
theorem opensDeclared_prop {name : String} (fits : Unit.IsPropName name) (value : Json.Value)
    : OpensDeclared names (.prop name value) := by
  refine ⟨Unit.isLine_words rfl (Unit.isLine_property fits.2 value), ?_⟩
  intro read same kind opens
  obtain ⟨word, -⟩ := (Unit.ofLine_eq_ok_iff (Unit.isCall_words rfl)).mp same
  cases read with
  | openTag _ | openComponent _ => simp [Unit.Instruction.word] at word
  | _ => exact opens.elim

theorem opensDeclared_opening {kind : Kind} {attributes : Attributes}
    (lines : ∀ name ∈ names, Text.IsLine name.toList) (fits : Fits names kind attributes)
    : OpensDeclared names (.opening kind) := by
  cases kind with
  | tag name =>
      refine opensDeclared_of_readable (Unit.readable_openTag (fits.tag name rfl)) ?_
      rintro kind rfl
      exact fits.lower name rfl
  | component name =>
      have isLine := lines name (fits.component name rfl)
      refine opensDeclared_of_readable (Unit.readable_openComponent isLine) ?_
      rintro kind ⟨binding, found, rfl⟩
      exact isDeclared_of_standIns found

/-- The lines of a compiled document open declared elements only. -/
theorem opensDeclared_of_compile (builtIns : List BuiltIn) {body : String}
    {unit : CompiledUnit}
    (compiled : compile (builtIns.map BuiltIn.transform) body names = .ok unit)
    : ∀ line ∈ (Text.lines unit.text.toList).tail, ∀ i, Unit.Instruction.ofLine line = .ok i →
        ∀ kind, i.Opens (.standIns names) kind → IsDeclared names kind := by
  obtain ⟨noFault, nodes, parsed, text⟩ := compile_eq_ok compiled
  have lines := isLine_of_nameFault? noFault
  have fits : ∀ e ∈ Node.listElements (Transform.applyAll (builtIns.map BuiltIn.transform) nodes),
      Fits names e.kind e.attributes :=
    kept_applyAll allowsStrings_fits builtIns (fits_listElements (named_parseBody parsed))
  have opens
      : ∀ i ∈ Unit.program names (Transform.applyAll (builtIns.map BuiltIn.transform) nodes),
          OpensDeclared names i := by
    refine List.forall_mem_append.mpr ⟨?_, ?_⟩
    · refine List.forall_mem_map.mpr fun name member => ?_
      exact opensDeclared_of_readable (Unit.readable_bind (lines name member))
        fun _ opens => opens.elim
    · refine Unit.forall_mem_lowerList
        (fun t => opensDeclared_of_readable (Unit.readable_text t) fun _ opens => opens.elim)
        (fun k => opensDeclared_of_readable (Unit.readable_key k) fun _ opens => opens.elim)
        (opensDeclared_of_readable Unit.readable_close fun _ opens => opens.elim) _ ?_
      intro e member
      refine ⟨opensDeclared_opening lines (fits e member), ?_⟩
      exact fun entry given => opensDeclared_prop ((fits e member).names entry given) entry.2
  rw [text, Unit.lines_render_of_isLine fun i member => (opens i member).isLine, List.tail_cons]
  exact List.forall_mem_map.mpr fun i member => (opens i member).declared

end Folio.Document

namespace Folio.Site

open Content (LogicalPath)
open Folio.Tree (Built)

variable {ι : Type} {names : List String}

-----------------------------------------------------------------------------------------
-- Pages
-----------------------------------------------------------------------------------------

/-- A declared element is not called like a group, and its name is known if the declared names are
registered.
-/
theorem role_of_isDeclared {registry : Live.Registry ι}
    (registered : ∀ name ∈ names, name ≠ "#group" ∧ registry.has name = true) {kind : Tree.Kind}
    (declared : Document.IsDeclared names kind)
    : kind.identifier ≠ "#group" ∧ Live.role registry kind.identifier ≠ .stranger := by
  cases kind with
  | grouping => exact declared.elim
  | component name =>
      obtain ⟨notGroup, has⟩ := registered name declared
      obtain ⟨implementation, found⟩ := Option.isSome_iff_exists.mp has
      have component : Live.role registry name = .component implementation := by
        rw [Live.role, if_neg notGroup, found]
      exact ⟨notGroup, fun stranger => nomatch component.symm.trans stranger⟩
  | tag name =>
      have notGroup : name ≠ "#group" := by
        rintro rfl
        have small : ("#group".toList.head?.any Char.isLower) = true := declared
        exact absurd small (by decide)
      have lower : name.toList.head?.any Text.isLowercase = true := by
        obtain ⟨c, first, small⟩ := (Option.any_eq_true _ _).mp declared
        exact (Option.any_eq_true _ _).mpr ⟨c, first, Text.isLowercase_of_isLower small⟩
      refine ⟨notGroup, fun stranger => ?_⟩
      simp only [Tree.Kind.identifier, Live.role, if_neg notGroup, lower, if_true] at stranger
      split at stranger <;> cases stranger

/-- Properties without any but children hold one node of children, or nothing. -/
theorem withChildren_nil_cases {κ : Type} (children : List (Tree.Node κ))
    : Tree.Props.withChildren [] children = []
      ∨ ∃ node, Tree.Props.withChildren [] children = [("children", node)] := by
  match children with
  | [] => exact .inl rfl
  | [child] => exact .inr ⟨child, rfl⟩
  | first :: second :: rest => exact .inr ⟨.list (first :: second :: rest), rfl⟩

/-- The content of a page holds what the group of the document holds, and nothing but children. -/
theorem contentGroup_of_grouping {P : Tree.Kind → Prop} {props : Tree.Props Tree.Kind}
    (only : ∀ prop ∈ props, Unit.OnlyKinds P prop.2)
    : ∃ kept,
        contentGroup (.element .grouping none props) = .element .grouping none kept
        ∧ (kept = [] ∨ ∃ node, kept = [("children", node)])
        ∧ ∀ prop ∈ kept, Unit.OnlyKinds P prop.2 := by
  refine ⟨_, rfl, withChildren_nil_cases _, Unit.onlyKinds_withChildren (List.forall_mem_nil _) ?_⟩
  exact fun node member => Unit.onlyKinds_children only node (List.mem_filter.mp member).1

/-- Whoever registers the declared names of a document reads the content of its page as a fragment,
without warnings: it has no property but its children, every component in it is registered, and it
is written again as it was.
-/
theorem fromWire_compiled (builtIns : List Document.BuiltIn) {body : String}
    {unit : CompiledUnit} {tree : Built}
    (compiled : Document.compile (builtIns.map Document.BuiltIn.transform) body names = .ok unit)
    (ran : Unit.run (Unit.Environment.standIns names) unit.text = .ok tree)
    {registry : Live.Registry ι} (registered : ∀ name ∈ names, registry.has name = true)
    (path : LogicalPath)
    : ∃ key props,
        Live.fromWire registry (withToc path tree).children.wire
          = .ok (.element .fragment key props, [])
        ∧ (∀ prop ∈ props, prop.1 = "children")
        ∧ (∀ e ∈ Live.elements (.element .fragment key props), ∀ name implementation,
            e.kind = .component name implementation → registry.get? name = some implementation)
        ∧ Live.wire (.element .fragment key props) = (withToc path tree).children.wire := by
  obtain ⟨noFault, -⟩ := Document.compile_eq_ok compiled
  have registered : ∀ name ∈ names, name ≠ "#group" ∧ registry.has name = true := by
    intro name member
    refine ⟨?_, registered name member⟩
    rintro rfl
    exact absurd (Document.isComponentName_of_nameFault? noFault _ member) (by decide)
  obtain ⟨props, rfl, only⟩ :=
    Unit.onlyKinds_of_run ran (Document.opensDeclared_of_compile builtIns compiled)
  obtain ⟨kept, content, shape, only⟩ := contentGroup_of_grouping only
  have shown : (withToc path (.element .grouping none props)).children
      = .element .grouping none kept := content
  have inside : ∀ e ∈ Tree.Node.elementsOfProps Tree.internalProps.contains kept,
      e.kind.identifier ≠ "#group" ∧ Live.role registry e.kind.identifier ≠ .stranger :=
    Tree.Node.forall_elementsOfProps fun prop member e inside =>
      role_of_isDeclared registered (only prop member e inside)
  have alone : ∀ prop ∈ kept, prop.1 = "children" := by
    rcases shape with rfl | ⟨node, rfl⟩
    · exact List.forall_mem_nil _
    · exact List.forall_mem_singleton.mpr rfl
  have sorted : Json.Fields.Sorted kept := by
    rcases shape with rfl | ⟨node, rfl⟩
    · exact List.Pairwise.nil
    · exact List.pairwise_singleton _ _
  have known : Live.strangers registry (.element .grouping none kept) = [] := by
    refine Live.strangers_eq_nil _ (List.forall_mem_cons.mpr ⟨?_, fun e member => ?_⟩)
    · exact fun stranger => nomatch (Live.role_eq_group.mpr rfl).symm.trans stranger
    · exact (inside e member).2
  have read := Live.revive_wire registry (.element .grouping none kept)
  have consistent := Live.consistent_of_revive read
  rw [known] at read
  rw [shown]
  refine ⟨none, Live.hydratedChildren registry kept, ?_, ?_, ?_, ?_⟩
  · rw [Live.fromWire, Tree.Built.wire, read]
    rfl
  · exact consistent _ List.mem_cons_self
  · intro e member name implementation component
    have fits := consistent e member
    simp only [Live.IsConsistent, component] at fits
    exact fits.2
  · refine (Live.wire_hydrated_iff _ (List.forall_mem_cons.mpr ⟨?_, ?_⟩)).mpr
      ⟨known, List.forall_mem_cons.mpr ⟨?_, ?_⟩⟩
    · exact fun _ => sorted
    · exact fun e member isGroup => absurd isGroup (inside e member).1
    · exact fun _ prop member _ => alone prop member
    · exact fun e member isGroup => absurd isGroup (inside e member).1

/-- A document with a component in a tag, of which a property looks like an unknown element. -/
def pinnedNote : String :=
  "<div pin=\x7b[\"$r\",\"Ghost\",null,\x7b\x7d]\x7d>\n\n<Note>*d*</Note>\n\n</div>\n"

/-- It compiles and runs, and its page is read by all who register the component. -/
theorem fromWire_pinnedNote
    : ∃ unit tree,
        Document.compile Document.Transform.standard pinnedNote ["Note"] = .ok unit
        ∧ Unit.run (Unit.Environment.standIns ["Note"]) unit.text = .ok tree
        ∧ ∃ key props,
            Live.fromWire [("Note", 7)] (withToc .root tree).children.wire
              = .ok (.element .fragment key props, [])
            ∧ (∀ prop ∈ props, prop.1 = "children")
            ∧ (∀ e ∈ Live.elements (.element .fragment key props), ∀ name implementation,
                e.kind = .component name implementation
                  → Json.Fields.get? [("Note", 7)] name = some implementation)
            ∧ Live.wire (.element .fragment key props) = (withToc .root tree).children.wire := by
  have compiles
      : (Document.compile Document.Transform.standard pinnedNote ["Note"]).isOk = true := by
    decide +kernel
  have runs
      : (Document.compile Document.Transform.standard pinnedNote ["Note"]).toOption.any
          (fun unit => (Unit.run (Unit.Environment.standIns ["Note"]) unit.text).isOk) = true := by
    decide +kernel
  have registered : ∀ name ∈ ["Note"], Json.Fields.has [("Note", 7)] name = true := by
    decide
  obtain ⟨unit, compiled⟩ := exists_of_isOk compiles
  rw [compiled] at runs
  obtain ⟨tree, ran⟩ := exists_of_isOk runs
  exact ⟨unit, tree, compiled, ran,
    fromWire_compiled Document.BuiltIn.standard compiled ran registered .root⟩

end Folio.Site
