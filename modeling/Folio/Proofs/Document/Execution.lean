import Folio.Proofs.Document.Names
import Folio.Proofs.Document.Transforms
import Folio.Proofs.Json.Strings

/-! What compiles runs: the unit of a document is accepted as a unit, and runs in the environment of
its declared names. The transforms that come with the compiler only add attributes whose values are
strings, so that they keep what can be written.
-/

namespace Folio.Document

open Folio.Unit (IsPropName Writable Environment)

variable {names : List String}

-----------------------------------------------------------------------------------------
-- Transforms
-----------------------------------------------------------------------------------------

/-- What holds of an element still holds of it with one more attribute that is a string. -/
def AllowsStrings (P : Kind → Attributes → Prop) : Prop :=
  ∀ kind attributes, P kind attributes →
    ∀ name, IsPropName name → ∀ value : String, P kind (attributes.insert name (.string value))

/-- What transforms add can be written. -/
theorem isPropName_of_anyMayAdd {builtIns : List BuiltIn} {kind : Kind} {name : String}
    (h : BuiltIn.AnyMayAdd builtIns kind name)
    : IsPropName name := by
  obtain ⟨builtIn, -, allowed⟩ := h
  cases builtIn with
  | headingIds =>
      obtain ⟨-, rfl⟩ := allowed
      decide
  | externalLinks => rcases allowed with ⟨-, rfl | rfl⟩ <;> decide

/-- Transforms keep what holds of the elements, as long as more attributes that are strings do not
matter.
-/
theorem kept_applyAll {P : Kind → Attributes → Prop} (keeps : AllowsStrings P)
    (builtIns : List BuiltIn) {nodes : List Node}
    (h : ∀ e ∈ Node.listElements nodes, P e.kind e.attributes)
    : ∀ e ∈ Node.listElements (Transform.applyAll (builtIns.map BuiltIn.transform) nodes),
        P e.kind e.attributes := by
  refine (Transform.gain_applyAll builtIns nodes).forall_elements ?_ h
  intro kind before after gained own
  refine gained.keeps (fun attributes name known allowed value => ?_) own
  exact keeps kind attributes known name (isPropName_of_anyMayAdd allowed) value

/-- What an element is. Texts are nothing of that kind. -/
def Node.kind? : Node → Option Kind
  | .text _ => none
  | .element kind _ _ _ => some kind

/-- Elements that gain attributes stay what they are, by induction on the nodes. -/
theorem NodesGain.map_kind? {may : Kind → String → Prop} {nodes changed : List Node}
    (h : NodesGain may nodes changed)
    : changed.map Node.kind? = nodes.map Node.kind? := by
  induction nodes generalizing changed with
  | nil =>
      cases h
      rfl
  | cons node rest ih =>
      cases h with
      | @cons _ other _ others first later =>
          have same : other.kind? = node.kind? := by
            cases first <;> rfl
          exact congrArg₂ List.cons same (ih later)

/-- Transforms neither add nor remove nodes, and elements stay what they are. -/
theorem map_kind?_applyAll (builtIns : List BuiltIn) (nodes : List Node)
    : (Transform.applyAll (builtIns.map BuiltIn.transform) nodes).map Node.kind?
      = nodes.map Node.kind? :=
  (Transform.gain_applyAll builtIns nodes).map_kind?

def AllWritable (names : List String) (nodes : List Node) : Prop :=
  ∀ e ∈ Node.listElements nodes, Unit.Writable names e.kind e.attributes

/-- A string is read as it is written. -/
theorem allowsStrings_writable : AllowsStrings (Unit.Writable names) := by
  intro kind attributes h name fits value
  refine ⟨named_insert h.toNamed fits _, ?_⟩
  intro entry member
  rcases Json.Fields.mem_insert member with rfl | old
  · exact Json.parse_quote value
  · exact h.values entry old

theorem allowsStrings_fits : AllowsStrings (Fits names) :=
  fun _ _ h _ fits _ => fits_insert h fits _

/-- Transforms keep what can be written. -/
theorem writable_applyAll (builtIns : List BuiltIn) {nodes : List Node}
    (h : AllWritable names nodes)
    : AllWritable names (Transform.applyAll (builtIns.map BuiltIn.transform) nodes) :=
  kept_applyAll allowsStrings_writable builtIns h

-----------------------------------------------------------------------------------------
-- Declared names
-----------------------------------------------------------------------------------------

/-- Names that may be declared stand on one line. -/
theorem isLine_of_nameFault? (noFault : nameFault? names = none)
    : ∀ name ∈ names, Text.IsLine name.toList := by
  intro name member
  have chars := (isIdentifier_of_nameFault? noFault name member).chars
  refine Text.Unbroken.isLine fun c inside => ?_
  constructor <;> rintro rfl <;> exact absurd (chars _ inside) (by decide)

theorem standIns_binds (names : List String) : (Environment.standIns names).Binds names :=
  fun _ member => Json.Fields.has_ofList (List.mem_map_of_mem member)

-----------------------------------------------------------------------------------------
-- Compiled documents
-----------------------------------------------------------------------------------------

/-- What compiles has names that may be declared and a syntax tree, from which the unit is written.
-/
theorem compile_eq_ok {transforms : List Transform} {body : String} {unit : CompiledUnit}
    (compiled : compile transforms body names = .ok unit)
    : nameFault? names = none
      ∧ ∃ nodes,
          parseBody names body.toList = .ok nodes
          ∧ unit.text = Unit.render (Unit.program names (Transform.applyAll transforms nodes)) := by
  have noFault : nameFault? names = none := by
    unfold compile at compiled
    split at compiled
    · exact nomatch compiled
    · next noFault => exact noFault
  rw [compile_eq_map noFault] at compiled
  cases parsed : parseBody names body.toList with
  | error fault =>
      rw [parsed] at compiled
      exact nomatch compiled
  | ok nodes =>
      rw [parsed] at compiled
      obtain rfl := Except.ok.inj compiled
      exact ⟨noFault, nodes, rfl, rfl⟩

theorem ofText?_of_compile {transforms : List Transform} {body : String} {unit : CompiledUnit}
    (compiled : compile transforms body names = .ok unit)
    : CompiledUnit.ofText? unit.text = some unit := by
  obtain ⟨-, nodes, -, text⟩ := compile_eq_ok compiled
  obtain ⟨_⟩ := unit
  obtain rfl := text
  exact Unit.ofText?_render _

/-- The components that a unit opens are among the names. -/
theorem declared_of_mem_program {nodes : List Node} (writable : AllWritable names nodes)
    : ∀ i ∈ Unit.program names nodes, ∀ name, i = .openComponent name → name ∈ names := by
  refine List.forall_mem_append.mpr ⟨?_, ?_⟩
  · exact List.forall_mem_map.mpr fun _ _ _ same => nomatch same
  · refine Unit.forall_mem_lowerList (fun _ _ same => nomatch same) (fun _ _ same => nomatch same)
      (fun _ same => nomatch same) nodes fun e member => ⟨fun name same => ?_, ?_⟩
    · cases kind : e.kind with
      | tag tag =>
          rw [kind] at same
          exact nomatch same
      | component own =>
          rw [kind] at same
          exact Unit.Instruction.openComponent.inj same ▸ (writable e member).component own kind
    · exact fun _ _ _ same => nomatch same

/-- A line of a unit that opens a component opens one of the names, because it is read so. -/
theorem declared_of_open {nodes : List Node} (fits : ∀ name ∈ names, Text.IsLine name.toList)
    (writable : AllWritable names nodes) {name : List Char}
    (h : "open @".toList ++ name ∈ (Unit.program names nodes).map Unit.Instruction.words)
    : String.ofList name ∈ names := by
  obtain ⟨i, member, same⟩ := List.mem_map.mp h
  have read := (Unit.readable_program fits writable i member).read
  have call : Unit.IsCall ("open @".toList ++ name) "open" ('@' :: name) := ⟨by decide, .inl rfl⟩
  have opened : Unit.Instruction.ofLine ("open @".toList ++ name)
      = .ok (.openComponent (String.ofList name)) :=
    (Unit.ofLine_eq_ok_iff call).mpr ⟨rfl, congrArg _ String.toList_ofList.symm⟩
  rw [same, opened] at read
  exact declared_of_mem_program writable i member _ (Except.ok.inj read).symm

/-- Trees import nothing. -/
theorem ne_bind_lowerList (nodes : List Node)
    : ∀ i ∈ Unit.lowerList nodes, ∀ name, i ≠ .bind name := by
  refine Unit.forall_mem_lowerList (by simp) (by simp) (by simp) nodes fun e _ => ⟨?_, ?_⟩
  · cases e.kind <;> simp [Unit.Instruction.opening]
  · simp

theorem words_imports (names : List String)
    : (names.map Unit.Instruction.bind).map Unit.Instruction.words
      = names.map fun name => "import ".toList ++ name.toList := by
  simp [Unit.Instruction.words, Unit.Instruction.word, Unit.Instruction.argument?]

/-- No instruction of a tree is an import. -/
theorem not_import_lowerList (nodes : List Node)
    : ∀ line ∈ (Unit.lowerList nodes).map Unit.Instruction.words, ¬"import ".toList <+: line := by
  refine List.forall_mem_map.mpr fun i member isImport => ?_
  exact Bool.eq_false_iff.mp (Unit.not_import (ne_bind_lowerList nodes i member))
    (List.isPrefixOf_iff_prefix.mpr isImport)

/-- The lines of a unit that import names are the imports of the names, in order. -/
theorem imports_program (names : List String) (nodes : List Node)
    : ((Unit.program names nodes).map Unit.Instruction.words).filter ("import ".toList.isPrefixOf ·)
      = names.map fun name => "import ".toList ++ name.toList := by
  have kept : (names.map fun name => "import ".toList ++ name.toList).filter
        ("import ".toList.isPrefixOf ·)
      = names.map fun name => "import ".toList ++ name.toList := by
    refine List.filter_eq_self.mpr (List.forall_mem_map.mpr fun name _ => ?_)
    exact List.isPrefixOf_iff_prefix.mpr (List.prefix_append _ _)
  have dropped : ((Unit.lowerList nodes).map Unit.Instruction.words).filter
        ("import ".toList.isPrefixOf ·)
      = [] := by
    refine List.filter_eq_nil_iff.mpr fun line member isImport => ?_
    exact not_import_lowerList nodes line member (List.isPrefixOf_iff_prefix.mp isImport)
  rw [Unit.program, List.map_append, List.filter_append, words_imports, kept, dropped,
    List.append_nil]

/-- No compiled document fails to run. Its text is taken for a unit; it runs in the environment of
stand-ins for its names; each component that it opens is one of the names; and it imports the names,
in order. Values of attributes have to be read as they are written.
-/
theorem runs_of_compile (builtIns : List BuiltIn) {body : String} {names : List String}
    {unit : CompiledUnit}
    (compiled : compile (builtIns.map BuiltIn.transform) body names = .ok unit)
    (values : ∀ nodes, parseBody names body.toList = .ok nodes →
      ∀ e ∈ Node.listElements nodes, ∀ entry ∈ e.attributes,
        Json.parse entry.2.render = .ok entry.2)
    : CompiledUnit.ofText? unit.text = some unit
      ∧ (∃ tree, Unit.run (Environment.standIns names) unit.text = .ok tree)
      ∧ (∀ name, "open @".toList ++ name ∈ Text.lines unit.text.toList →
          String.ofList name ∈ names)
      ∧ (Text.lines unit.text.toList).filter ("import ".toList.isPrefixOf ·)
        = names.map fun name => "import ".toList ++ name.toList := by
  obtain ⟨noFault, nodes, parsed, text⟩ := compile_eq_ok compiled
  have fits := isLine_of_nameFault? noFault
  have named := named_listElements (named_parseBody parsed)
  have writable : AllWritable names
      (Transform.applyAll (builtIns.map BuiltIn.transform) nodes) :=
    writable_applyAll builtIns fun e member => ⟨named e member, values nodes parsed e member⟩
  have lines := Unit.lines_render (Unit.readable_program fits writable)
  rw [← text] at lines
  refine ⟨ofText?_of_compile compiled, ?_, ?_, ?_⟩
  · rw [text]
    exact ⟨_, Unit.run_program (standIns_binds names) fits writable⟩
  · intro name member
    rw [lines] at member
    rcases List.mem_cons.mp member with isHeader | inside
    · exact absurd (congrArg List.head? isHeader) (by simp [Unit.header])
    · exact declared_of_open fits writable inside
  · rw [lines, List.filter_cons_of_neg (by decide)]
    exact imports_program names _

/-- A body with a heading that has an attribute block, and a component with a quote, a list and
markup.
-/
def mixedBody : String :=
  "## A {#b .c k=v}\n\n<Note title='\"' l={[2,-0.5]}>*d*</Note>\n"

/-- Its unit runs: all values in it are read as they are written. -/
theorem runs_mixedBody
    : ∃ unit,
        compile Transform.standard mixedBody ["Note"] = .ok unit
        ∧ (∀ nodes, parseBody ["Note"] mixedBody.toList = .ok nodes →
            ∀ e ∈ Node.listElements nodes, ∀ entry ∈ e.attributes,
              Json.parse entry.2.render = .ok entry.2)
        ∧ CompiledUnit.ofText? unit.text = some unit
        ∧ (∃ tree, Unit.run (Environment.standIns ["Note"]) unit.text = .ok tree)
        ∧ (∀ name, "open @".toList ++ name ∈ Text.lines unit.text.toList →
            String.ofList name ∈ ["Note"])
        ∧ (Text.lines unit.text.toList).filter ("import ".toList.isPrefixOf ·)
          = ["Note"].map fun name => "import ".toList ++ name.toList := by
  have values : ∀ nodes, parseBody ["Note"] mixedBody.toList = .ok nodes →
      ∀ e ∈ Node.listElements nodes, ∀ entry ∈ e.attributes,
        Json.parse entry.2.render = .ok entry.2 := by
    have checked
        : (match parseBody ["Note"] mixedBody.toList with
          | .ok nodes =>
              (Node.listElements nodes).all fun e =>
                e.attributes.all fun entry => decide (Json.parse entry.2.render = .ok entry.2)
          | .error _ => false) = true := by
      decide +kernel
    intro nodes parsed e member entry given
    rw [parsed] at checked
    exact of_decide_eq_true (List.all_eq_true.mp (List.all_eq_true.mp checked e member) entry given)
  have succeeds : (compile Transform.standard mixedBody ["Note"]).isOk = true := by
    decide +kernel
  obtain ⟨unit, compiled⟩ := exists_of_isOk succeeds
  exact ⟨unit, compiled, values, runs_of_compile BuiltIn.standard compiled values⟩

end Folio.Document
