import Folio.Proofs.Document.Execution
import Folio.Proofs.Live.ReadBack
import Folio.Site.Page

/-! Reading pages back. What a page hands over are two written trees. Each of them is read exactly
if it does not nest too deep, under any registry; a table of contents never does. Nothing keeps a
page from being built whose content does.
-/

namespace Folio.Site

open Content (LogicalPath Metadata)
open Files (Disk)
open Folio.Tree (Built)

-----------------------------------------------------------------------------------------
-- The two steps of building a page
-----------------------------------------------------------------------------------------

/-- The tree of a page as its unit builds it, with what is said about the document. -/
def Builder.built (b : Builder) (d : Disk) (path : LogicalPath)
    : Except BuildError (Metadata × Built) :=
  match b.store.read path with
  | .error e => .error (readError path.display e)
  | .ok document =>
      match (b.compiler.compile d document.body b.names).1 with
      | .error e => .error (.compile path.display e)
      | .ok outcome =>
          match Unit.run (Unit.Environment.standIns b.names) outcome.unit.text with
          | .error e => .error (.run path.display e)
          | .ok tree => .ok (document.metadata, tree)

def Processed.payload (parts : Processed) (metadata : Metadata) : Payload :=
  { content := parts.children.wire.render, toc := parts.toc.wire.render, metadata }

/-- A page is built exactly if its tree is, and consists of the parts of the tree. -/
theorem page_eq (b : Builder) (d : Disk) (path : LogicalPath)
    : (b.page d path).1
      = (b.built d path).map fun found => (b.postprocess path found.2).payload found.1 := by
  unfold Builder.page Builder.built
  cases b.store.read path with
  | error e => rfl
  | ok document =>
      simp only
      obtain ⟨compiled, d'⟩ := b.compiler.compile d document.body b.names
      cases compiled with
      | error e => rfl
      | ok outcome =>
          simp only [Builder.payload]
          cases Unit.run (Unit.Environment.standIns b.names) outcome.unit.text <;> rfl

-----------------------------------------------------------------------------------------
-- Reading the parts of a page
-----------------------------------------------------------------------------------------

variable {ι : Type}

/-- A text is the written form of a tree, and is read exactly if the tree does not nest too deep. -/
def ReadsBack (registry : Live.Registry ι) (text : String) (node : Built) : Prop :=
  text = node.wire.render
  ∧ if node.depth ≤ Json.maxDepth then ∃ live, Live.read registry text = .ok live
    else ∃ place, Live.read registry text = .error (.json (.at_ .recursionLimit place))

theorem readsBack_render (registry : Live.Registry ι) (node : Built)
    : ReadsBack registry node.wire.render node :=
  ⟨rfl, Live.read_render registry node⟩

/-- A table of contents does not nest deep: it is a list of maps of strings and numbers. -/
theorem depth_toc (path : LogicalPath) (root : Built) : (withToc path root).toc.depth ≤ 2 := by
  have entries : ∀ entries : List TocEntry,
      Built.depthOfItems (entries.map TocEntry.node) ≤ 1 := by
    intro entries
    induction entries with
    | nil => exact Nat.zero_le _
    | cons e rest ih => exact Nat.max_le.mpr ⟨Nat.le_refl 1, ih⟩
  unfold withToc
  split
  · exact Nat.le_succ_of_le (Nat.succ_le_succ (Nat.zero_le _))
  · exact Nat.succ_le_succ (entries _)

/-- Each part of a page is read exactly if it does not nest too deep, and a table of contents always
is.
-/
theorem read_page {b : Builder} {d : Disk} {path : LogicalPath} {payload : Payload}
    (builds : (b.page d path).1 = .ok payload) (registry : Live.Registry ι)
    : ∃ tree,
        b.built d path = .ok (payload.metadata, tree)
        ∧ ReadsBack registry payload.content (b.postprocess path tree).children
        ∧ ReadsBack registry payload.toc (b.postprocess path tree).toc
        ∧ (b.postprocess = withToc → ∃ live, Live.read registry payload.toc = .ok live) := by
  rw [page_eq] at builds
  cases found : b.built d path with
  | error e =>
      rw [found] at builds
      cases builds
  | ok result =>
      obtain ⟨metadata, tree⟩ := result
      rw [found] at builds
      obtain rfl := Except.ok.inj builds
      refine ⟨tree, rfl, readsBack_render registry _, readsBack_render registry _, fun listed => ?_⟩
      have shallow : (b.postprocess path tree).toc.depth ≤ Json.maxDepth := by
        rw [listed]
        exact (depth_toc path tree).trans (by decide)
      have read := Live.read_render registry (b.postprocess path tree).toc
      rwa [if_pos shallow] at read

-----------------------------------------------------------------------------------------
-- Pages of nested quotes
-----------------------------------------------------------------------------------------

def quoted (count : Nat) : String :=
  String.ofList (List.replicate count '>' ++ ['x', '\n'])

def siteOf (text : String) : Builder :=
  { store := .memory [(.root, text)] }

/-- The tree of nodes in which no components stand. -/
def treeOf (nodes : List Document.Node) : Built :=
  (Unit.TreeBuilder.factory
    (Unit.rootRequest
      (Unit.madeAll Unit.TreeBuilder.factory (Unit.Environment.standIns []) none
        (Document.Transform.applyAll Document.Transform.standard nodes) ()).1) ()).1

/-- Without a cache a compiler gives what the document compiles to. -/
theorem compile_uncached {c : Cache.Compiler} (off : c.cache = .disabled) (d : Disk) {body : String}
    {names : List String} {unit : CompiledUnit}
    (compiles : Document.compile c.transforms body names = .ok unit)
    : (c.compile d body names).1
      = .ok { unit, fingerprint := c.fingerprint body names, fromCache := false } := by
  have none : Cache.unit? c.cache d (c.fingerprint body names) = none := by
    rw [off]
    rfl
  simp only [Cache.Compiler.compile, none, compiles]

/-- A document without frontmatter and attributes is built if it is parsed. -/
theorem built_siteOf {text : String} {nodes : List Document.Node}
    (plain : Content.split text.toList = { frontmatter := none, body := text.toList })
    (parsed : Document.parseBody [] text.toList = .ok nodes)
    (bare : ∀ e ∈ Document.Node.listElements nodes, e.attributes = [])
    : (siteOf text).built default .root = .ok ({}, treeOf nodes) := by
  have read : (siteOf text).store.read .root
      = .ok { path := .root, metadata := {}, body := text } := by
    have found : (siteOf text).store.text .root = .ok text := rfl
    have parts : Content.Store.document .memory .root text
        = .ok { path := .root, metadata := {}, body := String.ofList text.toList } := by
      rw [Content.Store.document, plain]
      rfl
    rw [String.ofList_toList] at parts
    rw [Content.Store.read, found]
    exact parts
  have compiles : Document.compile Document.Transform.standard text []
      = .ok
          { text :=
              Unit.render
                (Unit.program []
                  (Document.Transform.applyAll Document.Transform.standard nodes)) } := by
    rw [Document.compile_eq_map rfl, parsed]
    rfl
  have compiled := compile_uncached (c := (siteOf text).compiler) rfl default compiles
  have named := Document.named_listElements (Document.named_parseBody parsed)
  have writable : Document.AllWritable []
      (Document.Transform.applyAll Document.Transform.standard nodes) := by
    refine Document.writable_applyAll Document.BuiltIn.standard fun e member => ⟨named e member, ?_⟩
    rw [bare e member]
    exact fun entry none => by cases none
  have runs := Unit.run_program (Document.standIns_binds []) (fun _ none => by cases none) writable
  have names : (siteOf text).names = [] := rfl
  simp only [Builder.built, read, names, compiled, runs]
  rfl

/-- How deep the content of a page of quotes nests, if it is parsed without attributes. -/
def quotedDepth? (count : Nat) : Option Nat :=
  match Document.parseBody [] (quoted count).toList with
  | .ok nodes =>
      if (Document.Node.listElements nodes).all (·.attributes.isEmpty) then
        some (contentGroup (treeOf nodes)).depth
      else none
  | .error _ => none

theorem built_quoted {count depth : Nat}
    (plain : Content.split (quoted count).toList
      = { frontmatter := none, body := (quoted count).toList })
    (known : quotedDepth? count = some depth)
    : ∃ tree,
        (siteOf (quoted count)).built default .root = .ok ({}, tree)
        ∧ (contentGroup tree).depth = depth := by
  unfold quotedDepth? at known
  split at known
  · next nodes parsed =>
      split at known
      · next bare =>
          refine ⟨treeOf nodes, built_siteOf plain parsed fun e member => ?_, Option.some.inj known⟩
          exact List.isEmpty_iff.mp (List.all_eq_true.mp bare e member)
      · cases known
  · cases known

/-- Of 61 quotes the innermost text is the 126th level, so that the page is read. -/
theorem read_quoted
    : ∃ payload,
        ((siteOf (quoted 61)).page default .root).1 = .ok payload
        ∧ (∃ live, Live.read ([] : Live.Registry Unit) payload.content = .ok live)
        ∧ ∃ live, Live.read ([] : Live.Registry Unit) payload.toc = .ok live := by
  obtain ⟨tree, built, depth⟩ :=
    built_quoted (by decide +kernel) (by decide +kernel : quotedDepth? 61 = some 126)
  have builds : ((siteOf (quoted 61)).page default .root).1
      = .ok ((withToc .root tree).payload {}) := by
    rw [page_eq, built]
    rfl
  obtain ⟨same, found, ⟨-, content⟩, -, toc⟩ := read_page builds ([] : Live.Registry Unit)
  obtain rfl : tree = same := by
    rw [built] at found
    exact (Prod.mk.inj (Except.ok.inj found)).2
  refine ⟨_, builds, ?_, toc rfl⟩
  have shallow : ((siteOf (quoted 61)).postprocess .root tree).children.depth ≤ Json.maxDepth := by
    have same : ((siteOf (quoted 61)).postprocess .root tree).children.depth = 126 := depth
    rw [same]
    decide
  rwa [if_pos shallow] at content

/-- One quote more is two levels more: the page is built, and its content is not read. -/
theorem unread_quoted
    : ∃ payload,
        ((siteOf (quoted 62)).page default .root).1 = .ok payload
        ∧ ∃ place,
          Live.read ([] : Live.Registry Unit) payload.content
          = .error (.json (.at_ .recursionLimit place)) := by
  obtain ⟨tree, built, depth⟩ :=
    built_quoted (by decide +kernel) (by decide +kernel : quotedDepth? 62 = some 128)
  refine ⟨(withToc .root tree).payload {}, ?_, ?_⟩
  · rw [page_eq, built]
    rfl
  · have read := Live.read_render ([] : Live.Registry Unit) (contentGroup tree)
    rwa [depth, if_neg (by decide)] at read

end Folio.Site
