import Folio.Tree.Built
import Folio.Unit.Instruction

/-! Running a unit. It may import the names of an environment and ask a builder for elements, and
does nothing else; the result is a group of all that it built outside of other elements.
-/

namespace Folio.Unit

open Folio.Tree (Kind Built Props)

/-- What a name is bound to. A stand-in keeps the name that was declared. -/
structure Binding where
  kind : Kind
  isStandIn : Bool
deriving DecidableEq, Inhabited

/-- The names that a unit may import. -/
abbrev Environment :=
  Json.Fields Binding

/-- The environment in which each name stands for a component of that name. -/
def Environment.standIns (names : List String) : Environment :=
  Json.Fields.ofList (names.map fun name => (name, { kind := .component name, isStandIn := true }))

def Environment.bind (env : Environment) (name : String) (kind : Kind) : Environment :=
  Json.Fields.insert env name { kind, isStandIn := false }

/-- Why a unit does not run, with lines counted from one. -/
inductive RunError where
  | invalidHeader
  | badLine (fault : LineFault) (line : Nat)
  | unboundName (name : String) (line : Nat)
  | notImported (name : String) (line : Nat)
  | noOpenElement (instruction : String) (line : Nat)
  | unterminatedElement (identifier : String) (line : Nat)
deriving DecidableEq, Inhabited

namespace RunError

/-- The line at which an error begins its text. -/
private def atUnitLine (line : Nat) (text : String) : String :=
  "Line " ++ toString line ++ ": " ++ text

def message : RunError → String
  | invalidHeader => "Unit does not start with the unit header"
  | badLine (.unknownInstruction name) line =>
      atUnitLine line ("unknown instruction " ++ Text.quoted name)
  | badLine (.malformedArgument instruction fault) line =>
      atUnitLine line ("malformed argument to " ++ instruction ++ ": " ++ fault.message)
  | unboundName name line => atUnitLine line (name ++ " is not bound in the environment")
  | notImported name line => atUnitLine line (name ++ " is used before it is imported")
  | noOpenElement instruction line => atUnitLine line (instruction ++ " outside of an element")
  | unterminatedElement identifier line =>
      atUnitLine line ("element " ++ identifier ++ " is never closed")

end RunError

/-- An element that a builder is asked for. -/
structure Request where
  kind : Kind
  key : Option String
  props : Props Kind
  children : List Built
deriving Inhabited

/-- What makes the elements of a unit. It may keep a state of its own. -/
abbrev TreeBuilder (σ : Type) :=
  Request → σ → Built × σ

/-- The builder of plain elements. -/
def TreeBuilder.factory : TreeBuilder Unit := fun request state =>
  (.element request.kind request.key (request.props.withChildren request.children), state)

/-- A builder that also notes what it was asked for, last first. -/
def TreeBuilder.recording (build : TreeBuilder σ) : TreeBuilder (σ × List Request) :=
  fun request state =>
    let (node, own) := build request state.1
    (node, own, request :: state.2)

/-- An element that is open, with its children last first. -/
structure Pending where
  kind : Kind
  isStandIn : Bool
  line : Nat
  key : Option String := none
  props : Props Kind := []
  children : List Built := []
deriving Inhabited

/-- What a unit has built so far. -/
structure State (σ : Type) where
  imported : List String := []
  /-- Open elements, innermost first. -/
  stack : List Pending := []
  /-- Nodes outside all elements, last first. -/
  root : List Built := []
  /-- The state of the builder. -/
  builder : σ
deriving Inhabited

/-- The request for an open element that is closed inside another one. The notes about it replace
properties of the same names.
-/
def Pending.request (e : Pending) (outer : Option Kind) : Request :=
  let name := Tree.Node.string e.kind.identifier
  let props := if e.isStandIn then e.props.insert "originalType" name else e.props
  let props := props.insert "debugType" name
  let props : Props Kind :=
    match outer with
    | some kind => props.insert "parentName" (.string kind.identifier)
    | none => props
  { kind := e.kind, key := e.key, props, children := e.children.reverse }

namespace State

/-- Adds a node to the innermost element. -/
def push (state : State σ) (node : Built) : State σ :=
  match state.stack with
  | [] => { state with root := node :: state.root }
  | e :: outer => { state with stack := { e with children := node :: e.children } :: outer }

/-- Changes the innermost element on behalf of an instruction. -/
def modifyTop (state : State σ) (instruction : String) (line : Nat) (change : Pending → Pending)
    : Except RunError (State σ) :=
  match state.stack with
  | [] => .error (.noOpenElement instruction line)
  | e :: outer => .ok { state with stack := change e :: outer }

def openElement (state : State σ) (kind : Kind) (isStandIn : Bool) (line : Nat) : State σ :=
  { state with stack := { kind, isStandIn, line } :: state.stack }

/-- Carries an instruction out. -/
def step (build : TreeBuilder σ) (env : Environment) (state : State σ) (line : Nat)
    : Instruction → Except RunError (State σ)
  | .bind name =>
      if env.has name then .ok { state with imported := name :: state.imported }
      else .error (.unboundName name line)
  | .openTag name => .ok (state.openElement (.tag name) false line)
  | .openComponent name =>
      if !state.imported.contains name then .error (.notImported name line)
      else
        match env.get? name with
        | some binding => .ok (state.openElement binding.kind binding.isStandIn line)
        | none => .error (.unboundName name line)
  | .key key => state.modifyTop "key" line fun e => { e with key := some key }
  | .prop name value =>
      state.modifyTop "prop" line fun e => { e with props := e.props.insert name (.ofJson value) }
  | .text text => .ok (state.push (.string text))
  | .close =>
      match state.stack with
      | [] => .error (.noOpenElement "close" line)
      | e :: outer =>
          let (node, builder) := build (e.request (outer.head?.map Pending.kind)) state.builder
          .ok ({ state with stack := outer, builder }.push node)

/-- The request for the group of all that was built. -/
def groupRequest (state : State σ) : Request :=
  {
    kind := .grouping
    key := none
    props := [("debugType", .string Kind.grouping.identifier)]
    children := state.root.reverse
  }

/-- The group of all that was built, if all elements are closed, and the state of the builder. -/
def finish (build : TreeBuilder σ) (state : State σ) : Except RunError (Built × σ) :=
  match state.stack with
  | e :: _ => .error (.unterminatedElement e.kind.identifier e.line)
  | [] => .ok (build state.groupRequest state.builder)

end State

/-- Carries out the lines of a unit from a line on. Empty lines say nothing. -/
def runLines (build : TreeBuilder σ) (env : Environment) (state : State σ) (line : Nat)
    : List (List Char) → Except RunError (State σ)
  | [] => .ok state
  | text :: rest =>
      if text.isEmpty then runLines build env state (line + 1) rest
      else
        match Instruction.ofLine text with
        | .error fault => .error (.badLine fault line)
        | .ok instruction => do
            runLines build env (← state.step build env line instruction) (line + 1) rest

/-- Runs a unit in an environment with a builder, which is in a state. -/
def runWith (build : TreeBuilder σ) (builder : σ) (env : Environment) (text : String)
    : Except RunError (Built × σ) :=
  match Text.lines text.toList with
  | [] => .error .invalidHeader
  | first :: rest =>
      if first != header.toList then .error .invalidHeader
      else do (← runLines build env { builder } 2 rest).finish build

/-- Runs a unit in an environment and builds plain elements. -/
def run (env : Environment) (text : String) : Except RunError Built :=
  (runWith .factory () env text).map Prod.fst

end Folio.Unit
