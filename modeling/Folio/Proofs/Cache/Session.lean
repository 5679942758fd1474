import Folio.Proofs.Cache.Bucket
import Mathlib.Data.List.Induction

/-! Runs of a compiler with a cache: its directory is opened with a version, or there is no cache,
and bodies are compiled. The requests of a run tell which inputs the directory should keep.
-/

namespace Folio.Cache

open Document (CompileError Transform)
open Files (Disk)

-----------------------------------------------------------------------------------------
-- Runs
-----------------------------------------------------------------------------------------

/-- What a run consists of: the cache is opened in its directory, or there is to be none, or a body
is compiled.
-/
inductive Request where
  | openDirectory (version lockfile : String)
  | disable (lockfile : String)
  | compile (body : String) (names : List String)
deriving DecidableEq

structure Session where
  compiler : Compiler
  disk : Disk

namespace Session

def start (transforms : List Transform) (disk : Disk) : Session :=
  { compiler := { transforms }, disk }

/-- What a request does to a session whose cache is at a path. -/
def step (root : String) (s : Session) : Request → Session
  | .openDirectory version lockfile =>
      { compiler := { s.compiler with cache := .directory root, lockfile }
        disk := prepare s.disk root version }
  | .disable lockfile => { s with compiler := { s.compiler with cache := .disabled, lockfile } }
  | .compile body names => { s with disk := (s.compiler.compile s.disk body names).2 }

def run (root : String) (s : Session) (requests : List Request) : Session :=
  requests.foldl (step root) s

/-- Holds if all that a request does to files succeeds. -/
def succeeds (root : String) (s : Session) : Request → Bool
  | .openDirectory version _ => canPrepare s.disk root version
  | .disable _ => true
  | .compile body names =>
      match s.compiler.cache, (s.compiler.compile s.disk body names).1 with
      | .directory root, .ok outcome =>
          outcome.fromCache
            || canWriteEntry s.disk (unitPath root outcome.fingerprint)
                (encodeEntry unitTag (Text.utf8 outcome.unit.text))
      | _, _ => true

def succeedsThrough (root : String) (s : Session) : List Request → Bool
  | [] => true
  | request :: rest => s.succeeds root request && (s.step root request).succeedsThrough root rest

theorem run_concat (root : String) (s : Session) (past : List Request) (request : Request)
    : s.run root (past ++ [request]) = (s.run root past).step root request := by
  rw [run, List.foldl_append]
  rfl

theorem succeedsThrough_concat (root : String) (s : Session) (past : List Request)
    (request : Request)
    : s.succeedsThrough root (past ++ [request])
      = (s.succeedsThrough root past && (s.run root past).succeeds root request) := by
  induction past generalizing s with
  | nil => exact Bool.and_comm _ _
  | cons first rest ih =>
      rw [List.cons_append, succeedsThrough, succeedsThrough, ih, Bool.and_assoc]
      rfl

end Session

-----------------------------------------------------------------------------------------
-- What the requests of a run tell
-----------------------------------------------------------------------------------------

/-- What the openings of a run tell about its cache. -/
structure Opening where
  /-- The version with which the directory was opened last. -/
  version? : Option String := none
  enabled : Bool := false
  lockfile : String := ""
deriving DecidableEq

def Opening.after (o : Opening) : Request → Opening
  | .openDirectory version lockfile => { version? := some version, enabled := true, lockfile }
  | .disable lockfile => { o with enabled := false, lockfile }
  | .compile _ _ => o

def opening (requests : List Request) : Opening :=
  requests.foldl Opening.after {}

def inputsFrom (o : Opening) : List Request → List Input
  | [] => []
  | .compile body names :: rest => { body, names, lockfile := o.lockfile } :: inputsFrom o rest
  | request :: rest => inputsFrom (o.after request) rest

def inputs (requests : List Request) : List Input :=
  inputsFrom {} requests

/-- Holds if an input was compiled successfully through the directory when it was open with a
version, and it was not opened with another version since.
-/
def KeptUnder (transforms : List Transform) (version : String) (past : List Request) (i : Input)
    : Prop :=
  (∃ unit, Document.compile transforms i.body i.names = .ok unit)
    ∧ ∃ earlier later,
        past = earlier ++ .compile i.body i.names :: later
        ∧ opening earlier
          = { version? := some version, enabled := true, lockfile := i.lockfile }
        ∧ ∀ other lockfile, .openDirectory other lockfile ∈ later → other = version

theorem opening_concat (past : List Request) (request : Request)
    : opening (past ++ [request]) = (opening past).after request := by
  rw [opening, List.foldl_append]
  rfl

/-- The inputs of requests are those of the first ones and those of the rest, by induction on the
first ones.
-/
theorem inputsFrom_append (o : Opening) (earlier later : List Request)
    : inputsFrom o (earlier ++ later)
      = inputsFrom o earlier ++ inputsFrom (earlier.foldl Opening.after o) later := by
  induction earlier generalizing o with
  | nil => rfl
  | cons request rest ih =>
      cases request with
      | openDirectory version lockfile => exact ih _
      | disable lockfile => exact ih _
      | compile body names => exact congrArg (List.cons _) (ih o)

/-- One more compile adds its input. -/
theorem inputs_compile (past : List Request) (body : String) (names : List String)
    : inputs (past ++ [.compile body names])
      = inputs past ++ [{ body, names, lockfile := (opening past).lockfile }] :=
  inputsFrom_append {} past [.compile body names]

/-- More requests leave the inputs as they are. -/
theorem mem_inputs_append {past : List Request} {i : Input} (h : i ∈ inputs past)
    (later : List Request)
    : i ∈ inputs (past ++ later) := by
  rw [inputs, inputsFrom_append]
  exact List.mem_append_left _ h

theorem version_of_enabled {past : List Request} (h : (opening past).enabled = true)
    : ∃ version, (opening past).version? = some version := by
  induction past using List.reverseRecOn with
  | nil => exact nomatch h
  | append_singleton past request ih =>
      rw [opening_concat] at h ⊢
      cases request with
      | openDirectory version lockfile => exact ⟨version, rfl⟩
      | disable lockfile => exact nomatch h
      | compile body names => exact ih h

variable {transforms : List Transform} {version : String} {past : List Request} {i : Input}

/-- With one more request an input is kept if it was and the version is no other one, or if the
request compiles it.
-/
theorem keptUnder_concat {request : Request}
    : KeptUnder transforms version (past ++ [request]) i
      ↔ (KeptUnder transforms version past i
          ∧ ∀ other lockfile, request = .openDirectory other lockfile → other = version)
        ∨ ((∃ unit, Document.compile transforms i.body i.names = .ok unit)
          ∧ request = .compile i.body i.names
          ∧ opening past
            = { version? := some version, enabled := true, lockfile := i.lockfile }) := by
  constructor
  · rintro ⟨isUnit, earlier, later, split, opened, since⟩
    rcases List.eq_nil_or_concat later with rfl | ⟨later, last, rfl⟩
    · obtain ⟨rfl, same⟩ := List.append_inj' split rfl
      exact Or.inr ⟨isUnit, (List.cons.inj same).1, opened⟩
    · rw [List.concat_eq_append, ← List.cons_append, ← List.append_assoc] at split
      obtain ⟨rfl, same⟩ := List.append_inj' split rfl
      obtain rfl := (List.cons.inj same).1
      refine Or.inl ⟨⟨isUnit, earlier, later, rfl, opened, fun other lockfile member => ?_⟩, ?_⟩
      · exact since other lockfile (by simp [member])
      · rintro other lockfile rfl
        exact since other lockfile (by simp)
  · rintro (⟨⟨isUnit, earlier, later, rfl, opened, since⟩, still⟩ | ⟨isUnit, rfl, opened⟩)
    · refine ⟨isUnit, earlier, later ++ [request], by simp, opened, fun other lockfile member => ?_⟩
      rcases List.mem_append.mp member with old | new
      · exact since other lockfile old
      · exact still other lockfile (List.mem_singleton.mp new).symm
    · exact ⟨isUnit, past, [], rfl, opened, fun _ _ member => absurd member List.not_mem_nil⟩

/-- Opening the directory once more keeps what is kept under the same version. -/
theorem keptUnder_openDirectory {opened lockfile : String}
    : KeptUnder transforms version (past ++ [.openDirectory opened lockfile]) i
      ↔ KeptUnder transforms version past i ∧ opened = version := by
  rw [keptUnder_concat]
  simp

/-- Doing without a cache keeps what is kept. -/
theorem keptUnder_disable {lockfile : String}
    : KeptUnder transforms version (past ++ [.disable lockfile]) i
      ↔ KeptUnder transforms version past i := by
  rw [keptUnder_concat]
  simp

/-- With one more compile an input is kept if it was, or if it is compiled successfully in an open
directory.
-/
theorem keptUnder_compile {j : Input} (current : i.lockfile = (opening past).lockfile)
    : KeptUnder transforms version (past ++ [.compile i.body i.names]) j
      ↔ KeptUnder transforms version past j
        ∨ (j = i ∧ (∃ unit, Document.compile transforms i.body i.names = .ok unit)
          ∧ (opening past).enabled = true ∧ (opening past).version? = some version) := by
  rw [keptUnder_concat]
  constructor
  · rintro (⟨before, -⟩ | ⟨isUnit, same, opened⟩)
    · exact Or.inl before
    · obtain ⟨bodies, names⟩ := Request.compile.inj same
      have lockfiles : i.lockfile = j.lockfile :=
        current.trans (congrArg Opening.lockfile opened)
      obtain rfl : i = j := by
        cases i
        cases j
        simp_all
      exact Or.inr ⟨rfl, isUnit, congrArg Opening.enabled opened,
        congrArg Opening.version? opened⟩
  · rintro (before | ⟨rfl, isUnit, enabled, opened⟩)
    · exact Or.inl ⟨before, fun _ _ same => nomatch same⟩
    · refine Or.inr ⟨isUnit, rfl, ?_⟩
      rw [current, ← enabled, ← opened]

/-- What is kept is kept under the version with which the directory was opened last. -/
theorem KeptUnder.version_eq (h : KeptUnder transforms version past i)
    : (opening past).version? = some version := by
  induction past using List.reverseRecOn with
  | nil =>
      obtain ⟨-, earlier, later, split, -⟩ := h
      simp at split
  | append_singleton past request ih =>
      rw [opening_concat]
      rcases keptUnder_concat.mp h with ⟨before, still⟩ | ⟨-, rfl, opened⟩
      · cases request with
        | openDirectory other lockfile => exact congrArg some (still other lockfile rfl)
        | disable lockfile => exact ih before
        | compile body names => exact ih before
      · exact congrArg Opening.version? opened

theorem KeptUnder.mem_inputs (h : KeptUnder transforms version past i) : i ∈ inputs past := by
  obtain ⟨-, earlier, later, rfl, opened, -⟩ := h
  have lockfile : (opening earlier).lockfile = i.lockfile := congrArg Opening.lockfile opened
  rw [inputs, inputsFrom_append]
  refine List.mem_append_right _ ?_
  show i ∈ { body := i.body, names := i.names, lockfile := (opening earlier).lockfile } :: _
  rw [lockfile]
  exact List.mem_cons_self

end Folio.Cache
