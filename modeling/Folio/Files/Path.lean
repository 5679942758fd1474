import Folio.Text.Lines

/-! Paths of files as texts. What a path leads to depends on the directories there are; here only
the text counts. Empty segments and `.` inside a path say nothing.
-/

namespace Folio.Files.Path

/-- Holds for paths that begin at the root. -/
def isAbsolute (path : String) : Bool :=
  path.toList.head? == some '/'

/-- The pieces of a path between its slashes. -/
def pieces (path : String) : List String :=
  (Text.splitBy (· == '/') path.toList).map String.ofList

/-- Holds for pieces that lead nowhere. -/
def isIdle (piece : String) : Bool :=
  piece == "" || piece == "."

/-- Holds for paths that end in `.`, whatever slashes come after it. -/
def endsHere (path : String) : Bool :=
  ((pieces path).reverse.dropWhile (· == "")).head? == some "."

/-- A path below a directory. An absolute path stays as it is. -/
def join (directory path : String) : String :=
  if isAbsolute path || directory.isEmpty then path
  else if directory.toList.getLast? == some '/' then directory ++ path
  else directory ++ "/" ++ path

/-- The pieces less the idle ones at the end. -/
def trimEnd (pieces : List String) : List String :=
  (pieces.reverse.dropWhile isIdle).reverse

/-- The pieces without the last one that is not idle, if there is one. -/
def withoutLast? (pieces : List String) : Option (List String) :=
  match trimEnd pieces with
  | [] => none
  | rest => some (trimEnd rest.dropLast)

/-- The path without its last piece, if it has one besides the root. A `.` at the start of a path is
a piece of its own.
-/
def parent? (path : String) : Option String :=
  match isAbsolute path, pieces path with
  | true, pieces => (withoutLast? pieces.tail).map fun outer => "/" ++ "/".intercalate outer
  | false, "." :: rest =>
      match withoutLast? rest with
      | some outer => some ("/".intercalate ("." :: outer))
      | none => some ""
  | false, pieces => (withoutLast? pieces).map ("/".intercalate ·)

/-- Holds for paths that lead only downwards from where they are used: there is something in them,
they do not begin at a root or at `.`, and `..` is nowhere in them.
-/
def isPlain (path : String) : Bool :=
  !path.isEmpty && !isAbsolute path
    && match pieces path with
      | [] => false
      | first :: rest => first != "." && first != ".." && !rest.contains ".."

/-- The part of a file name after its last dot. A dot at the start of a name begins no extension. -/
def extension? (name : String) : Option String :=
  let (after, before) := name.toList.reverse.span (· != '.')
  match before with
  | [] => none
  | [_] => none
  | _ :: _ => some (String.ofList after.reverse)

end Folio.Files.Path
