/-! Why an operation on files fails. -/

namespace Folio.Files

/-- Why an operation on files fails. -/
inductive Error where
  | notFound
  | alreadyExists
  | notADirectory
  | isADirectory
  | nameTooLong
  /-- A path that holds the character that ends paths for the operating system. -/
  | nulInPath
  /-- Bytes that were to be read as text and write none. -/
  | invalidText
deriving DecidableEq, Inhabited

/-- The text of an error: that of the operating system with its number, if it is one of its own. -/
def Error.message : Error → String
  | notFound => "No such file or directory (os error 2)"
  | alreadyExists => "File exists (os error 17)"
  | notADirectory => "Not a directory (os error 20)"
  | isADirectory => "Is a directory (os error 21)"
  | nameTooLong => "File name too long (os error 36)"
  | nulInPath => "file name contained an unexpected NUL byte"
  | invalidText => "stream did not contain valid UTF-8"

end Folio.Files
