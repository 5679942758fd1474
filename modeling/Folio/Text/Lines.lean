import Folio.Text.Blank

/-! Lines, first occurrences and replacement, on text as a list of characters. -/

namespace Folio.Text

/-- What follows `lead` in `s`, if `s` starts with it. -/
def stripLead? : (lead s : List Char) → Option (List Char)
  | [], s => some s
  | _ :: _, [] => none
  | a :: lead, c :: s => if a == c then stripLead? lead s else none

/-- Holds if `s` starts with `lead`. -/
def startsWith (lead s : List Char) : Bool :=
  (stripLead? lead s).isSome

/-- The text before and after the first character that satisfies `p`, less that character. -/
def splitAtFirst? (p : Char → Bool) : List Char → Option (List Char × List Char)
  | [] => none
  | c :: rest =>
      if p c then some ([], rest)
      else (splitAtFirst? p rest).map fun (before, after) => (c :: before, after)

/-- The text before and after the first occurrence of `part`, less that occurrence. -/
def splitOnce? (part : List Char) : List Char → Option (List Char × List Char)
  | [] => if part.isEmpty then some ([], []) else none
  | c :: rest =>
      match stripLead? part (c :: rest) with
      | some after => some ([], after)
      | none => (splitOnce? part rest).map fun (before, after) => (c :: before, after)

/-- The pieces of a text between the characters that satisfy `p`: one more than those. -/
def splitBy (p : Char → Bool) : List Char → List (List Char)
  | [] => [[]]
  | c :: rest =>
      if p c then [] :: splitBy p rest
      else
        match splitBy p rest with
        | [] => [[c]]
        | piece :: pieces => (c :: piece) :: pieces

/-- The text through its first line feed, and the rest. -/
def firstLine : List Char → List Char × List Char
  | [] => ([], [])
  | '\n' :: rest => (['\n'], rest)
  | c :: rest => (c :: (firstLine rest).1, (firstLine rest).2)

/-- A text is its first line and the rest. -/
theorem firstLine_append (s : List Char) : (firstLine s).1 ++ (firstLine s).2 = s := by
  fun_induction firstLine s <;> simp_all

theorem length_firstLine_le (s : List Char) : (firstLine s).2.length ≤ s.length := by
  have h := congrArg List.length (firstLine_append s)
  simp only [List.length_append] at h
  omega

/-- The rest after the first line is shorter than a text that is not empty. -/
theorem length_firstLine_lt (c : Char) (s : List Char)
    : (firstLine (c :: s)).2.length < (c :: s).length := by
  by_cases h : c = '\n'
  · subst h
    simp [firstLine]
  · have := length_firstLine_le s
    simp [firstLine]
    omega

/-- The lines of a text, each with its line feed; only the last may lack one. -/
def linesWithEnds : List Char → List (List Char)
  | [] => []
  | c :: rest => (firstLine (c :: rest)).1 :: linesWithEnds (firstLine (c :: rest)).2
termination_by s => s.length
decreasing_by exact length_firstLine_lt c rest

/-- A line without its line feed, nor the one carriage return that stands before it. -/
def dropLineEnd (line : List Char) : List Char :=
  match line.reverse with
  | '\n' :: '\r' :: before => before.reverse
  | '\n' :: before => before.reverse
  | _ => line

/-- The lines of a text without their line ends. -/
def lines (s : List Char) : List (List Char) :=
  (linesWithEnds s).map dropLineEnd

/-- Replaces each occurrence of `part`, from left to right; `part` is not empty. -/
def replace (part by_ : List Char) (s : List Char) : List Char :=
  go s 0
where
  go : List Char → Nat → List Char
    | [], _ => []
    | _ :: rest, skip + 1 => go rest skip
    | c :: rest, 0 =>
        if startsWith part (c :: rest) then by_ ++ go rest (part.length - 1)
        else c :: go rest 0

/-- The texts one after the other, with `between` between each two. -/
def joinWith (between : List Char) : List (List Char) → List Char
  | [] => []
  | [s] => s
  | s :: rest => s ++ between ++ joinWith between rest

end Folio.Text
