/-! Blank characters and the trimming of text. A character is blank when it has the Unicode
property `White_Space`; ASCII blanks are the subset that markup and JSON look at.
-/

namespace Folio.Text

/-- Holds for the characters with the Unicode property `White_Space`. -/
def isBlank (c : Char) : Bool :=
  let n := c.toNat
  (0x09 ≤ n && n ≤ 0x0d) || n == 0x20 || n == 0x85 || n == 0xa0 || n == 0x1680
    || (0x2000 ≤ n && n ≤ 0x200a) || n == 0x2028 || n == 0x2029 || n == 0x202f || n == 0x205f
    || n == 0x3000

/-- Text without its leading blanks. -/
def trimStart (s : List Char) : List Char :=
  s.dropWhile isBlank

/-- Text without the trailing characters that satisfy `p`. -/
def dropEndWhile (p : Char → Bool) : List Char → List Char
  | [] => []
  | c :: rest =>
      match dropEndWhile p rest with
      | [] => if p c then [] else [c]
      | kept => c :: kept

/-- Text without its trailing blanks. -/
def trimEnd (s : List Char) : List Char :=
  dropEndWhile isBlank s

/-- Text without its leading and trailing blanks. -/
def trim (s : List Char) : List Char :=
  trimEnd (trimStart s)

/-- Holds for text without any character that is not blank. -/
def isAllBlank (s : List Char) : Bool :=
  s.all isBlank

/-- The ASCII blanks other than line ends. -/
def isInlineBlank (c : Char) : Bool :=
  c == ' ' || c == '\t' || c == '\x0b' || c == '\x0c'

/-- The ASCII blanks, line ends included. -/
def isAsciiBlank (c : Char) : Bool :=
  isInlineBlank c || c == '\n' || c == '\r'

/-- The words of a text, separated by characters that satisfy `p`; no word is empty. -/
def wordsBy (p : Char → Bool) (s : List Char) : List (List Char) :=
  go [] s
where
  go (word : List Char) : List Char → List (List Char)
    | [] => if word.isEmpty then [] else [word.reverse]
    | c :: rest =>
        if p c then
          if word.isEmpty then go [] rest else word.reverse :: go [] rest
        else
          go (c :: word) rest

theorem isBlank_of_isAsciiBlank {c : Char} (h : isAsciiBlank c = true) : isBlank c = true := by
  simp only [isAsciiBlank, isInlineBlank, Bool.or_eq_true, beq_iff_eq] at h
  rcases h with ((((h | h) | h) | h) | h) | h <;> subst h <;> decide

end Folio.Text
