import Folio.Text.Alphanumeric
import Folio.Text.Lines

/-! References to variables in a text. A dollar sign begins one; the name follows, bare or in
braces, where a default value may come after it. A dollar sign that begins none stands for itself,
and the values are not looked through again.
-/

namespace Folio.Settings

/-- Variables and their values. -/
abbrev Variables :=
  List (String × String)

def Variables.value? (environment : Variables) (name : String) : Option String :=
  List.lookup name environment

/-- A reference to a variable. -/
structure Reference where
  name : List Char
  fallback : Option (List Char)
deriving DecidableEq, Inhabited

/-- The reference in braces. What follows `:-` is the default value, unless no name comes before. -/
def Reference.ofBraces (inner : List Char) : Reference :=
  match Text.splitOnce? [':', '-'] inner with
  | none | some ([], _) => { name := inner, fallback := none }
  | some (name, fallback) => { name, fallback := some fallback }

/-- Holds for the characters of names outside braces. -/
def isVariableChar (c : Char) : Bool :=
  Text.isAlphanumeric c || c == '_'

/-- The text that a reference stands for, or the name of the variable that has no value. -/
def Reference.value (r : Reference) (environment : Variables) : Except String (List Char) :=
  match environment.value? (String.ofList r.name), r.fallback with
  | some value, _ => .ok value.toList
  | none, some fallback => .ok fallback
  | none, none => .error (String.ofList r.name)

/-- The first reference of a text after its dollar sign, and the rest of the text. -/
def Reference.read? : List Char → Option (Reference × List Char)
  | '\x7b' :: rest =>
      (Text.splitAtFirst? (· == '\x7d') rest).map fun (inner, after) => (.ofBraces inner, after)
  | s =>
      let name := s.takeWhile isVariableChar
      if name.isEmpty then none
      else some ({ name, fallback := none }, s.drop name.length)

theorem length_splitAtFirst? {p : Char → Bool} {s before after : List Char}
    (h : Text.splitAtFirst? p s = some (before, after))
    : after.length < s.length := by
  induction s generalizing before after with
  | nil => simp [Text.splitAtFirst?] at h
  | cons c rest ih =>
      simp only [Text.splitAtFirst?] at h
      split at h
      · simp_all
      · cases hr : Text.splitAtFirst? p rest with
        | none => simp [hr] at h
        | some parts =>
            obtain ⟨b, a⟩ := parts
            simp only [hr, Option.map_some, Option.some.injEq, Prod.mk.injEq] at h
            have := ih hr
            simp [← h.2]
            omega

/-- A reference takes at least one character of the text. -/
theorem Reference.length_read? {s rest : List Char} {r : Reference}
    (h : Reference.read? s = some (r, rest))
    : rest.length < s.length := by
  unfold Reference.read? at h
  split at h
  · next inner =>
      cases hs : Text.splitAtFirst? (· == '\x7d') inner with
      | none => simp [hs] at h
      | some parts =>
          obtain ⟨b, a⟩ := parts
          simp only [hs, Option.map_some, Option.some.injEq, Prod.mk.injEq] at h
          have := length_splitAtFirst? hs
          simp [← h.2]
          omega
  · simp only at h
    split at h
    · simp at h
    · next hne =>
        simp only [Option.some.injEq, Prod.mk.injEq] at h
        have hpos : 0 < (s.takeWhile isVariableChar).length := by
          cases ht : s.takeWhile isVariableChar with
          | nil => simp [ht] at hne
          | cons => simp
        have := (List.takeWhile_sublist isVariableChar (l := s)).length_le
        rw [← h.2, List.length_drop]
        omega

def references : List Char → List Reference
  | [] => []
  | c :: rest =>
      if c == '$' then
        match _h : Reference.read? rest with
        | none => references rest
        | some (r, after) => r :: references after
      else references rest
termination_by s => s.length
decreasing_by
  all_goals simp
  · have := Reference.length_read? _h
    omega

/-- Puts values in the place of references. The error is the name of the first variable that has no
value.
-/
def expand (environment : Variables) : List Char → Except String (List Char)
  | [] => .ok []
  | c :: rest =>
      if c == '$' then
        match _h : Reference.read? rest with
        | none => (expand environment rest).map ('$' :: ·)
        | some (r, after) =>
            match r.value environment with
            | .error name => .error name
            | .ok value => (expand environment after).map (value ++ ·)
      else (expand environment rest).map (c :: ·)
termination_by s => s.length
decreasing_by
  all_goals simp
  · have := Reference.length_read? _h
    omega

end Folio.Settings
