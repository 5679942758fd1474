import Folio.Text.Slug

/-! The form of slugs. A slug keeps the letters and digits of its text in order, in lower case, and
has a dash between two of them if a break stands between them in the text. So it is made of words
with single dashes between them, and the slug of a slug is that slug.
-/

namespace Folio.Text

-----------------------------------------------------------------------------------------
-- The characters of slugs
-----------------------------------------------------------------------------------------

/-- Holds for the characters of the words of slugs. -/
def IsSlugChar (c : Char) : Prop :=
  'a' ≤ c ∧ c ≤ 'z' ∨ '0' ≤ c ∧ c ≤ '9'

theorem isSlugChar_iff_toNat {c : Char}
    : IsSlugChar c ↔ 97 ≤ c.toNat ∧ c.toNat ≤ 122 ∨ 48 ≤ c.toNat ∧ c.toNat ≤ 57 := by
  simp only [IsSlugChar, Char.le_def, UInt32.le_iff_toNat_le]
  exact Iff.rfl

theorem isUpper_iff_toNat {c : Char} : c.isUpper = true ↔ 65 ≤ c.toNat ∧ c.toNat ≤ 90 := by
  delta Char.isUpper
  simp only [decide_eq_true_eq, ge_iff_le, UInt32.le_iff_toNat_le]
  exact Iff.rfl

/-- Letters and digits are the uppercase letters and the characters of slugs. -/
theorem isAlphanum_iff {c : Char} : c.isAlphanum = true ↔ c.isUpper = true ∨ IsSlugChar c := by
  unfold IsSlugChar
  delta Char.isAlphanum Char.isAlpha Char.isUpper Char.isLower Char.isDigit
  simp only [Bool.or_eq_true, Bool.and_eq_true, decide_eq_true_eq, Char.le_def, ge_iff_le, or_assoc]

theorem toNat_toLower {c : Char} (upper : c.isUpper = true) : c.toLower.toNat = c.toNat + 32 := by
  have bounds := isUpper_iff_toNat.mp upper
  delta Char.isUpper at upper
  rw [decide_eq_true_eq] at upper
  unfold Char.toLower
  rw [dif_pos upper]
  have step : (32 : UInt32).toNat = 32 := rfl
  change (c.val + 32).toNat = c.val.toNat + 32
  change 65 ≤ c.val.toNat ∧ c.val.toNat ≤ 90 at bounds
  rw [UInt32.toNat_add]
  omega

theorem toLower_eq_self {c : Char} (h : c.isUpper = false) : c.toLower = c := by
  delta Char.isUpper at h
  rw [decide_eq_false_iff_not] at h
  exact dif_neg h

namespace IsSlugChar

variable {c : Char}

theorem isAlphanum (h : IsSlugChar c) : c.isAlphanum = true :=
  isAlphanum_iff.mpr (.inr h)

theorem toLower (h : IsSlugChar c) : c.toLower = c := by
  refine toLower_eq_self (eq_false_of_ne_true fun upper => ?_)
  have bounds := isUpper_iff_toNat.mp upper
  have others := isSlugChar_iff_toNat.mp h
  omega

theorem ne_dash (h : IsSlugChar c) : c ≠ '-' := by
  rintro rfl
  exact absurd h.isAlphanum (by decide)

end IsSlugChar

/-- Letters and digits become characters of slugs. -/
theorem isSlugChar_toLower {c : Char} (h : c.isAlphanum = true) : IsSlugChar c.toLower := by
  rcases isAlphanum_iff.mp h with upper | isSlugChar
  · have bounds := isUpper_iff_toNat.mp upper
    rw [isSlugChar_iff_toNat, toNat_toLower upper]
    omega
  · rwa [isSlugChar.toLower]

/-- Letters and digits are no breaks. -/
theorem isSlugBreak_of_isAlphanum {c : Char} (h : c.isAlphanum = true)
    : isSlugBreak c = false := by
  have bounds : 48 ≤ c.toNat ∧ c.toNat ≤ 57 ∨ 65 ≤ c.toNat ∧ c.toNat ≤ 90
      ∨ 97 ≤ c.toNat ∧ c.toNat ≤ 122 := by
    rw [isAlphanum_iff, isUpper_iff_toNat, isSlugChar_iff_toNat] at h
    omega
  simp only [isSlugBreak, isBlank, Bool.or_eq_false_iff, Bool.and_eq_false_iff,
    decide_eq_false_iff_not, beq_eq_false_iff_ne]
  refine ⟨⟨by omega, ?_⟩, ?_⟩ <;> (rintro rfl; exact absurd bounds (by decide))

-----------------------------------------------------------------------------------------
-- The form of slugs
-----------------------------------------------------------------------------------------

/-- Holds for the words of slugs, which are the texts in the grammar `[a-z0-9]+`. -/
structure IsSlugPart (word : List Char) : Prop where
  notNil : word ≠ []
  chars : ∀ c ∈ word, IsSlugChar c

/-- Holds for the texts in the grammar `[a-z0-9]+(-[a-z0-9]+)*`. -/
def IsSlug (s : List Char) : Prop :=
  ∃ first rest, s = first ++ rest.flatMap ('-' :: ·) ∧ ∀ word ∈ first :: rest, IsSlugPart word

namespace IsSlug

variable {c : Char} {s : List Char}

theorem single (h : IsSlugChar c) : IsSlug [c] := by
  have isPart : IsSlugPart [c] := ⟨List.cons_ne_nil c [], List.forall_mem_singleton.mpr h⟩
  exact ⟨[c], [], rfl, List.forall_mem_singleton.mpr isPart⟩

/-- A slug goes on with one more character in its first word. -/
theorem cons (h : IsSlugChar c) (isSlug : IsSlug s) : IsSlug (c :: s) := by
  obtain ⟨first, rest, rfl, parts⟩ := isSlug
  obtain ⟨isPart, others⟩ := List.forall_mem_cons.mp parts
  have longer : IsSlugPart (c :: first) :=
    ⟨List.cons_ne_nil c first, List.forall_mem_cons.mpr ⟨h, isPart.chars⟩⟩
  exact ⟨c :: first, rest, rfl, List.forall_mem_cons.mpr ⟨longer, others⟩⟩

/-- A slug goes on with one more word. -/
theorem cons_dash (h : IsSlugChar c) (isSlug : IsSlug s) : IsSlug (c :: '-' :: s) := by
  obtain ⟨first, rest, rfl, parts⟩ := isSlug
  have isPart : IsSlugPart [c] := ⟨List.cons_ne_nil c [], List.forall_mem_singleton.mpr h⟩
  exact ⟨[c], first :: rest, rfl, List.forall_mem_cons.mpr ⟨isPart, parts⟩⟩

end IsSlug

/-- What a word that was started goes on with: nothing, more of the slug, or a dash before it. -/
inductive Continues : List Char → Prop
  | nil : Continues []
  | word {s} (isSlug : IsSlug s) : Continues s
  | dash {s} (isSlug : IsSlug s) : Continues ('-' :: s)

theorem Continues.cons {c : Char} (h : IsSlugChar c) {s : List Char} (continues : Continues s)
    : IsSlug (c :: s) := by
  cases continues with
  | nil => exact .single h
  | word isSlug => exact isSlug.cons h
  | dash isSlug => exact isSlug.cons_dash h

/-- The step of a slug at a letter or digit. -/
theorem slugFrom_letter {c : Char} (h : c.isAlphanum = true) (started pending : Bool)
    (rest : List Char)
    : slugFrom started pending (c :: rest)
      = (if started && pending then ['-'] else []) ++ c.toLower :: slugFrom true false rest := by
  rw [slugFrom, isSlugWord, if_pos h]
  split <;> rfl

/-- The step of a slug at any other character. -/
theorem slugFrom_other {c : Char} (h : c.isAlphanum = false) (started pending : Bool)
    (rest : List Char)
    : slugFrom started pending (c :: rest) = slugFrom started (pending || isSlugBreak c) rest := by
  rw [slugFrom, isSlugWord, h]
  rfl

/-- By induction on the rest of the text. -/
theorem continues_slugFrom (pending : Bool) (s : List Char)
    : Continues (slugFrom true pending s) := by
  induction s generalizing pending with
  | nil => exact .nil
  | cons c rest ih =>
      by_cases letter : c.isAlphanum = true
      · have isSlug := (ih false).cons (isSlugChar_toLower letter)
        rw [slugFrom_letter letter]
        cases pending with
        | false => exact .word isSlug
        | true => exact .dash isSlug
      · rw [slugFrom_other (eq_false_of_ne_true letter)]
        exact ih _

/-- Before the first letter or digit nothing is kept, and a slug starts there. -/
theorem isSlug_slugFrom (pending : Bool) (s : List Char)
    : slugFrom false pending s = [] ∨ IsSlug (slugFrom false pending s) := by
  induction s generalizing pending with
  | nil => exact .inl rfl
  | cons c rest ih =>
      by_cases letter : c.isAlphanum = true
      · rw [slugFrom_letter letter]
        exact .inr ((continues_slugFrom false rest).cons (isSlugChar_toLower letter))
      · rw [slugFrom_other (eq_false_of_ne_true letter)]
        exact ih _

-----------------------------------------------------------------------------------------
-- The letters of slugs
-----------------------------------------------------------------------------------------

def letters (s : List Char) : List Char :=
  s.filter Char.isAlphanum

theorem letters_append (s t : List Char) : letters (s ++ t) = letters s ++ letters t :=
  List.filter_append s t

theorem letters_cons {c : Char} (h : c.isAlphanum = true) (s : List Char)
    : letters (c :: s) = c :: letters s :=
  List.filter_cons_of_pos h

theorem letters_dash (b : Bool) : letters (if b then ['-'] else []) = [] := by
  split <;> rfl

/-- No letter or digit is lost, by induction on the text. -/
theorem letters_slugFrom (started pending : Bool) (s : List Char)
    : letters (slugFrom started pending s) = (letters s).map Char.toLower := by
  induction s generalizing started pending with
  | nil => rfl
  | cons c rest ih =>
      by_cases letter : c.isAlphanum = true
      · rw [slugFrom_letter letter, letters_append, letters_dash, List.nil_append,
          letters_cons (isSlugChar_toLower letter).isAlphanum, ih, letters_cons letter,
          List.map_cons]
      · rw [slugFrom_other (eq_false_of_ne_true letter), ih, letters, letters,
          List.filter_cons_of_neg letter]

/-- A text without letters and digits has no slug, and others have one. -/
theorem slugFrom_eq_nil_iff {started pending : Bool} {s : List Char}
    : slugFrom started pending s = [] ↔ ∀ c ∈ s, c.isAlphanum = false := by
  induction s generalizing pending with
  | nil => exact iff_of_true rfl (List.forall_mem_nil _)
  | cons c rest ih =>
      by_cases letter : c.isAlphanum = true
      · rw [slugFrom_letter letter]
        simp [letter]
      · rw [slugFrom_other (eq_false_of_ne_true letter), ih, List.forall_mem_cons]
        simp [letter]

-----------------------------------------------------------------------------------------
-- The dashes of slugs
-----------------------------------------------------------------------------------------

/-- What comes up to a letter or digit has a dash in it if a break was pending or stands in it,
unless nothing was started; what comes after it hangs on none of that. By induction on what comes
before.
-/
theorem slugFrom_append_letter {c : Char} (h : c.isAlphanum = true) (started pending : Bool)
    (before rest : List Char)
    : ∃ front,
        slugFrom started pending (before ++ c :: rest)
          = front ++ c.toLower :: slugFrom true false rest
        ∧ letters front = (letters before).map Char.toLower
        ∧ (started = true →
            ('-' ∈ front ↔ pending = true ∨ ∃ x ∈ before, isSlugBreak x = true)) := by
  induction before generalizing started pending with
  | nil =>
      refine ⟨if started && pending then ['-'] else [], slugFrom_letter h started pending rest,
        letters_dash _, ?_⟩
      rintro rfl
      cases pending <;> simp
  | cons x before ih =>
      by_cases letter : x.isAlphanum = true
      · obtain ⟨front, whole, same, dash⟩ := ih true false
        refine ⟨(if started && pending then ['-'] else []) ++ x.toLower :: front, ?_, ?_, ?_⟩
        · rw [List.cons_append, slugFrom_letter letter, whole, List.append_assoc, List.cons_append]
        · rw [letters_append, letters_dash, List.nil_append,
            letters_cons (isSlugChar_toLower letter).isAlphanum, same, letters_cons letter,
            List.map_cons]
        · rintro rfl
          have other : '-' ≠ x.toLower := (isSlugChar_toLower letter).ne_dash.symm
          cases pending <;> simp [other, dash rfl, isSlugBreak_of_isAlphanum letter]
      · have letter := eq_false_of_ne_true letter
        obtain ⟨front, whole, same, dash⟩ := ih started (pending || isSlugBreak x)
        refine ⟨front, ?_, ?_, fun isStarted => ?_⟩
        · rw [List.cons_append, slugFrom_other letter, whole]
        · rw [same, letters, letters, List.filter_cons_of_neg (by simp [letter])]
        · rw [dash isStarted]
          simp [or_assoc]

/-- Two letters or digits stand in the slug where they stand in the text, with a dash between them
if there is a break between them.
-/
theorem exists_between {first second : Char} (firstLetter : first.isAlphanum = true)
    (secondLetter : second.isAlphanum = true) (before middle after : List Char)
    : ∃ front between back,
        slugFrom false false (before ++ first :: (middle ++ second :: after))
          = front ++ first.toLower :: (between ++ second.toLower :: back)
        ∧ letters front = (letters before).map Char.toLower
        ∧ letters between = (letters middle).map Char.toLower
        ∧ letters back = (letters after).map Char.toLower
        ∧ ('-' ∈ between ↔ ∃ c ∈ middle, isSlugBreak c = true) := by
  obtain ⟨front, whole, sameFront, -⟩ :=
    slugFrom_append_letter firstLetter false false before (middle ++ second :: after)
  obtain ⟨between, later, sameBetween, dash⟩ :=
    slugFrom_append_letter secondLetter true false middle after
  rw [later] at whole
  refine ⟨front, between, _, whole, sameFront, sameBetween, letters_slugFrom true false after, ?_⟩
  simpa using dash rfl

-----------------------------------------------------------------------------------------
-- Slugs of slugs
-----------------------------------------------------------------------------------------

/-- A word of a slug is kept, by induction on it. -/
theorem slugFrom_part {word : List Char} (chars : ∀ c ∈ word, IsSlugChar c) (rest : List Char)
    : slugFrom true false (word ++ rest) = word ++ slugFrom true false rest := by
  induction word with
  | nil => rfl
  | cons c word ih =>
      obtain ⟨first, later⟩ := List.forall_mem_cons.mp chars
      rw [List.cons_append, slugFrom_letter first.isAlphanum, ih later, first.toLower]
      rfl

/-- Words after dashes are kept, by induction on them. -/
theorem slugFrom_parts {words : List (List Char)} (parts : ∀ word ∈ words, IsSlugPart word)
    : slugFrom true false (words.flatMap ('-' :: ·)) = words.flatMap ('-' :: ·) := by
  induction words with
  | nil => rfl
  | cons word words ih =>
      obtain ⟨isPart, others⟩ := List.forall_mem_cons.mp parts
      obtain ⟨c, more, rfl⟩ := List.exists_cons_of_ne_nil isPart.notNil
      obtain ⟨first, later⟩ := List.forall_mem_cons.mp isPart.chars
      have dash : '-'.isAlphanum = false := by decide
      rw [List.flatMap_cons, List.cons_append, slugFrom_other dash, List.cons_append,
        slugFrom_letter first.isAlphanum, slugFrom_part later, ih others, first.toLower]
      rfl

/-- A slug has itself as its slug. -/
theorem IsSlug.slugFrom_eq_self {s : List Char} (isSlug : IsSlug s)
    : slugFrom false false s = s := by
  obtain ⟨first, rest, rfl, parts⟩ := isSlug
  obtain ⟨isPart, others⟩ := List.forall_mem_cons.mp parts
  obtain ⟨c, more, rfl⟩ := List.exists_cons_of_ne_nil isPart.notNil
  obtain ⟨initial, later⟩ := List.forall_mem_cons.mp isPart.chars
  rw [List.cons_append, slugFrom_letter initial.isAlphanum, slugFrom_part later,
    slugFrom_parts others, initial.toLower]
  rfl

theorem toList_slug (text : String) : (slug text).toList = slugFrom false false text.toList :=
  String.toList_ofList

theorem slug_eq_empty_iff {text : String}
    : slug text = "" ↔ ∀ c ∈ text.toList, c.isAlphanum = false := by
  rw [← String.toList_inj, toList_slug]
  exact slugFrom_eq_nil_iff

theorem isSlug_slug (text : String) : slug text = "" ∨ IsSlug (slug text).toList := by
  rw [← String.toList_inj, toList_slug]
  exact isSlug_slugFrom false text.toList

theorem slug_slug (text : String) : slug (slug text) = slug text := by
  rw [← String.toList_inj, toList_slug (slug text)]
  rcases isSlug_slug text with empty | isSlug
  · rw [empty]
    rfl
  · exact isSlug.slugFrom_eq_self

/-- Slugs are canonical. A slug is empty, if the text has no letter or digit, or it is made of words
with single dashes between them; it has the letters and digits of the text in their order, in lower
case, and is its own slug. Two of the letters and digits, and what stands before, between and after
them in the text, stand in the slug in the same order, and a dash is between them there exactly if a
blank, a dash or an underscore is between them in the text.
-/
theorem slug_canonical (text : String)
    : (slug text = "" ∨ IsSlug (slug text).toList)
      ∧ (slug text = "" ↔ ∀ c ∈ text.toList, c.isAlphanum = false)
      ∧ letters (slug text).toList = (letters text.toList).map Char.toLower
      ∧ (∀ before first middle second after,
          text.toList = before ++ first :: (middle ++ second :: after) →
          first.isAlphanum = true →
          second.isAlphanum = true →
          ∃ front between back,
            (slug text).toList = front ++ first.toLower :: (between ++ second.toLower :: back)
            ∧ letters front = (letters before).map Char.toLower
            ∧ letters between = (letters middle).map Char.toLower
            ∧ letters back = (letters after).map Char.toLower
            ∧ ('-' ∈ between ↔ ∃ c ∈ middle, isBlank c = true ∨ c = '-' ∨ c = '_'))
      ∧ slug (slug text) = slug text := by
  refine ⟨isSlug_slug text, slug_eq_empty_iff, ?_, ?_, slug_slug text⟩
  · rw [toList_slug, letters_slugFrom]
  · intro before first middle second after whole firstLetter secondLetter
    obtain ⟨front, between, back, split, sameFront, sameBetween, sameBack, dash⟩ :=
      exists_between firstLetter secondLetter before middle after
    refine ⟨front, between, back, ?_, sameFront, sameBetween, sameBack, ?_⟩
    · rw [toList_slug, whole, split]
    · rw [dash]
      simp [isSlugBreak, or_assoc]

/-- What is no letter, digit or break leaves no trace, and breaks that meet leave one dash. -/
theorem slug_dishes
    : "À la--_ carte: 2!".toList
        = "À l".toList ++ 'a' :: ("--_ ".toList ++ 'c' :: "arte: 2!".toList)
      ∧ 'a'.isAlphanum = true
      ∧ 'c'.isAlphanum = true
      ∧ ∃ front between back,
          (slug "À la--_ carte: 2!").toList = front ++ 'a' :: (between ++ 'c' :: back)
          ∧ letters front = ['l']
          ∧ letters between = []
          ∧ letters back = "arte2".toList
          ∧ '-' ∈ between := by
  have whole
      : "À la--_ carte: 2!".toList
        = "À l".toList ++ 'a' :: ("--_ ".toList ++ 'c' :: "arte: 2!".toList) := by
    decide +kernel
  obtain ⟨-, -, -, places, -⟩ := slug_canonical "À la--_ carte: 2!"
  obtain ⟨front, between, back, split, sameFront, sameBetween, sameBack, dash⟩ :=
    places _ _ _ _ _ whole (by decide) (by decide)
  refine ⟨whole, by decide, by decide, front, between, back, split, ?_, ?_, ?_, ?_⟩
  · exact sameFront.trans (by decide +kernel)
  · exact sameBetween.trans (by decide +kernel)
  · exact sameBack.trans (by decide +kernel)
  · exact dash.mpr ⟨'_', by decide, .inr (.inr rfl)⟩

end Folio.Text
