import Folio.Document.Markup
import Folio.Proofs.Text.Blank
import Folio.Proofs.Text.Lines
import Mathlib.Data.List.TakeWhile

/-! The names in the tags of markup: those of opened tags and of attributes start like names and
consist of the characters of names.
-/

namespace Folio.Document.Markup

structure IsName (name : List Char) : Prop where
  start : name.head?.any isNameStart = true
  chars : ∀ c ∈ name, isTagNameChar c = true

instance (name : List Char) : Decidable (IsName name) :=
  decidable_of_iff (name.head?.any isNameStart = true ∧ name.all isTagNameChar = true)
    ⟨fun ⟨start, chars⟩ => ⟨start, List.all_eq_true.mp chars⟩,
      fun ⟨start, chars⟩ => ⟨start, List.all_eq_true.mpr chars⟩⟩

/-- A character that starts a name may stand in it. -/
theorem isTagNameChar_of_isNameStart {c : Char} (h : isNameStart c = true)
    : isTagNameChar c = true := by
  simp only [isNameStart, Bool.or_eq_true] at h
  simp only [isTagNameChar, Char.isAlphanum, Bool.or_eq_true]
  rcases h with letter | underscore
  · exact Or.inl (Or.inl (Or.inl (Or.inl (Or.inl letter))))
  · exact Or.inl (Or.inl (Or.inl (Or.inr underscore)))

/-- The name at the start of a text that starts like a name. -/
theorem isName_leadingName {c : Char} (h : isNameStart c = true) (rest : List Char)
    : IsName (leadingName (c :: rest)) := by
  have taken : leadingName (c :: rest) = c :: leadingName rest := by
    rw [leadingName, List.takeWhile_cons_of_pos (isTagNameChar_of_isNameStart h)]
    rfl
  refine ⟨?_, fun c member => ?_⟩
  · rw [taken]
    simpa using h
  · exact List.mem_takeWhile_imp member

/-- A name ends where a character follows that is none of a name. -/
theorem leadingName_append {name : List Char} (chars : ∀ c ∈ name, isTagNameChar c = true)
    {rest : List Char} (stops : ∀ c ∈ rest.head?, isTagNameChar c = false)
    : leadingName (name ++ rest) = name := by
  cases rest with
  | nil =>
      rw [List.append_nil, leadingName]
      exact List.takeWhile_eq_self_iff.mpr chars
  | cons c rest => exact Text.takeWhile_append_stop chars (stops c rfl) rest

/-- The characters of names stand between the hyphen and the last letter. -/
theorem toNat_of_isTagNameChar {c : Char} (h : isTagNameChar c = true)
    : 45 ≤ c.toNat ∧ c.toNat ≤ 122 := by
  have alpha : c.isAlpha = (c.isUpper || c.isLower) := rfl
  have upper : c.isUpper = decide (c.val ≥ 'A'.val ∧ c.val ≤ 'Z'.val) := rfl
  have lower : c.isLower = (decide (c.val ≥ 'a'.val) && decide (c.val ≤ 'z'.val)) := rfl
  simp only [isTagNameChar, Char.isAlphanum, alpha, upper, lower, Char.isDigit,
    Bool.or_eq_true, Bool.and_eq_true, decide_eq_true_eq, beq_iff_eq, UInt32.le_iff_toNat_le,
    ge_iff_le] at h
  have number : c.toNat = c.val.toNat := rfl
  rcases h with (((((⟨low, high⟩ | ⟨low, high⟩) | ⟨low, high⟩) | rfl) | rfl) | rfl) | rfl
  · exact ⟨number ▸ Nat.le_trans (by decide) low, number ▸ Nat.le_trans high (by decide)⟩
  · exact ⟨number ▸ Nat.le_trans (by decide) low, number ▸ Nat.le_trans high (by decide)⟩
  · exact ⟨number ▸ Nat.le_trans (by decide) low, number ▸ Nat.le_trans high (by decide)⟩
  all_goals decide

/-- Blanks stand before and after the characters of names, so that none of those is blank. -/
theorem not_isBlank_of_isTagNameChar {c : Char} (h : isTagNameChar c = true)
    : Text.isBlank c = false := by
  obtain ⟨low, high⟩ := toNat_of_isTagNameChar h
  simp only [Text.isBlank, Bool.or_eq_false_iff, Bool.and_eq_false_iff, decide_eq_false_iff_not,
    beq_eq_false_iff_ne]
  omega

theorem drop_blanks (s : List Char) : s.drop (blanks s) = Text.trimStart s :=
  Text.drop_length_takeWhile Text.isBlank s

/-- Blanks go on to the first character that is none. -/
theorem blanks_append {spaces : List Char} (blank : ∀ c ∈ spaces, Text.isBlank c = true) {c : Char}
    (visible : Text.isBlank c = false) (rest : List Char)
    : blanks (spaces ++ c :: rest) = spaces.length :=
  congrArg List.length (Text.takeWhile_append_stop blank visible rest)

/-- A closing tag has a name and blanks between its `</` and its `>`, whatever follows. -/
theorem exists_closing {after : List Char}
    (ends
      : ((after.drop (leadingName after).length).drop
          (blanks (after.drop (leadingName after).length))).head? = some '>')
    : ∃ name spaces more,
        after = name ++ (spaces ++ '>' :: more)
        ∧ (∀ t, leadingName (name ++ (spaces ++ '>' :: t)) = name)
        ∧ ∀ c ∈ spaces, Text.isBlank c = true := by
  have rest : after.drop (leadingName after).length = after.dropWhile isTagNameChar :=
    Text.drop_length_takeWhile isTagNameChar after
  rw [rest, drop_blanks] at ends
  obtain ⟨more, tail⟩ := List.head?_eq_some_iff.mp ends
  have areBlank : ∀ c ∈ (after.dropWhile isTagNameChar).takeWhile Text.isBlank,
      Text.isBlank c = true :=
    fun c => List.mem_takeWhile_imp
  refine ⟨leadingName after, (after.dropWhile isTagNameChar).takeWhile Text.isBlank, more, ?_,
    fun t => leadingName_append (fun c => List.mem_takeWhile_imp) fun c head => ?_, areBlank⟩
  · rw [← tail, Text.trimStart, List.takeWhile_append_dropWhile, leadingName,
      List.takeWhile_append_dropWhile]
  · cases spaces : (after.dropWhile isTagNameChar).takeWhile Text.isBlank with
    | nil =>
        rw [spaces] at head
        obtain rfl := Option.some.inj head
        decide
    | cons d others =>
        rw [spaces] at areBlank head
        obtain rfl := Option.some.inj head
        by_contra isChar
        have visible := not_isBlank_of_isTagNameChar (Bool.not_eq_false _ ▸ isChar)
        rw [areBlank d List.mem_cons_self] at visible
        cases visible

theorem IsName.noBlank {name : List Char} (h : IsName name)
    : ∀ c ∈ name, Text.isBlank c = false :=
  fun c member => not_isBlank_of_isTagNameChar (h.chars c member)

/-- Holds for tokens whose names, if they open a tag, are names. -/
def Token.WellNamed : Token → Prop
  | .opening name attributes _ => IsName name ∧ ∀ entry ∈ attributes, IsName entry.1
  | .closing _ | .text _ => True

/-- All attributes that a text consists of have names, by induction on the text. -/
theorem isName_attributes? {s : List Char} {attributes : List (List Char × AttributeValue)}
    (h : attributes? s = some attributes)
    : ∀ entry ∈ attributes, IsName entry.1 := by
  have named {c : Char} (rest : List Char) (start : ¬(!isNameStart c) = true)
      : IsName (c :: leadingName rest) := by
    have start : isNameStart c = true := by simpa using start
    have name := isName_leadingName start rest
    rwa [leadingName, List.takeWhile_cons_of_pos (isTagNameChar_of_isNameStart start)] at name
  fun_induction attributes? s generalizing attributes with
  | case1 =>
      obtain rfl := Option.some.inj h
      exact List.forall_mem_nil _
  | case2 => simp at h
  | case3 => simp at h
  | case4 _ _ rest _ start =>
      rename_i ih
      obtain ⟨later, read, rfl⟩ := Option.map_eq_some_iff.mp h
      exact List.forall_mem_cons.mpr ⟨named rest start, ih read⟩
  | case5 _ _ rest _ start =>
      rename_i ih
      obtain ⟨later, read, rfl⟩ := Option.map_eq_some_iff.mp h
      exact List.forall_mem_cons.mpr ⟨named rest start, ih read⟩

theorem findTagEnd?_pos {c : Char} (start : isNameStart c = true) {rest : List Char} {stop : Nat}
    (h : findTagEnd? (c :: rest) = some stop)
    : 0 < stop := by
  have notEnd : c ≠ '>' := by
    rintro rfl
    exact absurd start (by decide)
  unfold findTagEnd? tagEnd? at h
  simp only [beq_eq_false_iff_ne.mpr notEnd, Bool.and_false, Bool.false_and, Bool.false_eq_true,
    if_false] at h
  obtain ⟨before, _, rfl⟩ := Option.map_eq_some_iff.mp h
  exact Nat.succ_pos before

/-- An opening tag is well named if its own name is a name. -/
theorem wellNamed_opening {name rest : List Char} (isName : IsName name) {refused : Bool}
    {stop n : Nat} {selfClosing : Bool} {token : Token}
    (h : (if refused then none
      else (attributes? rest).map fun attributes =>
        (stop, Token.opening name attributes selfClosing)) = some (n, token))
    : token.WellNamed := by
  split at h
  · simp at h
  · obtain ⟨attributes, read, same⟩ := Option.map_eq_some_iff.mp h
    obtain ⟨_, rfl⟩ := Prod.mk.inj same
    exact ⟨isName, isName_attributes? read⟩

/-- The tag at the start of a text is well named. An opening tag has a name, because its end comes
after the first character of the name.
-/
theorem wellNamed_tag? {s : List Char} {n : Nat} {token : Token} (h : tag? s = some (n, token))
    : token.WellNamed := by
  unfold tag? at h
  split at h
  · simp only at h
    split at h
    · obtain ⟨_, rfl⟩ := Prod.mk.inj (Option.some.inj h)
      trivial
    · simp at h
  · next after _ =>
      split at h
      · simp at h
      · next isTag =>
          split at h
          · simp at h
          · next stop found =>
              refine wellNamed_opening ?_ h
              cases after with
              | nil => simp [isTagName] at isTag
              | cons c rest =>
                  have start : isNameStart c = true := by simpa [isTagName] using isTag
                  obtain ⟨before, rfl⟩ :=
                    Nat.exists_eq_succ_of_ne_zero (findTagEnd?_pos start found).ne'
                  exact isName_leadingName start _
  · simp at h

-----------------------------------------------------------------------------------------
-- Where tokens come from
-----------------------------------------------------------------------------------------

/-- Holds for texts and for the tags that stand somewhere in a markup. -/
def Token.IsIn (token : Token) (s : List Char) : Prop :=
  (∃ text, token = .text text) ∨ ∃ rest n, rest <:+ s ∧ tag? rest = some (n, token)

theorem Token.IsIn.mono {token : Token} {s t : List Char} (h : token.IsIn s) (suffix : s <:+ t)
    : token.IsIn t :=
  h.imp_right fun ⟨rest, n, inside, read⟩ => ⟨rest, n, inside.trans suffix, read⟩

theorem isIn_textToken (offset : Nat) (text s : List Char)
    : ∀ placed ∈ textToken offset text, placed.token.IsIn s := by
  unfold textToken
  split
  · exact List.forall_mem_nil _
  · exact List.forall_mem_singleton.mpr (.inl ⟨_, rfl⟩)

theorem tag?_of_marked? {s : List Char} {n : Nat} {token : Token}
    (h : marked? s = some (n, some token))
    : tag? s = some (n, token) := by
  unfold marked? at h
  split at h
  · simp at h
  · obtain ⟨⟨length, found⟩, read, same⟩ := Option.map_eq_some_iff.mp h
    obtain ⟨rfl, isToken⟩ := Prod.mk.inj same
    rw [read, Option.some.inj isToken]

/-- The tokens of a markup, by induction along it. -/
theorem isIn_tokensFrom (offset : Nat) (pending s : List Char)
    : ∀ placed ∈ tokensFrom offset pending s, placed.token.IsIn s := by
  fun_induction tokensFrom offset pending s with
  | case1 offset pending => exact isIn_textToken _ _ _
  | case2 offset pending c rest notMarked ih =>
      simp only [dite_eq_ite] at notMarked
      simp only [notMarked]
      exact fun placed member => (ih placed member).mono (List.suffix_cons c rest)
  | case3 offset pending c rest n token found ih =>
      simp only [dite_eq_ite] at found
      simp only [found]
      have after : rest.drop (n - 1) <:+ c :: rest :=
        (List.drop_suffix _ _).trans (List.suffix_cons c rest)
      refine List.forall_mem_append.mpr
        ⟨List.forall_mem_append.mpr ⟨isIn_textToken _ _ _, ?_⟩,
          fun placed member => (ih placed member).mono after⟩
      intro placed member
      obtain ⟨token, rfl, rfl⟩ := Option.map_eq_some_iff.mp (Option.mem_toList.mp member)
      split at found
      · exact .inr ⟨c :: rest, n, List.suffix_rfl, tag?_of_marked? found⟩
      · simp at found

theorem isIn_tokens (s : List Char) : ∀ placed ∈ tokens s, placed.token.IsIn s :=
  isIn_tokensFrom 0 [] s

theorem wellNamed_tokens (s : List Char) : ∀ placed ∈ tokens s, placed.token.WellNamed := by
  intro placed member
  rcases isIn_tokens s placed member with ⟨text, isText⟩ | ⟨rest, n, -, read⟩
  · rw [isText]
    trivial
  · exact wellNamed_tag? read

end Folio.Document.Markup
