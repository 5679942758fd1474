import Folio.Proofs.Document.MarkupNames
import Folio.Proofs.Text.Lines
import Mathlib.Data.List.Induction

/-! Where the tokens of markup come from, and which markup has none. What is blank up to a comment
has no tokens, since a comment goes on to the end of the markup unless it is closed before.
-/

namespace Folio.Document.Markup

/-- Holds for texts that are blank up to a comment, or blank altogether. -/
def isSilent (s : List Char) : Bool :=
  Text.isAllBlank s || Text.startsWith "<!--".toList (Text.trimStart s)

-----------------------------------------------------------------------------------------
-- Silent texts
-----------------------------------------------------------------------------------------

/-- Whether a text starts with another one does not depend on what none of its characters is in. -/
theorem startsWith_append {lead t : List Char} (other : ∀ c ∈ t, c ∉ lead) (s : List Char)
    : Text.startsWith lead (s ++ t) = Text.startsWith lead s := by
  unfold Text.startsWith
  induction lead generalizing s with
  | nil => cases s <;> cases t <;> rfl
  | cons a lead ih =>
      have later : ∀ c ∈ t, c ∉ lead := fun c member inLead =>
        other c member (List.mem_cons_of_mem a inLead)
      cases s with
      | nil =>
          cases t with
          | nil => rfl
          | cons c t =>
              have differs : a ≠ c := by
                rintro rfl
                exact other a List.mem_cons_self List.mem_cons_self
              simp [Text.stripLead?, differs]
      | cons c s =>
          rw [List.cons_append, Text.stripLead?, Text.stripLead?]
          split
          · exact ih later s
          · rfl

/-- Blanks at the end of a text do not matter. -/
theorem isSilent_append {t : List Char} (blank : ∀ c ∈ t, Text.isBlank c = true) (s : List Char)
    : isSilent (s ++ t) = isSilent s := by
  have others : ∀ c ∈ t, c ∉ "<!--".toList := by
    intro c member inLead
    have visible : "<!--".toList.all (!Text.isBlank ·) = true := by decide
    exact absurd (blank c member) (by simpa using List.all_eq_true.mp visible c inLead)
  have allBlank : Text.isAllBlank (s ++ t) = Text.isAllBlank s := by
    have end_ : t.all Text.isBlank = true := List.all_eq_true.mpr blank
    rw [Text.isAllBlank, List.all_append, end_, Bool.and_true]
    rfl
  unfold isSilent
  rw [allBlank]
  cases empty : Text.isAllBlank s with
  | true => rfl
  | false =>
      have notEmpty : (s.dropWhile Text.isBlank).isEmpty = false := by
        refine List.isEmpty_eq_false_iff.mpr fun none => ?_
        have all := List.all_eq_true.mpr (List.dropWhile_eq_nil_iff.mp none)
        exact absurd (all.symm.trans empty) (by decide)
      have trimmed : Text.trimStart (s ++ t) = Text.trimStart s ++ t := by
        rw [Text.trimStart, List.dropWhile_append, notEmpty]
        rfl
      rw [trimmed, startsWith_append others]

theorem isSilent_append_feed (s : List Char) : isSilent (s ++ ['\n']) = isSilent s :=
  isSilent_append (List.forall_mem_singleton.mpr rfl) s

-----------------------------------------------------------------------------------------
-- Texts without tokens
-----------------------------------------------------------------------------------------

theorem textToken_eq_nil_iff {offset : Nat} {text : List Char}
    : textToken offset text = [] ↔ ∀ c ∈ text, Text.isBlank c = true := by
  unfold textToken
  split
  · next all => exact iff_of_true rfl (List.all_eq_true.mp all)
  · next other => exact iff_of_false (List.cons_ne_nil _ _) (mt List.all_eq_true.mpr other)

/-- A text that is not marked is read on to the next character. -/
theorem tokensFrom_plain {c : Char} (plain : c ≠ '<') (offset : Nat) (pending rest : List Char)
    : tokensFrom offset pending (c :: rest) = tokensFrom (offset + 1) (c :: pending) rest := by
  rw [tokensFrom]
  simp only [beq_eq_false_iff_ne.mpr plain, Bool.false_eq_true, if_false]

/-- Text in which no tag starts is pending until one does, by induction on it. -/
theorem tokensFrom_append {s : List Char} (noTag : '<' ∉ s) (offset : Nat)
    (pending rest : List Char)
    : tokensFrom offset pending (s ++ rest)
      = tokensFrom (offset + s.length) (s.reverse ++ pending) rest := by
  induction s generalizing offset pending with
  | nil => rfl
  | cons c s ih =>
      simp only [List.mem_cons, not_or] at noTag
      rw [List.cons_append, tokensFrom_plain (Ne.symm noTag.1), ih noTag.2, List.length_cons,
        Nat.add_assoc, Nat.add_comm 1, List.reverse_cons, List.append_assoc]
      rfl

theorem tokensFrom_blanks {b : List Char} (blank : ∀ c ∈ b, Text.isBlank c = true) (offset : Nat)
    (pending s : List Char)
    : tokensFrom offset pending (b ++ s)
      = tokensFrom (offset + b.length) (b.reverse ++ pending) s :=
  tokensFrom_append (fun member => absurd (blank _ member) (by decide)) offset pending s

/-- Where a comment starts after blanks, the tokens are those after its end. -/
theorem tokensFrom_comment {rest : List Char}
    (starts : Text.startsWith "<!--".toList ('<' :: rest) = true) {pending : List Char}
    (blank : ∀ c ∈ pending, Text.isBlank c = true) (offset : Nat)
    : ∃ offset',
        tokensFrom offset pending ('<' :: rest)
          = tokensFrom offset' []
              (rest.drop ((Markdown.Html.lengthThrough? "-->".toList ('<' :: rest)).getD
                (rest.length + 1) - 1)) := by
  have noText : textToken (offset - pending.length) pending.reverse = [] :=
    textToken_eq_nil_iff.mpr fun c member => blank c (List.mem_reverse.mp member)
  have marked
      : marked? ('<' :: rest)
        = some ((Markdown.Html.lengthThrough? "-->".toList ('<' :: rest)).getD (rest.length + 1),
            none) := by
    rw [marked?, starts]
    rfl
  let length := (Markdown.Html.lengthThrough? "-->".toList ('<' :: rest)).getD (rest.length + 1)
  refine ⟨offset + max length 1, ?_⟩
  rw [tokensFrom]
  simp only [beq_self_eq_true, if_true, marked, noText]
  rfl

/-- Text that is pending becomes a token sooner or later. -/
theorem tokensFrom_ne_nil {offset : Nat} {pending s : List Char} {c : Char} (member : c ∈ pending)
    (visible : Text.isBlank c = false)
    : tokensFrom offset pending s ≠ [] := by
  have text {offset : Nat} {pending : List Char} (member : c ∈ pending)
      : textToken offset pending.reverse ≠ [] := fun none =>
    absurd (textToken_eq_nil_iff.mp none c (List.mem_reverse.mpr member)) (by simp [visible])
  fun_induction tokensFrom offset pending s with
  | case1 offset pending => exact text member
  | case2 offset pending d rest notMarked ih =>
      simp only [dite_eq_ite] at notMarked
      simp only [notMarked]
      exact ih (List.mem_cons_of_mem d member)
  | case3 offset pending d rest n token found ih =>
      simp only [dite_eq_ite] at found
      simp only [found]
      intro none
      simp only [List.append_eq_nil_iff] at none
      exact text member none.1.1

/-- What comes after the blanks of a text is read with these pending. -/
theorem tokens_trimStart (s : List Char)
    : ∃ offset pending, (∀ c ∈ pending, Text.isBlank c = true)
        ∧ tokens s = tokensFrom offset pending (Text.trimStart s) := by
  have blank : ∀ c ∈ s.takeWhile Text.isBlank, Text.isBlank c = true :=
    fun c member => List.mem_takeWhile_imp member
  refine ⟨0 + (s.takeWhile Text.isBlank).length, (s.takeWhile Text.isBlank).reverse ++ [], ?_, ?_⟩
  · simpa using blank
  · rw [← tokensFrom_blanks blank, Text.trimStart, List.takeWhile_append_dropWhile, tokens]

theorem isAllBlank_of_trimStart {s : List Char} (none : Text.trimStart s = [])
    : Text.isAllBlank s = true :=
  List.all_eq_true.mpr (List.dropWhile_eq_nil_iff.mp none)

/-- What is marked but has no token is a comment. -/
theorem startsWith_of_marked? {s : List Char} {n : Nat} (h : marked? s = some (n, none))
    : Text.startsWith "<!--".toList s = true := by
  unfold marked? at h
  split at h
  · assumption
  · obtain ⟨_, -, same⟩ := Option.map_eq_some_iff.mp h
    cases same

/-- Only silent texts have no tokens. -/
theorem isSilent_of_tokens {s : List Char} (none : tokens s = []) : isSilent s = true := by
  obtain ⟨offset, pending, blank, read⟩ := tokens_trimStart s
  rw [read] at none
  rw [isSilent, Bool.or_eq_true]
  cases trimmed : Text.trimStart s with
  | nil => exact .inl (isAllBlank_of_trimStart trimmed)
  | cons c rest =>
      refine .inr ?_
      have visible : Text.isBlank c = false := by
        have first := List.head?_dropWhile_not Text.isBlank s
        rw [Text.trimStart] at trimmed
        rwa [trimmed] at first
      rw [trimmed, tokensFrom] at none
      split at none
      · exact absurd none (tokensFrom_ne_nil List.mem_cons_self visible)
      · next n token found =>
          simp only [List.append_eq_nil_iff, Option.toList_eq_nil_iff, Option.map_eq_none_iff]
            at none
          obtain ⟨⟨-, rfl⟩, -⟩ := none
          split at found
          · exact startsWith_of_marked? found
          · cases found

theorem exists_cons_of_startsWith {s : List Char}
    (h : Text.startsWith "<!--".toList s = true)
    : ∃ rest, s = '<' :: rest := by
  cases s with
  | nil => cases h
  | cons c rest =>
      by_cases same : '<' = c
      · exact ⟨rest, by rw [same]⟩
      · simp [Text.startsWith, Text.stripLead?, same] at h

/-- Silent texts have no tokens if nothing but blanks comes after their comment. -/
theorem tokens_eq_nil {s : List Char}
    (closed : ∀ n, Markdown.Html.lengthThrough? "-->".toList (Text.trimStart s) = some n →
      ∀ c ∈ (Text.trimStart s).drop n, Text.isBlank c = true)
    (silent : isSilent s = true)
    : tokens s = [] := by
  have nothing (offset : Nat) {blanks : List Char} (blank : ∀ c ∈ blanks, Text.isBlank c = true)
      : tokensFrom offset [] blanks = [] := by
    rw [← List.append_nil blanks, tokensFrom_blanks blank, tokensFrom, textToken_eq_nil_iff]
    simpa using blank
  rcases Bool.or_eq_true_iff.mp silent with allBlank | comment
  · exact nothing 0 (List.all_eq_true.mp allBlank)
  · obtain ⟨offset, pending, blank, read⟩ := tokens_trimStart s
    obtain ⟨rest, text⟩ := exists_cons_of_startsWith comment
    rw [text] at comment closed read
    obtain ⟨offset', after⟩ := tokensFrom_comment comment blank offset
    rw [read, after]
    cases ends : Markdown.Html.lengthThrough? "-->".toList ('<' :: rest) with
    | none =>
        refine nothing offset' ?_
        simp
    | some n =>
        refine nothing offset' fun c member => closed n ends c ?_
        cases n with
        | zero => exact List.mem_cons_of_mem _ member
        | succ n => exact member

-----------------------------------------------------------------------------------------
-- Where comments end
-----------------------------------------------------------------------------------------

theorem lengthThrough?_eq_none {s : List Char} (noEnd : '>' ∉ s)
    : Markdown.Html.lengthThrough? "-->".toList s = none := by
  induction s with
  | nil => rfl
  | cons c s ih =>
      have notHere : ((c :: s).take "-->".toList.length == "-->".toList) = false := by
        refine beq_eq_false_iff_ne.mpr fun same => noEnd ?_
        have inEnd : '>' ∈ "-->".toList := by decide
        exact List.mem_of_mem_take (same ▸ inEnd)
      rw [Markdown.Html.lengthThrough?, notHere, ih (mt (List.mem_cons_of_mem c) noEnd)]
      rfl

/-- The end of a comment is found where the first `>` is. -/
theorem lengthThrough?_append {w : List Char} (noEnd : '>' ∉ w) (rest : List Char)
    : Markdown.Html.lengthThrough? "-->".toList (w ++ "-->".toList ++ rest)
      = some (w.length + 3) := by
  induction w with
  | nil => rfl
  | cons c w ih =>
      have notHere
          : ((c :: w ++ "-->".toList ++ rest).take "-->".toList.length == "-->".toList)
            = false := by
        refine beq_eq_false_iff_ne.mpr fun same => ?_
        have third : (c :: w ++ "-->".toList ++ rest)[2]? = some '>' := by
          have inEnd := congrArg (·[2]?) same
          rwa [List.getElem?_take_of_lt (by decide)] at inEnd
        match w with
        | [] => cases third
        | [_] => cases third
        | d :: e :: w =>
            obtain rfl := Option.some.inj third
            exact noEnd (by simp)
      rw [List.cons_append, List.cons_append, Markdown.Html.lengthThrough?, ← List.cons_append,
        ← List.cons_append, notHere, ih (mt (List.mem_cons_of_mem c) noEnd), List.length_cons]
      rfl

/-- The end of a comment is where the only `>` is. -/
theorem eq_length_of_closed {s : List Char} (noEnd : '>' ∉ s) {n : Nat}
    (ends : (s ++ "-->\n".toList)[n]? = some '>')
    : n = s.length + 2 := by
  rcases Nat.lt_or_ge n s.length with before | after
  · rw [List.getElem?_append_left before] at ends
    exact absurd (List.mem_of_getElem? ends) noEnd
  · obtain ⟨k, rfl⟩ := Nat.exists_eq_add_of_le after
    rw [List.getElem?_append_right after, Nat.add_sub_cancel_left] at ends
    match k with
    | 0 | 1 | 3 => exact absurd ends (by decide)
    | 2 => rfl
    | k + 4 => cases ends

/-- Without a `>`, a comment goes on to the end of a text. -/
theorem tokens_eq_nil_iff {s : List Char} (noEnd : '>' ∉ s)
    : tokens s = [] ↔ isSilent s = true := by
  refine ⟨isSilent_of_tokens, tokens_eq_nil fun n ends => ?_⟩
  have open_ := lengthThrough?_eq_none (mt (List.dropWhile_sublist Text.isBlank).mem noEnd)
  cases open_.symm.trans ends

/-- If the first one closes a comment at the end of a text, the comment goes on to there. -/
theorem tokens_closed_eq_nil_iff {s : List Char} (noEnd : '>' ∉ s)
    : tokens (s ++ "-->\n".toList) = [] ↔ isSilent (s ++ "-->\n".toList) = true := by
  refine ⟨isSilent_of_tokens, tokens_eq_nil fun n ends => ?_⟩
  have trimmed
      : Text.trimStart (s ++ "-->\n".toList) = Text.trimStart s ++ "-->".toList ++ ['\n'] := by
    rw [Text.trimStart, List.dropWhile_append, List.append_assoc]
    split
    · next none =>
        rw [List.isEmpty_iff] at none
        rw [Text.trimStart, none]
        rfl
    · rfl
  have noEndAfter : '>' ∉ Text.trimStart s := mt (List.dropWhile_sublist Text.isBlank).mem noEnd
  have after : (Text.trimStart s ++ "-->".toList ++ ['\n']).drop ((Text.trimStart s).length + 3)
      = ['\n'] := by
    rw [List.append_assoc]
    exact List.drop_length_add_append 3
  rw [trimmed] at ends ⊢
  obtain rfl := Option.some.inj ((lengthThrough?_append noEndAfter ['\n']).symm.trans ends)
  rw [after]
  exact List.forall_mem_singleton.mpr rfl

-----------------------------------------------------------------------------------------
-- Closing tags
-----------------------------------------------------------------------------------------

/-- Holds for texts in which a hyphen comes before each `>`. -/
def Hyphened (s : List Char) : Prop :=
  ∀ c, [c, '>'] <:+: s → c = '-'

theorem hyphened_of_noEnd {s : List Char} (noEnd : '>' ∉ s) : Hyphened s :=
  fun _ inside => absurd (inside.mem (by simp)) noEnd

/-- The end of a comment has a hyphen there. -/
theorem hyphened_closed {s : List Char} (noEnd : '>' ∉ s) : Hyphened (s ++ "-->\n".toList) := by
  rintro c ⟨before, after, whole⟩
  have ends : (s ++ "-->\n".toList)[before.length + 1]? = some '>' := by
    rw [← whole]
    simp
  have place : before.length = s.length + 1 := by
    have := eq_length_of_closed noEnd ends
    omega
  have hyphen : (s ++ "-->\n".toList)[before.length]? = some '-' := by
    rw [place]
    simp
  rw [← whole] at hyphen
  simpa using hyphen

/-- An opening tag is no closing tag. -/
theorem opening_ne_closing {rest opened closed : List Char} {refused selfClosing : Bool}
    {stop n : Nat}
    : (if refused then none
        else (attributes? rest).map fun attributes =>
          (stop, Token.opening opened attributes selfClosing))
      ≠ some (n, .closing closed) := by
  intro h
  split at h
  · cases h
  · obtain ⟨attributes, -, same⟩ := Option.map_eq_some_iff.mp h
    cases (Prod.mk.inj same).2

/-- A closing tag has blanks between its name and its end. -/
theorem exists_blanks_of_closing {s name : List Char} {n : Nat}
    (h : tag? s = some (n, .closing name))
    : ∃ blanks rest,
        s = '<' :: '/' :: (name ++ blanks ++ '>' :: rest)
        ∧ (∀ c ∈ blanks, Text.isBlank c = true)
        ∧ name ≠ [] := by
  unfold tag? at h
  split at h
  · next after =>
      simp only at h
      split at h
      · next closes =>
          rw [Bool.and_eq_true, beq_iff_eq] at closes
          obtain ⟨written, blanks, rest, rfl, isName, blank⟩ := exists_closing closes.2
          obtain rfl : written = name :=
            (isName rest).symm.trans (Token.closing.inj (Prod.mk.inj (Option.some.inj h)).2)
          refine ⟨blanks, rest, by rw [List.append_assoc], blank, ?_⟩
          rintro rfl
          rw [isName] at closes
          cases closes.1
      · cases h
  · split at h
    · cases h
    · split at h
      · cases h
      · exact absurd h opening_ne_closing
  · cases h

/-- In such a text the names of closing tags end in a hyphen, as no blank can come after them. -/
theorem getLast?_of_closing {s name : List Char} (hyphened : Hyphened s)
    (h : (Token.closing name).IsIn s)
    : name.getLast? = some '-' := by
  rcases h with ⟨_, isText⟩ | ⟨tag, n, inside, read⟩
  · cases isText
  · obtain ⟨blanks, rest, rfl, blank, notNil⟩ := exists_blanks_of_closing read
    have last (before : List Char) (c : Char) (split : name ++ blanks = before ++ [c])
        : c = '-' := by
      refine hyphened c (List.IsInfix.trans ⟨'<' :: '/' :: before, rest, ?_⟩ inside.isInfix)
      rw [split]
      simp
    cases blanks using List.reverseRecOn with
    | nil =>
        cases name using List.reverseRecOn with
        | nil => exact absurd rfl notNil
        | append_singleton before c =>
            rw [last before c (List.append_nil _), List.getLast?_concat]
    | append_singleton before c =>
        have isBlank := blank c (List.mem_append_right _ List.mem_cons_self)
        rw [last (name ++ before) c (List.append_assoc _ _ _).symm] at isBlank
        exact absurd isBlank (by decide)

end Folio.Document.Markup
