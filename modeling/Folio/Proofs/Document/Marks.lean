import Folio.Proofs.Document.MarkupNames
import Folio.Proofs.Document.TagJoining
import Folio.Proofs.Document.Tokens
import Folio.Proofs.Text.Entities

/-! Comments and tags at the start of markup. A comment goes on to the first end of one in it, or to
the end of the markup; a tag is read from what stands between its `<` and its `>` alone.
-/

namespace Folio.Document.Markup

-----------------------------------------------------------------------------------------
-- Comments
-----------------------------------------------------------------------------------------

/-- A text through the first occurrence of another one has that at its end and nowhere else. -/
theorem lengthThrough?_eq_some {part s : List Char} {n : Nat}
    (found : Markdown.Html.lengthThrough? part s = some n)
    : ∃ before after,
        s = before ++ part ++ after
        ∧ n = before.length + part.length
        ∧ ∀ a b, before ++ part = a ++ part ++ b → b = [] := by
  induction s generalizing n with
  | nil => cases found
  | cons c s ih =>
      unfold Markdown.Html.lengthThrough? at found
      split at found
      · next here =>
          obtain rfl := Option.some.inj found
          have starts : (c :: s).take part.length = part := by simpa using here
          refine ⟨[], (c :: s).drop part.length, ?_, (Nat.zero_add _).symm, fun a b same => ?_⟩
          · rw [List.nil_append]
            conv => rhs; lhs; rw [← starts]
            rw [List.take_append_drop]
          · have size := congrArg List.length same
            simp only [List.nil_append, List.length_append] at size
            exact List.length_eq_zero_iff.mp (by omega)
      · next notHere =>
          obtain ⟨m, foundLater, rfl⟩ := Option.map_eq_some_iff.mp found
          obtain ⟨before, after, rfl, rfl, first⟩ := ih foundLater
          refine ⟨c :: before, after, rfl, by rw [List.length_cons]; omega, fun a b same => ?_⟩
          cases a with
          | nil =>
              refine absurd ?_ notHere
              rw [← List.cons_append, ← List.cons_append, same, List.nil_append, List.append_assoc,
                List.take_left, beq_self_eq_true]
          | cons d a => exact first a b (List.cons.inj same).2

/-- A text without an end of a comment has none in it. -/
theorem lengthThrough?_none {part s : List Char}
    (none : Markdown.Html.lengthThrough? part s = none) (notNil : part ≠ [])
    : ∀ a b, s ≠ a ++ part ++ b := by
  induction s with
  | nil =>
      intro a b same
      simp [notNil] at same
  | cons c s ih =>
      unfold Markdown.Html.lengthThrough? at none
      split at none
      · cases none
      · next notHere =>
          intro a b same
          cases a with
          | nil =>
              refine absurd ?_ notHere
              rw [same, List.nil_append, List.take_left, beq_self_eq_true]
          | cons d a => exact ih (Option.map_eq_none_iff.mp none) a b (List.cons.inj same).2

/-- Holds if a text is a comment where markup goes on with another text: it starts with `<!--` and
goes through the first `-->` in it or, without one, to the end of the markup.
-/
structure IsComment (text following : List Char) : Prop where
  opens : "<!--".toList <+: text
  closes
    : (∃ inside,
        text = inside ++ "-->".toList
        ∧ ∀ a b, text = a ++ "-->".toList ++ b → b = [])
      ∨ (following = [] ∧ ∀ a b, text ≠ a ++ "-->".toList ++ b)

/-- What has no token of its own is a comment. -/
theorem isComment_of_marked? {s : List Char} {n : Nat} (found : marked? s = some (n, none))
    : IsComment (s.take n) (s.drop n) ∧ n ≤ s.length := by
  have starts := Text.startsWith_iff.mp (startsWith_of_marked? found)
  have length : (Markdown.Html.lengthThrough? "-->".toList s).getD s.length = n := by
    rw [marked?, Text.startsWith_iff.mpr starts] at found
    exact (Prod.mk.inj (Option.some.inj found)).1
  cases ends : Markdown.Html.lengthThrough? "-->".toList s with
  | none =>
      rw [ends, Option.getD_none] at length
      subst length
      rw [List.take_length, List.drop_length]
      exact ⟨⟨starts, .inr ⟨rfl, lengthThrough?_none ends (by decide)⟩⟩, Nat.le_refl _⟩
  | some stop =>
      rw [ends, Option.getD_some] at length
      subst length
      obtain ⟨before, after, rfl, rfl, first⟩ := lengthThrough?_eq_some ends
      rw [← List.length_append, List.take_left, List.drop_left]
      refine ⟨⟨?_, .inl ⟨before, rfl, first⟩⟩, ?_⟩
      · -- The end of a comment comes after the `<!` at its start.
        obtain ⟨more, whole⟩ := starts
        rcases before with _ | ⟨a, _ | ⟨b, before⟩⟩
        · cases congrArg (·[0]?) whole
        · cases congrArg (·[1]?) whole
        · refine List.prefix_of_prefix_length_le ⟨more, whole⟩ (List.prefix_append _ after) ?_
          simp
      · exact (List.prefix_append (before ++ "-->".toList) after).length_le

-----------------------------------------------------------------------------------------
-- Tags
-----------------------------------------------------------------------------------------

/-- The end of a tag is found without what follows it. -/
theorem tagEnd?_take {quote : Option Char} {depth : Nat} {escaped : Bool} {s : List Char}
    {stop : Nat} (found : tagEnd? quote depth escaped s = some stop)
    : tagEnd? quote depth escaped (s.take (stop + 1)) = some stop := by
  induction s generalizing quote depth escaped stop with
  | nil => cases found
  | cons c s ih =>
      rcases tagEnd?_cons quote depth escaped c with ⟨-, ends⟩ | ⟨_, _, _, next⟩
      · obtain rfl := Option.some.inj ((ends s).symm.trans found)
        exact ends _
      · obtain ⟨before, foundLater, rfl⟩ := Option.map_eq_some_iff.mp ((next s).symm.trans found)
        rw [List.take_succ_cons, next, ih foundLater]
        rfl

/-- The token of an opening tag from what stands between its `<` and its `>`. -/
def openingToken? (inner : List Char) : Option Token :=
  let name := leadingName inner
  let rest := Text.trimEnd (inner.drop name.length)
  let selfClosing := rest.getLast? == some '/'
  let rest := if selfClosing then rest.dropLast else rest
  if !rest.isEmpty && !rest.head?.any Text.isBlank then none
  else (attributes? rest).map fun attributes => .opening name attributes selfClosing

theorem tag?_eq_opening {after : List Char} (notClosing : ∀ rest, after ≠ '/' :: rest)
    : tag? ('<' :: after)
      = if isTagName after then
          (findTagEnd? after).bind fun stop =>
            (openingToken? (after.take stop)).map fun token => (stop + 2, token)
        else none := by
  rw [tag?.eq_2 after notClosing]
  cases isTagName after with
  | false => rfl
  | true =>
      cases findTagEnd? after with
      | none => rfl
      | some stop =>
          unfold openingToken?
          simp only [Bool.not_true, Bool.false_eq_true, if_false, if_true, Option.bind_some]
          generalize Text.trimEnd _ = trimmed
          generalize (if (trimmed.getLast? == some '/') = true then trimmed.dropLast
            else trimmed) = rest
          split
          · rfl
          · rw [Option.map_map]
            rfl

theorem openingToken?_ne_text {inner : List Char} {token : Token}
    (found : openingToken? inner = some token)
    : ∀ content, token ≠ .text content := by
  simp only [openingToken?, Option.ite_none_left_eq_some] at found
  obtain ⟨_, -, rfl⟩ := Option.map_eq_some_iff.mp found.2
  nofun

/-- Holds if a text is a tag with a token, from its `<` to its `>`. -/
structure IsTag (text : List Char) (token : Token) : Prop where
  opens : text.head? = some '<'
  closes : text.getLast? = some '>'
  reads : tag? text = some (text.length, token)
  isMarkup : ∀ content, token ≠ .text content

theorem isTag_closing {after : List Char} {n : Nat} {token : Token}
    (found : tag? ('<' :: '/' :: after) = some (n, token))
    : IsTag (('<' :: '/' :: after).take n) token ∧ n ≤ ('<' :: '/' :: after).length := by
  rw [tag?] at found
  split at found
  · next closed =>
      obtain ⟨rfl, rfl⟩ := Prod.mk.inj (Option.some.inj found)
      obtain ⟨named, ends⟩ := Bool.and_eq_true_iff.mp closed
      obtain ⟨name, spaces, more, rfl, isName, blank⟩ := exists_closing (beq_iff_eq.mp ends)
      have areBlanks := blanks_append blank (by decide : Text.isBlank '>' = false)
      rw [isName] at named ⊢
      rw [List.drop_left, areBlanks]
      have text
          : ('<' :: '/' :: (name ++ (spaces ++ '>' :: more))).take
              (name.length + spaces.length + 3)
            = '<' :: '/' :: (name ++ (spaces ++ ['>'])) := by
        have whole
            : '<' :: '/' :: (name ++ (spaces ++ '>' :: more))
              = '<' :: '/' :: (name ++ (spaces ++ ['>'])) ++ more := by
          simp
        rw [whole, List.take_left']
        simp only [List.length_cons, List.length_append, List.length_nil]
        omega
      rw [text]
      refine ⟨⟨rfl, by simp [List.getLast?_cons], ?_, nofun⟩, ?_⟩
      · rw [tag?]
        simp only [isName [], List.drop_left, areBlanks [], named, List.head?_cons,
          beq_self_eq_true, Bool.and_true, if_true, List.length_cons, List.length_append,
          List.length_nil]
        rfl
      · simp only [List.length_cons, List.length_append]
        omega
  · cases found

theorem isTag_opening {after : List Char} (notClosing : ∀ rest, after ≠ '/' :: rest) {n : Nat}
    {token : Token} (found : tag? ('<' :: after) = some (n, token))
    : IsTag (('<' :: after).take n) token ∧ n ≤ ('<' :: after).length := by
  rw [tag?_eq_opening notClosing] at found
  split at found
  · next start =>
      obtain ⟨stop, ends, tokenFound⟩ := Option.bind_eq_some_iff.mp found
      obtain ⟨_, read, same⟩ := Option.map_eq_some_iff.mp tokenFound
      obtain ⟨rfl, rfl⟩ := Prod.mk.inj same
      have close := getElem?_of_tagEnd? ends
      have inside := (List.getElem?_eq_some_iff.mp close).1
      have length : (after.take (stop + 1)).length = stop + 1 := List.length_take_of_le inside
      have stillOpening : ∀ rest, after.take (stop + 1) ≠ '/' :: rest := by
        intro rest same
        refine notClosing (rest ++ after.drop (stop + 1)) ?_
        rw [← List.cons_append, ← same, List.take_append_drop]
      refine ⟨⟨rfl, ?_, ?_, openingToken?_ne_text read⟩, ?_⟩
      · rw [List.take_succ_cons, List.getLast?_cons, List.getLast?_eq_getElem?, length,
          Nat.succ_sub_one, List.getElem?_take_of_lt (Nat.lt_succ_self stop), close]
        rfl
      · have stillStart : isTagName (after.take (stop + 1)) = true := by
          rw [isTagName, List.head?_take, if_neg (Nat.succ_ne_zero stop)]
          exact start
        have stillEnds : findTagEnd? (after.take (stop + 1)) = some stop := tagEnd?_take ends
        rw [List.take_succ_cons, tag?_eq_opening stillOpening, if_pos stillStart, stillEnds,
          Option.bind_some, List.take_take, Nat.min_eq_left (Nat.le_succ stop), read,
          List.length_cons, length]
        rfl
      · rw [List.length_cons]
        omega
  · cases found

/-- The tag at the start of a text is a tag without the rest of the text. -/
theorem isTag_of_tag? {s : List Char} {n : Nat} {token : Token} (found : tag? s = some (n, token))
    : IsTag (s.take n) token ∧ n ≤ s.length := by
  cases s with
  | nil => cases found
  | cons c after =>
      by_cases opens : c = '<'
      · subst opens
        by_cases closing : ∃ rest, after = '/' :: rest
        · obtain ⟨rest, rfl⟩ := closing
          exact isTag_closing found
        · exact isTag_opening (fun rest same => closing ⟨rest, same⟩) found
      · simp [tag?, opens] at found

-----------------------------------------------------------------------------------------
-- Reading on
-----------------------------------------------------------------------------------------

/-- A comment or tag starts with `<`, and is in the markup it starts. -/
theorem of_marked? {s : List Char} {n : Nat} {token : Option Token}
    (found : marked? s = some (n, token))
    : ∃ k rest, n = k + 1 ∧ s = '<' :: rest ∧ k ≤ rest.length := by
  have first (opens : (s.take n).head? = some '<') (inside : n ≤ s.length)
      : ∃ k rest, n = k + 1 ∧ s = '<' :: rest ∧ k ≤ rest.length := by
    cases n with
    | zero => cases opens
    | succ k =>
        cases s with
        | nil => cases opens
        | cons c rest =>
            obtain rfl : c = '<' := Option.some.inj opens
            exact ⟨k, rest, rfl, rfl, Nat.le_of_succ_le_succ inside⟩
  cases token with
  | none =>
      obtain ⟨isComment, inside⟩ := isComment_of_marked? found
      obtain ⟨more, whole⟩ := isComment.opens
      exact first (by rw [← whole]; rfl) inside
  | some token =>
      obtain ⟨isTag, inside⟩ := isTag_of_tag? (tag?_of_marked? found)
      exact first isTag.opens inside

/-- Text that is pending has its token before the comment or tag after it. -/
theorem tokensFrom_marked {s : List Char} {n : Nat} {token : Option Token}
    (found : marked? s = some (n, token)) (offset : Nat) (pending : List Char)
    : tokensFrom offset pending s
      = textToken (offset - pending.length) pending.reverse
        ++ (token.map (Placed.mk offset)).toList
        ++ tokensFrom (offset + n) [] (s.drop n) := by
  obtain ⟨k, rest, rfl, rfl, -⟩ := of_marked? found
  have atLeastOne : max (k + 1) 1 = k + 1 := Nat.max_eq_left (Nat.succ_pos k)
  rw [tokensFrom]
  simp only [beq_self_eq_true, if_true, found, atLeastOne]
  rfl

/-- A character that starts no comment or tag is pending. -/
theorem tokensFrom_unmarked {c : Char} {rest : List Char}
    (none : c = '<' → marked? (c :: rest) = none) (offset : Nat) (pending : List Char)
    : tokensFrom offset pending (c :: rest) = tokensFrom (offset + 1) (c :: pending) rest := by
  by_cases opens : c = '<'
  · rw [tokensFrom]
    simp only [none opens, ite_self]
  · exact tokensFrom_plain opens offset pending rest

end Folio.Document.Markup
