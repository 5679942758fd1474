import Folio.Text.Lines
import Folio.Text.Utf8
import Mathlib.Data.List.Basic

/-! Texts and their bytes. The bytes of a text are those of its characters one after the other, so
that a place in the text has an offset in its bytes, and places are in the order of their offsets. A
slice is nothing where one of its ends is no place between characters, so that computing with
offsets can fail; where a search found an offset, or a text was put together at it, there is a
slice.
-/

namespace Folio.Text

def bytesOf (s : List Char) : List UInt8 :=
  utf8 (String.ofList s)

def size (s : List Char) : Nat :=
  (bytesOf s).length

/-- Where the character at a place of a text starts in its bytes. -/
def offsetOf (s : List Char) (place : Nat) : Nat :=
  size (s.take place)

theorem bytesOf_eq_flatMap (s : List Char) : bytesOf s = s.flatMap String.utf8EncodeChar := by
  have bytes : bytesOf s = (String.ofList s).toByteArray.data.toList := rfl
  rw [bytes, String.toByteArray_ofList, List.utf8Encode, List.data_toByteArray,
    List.toList_toArray]

theorem bytesOf_cons (c : Char) (s : List Char)
    : bytesOf (c :: s) = String.utf8EncodeChar c ++ bytesOf s := by
  rw [bytesOf_eq_flatMap, bytesOf_eq_flatMap, List.flatMap_cons]

@[simp]
theorem size_nil : size [] = 0 :=
  rfl

@[simp]
theorem size_cons (c : Char) (s : List Char) : size (c :: s) = c.utf8Size + size s := by
  rw [size, size, bytesOf_cons, List.length_append, String.length_utf8EncodeChar]

@[simp]
theorem size_append (s t : List Char) : size (s ++ t) = size s + size t := by
  rw [size, size, size, bytesOf_eq_flatMap, bytesOf_eq_flatMap, bytesOf_eq_flatMap,
    List.flatMap_append, List.length_append]

theorem length_le_size (s : List Char) : s.length ≤ size s := by
  induction s with
  | nil => exact Nat.le_refl 0
  | cons c s ih =>
      have positive := c.utf8Size_pos
      rw [List.length_cons, size_cons]
      omega

theorem size_pos {s : List Char} (notNil : s ≠ []) : 0 < size s :=
  Nat.lt_of_lt_of_le (List.length_pos_of_ne_nil notNil) (length_le_size s)

@[simp]
theorem offsetOf_zero (s : List Char) : offsetOf s 0 = 0 := by
  rw [offsetOf, List.take_zero, size_nil]

theorem offsetOf_cons_succ (c : Char) (s : List Char) (place : Nat)
    : offsetOf (c :: s) (place + 1) = c.utf8Size + offsetOf s place := by
  rw [offsetOf, List.take_succ_cons, size_cons, offsetOf]

/-- What stands first in a text is before the place after it. -/
theorem offsetOf_append_length (before after : List Char)
    : offsetOf (before ++ after) before.length = size before := by
  rw [offsetOf, List.take_left]

/-- The bytes of a text are those before and after a place. -/
theorem size_eq_add (s : List Char) (place : Nat)
    : size s = offsetOf s place + size (s.drop place) := by
  rw [offsetOf, ← size_append, List.take_append_drop]

@[simp]
theorem offsetOf_length (s : List Char) : offsetOf s s.length = size s := by
  rw [offsetOf, List.take_length]

/-- The offset after a character. -/
theorem offsetOf_succ {s : List Char} {place : Nat} {c : Char} (found : s[place]? = some c)
    : offsetOf s (place + 1) = offsetOf s place + c.utf8Size := by
  rw [offsetOf, List.take_add_one, found, size_append, Option.toList_some, size_cons, size_nil,
    offsetOf, Nat.add_zero]

/-- A later place has a greater offset. -/
theorem offsetOf_lt_iff {s : List Char} {a b : Nat} (ha : a ≤ s.length) (hb : b ≤ s.length)
    : offsetOf s a < offsetOf s b ↔ a < b := by
  have grows {a b : Nat} (less : a < b) (hb : b ≤ s.length) : offsetOf s a < offsetOf s b := by
    have split : s.take b = s.take a ++ (s.drop a).take (b - a) := by
      rw [← List.take_add, Nat.add_sub_cancel' (Nat.le_of_lt less)]
    have more : (s.drop a).take (b - a) ≠ [] := by
      refine List.ne_nil_of_length_pos ?_
      rw [List.length_take, List.length_drop]
      omega
    rw [offsetOf, offsetOf, split, size_append]
    exact Nat.lt_add_of_pos_right (size_pos more)
  refine ⟨fun less => Nat.lt_of_not_le fun reversed => ?_, fun less => grows less hb⟩
  rcases Nat.lt_or_eq_of_le reversed with before | rfl
  · exact Nat.lt_asymm less (grows before ha)
  · exact Nat.lt_irrefl _ less

-----------------------------------------------------------------------------------------
-- Line ends as bytes
-----------------------------------------------------------------------------------------

/-- A text whose line ends are made blanks at the places that satisfy `p`. -/
def blankEnds (p : Nat → Bool) (s : List Char) : List Char :=
  s.mapIdx fun i c => if (c == '\n' || c == '\r') && p i then ' ' else c

/-- Bytes whose line ends are made blanks at the offsets that satisfy `p`. -/
def blankEndBytes (p : Nat → Bool) (bytes : List UInt8) : List UInt8 :=
  bytes.mapIdx fun i b => if (b == 10 || b == 13) && p i then 32 else b

theorem blankEnds_cons (p : Nat → Bool) (c : Char) (s : List Char)
    : blankEnds p (c :: s)
      = (if (c == '\n' || c == '\r') && p 0 then ' ' else c) :: blankEnds (fun i => p (i + 1)) s :=
  List.mapIdx_cons

theorem blankEnds_append (p : Nat → Bool) (s t : List Char)
    : blankEnds p (s ++ t) = blankEnds p s ++ blankEnds (fun i => p (i + s.length)) t :=
  List.mapIdx_append

theorem getElem?_blankEnds (p : Nat → Bool) (s : List Char) (i : Nat)
    : (blankEnds p s)[i]?
      = s[i]?.map fun c => if (c == '\n' || c == '\r') && p i then ' ' else c :=
  List.getElem?_mapIdx

/-- Visible characters are none that were made blanks. -/
theorem getElem?_of_blankEnds {p : Nat → Bool} {s : List Char} {i : Nat} {c : Char}
    (found : (blankEnds p s)[i]? = some c) (notBlank : c ≠ ' ')
    : s[i]? = some c := by
  rw [getElem?_blankEnds, Option.map_eq_some_iff] at found
  obtain ⟨x, here, rfl⟩ := found
  split at notBlank
  · exact absurd rfl notBlank
  · next other => rw [if_neg other, here]

theorem drop_blankEnds (p : Nat → Bool) (s : List Char) (n : Nat)
    : (blankEnds p s).drop n = blankEnds (fun i => p (n + i)) (s.drop n) := by
  refine List.ext_getElem? fun i => ?_
  rw [List.getElem?_drop, getElem?_blankEnds, getElem?_blankEnds, List.getElem?_drop]

/-- Texts are the same if the places of line ends are. -/
theorem blankEnds_congr {p q : Nat → Bool} {s : List Char}
    (same : ∀ i c, s[i]? = some c → c = '\n' ∨ c = '\r' → p i = q i)
    : blankEnds p s = blankEnds q s := by
  refine List.ext_getElem? fun i => ?_
  rw [getElem?_blankEnds, getElem?_blankEnds]
  cases found : s[i]? with
  | none => rfl
  | some c =>
      by_cases ends : c = '\n' ∨ c = '\r'
      · rw [same i c found ends]
      · obtain ⟨noFeed, noReturn⟩ := not_or.mp ends
        simp [noFeed, noReturn]

theorem blankEnds_false (s : List Char) : blankEnds (fun _ => false) s = s := by
  refine List.ext_getElem? fun i => ?_
  simp [getElem?_blankEnds]

/-- The bytes of other characters are not those of line ends. -/
theorem ne_lineEnd_of_mem_encode {c : Char} (noFeed : c ≠ '\n') (noReturn : c ≠ '\r') {b : UInt8}
    (member : b ∈ String.utf8EncodeChar c)
    : b ≠ 10 ∧ b ≠ 13 := by
  have notTen : c.val.toNat ≠ 10 := fun same => noFeed (Char.ext (UInt32.toNat_inj.mp same))
  have notThirteen : c.val.toNat ≠ 13 := fun same => noReturn (Char.ext (UInt32.toNat_inj.mp same))
  have apart (n : Nat) (small : n < 256) (notTen : n ≠ 10) (notThirteen : n ≠ 13)
      : UInt8.ofNat n ≠ 10 ∧ UInt8.ofNat n ≠ 13 := by
    have value : (UInt8.ofNat n).toNat = n := UInt8.toNat_ofNat_of_lt' small
    constructor <;> (intro same; rw [same] at value; revert value)
    · exact fun value => notTen value.symm
    · exact fun value => notThirteen value.symm
  unfold String.utf8EncodeChar at member
  simp only at member
  split at member
  · next low =>
      obtain rfl := List.mem_singleton.mp member
      exact apart _ (by omega) notTen notThirteen
  · split at member
    · simp only [List.mem_cons, List.not_mem_nil, or_false] at member
      rcases member with rfl | rfl <;> exact apart _ (by omega) (by omega) (by omega)
    · split at member
      · simp only [List.mem_cons, List.not_mem_nil, or_false] at member
        rcases member with rfl | rfl | rfl <;> exact apart _ (by omega) (by omega) (by omega)
      · simp only [List.mem_cons, List.not_mem_nil, or_false] at member
        rcases member with rfl | rfl | rfl | rfl <;>
          exact apart _ (by omega) (by omega) (by omega)

/-- A character without a line end keeps its bytes. -/
theorem blankEndBytes_encode {c : Char} (noFeed : c ≠ '\n') (noReturn : c ≠ '\r') (p : Nat → Bool)
    : blankEndBytes p (String.utf8EncodeChar c) = String.utf8EncodeChar c := by
  refine List.ext_getElem? fun i => ?_
  rw [blankEndBytes, List.getElem?_mapIdx]
  cases found : (String.utf8EncodeChar c)[i]? with
  | none => rfl
  | some b =>
      obtain ⟨notTen, notThirteen⟩ :=
        ne_lineEnd_of_mem_encode noFeed noReturn (List.mem_of_getElem? found)
      simp [notTen, notThirteen]

theorem blankEndBytes_append (p : Nat → Bool) (first later : List UInt8)
    : blankEndBytes p (first ++ later)
      = blankEndBytes p first ++ blankEndBytes (fun i => p (i + first.length)) later :=
  List.mapIdx_append

/-- Line ends are made blanks in the bytes of a text at the offsets of the places where they are
made blanks in the text. By induction on the text.
-/
theorem bytesOf_blankEnds {s : List Char} {p q : Nat → Bool}
    (same : ∀ i < s.length, q (offsetOf s i) = p i)
    : bytesOf (blankEnds p s) = blankEndBytes q (bytesOf s) := by
  induction s generalizing p q with
  | nil => rfl
  | cons c s ih =>
      have first : q 0 = p 0 := same 0 (Nat.succ_pos _)
      have later
          : bytesOf (blankEnds (fun i => p (i + 1)) s)
            = blankEndBytes (fun i => q (i + c.utf8Size)) (bytesOf s) := by
        refine ih fun i inside => ?_
        have here := same (i + 1) (Nat.succ_lt_succ inside)
        rwa [offsetOf, List.take_succ_cons, size_cons, Nat.add_comm c.utf8Size] at here
      have feed : String.utf8EncodeChar '\n' = [10] := rfl
      have carriageReturn : String.utf8EncodeChar '\r' = [13] := rfl
      have blank : String.utf8EncodeChar ' ' = [32] := rfl
      rw [blankEnds_cons, bytesOf_cons, later, bytesOf_cons, blankEndBytes_append,
        String.length_utf8EncodeChar]
      refine congrArg (· ++ _) ?_
      by_cases noFeed : c = '\n'
      · subst noFeed
        cases here : p 0 <;> simp [blankEndBytes, first, here, feed, blank]
      · by_cases noReturn : c = '\r'
        · subst noReturn
          cases here : p 0 <;> simp [blankEndBytes, first, here, carriageReturn, blank]
        · rw [blankEndBytes_encode noFeed noReturn]
          simp [noFeed, noReturn]

-----------------------------------------------------------------------------------------
-- Slices
-----------------------------------------------------------------------------------------

inductive OffsetFault where
  /-- A slice with an end that is no place between characters. -/
  | cut
  /-- A number below zero. -/
  | negative
  /-- A loop that is not done after a step for each byte. -/
  | endless

/-- A number less another one that is no greater. -/
def minus (n m : Nat) : Except OffsetFault Nat :=
  if m ≤ n then .ok (n - m) else .error .negative

def cutAt : (offset : Nat) → List Char → Except OffsetFault (List Char × List Char)
  | 0, s => .ok ([], s)
  | _ + 1, [] => .error .cut
  | offset + 1, c :: s =>
      if c.utf8Size ≤ offset + 1 then
        (cutAt (offset + 1 - c.utf8Size) s).map fun (before, after) => (c :: before, after)
      else .error .cut

def sliceFrom (start : Nat) (s : List Char) : Except OffsetFault (List Char) :=
  (cutAt start s).map Prod.snd

def sliceTo (stop : Nat) (s : List Char) : Except OffsetFault (List Char) :=
  (cutAt stop s).map Prod.fst

def slice (start stop : Nat) (s : List Char) : Except OffsetFault (List Char) :=
  (sliceTo stop s).bind (sliceFrom start)

def findChar? (p : Char → Bool) : List Char → Option Nat
  | [] => none
  | c :: s => if p c then some 0 else (findChar? p s).map (c.utf8Size + ·)

/-- The offset of the first place where another text stands in a text. -/
def findText? (part : List Char) : List Char → Option Nat
  | [] => none
  | c :: s => if startsWith part (c :: s) then some 0 else (findText? part s).map (c.utf8Size + ·)

/-- What is computed goes on. -/
theorem ok_bind {α β : Type} (a : α) (next : α → Except OffsetFault β)
    : (Except.ok a >>= next) = next a :=
  rfl

theorem minus_add_right (n m : Nat) : minus (n + m) m = .ok n := by
  rw [minus, if_pos (Nat.le_add_left m n), Nat.add_sub_cancel]

-----------------------------------------------------------------------------------------
-- Slices between characters
-----------------------------------------------------------------------------------------

/-- A text is cut in two where it was put together. -/
theorem cutAt_append (before after : List Char)
    : cutAt (size before) (before ++ after) = .ok (before, after) := by
  induction before with
  | nil => rw [size_nil, List.nil_append, cutAt]
  | cons c before ih =>
      obtain ⟨n, positive⟩ := Nat.exists_eq_succ_of_ne_zero (Nat.ne_of_gt c.utf8Size_pos)
      have offset : size (c :: before) = n + size before + 1 := by
        rw [size_cons, positive, Nat.succ_add]
      have rest : n + size before + 1 - c.utf8Size = size before := by
        omega
      rw [offset, List.cons_append, cutAt, if_pos (by omega), rest, ih]
      rfl

/-- A text is cut in two at the offset of a place. -/
theorem cutAt_offsetOf (s : List Char) (place : Nat)
    : cutAt (offsetOf s place) s = .ok (s.take place, s.drop place) := by
  have cut := cutAt_append (s.take place) (s.drop place)
  rwa [List.take_append_drop] at cut

theorem sliceFrom_offsetOf (s : List Char) (place : Nat)
    : sliceFrom (offsetOf s place) s = .ok (s.drop place) := by
  rw [sliceFrom, cutAt_offsetOf]
  rfl

theorem sliceTo_offsetOf (s : List Char) (place : Nat)
    : sliceTo (offsetOf s place) s = .ok (s.take place) := by
  rw [sliceTo, cutAt_offsetOf]
  rfl

theorem slice_offsetOf (s : List Char) {first last : Nat} (ordered : first ≤ last)
    : slice (offsetOf s first) (offsetOf s last) s = .ok ((s.take last).drop first) := by
  have offset : offsetOf s first = offsetOf (s.take last) first := by
    rw [offsetOf, offsetOf, List.take_take, Nat.min_eq_left ordered]
  rw [slice, sliceTo_offsetOf, offset]
  exact sliceFrom_offsetOf _ _

theorem sliceFrom_append (before after : List Char)
    : sliceFrom (size before) (before ++ after) = .ok after := by
  rw [← offsetOf_append_length before after, sliceFrom_offsetOf, List.drop_left]

theorem sliceTo_append (before after : List Char)
    : sliceTo (size before) (before ++ after) = .ok before := by
  rw [← offsetOf_append_length before after, sliceTo_offsetOf, List.take_left]

theorem slice_append (before inside after : List Char)
    : slice (size before) (size before + size inside) (before ++ (inside ++ after))
      = .ok inside := by
  rw [slice, ← size_append, ← List.append_assoc, sliceTo_append]
  exact sliceFrom_append before inside

/-- A text is cut in two after the characters that satisfy `p`. -/
theorem cutAt_takeWhile (p : Char → Bool) (s : List Char)
    : cutAt (size (s.takeWhile p)) s = .ok (s.takeWhile p, s.dropWhile p) := by
  have cut := cutAt_append (s.takeWhile p) (s.dropWhile p)
  rwa [List.takeWhile_append_dropWhile] at cut

-----------------------------------------------------------------------------------------
-- Offsets that are found
-----------------------------------------------------------------------------------------

/-- A character is found after those that do not satisfy `p`, unless these are all. -/
theorem findChar?_eq (p : Char → Bool) (s : List Char)
    : findChar? p s
      = if (s.takeWhile (!p ·)).length < s.length then some (size (s.takeWhile (!p ·)))
        else none := by
  induction s with
  | nil => rfl
  | cons c s ih =>
      cases here : p c with
      | true => simp [findChar?, here]
      | false =>
          simp only [findChar?, here, ih, Bool.false_eq_true, if_false, List.takeWhile_cons,
            Bool.not_false, if_true, List.length_cons, Nat.succ_lt_succ_iff, size_cons]
          split <;> rfl

theorem findChar?_getD (p : Char → Bool) (s : List Char)
    : (findChar? p s).getD (size s) = size (s.takeWhile (!p ·)) := by
  rw [findChar?_eq]
  split
  · rfl
  · next all =>
      have whole := (List.takeWhile_prefix (!p ·) (l := s)).eq_of_length_le (Nat.le_of_not_lt all)
      rw [Option.getD_none, whole]

/-- A character is found at the first place where it stands. -/
theorem findChar?_eq_some {p : Char → Bool} {s : List Char} {offset : Nat}
    (found : findChar? p s = some offset)
    : ∃ before c after,
        s = before ++ c :: after
        ∧ size before = offset
        ∧ p c = true
        ∧ ∀ x ∈ before, p x = false := by
  induction s generalizing offset with
  | nil => cases found
  | cons c s ih =>
      unfold findChar? at found
      split at found
      · next here =>
          obtain rfl := Option.some.inj found
          exact ⟨[], c, s, rfl, rfl, here, List.forall_mem_nil _⟩
      · next notHere =>
          obtain ⟨later, foundLater, rfl⟩ := Option.map_eq_some_iff.mp found
          obtain ⟨before, d, after, rfl, rfl, isHere, none⟩ := ih foundLater
          refine ⟨c :: before, d, after, rfl, size_cons c before, isHere, ?_⟩
          exact List.forall_mem_cons.mpr ⟨Bool.eq_false_iff.mpr notHere, none⟩

theorem findChar?_eq_none {p : Char → Bool} {s : List Char} (none : findChar? p s = none)
    : ∀ x ∈ s, p x = false := by
  induction s with
  | nil => exact List.forall_mem_nil _
  | cons c s ih =>
      unfold findChar? at none
      split at none
      · cases none
      · next notHere =>
          refine List.forall_mem_cons.mpr ⟨Bool.eq_false_iff.mpr notHere, ih ?_⟩
          exact Option.map_eq_none_iff.mp none

end Folio.Text
