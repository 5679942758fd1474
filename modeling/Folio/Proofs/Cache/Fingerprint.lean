import Folio.Cache.Bucket
import Folio.Cache.Compiler
import Folio.Proofs.Files.Path
import Mathlib.Algebra.Group.Nat.Defs

/-! What a fingerprint tells apart. The bytes that are digested tell apart whatever a document
depends on, and the key of a cache tells apart the digests.
-/

namespace Folio.Text

/-- Bytes write a text only if they are those of the text. -/
theorem ofUtf8?_eq_some {bytes : List UInt8} {text : String}
    : ofUtf8? bytes = some text ↔ bytes = utf8 text := by
  constructor
  · intro written
    unfold ofUtf8? String.fromUTF8? at written
    split at written
    · obtain rfl := Option.some.inj written
      rfl
    · cases written
  · rintro rfl
    exact ofUtf8?_utf8 text

/-- Texts with the same bytes are the same. -/
theorem utf8_injective {s t : String} (h : utf8 s = utf8 t) : s = t := by
  have same := congrArg ofUtf8? h
  rw [ofUtf8?_utf8, ofUtf8?_utf8] at same
  exact Option.some.inj same

end Folio.Text

namespace Folio.Cache

-----------------------------------------------------------------------------------------
-- Numbers as bytes
-----------------------------------------------------------------------------------------

@[simp]
theorem length_littleEndian (count n : Nat) : (littleEndian count n).length = count := by
  induction count generalizing n with
  | zero => rfl
  | succ count ih => rw [littleEndian, List.length_cons, ih]

/-- A number that fits is read from its bytes, by induction on their count. -/
theorem ofLittleEndian_littleEndian {count n : Nat} (fits : n < 256 ^ count)
    : ofLittleEndian (littleEndian count n) = n := by
  induction count generalizing n with
  | zero =>
      have zero : n = 0 := by omega
      rw [zero]
      rfl
  | succ count ih =>
      have rest : n / 256 < 256 ^ count := by
        rw [Nat.pow_succ] at fits
        exact Nat.div_lt_of_lt_mul (by omega)
      rw [littleEndian, ofLittleEndian, ih rest, UInt8.toNat_ofNat']
      omega

/-- Bytes are those of the number that they write, which fits. By induction on the bytes. -/
theorem littleEndian_ofLittleEndian (bytes : List UInt8)
    : ofLittleEndian bytes < 256 ^ bytes.length
      ∧ littleEndian bytes.length (ofLittleEndian bytes) = bytes := by
  induction bytes with
  | nil => exact ⟨Nat.one_pos, rfl⟩
  | cons byte rest ih =>
      obtain ⟨fits, same⟩ := ih
      have bound := byte.toNat_lt
      have later : (byte.toNat + 256 * ofLittleEndian rest) / 256 = ofLittleEndian rest := by
        omega
      rw [List.length_cons, ofLittleEndian, littleEndian, later, same, Nat.pow_succ]
      refine ⟨by omega, congrArg (· :: rest) ?_⟩
      apply UInt8.toNat_inj.mp
      rw [UInt8.toNat_ofNat']
      omega

/-- Numbers that fit and have the same bytes are the same. -/
theorem littleEndian_injective {count m n : Nat} (hm : m < 256 ^ count) (hn : n < 256 ^ count)
    (h : littleEndian count m = littleEndian count n)
    : m = n := by
  have same := congrArg ofLittleEndian h
  rwa [ofLittleEndian_littleEndian hm, ofLittleEndian_littleEndian hn] at same

-----------------------------------------------------------------------------------------
-- What a document depends on
-----------------------------------------------------------------------------------------

/-- What a compiled document depends on. -/
structure Input where
  body : String
  names : List String
  lockfile : String
deriving DecidableEq, Inhabited

/-- Holds for texts whose size is a number of 64 bits. -/
def Sized (text : String) : Prop :=
  (Text.utf8 text).length < 2 ^ 64

instance (text : String) : Decidable (Sized text) :=
  inferInstanceAs (Decidable ((Text.utf8 text).length < 2 ^ 64))

namespace Input

/-- The bytes of which a fingerprint is made. -/
def bytes (i : Input) : List UInt8 :=
  Fingerprint.bytes i.body i.names i.lockfile Unit.formatVersion

def fingerprint (i : Input) : Fingerprint :=
  .compute i.body i.names i.lockfile Unit.formatVersion

/-- Holds if all sizes are numbers of 64 bits, as those of all texts and lists in memory are. -/
structure Fits (i : Input) : Prop where
  body : Sized i.body
  count : i.names.length < 2 ^ 64
  names : ∀ name ∈ i.names, Sized name
  lockfile : Sized i.lockfile

end Input

/-- A text with its size in front ends where the size says. -/
theorem part_append_injective {s t : String} {before after : List UInt8} (hs : Sized s)
    (ht : Sized t) (h : Fingerprint.part s ++ before = Fingerprint.part t ++ after)
    : s = t ∧ before = after := by
  simp only [Fingerprint.part, List.append_assoc] at h
  obtain ⟨sizes, rest⟩ := List.append_inj h (by rw [length_littleEndian, length_littleEndian])
  obtain ⟨texts, rest⟩ := List.append_inj rest (littleEndian_injective hs ht sizes)
  exact ⟨Text.utf8_injective texts, rest⟩

/-- As many texts with their sizes in front are told apart, by induction on the texts. -/
theorem parts_append_injective {names others : List String} {before after : List UInt8}
    (hn : ∀ name ∈ names, Sized name) (ho : ∀ name ∈ others, Sized name)
    (count : names.length = others.length)
    (h : names.flatMap Fingerprint.part ++ before = others.flatMap Fingerprint.part ++ after)
    : names = others ∧ before = after := by
  induction names generalizing others with
  | nil =>
      obtain rfl := List.length_eq_zero_iff.mp count.symm
      exact ⟨rfl, h⟩
  | cons name rest ih =>
      cases others with
      | nil => exact nomatch count
      | cons other later =>
          simp only [List.flatMap_cons, List.append_assoc] at h
          obtain ⟨same, h⟩ := part_append_injective (hn name List.mem_cons_self)
            (ho other List.mem_cons_self) h
          obtain ⟨others, h⟩ := ih (fun n member => hn n (List.mem_cons_of_mem _ member))
            (fun n member => ho n (List.mem_cons_of_mem _ member)) (Nat.succ.inj count) h
          exact ⟨by rw [same, others], h⟩

/-- The bytes of what a document depends on tell all of it, and where they end, whatever bytes come
after them: no stream of such bytes is the beginning of another one.
-/
theorem bytes_append_injective {i j : Input} {v w : UInt32} {before after : List UInt8}
    (hi : i.Fits) (hj : j.Fits)
    (h : Fingerprint.bytes i.body i.names i.lockfile v ++ before
      = Fingerprint.bytes j.body j.names j.lockfile w ++ after)
    : i.body = j.body
      ∧ i.names = j.names
      ∧ i.lockfile = j.lockfile
      ∧ v = w
      ∧ before = after := by
  simp only [Fingerprint.bytes, List.append_assoc] at h
  obtain ⟨bodies, h⟩ := part_append_injective hi.body hj.body h
  obtain ⟨counts, h⟩ := List.append_inj h (by rw [length_littleEndian, length_littleEndian])
  have count : i.names.length = j.names.length := littleEndian_injective hi.count hj.count counts
  obtain ⟨names, h⟩ := parts_append_injective hi.names hj.names count h
  obtain ⟨lockfiles, h⟩ := part_append_injective hi.lockfile hj.lockfile h
  obtain ⟨versions, rest⟩ := List.append_inj h (by rw [length_littleEndian, length_littleEndian])
  have version : v.toNat = w.toNat := littleEndian_injective v.toNat_lt w.toNat_lt versions
  exact ⟨bodies, names, lockfiles, UInt32.toNat_inj.mp version, rest⟩

/-- What different documents depend on is written as different bytes. -/
theorem Input.bytes_injective {i j : Input} (hi : i.Fits) (hj : j.Fits) (h : i.bytes = j.bytes)
    : i = j := by
  obtain ⟨bodies, names, lockfiles, -⟩ :=
    bytes_append_injective hi hj (congrArg (· ++ []) h)
  cases i
  cases j
  simp_all

/-- Fingerprints are made of different bytes unless all is the same: the body, the names and their
order, the lockfile, and the version of the form of units.
-/
theorem bytes_eq_iff {i j : Input} {v w : UInt32} (hi : i.Fits) (hj : j.Fits)
    : Fingerprint.bytes i.body i.names i.lockfile v
        = Fingerprint.bytes j.body j.names j.lockfile w
      ↔ i.body = j.body ∧ i.names = j.names ∧ i.lockfile = j.lockfile ∧ v = w := by
  constructor
  · intro same
    obtain ⟨bodies, names, lockfiles, version, -⟩ :=
      bytes_append_injective hi hj (congrArg (· ++ []) same)
    exact ⟨bodies, names, lockfiles, version⟩
  · rintro ⟨bodies, names, lockfiles, version⟩
    rw [bodies, names, lockfiles, version]

/-- A body before a name, of which the next one has the last letter. -/
def letterInBody : Input :=
  { body := "ab", names := ["c"], lockfile := "" }

def letterInName : Input :=
  { body := "a", names := ["bc"], lockfile := "" }

/-- A letter that moves from the body into the name behind it does not go unnoticed, though the
letters are the same one after the other.
-/
theorem bytes_movedLetter
    : letterInBody.Fits
      ∧ letterInName.Fits
      ∧ letterInBody.body ++ String.join letterInBody.names
        = letterInName.body ++ String.join letterInName.names
      ∧ Fingerprint.bytes letterInBody.body letterInBody.names letterInBody.lockfile 1
        ≠ Fingerprint.bytes letterInName.body letterInName.names letterInName.lockfile 1 := by
  have fitsBody : letterInBody.Fits := ⟨by decide, by decide, by decide, by decide⟩
  have fitsName : letterInName.Fits := ⟨by decide, by decide, by decide, by decide⟩
  refine ⟨fitsBody, fitsName, by decide, ?_⟩
  intro same
  have bodies := ((bytes_eq_iff fitsBody fitsName).mp same).1
  exact absurd bodies (by decide)

-----------------------------------------------------------------------------------------
-- Digests as texts
-----------------------------------------------------------------------------------------

/-- The two digits of a byte. -/
theorem hexDigits_injective {a b : UInt8}
    (high : Json.hexDigit (a.toNat / 16) = Json.hexDigit (b.toNat / 16))
    (low : Json.hexDigit (a.toNat % 16) = Json.hexDigit (b.toNat % 16))
    : a = b := by
  have digits : ∀ m n : Fin 16, Json.hexDigit m = Json.hexDigit n → m = n := by decide
  have ha := a.toNat_lt
  have hb := b.toNat_lt
  have high := digits ⟨a.toNat / 16, by omega⟩ ⟨b.toNat / 16, by omega⟩ high
  have low := digits ⟨a.toNat % 16, by omega⟩ ⟨b.toNat % 16, by omega⟩ low
  simp only [Fin.mk.injEq] at high low
  apply UInt8.toNat_inj.mp
  omega

/-- Bytes that are written with the same digits are the same, by induction on the bytes. -/
theorem hex_injective {a b : List UInt8} (h : hex a = hex b) : a = b := by
  replace h := String.ofList_injective h
  induction a generalizing b with
  | nil =>
      cases b with
      | nil => rfl
      | cons byte rest => exact nomatch h
  | cons byte rest ih =>
      cases b with
      | nil => exact nomatch h
      | cons other later =>
          simp only [List.flatMap_cons, List.cons_append, List.nil_append, List.cons.injEq] at h
          rw [hexDigits_injective h.1 h.2.1, ih h.2.2]

/-- The digits of bytes are names of files: neither slashes nor dots are among them. -/
theorem mem_hex {bytes : List UInt8} {c : Char} (h : c ∈ (hex bytes).toList)
    : c ≠ '/' ∧ c ≠ '.' := by
  have digits : ∀ n : Fin 16, Json.hexDigit n ≠ '/' ∧ Json.hexDigit n ≠ '.' := by decide
  rw [hex, String.toList_ofList] at h
  obtain ⟨byte, -, member⟩ := List.mem_flatMap.mp h
  have bound := byte.toNat_lt
  rcases List.mem_cons.mp member with rfl | member
  · exact digits ⟨byte.toNat / 16, by omega⟩
  · obtain rfl := List.mem_singleton.mp member
    exact digits ⟨byte.toNat % 16, by omega⟩

@[simp]
theorem length_hex (bytes : List UInt8) : (hex bytes).toList.length = 2 * bytes.length := by
  rw [hex, String.toList_ofList]
  induction bytes with
  | nil => rfl
  | cons byte rest ih =>
      rw [List.flatMap_cons, List.length_append, ih, List.length_cons]
      simp only [List.length_cons, List.length_nil]
      omega

@[simp]
theorem length_bigEndian (count n : Nat) : (Digest.bigEndian count n).length = count := by
  induction count generalizing n with
  | zero => rfl
  | succ count ih => rw [Digest.bigEndian, List.length_append, ih, List.length_singleton]

@[simp]
theorem length_sha256 (bytes : List UInt8) : (Digest.sha256 bytes).length = 32 := by
  rw [Digest.sha256, List.length_flatMap]
  simp [Digest.State.words]

-----------------------------------------------------------------------------------------
-- Keys
-----------------------------------------------------------------------------------------

/-- The two names that the key of a fingerprint is made of. -/
def Fingerprint.names (f : Fingerprint) : List String :=
  [String.ofList (f.text.toList.take 2), String.ofList (f.text.toList.drop 2)]

/-- Different fingerprints have keys with different names. -/
theorem Fingerprint.names_injective {f g : Fingerprint} (h : f.names = g.names) : f = g := by
  simp only [names, List.cons.injEq, and_true] at h
  have front := String.ofList_injective h.1
  have back := String.ofList_injective h.2
  have whole : f.text.toList = g.text.toList := by
    rw [← List.take_append_drop 2 f.text.toList, front, back, List.take_append_drop]
  cases f
  cases g
  exact congrArg Fingerprint.mk (String.toList_injective whole)

/-- Both parts of the text of a fingerprint are names of files. -/
theorem Input.isName_key (i : Input)
    : Files.Path.IsName (i.fingerprint.text.toList.take 2)
      ∧ Files.Path.IsName (i.fingerprint.text.toList.drop 2) := by
  have plain : ∀ c ∈ i.fingerprint.text.toList, c ≠ '/' ∧ c ≠ '.' := fun c member => mem_hex member
  have size : i.fingerprint.text.toList.length = 64 := by
    simp [fingerprint, Fingerprint.compute]
  refine ⟨⟨?_, ?_, ?_⟩, ⟨?_, ?_, ?_⟩⟩
  · exact List.ne_nil_of_length_pos (by rw [List.length_take]; omega)
  · exact fun member => (plain _ (List.mem_of_mem_take member)).1 rfl
  · exact fun member => (plain _ (List.mem_of_mem_take member)).2 rfl
  · exact List.ne_nil_of_length_pos (by rw [List.length_drop]; omega)
  · exact fun member => (plain _ (List.mem_of_mem_drop member)).1 rfl
  · exact fun member => (plain _ (List.mem_of_mem_drop member)).2 rfl

/-- The key of a fingerprint leads only downwards, by its two names. -/
theorem Input.key_plain (i : Input)
    : Files.Path.isPlain i.fingerprint.key = true
      ∧ Files.Path.isAbsolute i.fingerprint.key = false
      ∧ Files.Path.steps i.fingerprint.key = i.fingerprint.names
      ∧ ".." ∉ i.fingerprint.names := by
  obtain ⟨front, back⟩ := i.isName_key
  refine ⟨Files.Path.isPlain_names front back, Files.Path.isAbsolute_names _ front,
    Files.Path.steps_names front back, ?_⟩
  simp [Fingerprint.names, Ne.symm front.ne_up, Ne.symm back.ne_up]

/-- Inputs without a collision of digests have different fingerprints. -/
theorem Input.sha256_of_fingerprint {i j : Input} (h : i.fingerprint = j.fingerprint)
    : Digest.sha256 i.bytes = Digest.sha256 j.bytes :=
  hex_injective (congrArg Fingerprint.text h)

/-- Inputs that fit, and of which no two have the same digest, are told apart by their fingerprints.
-/
theorem Input.eq_of_fingerprint {inputs : List Input} (fits : ∀ i ∈ inputs, i.Fits)
    (apart : ∀ i ∈ inputs, ∀ j ∈ inputs,
      Digest.sha256 i.bytes = Digest.sha256 j.bytes → i.bytes = j.bytes)
    : ∀ i ∈ inputs, ∀ j ∈ inputs, i.fingerprint = j.fingerprint → i = j := by
  intro i hi j hj same
  exact Input.bytes_injective (fits i hi) (fits j hj)
    (apart i hi j hj (Input.sha256_of_fingerprint same))

end Folio.Cache
