import Folio.Cache.Compiler
import Folio.Proofs.Chain
import Folio.Proofs.Document.ErrorLines
import Folio.Settings.Project
import Mathlib.Data.List.Induction

/-! Which names can be declared. Settings and documents refuse the same lists: those with a name
that is reserved, that is no identifier, or that was declared before. Both blame the first such name
and give the same reason, so that no document fails for the names of settings that were loaded.
-/

namespace Folio.Document

-----------------------------------------------------------------------------------------
-- Names and their faults
-----------------------------------------------------------------------------------------

/-- Holds for ASCII letters and underscores. -/
def IsLetter (c : Char) : Prop :=
  'A' ≤ c ∧ c ≤ 'Z' ∨ 'a' ≤ c ∧ c ≤ 'z' ∨ c = '_'

/-- Holds for names in the grammar `[A-Za-z_][A-Za-z0-9_]*`. -/
def IsWord (name : String) : Prop :=
  ∃ first rest,
    name.toList = first :: rest
    ∧ IsLetter first
    ∧ ∀ c ∈ rest, IsLetter c ∨ '0' ≤ c ∧ c ≤ '9'

/-- What is wrong with a name that comes after others. -/
inductive Faulty (before : List String) (name : String) : NameFault → Prop where
  | reserved (isGroup : name = "#group") : Faulty before name (.reserved name)
  | notIdentifier (other : name ≠ "#group") (noWord : ¬IsWord name)
      : Faulty before name (.notIdentifier name)
  | repeated (isWord : IsWord name) (again : name ∈ before) : Faulty before name (.repeated name)

structure Declarable (names : List String) : Prop where
  words : ∀ name ∈ names, IsWord name
  distinct : names.Nodup

/-- A fault is that of the first name of a list with which something is wrong. -/
def Blamed (names : List String) (fault : NameFault) : Prop :=
  ∃ before name after,
    names = before ++ name :: after ∧ Declarable before ∧ Faulty before name fault

-----------------------------------------------------------------------------------------
-- One name
-----------------------------------------------------------------------------------------

theorem isNameStart_iff {c : Char} : isNameStart c = true ↔ IsLetter c := by
  unfold isNameStart IsLetter
  delta Char.isAlpha Char.isUpper Char.isLower
  simp only [Bool.or_eq_true, Bool.and_eq_true, decide_eq_true_eq, beq_iff_eq, Char.le_def,
    or_assoc]

theorem isNameChar_iff {c : Char} : isNameChar c = true ↔ IsLetter c ∨ '0' ≤ c ∧ c ≤ '9' := by
  rw [← isNameStart_iff]
  simp only [isNameChar, isNameStart, Char.isAlphanum, Char.isDigit, Bool.or_eq_true,
    Bool.and_eq_true, decide_eq_true_eq, Char.le_def]
  exact or_right_comm

theorem isComponentName_iff {name : String} : isComponentName name = true ↔ IsWord name := by
  unfold isComponentName IsWord
  cases name.toList with
  | nil => simp
  | cons first rest => simp [isNameStart_iff, isNameChar_iff]

theorem not_isWord_group : ¬IsWord "#group" :=
  fun isWord => absurd (isComponentName_iff.mpr isWord) (by decide)

/-- A name with a fault is where the search stops. -/
theorem firstNameFault?_of_faulty {before : List String} {name : String} {fault : NameFault}
    (faulty : Faulty before name fault) {earlier : List String}
    (same : ∀ other, other ∈ earlier ↔ other ∈ before) (rest : List String)
    : firstNameFault? earlier (name :: rest) = some fault := by
  unfold firstNameFault?
  cases faulty with
  | reserved isGroup => simp [isGroup, groupName]
  | notIdentifier other noWord => simp [other, groupName, isComponentName_iff, noWord]
  | repeated isWord again =>
      have other : name ≠ "#group" := fun isGroup => not_isWord_group (isGroup ▸ isWord)
      simp [other, groupName, isComponentName_iff, isWord, same, again]

/-- Nothing is wrong with a name that is an identifier and new. -/
theorem firstNameFault?_cons {earlier : List String} {name : String} (isWord : IsWord name)
    (isNew : name ∉ earlier) (rest : List String)
    : firstNameFault? earlier (name :: rest) = firstNameFault? (name :: earlier) rest := by
  have other : name ≠ "#group" := fun isGroup => not_isWord_group (isGroup ▸ isWord)
  simp [firstNameFault?, other, groupName, isComponentName_iff.mpr isWord, isNew]

theorem exists_faulty (before : List String) (name : String)
    : (∃ fault, Faulty before name fault) ∨ IsWord name ∧ name ∉ before := by
  by_cases isGroup : name = "#group"
  · exact .inl ⟨_, .reserved isGroup⟩
  · by_cases isWord : IsWord name
    · by_cases again : name ∈ before
      · exact .inl ⟨_, .repeated isWord again⟩
      · exact .inr ⟨isWord, again⟩
    · exact .inl ⟨_, .notIdentifier isGroup isWord⟩

-----------------------------------------------------------------------------------------
-- Lists of names
-----------------------------------------------------------------------------------------

theorem declarable_concat {names : List String} {name : String}
    : Declarable (names ++ [name]) ↔ Declarable names ∧ IsWord name ∧ name ∉ names := by
  constructor
  · rintro ⟨words, distinct⟩
    obtain ⟨before, isWord⟩ := List.forall_mem_append.mp words
    obtain ⟨distinct, -, apart⟩ := List.nodup_append.mp distinct
    exact ⟨⟨before, distinct⟩, isWord name List.mem_cons_self,
      fun again => apart name again name List.mem_cons_self rfl⟩
  · rintro ⟨⟨before, distinct⟩, isWord, isNew⟩
    refine ⟨List.forall_mem_append.mpr ⟨before, List.forall_mem_singleton.mpr isWord⟩, ?_⟩
    refine List.nodup_append.mpr ⟨distinct, List.pairwise_singleton _ name, ?_⟩
    intro other member last isLast same
    exact isNew (List.mem_singleton.mp isLast ▸ same ▸ member)

/-- The search goes through names with which nothing is wrong, by induction on them from the end. -/
theorem nameFault?_append {names : List String} (declarable : Declarable names)
    (rest : List String)
    : nameFault? (names ++ rest) = firstNameFault? names.reverse rest := by
  induction names using List.reverseRecOn generalizing rest with
  | nil => rfl
  | append_singleton names name ih =>
      obtain ⟨before, isWord, isNew⟩ := declarable_concat.mp declarable
      rw [List.append_assoc, ih before, List.singleton_append,
        firstNameFault?_cons isWord (fun again => isNew (List.mem_reverse.mp again)),
        List.reverse_append]
      rfl

/-- Something is wrong with one of the names, or with none. By induction on the names from the end:
a name that was blamed stays so if more names follow.
-/
theorem declarable_or_blamed (names : List String)
    : Declarable names ∨ ∃ fault, Blamed names fault := by
  induction names using List.reverseRecOn with
  | nil => exact .inl ⟨List.forall_mem_nil _, List.nodup_nil⟩
  | append_singleton names name ih =>
      rcases ih with declarable | ⟨fault, before, blamed, after, rfl, earlier, faulty⟩
      · rcases exists_faulty names name with ⟨fault, faulty⟩ | ⟨isWord, isNew⟩
        · exact .inr ⟨fault, names, name, [], rfl, declarable, faulty⟩
        · exact .inl (declarable_concat.mpr ⟨declarable, isWord, isNew⟩)
      · exact .inr ⟨fault, before, blamed, after ++ [name], by simp, earlier, faulty⟩

theorem nameFault?_of_declarable {names : List String} (declarable : Declarable names)
    : nameFault? names = none := by
  have searched := nameFault?_append declarable []
  rw [List.append_nil] at searched
  exact searched

theorem nameFault?_of_blamed {names : List String} {fault : NameFault} (blamed : Blamed names fault)
    : nameFault? names = some fault := by
  obtain ⟨before, name, after, rfl, declarable, faulty⟩ := blamed
  rw [nameFault?_append declarable]
  exact firstNameFault?_of_faulty faulty (fun _ => List.mem_reverse) after

theorem nameFault?_eq_none_iff {names : List String}
    : nameFault? names = none ↔ Declarable names := by
  refine ⟨fun noFault => ?_, nameFault?_of_declarable⟩
  refine (declarable_or_blamed names).resolve_right ?_
  rintro ⟨fault, blamed⟩
  cases noFault.symm.trans (nameFault?_of_blamed blamed)

theorem nameFault?_eq_some_iff {names : List String} {fault : NameFault}
    : nameFault? names = some fault ↔ Blamed names fault := by
  refine ⟨fun found => ?_, nameFault?_of_blamed⟩
  rcases declarable_or_blamed names with declarable | ⟨other, blamed⟩
  · cases found.symm.trans (nameFault?_of_declarable declarable)
  · obtain rfl := Option.some.inj (found.symm.trans (nameFault?_of_blamed blamed))
    exact blamed

end Folio.Document

namespace Folio.Settings.Project

open Document (Blamed Declarable NameFault nameFault?_eq_none_iff nameFault?_eq_some_iff)
open Files (Disk)

-----------------------------------------------------------------------------------------
-- Settings
-----------------------------------------------------------------------------------------

theorem validate_eq_ok_iff {p : Project} : p.validate = .ok () ↔ Declarable p.names := by
  rw [← nameFault?_eq_none_iff, validate]
  cases Document.nameFault? p.names <;> simp

theorem validate_eq_error_iff {p : Project} {error : Error}
    : p.validate = .error error ↔ ∃ fault, error = .names fault ∧ Blamed p.names fault := by
  simp only [← nameFault?_eq_some_iff, validate]
  cases Document.nameFault? p.names <;> simp [eq_comm]

/-- Settings that were read from a file have passed the check of their names. -/
theorem declarable_of_read {d : Disk} {environment : Variables} {path : String} {p : Project}
    (done : read d environment path = .ok p)
    : Declarable p.names := by
  unfold read at done
  obtain ⟨text, -, done⟩ := bind_eq_ok.mp done
  obtain ⟨written, -, done⟩ := bind_eq_ok.mp done
  obtain ⟨expanded, -, done⟩ := bind_eq_ok.mp done
  obtain ⟨_, valid, done⟩ := bind_eq_ok.mp done
  obtain rfl := Except.ok.inj done
  exact validate_eq_ok_iff.mp valid

/-- Whatever settings are loaded, their names can be declared. -/
theorem declarable_of_load {d : Disk} {environment : Variables} {path : Option String}
    {overrides : Overrides} {p : Project} (done : load d environment path overrides = .ok p)
    : Declarable p.names := by
  have overridden {chosen : Except Error Project}
      (done : (chosen >>= fun p => pure (p.override overrides)) = .ok p)
      (declarable : ∀ found, chosen = .ok found → Declarable found.names)
      : Declarable p.names := by
    obtain ⟨found, chosen, done⟩ := bind_eq_ok.mp done
    obtain rfl := Except.ok.inj done
    exact declarable found chosen
  unfold load at done
  dsimp only at done
  split at done
  · split at done
    · exact overridden done fun _ => declarable_of_read
    · cases done
  · split at done
    · exact overridden done fun _ => declarable_of_read
    · obtain rfl := Except.ok.inj done
      exact ⟨List.forall_mem_nil _, List.nodup_nil⟩

/-- Settings and documents check names alike. Both accept exactly the lists of different
identifiers, and otherwise both blame the first name that is reserved, no identifier or a
repetition, for the same reason. No document fails for the names of settings that were loaded, with
a cache or without.
-/
theorem validate_like_compile (p : Project)
    : (p.validate = .ok () ↔ Declarable p.names)
      ∧ (Document.nameFault? p.names = none ↔ Declarable p.names)
      ∧ (∀ error, p.validate = .error error ↔
          ∃ fault, error = .names fault ∧ Blamed p.names fault)
      ∧ (∀ transforms body fault,
          Document.compile transforms body p.names = .error (.invalidNames fault)
          ↔ Blamed p.names fault)
      ∧ ∀ d environment path overrides, load d environment path overrides = .ok p →
          ∀ (compiler : Cache.Compiler) disk body fault,
            Document.compile compiler.transforms body p.names ≠ .error (.invalidNames fault)
            ∧ (compiler.compile disk body p.names).1 ≠ .error (.invalidNames fault) := by
  refine ⟨validate_eq_ok_iff, nameFault?_eq_none_iff, fun error => validate_eq_error_iff,
    fun transforms body fault => ?_, fun d environment path overrides done => ?_⟩
  · rw [Document.compile_eq_invalidNames_iff, nameFault?_eq_some_iff]
  · intro compiler disk body fault
    have noFault := nameFault?_eq_none_iff.mpr (declarable_of_load done)
    have compiles
        : Document.compile compiler.transforms body p.names ≠ .error (.invalidNames fault) := by
      intro failed
      cases noFault.symm.trans (Document.compile_eq_invalidNames_iff.mp failed)
    refine ⟨compiles, ?_⟩
    unfold Cache.Compiler.compile
    dsimp only
    split
    · exact fun failed => by cases failed
    · split
      · next error failed =>
          intro same
          exact compiles (failed.trans (congrArg Except.error (Except.error.inj same)))
      · exact fun failed => by cases failed

def declaringDisk : Disk where
  root := .directory
    [("weave.toml", .file (Text.utf8 "[components]\nnames = [\"Note\", \"my_note\"]\n"))]

/-- Settings that are loaded from a file can be compiled with. -/
theorem validate_declaringDisk
    : ∃ p, load declaringDisk [] none {} = .ok p
        ∧ p.names = ["Note", "my_note"]
        ∧ p.validate = .ok ()
        ∧ ∀ (compiler : Cache.Compiler) body fault,
            Document.compile compiler.transforms body p.names ≠ .error (.invalidNames fault) := by
  have names : (load declaringDisk [] none {}).map (·.names) = .ok ["Note", "my_note"] := by
    decide +kernel
  cases loaded : load declaringDisk [] none {} with
  | error error =>
      rw [loaded] at names
      cases names
  | ok p =>
      rw [loaded] at names
      have declared : p.names = ["Note", "my_note"] := Except.ok.inj names
      have words : Declarable p.names := by
        rw [declared, ← nameFault?_eq_none_iff]
        decide +kernel
      obtain ⟨validates, -, -, -, loads⟩ := validate_like_compile p
      refine ⟨p, rfl, declared, validates.mpr words, fun compiler body fault => ?_⟩
      exact (loads declaringDisk [] none {} loaded compiler declaringDisk body fault).1

end Folio.Settings.Project
