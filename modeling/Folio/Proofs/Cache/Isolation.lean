import Folio.Proofs.Cache.Bucket
import Folio.Proofs.Files.Below

/-! Buckets of a cache. What is stored in a bucket never shows in another one, as long as the names
of both lead downwards and neither of them leads into the other. Names are not checked as keys are:
a bucket may lie inside of another one, and the bucket without a name holds the file of the version.
-/

namespace Folio.Cache

open Files (Bytes Disk Path.join Path.isAbsolute Path.steps)
open Files.Disk (Grows)

variable {d : Disk} {root bucket other key path : String}

/-- Holds for the names of buckets that lead downwards from the directory of the cache. -/
structure IsInner (bucket : String) : Prop where
  relative : Path.isAbsolute bucket = false
  downwards : ".." ∉ Path.steps bucket

instance (bucket : String) : Decidable (IsInner bucket) :=
  decidable_of_iff (Path.isAbsolute bucket = false ∧ ".." ∉ Path.steps bucket)
    ⟨fun h => ⟨h.1, h.2⟩, fun h => ⟨h.relative, h.downwards⟩⟩

/-- Holds for buckets of which neither leads into the other. -/
structure IsApart (bucket other : String) : Prop where
  notInOther : ¬Path.steps other <+: Path.steps bucket
  notAroundOther : ¬Path.steps bucket <+: Path.steps other

instance (bucket other : String) : Decidable (IsApart bucket other) :=
  decidable_of_iff
    (¬Path.steps other <+: Path.steps bucket ∧ ¬Path.steps bucket <+: Path.steps other)
    ⟨fun h => ⟨h.1, h.2⟩, fun h => ⟨h.notInOther, h.notAroundOther⟩⟩

/-- The steps to the file of an entry are those to the directory of the cache, and then those of the
bucket and of the key.
-/
theorem steps_entryPath (d : Disk) (inner : IsInner bucket)
    (found : entryPath? root bucket key = some path)
    : Path.steps (Path.join d.workingDirectory path)
        = Path.steps (Path.join d.workingDirectory root) ++ (Path.steps bucket ++ Path.steps key)
      ∧ Path.steps key ≠ []
      ∧ ".." ∉ Path.steps bucket ++ Path.steps key := by
  unfold entryPath? at found
  split at found
  · next plain =>
      obtain ⟨relative, leads, downwards⟩ := Files.Path.steps_of_isPlain plain
      obtain rfl := Option.some.inj found
      refine ⟨?_, leads, ?_⟩
      · rw [Files.Path.steps_join_join _ _ relative, Files.Path.steps_join_join _ _ inner.relative,
          List.append_assoc]
      · rw [List.mem_append]
        exact not_or.mpr ⟨inner.downwards, downwards⟩
  · cases found

/-- The place of a bucket is that of the directory of the cache, and the steps of the bucket from
there.
-/
theorem target_bucket (d : Disk) (root : String) (inner : IsInner bucket)
    : d.target (Path.join root bucket) = d.target root ++ Path.steps bucket :=
  d.target_join root inner.relative inner.downwards

/-- The place of an entry is that of the directory of the cache, and the steps of the bucket and of
the key from there.
-/
theorem target_entryPath (d : Disk) (inner : IsInner bucket)
    (found : entryPath? root bucket key = some path)
    : d.target path = d.target root ++ (Path.steps bucket ++ Path.steps key) := by
  rw [(target_of_entryPath? d found).1, target_bucket d root inner, List.append_assoc]

/-- Storing a value changes no file but such as are below the directory of the bucket. -/
theorem grows_of_set (d : Disk) (root : String) (inner : IsInner bucket) (key tag : String)
    (value : Bytes)
    : ∃ places,
        (∀ place ∈ places, ∃ below, below ≠ []
          ∧ place = d.target root ++ (Path.steps bucket ++ below))
        ∧ Grows places d ((Cache.directory root).set d bucket key tag value) := by
  unfold set
  dsimp only
  cases found : entryPath? root bucket key with
  | none => exact ⟨[], by simp, Grows.refl d⟩
  | some path =>
      obtain ⟨-, leads, -⟩ := steps_entryPath d inner found
      obtain ⟨place, temporary⟩ := target_of_entryPath? d found
      rw [target_bucket d root inner, List.append_assoc] at place temporary
      rcases writeEntry_cases d path (encoded? tag value) with
        ⟨-, loses⟩ | ⟨entry, -, -, swaps, -⟩
      · refine ⟨_, ?_, loses.toGrows⟩
        rw [List.forall_mem_singleton]
        exact ⟨_, by simp, temporary⟩
      · refine ⟨_, ?_, swaps.toGrows⟩
        rw [List.forall_mem_cons, List.forall_mem_singleton]
        exact ⟨⟨_, by simp, temporary⟩, _, leads, place⟩

/-- An entry changes only if a value is stored in a bucket that leads to it. -/
theorem get?_set_of_not_prefix (settled : d.Settled root) (inner : IsInner bucket)
    (innerOther : IsInner other) {otherKey : String}
    (apart : ¬Path.steps bucket <+: Path.steps other ++ Path.steps otherKey)
    (tag otherTag : String) (value : Bytes)
    : (Cache.directory root).get? ((Cache.directory root).set d bucket key tag value) other
          otherKey otherTag
      = (Cache.directory root).get? d other otherKey otherTag := by
  obtain ⟨places, below, grows⟩ := grows_of_set d root inner key tag value
  unfold get?
  dsimp only
  cases found : entryPath? root other otherKey with
  | none => rfl
  | some path =>
      obtain ⟨steps, -, downwards⟩ := steps_entryPath d innerOther found
      have elsewhere : d.target path ∉ places := by
        intro member
        obtain ⟨more, -, same⟩ := below _ member
        rw [target_entryPath d innerOther found] at same
        exact apart (List.append_cancel_left same ▸ List.prefix_append _ _)
      have same : (((Cache.directory root).set d bucket key tag value).read path).toOption
          = (d.read path).toOption := by
        apply Option.ext
        intro bytes
        rw [toOption_eq_some, toOption_eq_some]
        exact grows.read_iff settled steps downwards elsewhere
      simp only [Option.bind_eq_bind, Option.bind_some, same]

/-- Storing a value in a bucket with a name leaves the file of the version as it is. -/
theorem read_versionFile_of_set (settled : d.Settled root) (inner : IsInner bucket)
    (named : Path.steps bucket ≠ []) (tag : String) (value : Bytes) {bytes : Bytes}
    : ((Cache.directory root).set d bucket key tag value).read (versionFile root) = .ok bytes
      ↔ d.read (versionFile root) = .ok bytes := by
  obtain ⟨places, below, grows⟩ := grows_of_set d root inner key tag value
  have version : Path.steps "VERSION" = ["VERSION"] := by decide
  have steps : Path.steps (Path.join d.workingDirectory (versionFile root))
      = Path.steps (Path.join d.workingDirectory root) ++ ["VERSION"] := by
    rw [versionFile, Files.Path.steps_join_join _ _ (by decide), version]
  refine grows.read_iff settled steps (by decide) ?_
  rw [target_versionFile]
  intro member
  obtain ⟨more, leads, same⟩ := below _ member
  rcases List.append_eq_singleton_iff.mp (List.append_cancel_left same).symm with
    ⟨unnamed, -⟩ | ⟨-, idle⟩
  · exact named unnamed
  · exact leads idle

/-- Buckets are isolated if their names lead downwards and neither of them leads into the other:
whatever is stored in one of them, the entries of the other and the file of the version stay as they
are.
-/
theorem get?_set_apart (settled : d.Settled root) (inner : IsInner bucket)
    (innerOther : IsInner other) (apart : IsApart bucket other) (key tag : String) (value : Bytes)
    : (∀ otherKey otherTag,
        (Cache.directory root).get? ((Cache.directory root).set d bucket key tag value) other
            otherKey otherTag
          = (Cache.directory root).get? d other otherKey otherTag)
      ∧ ∀ bytes,
          ((Cache.directory root).set d bucket key tag value).read (versionFile root) = .ok bytes
            ↔ d.read (versionFile root) = .ok bytes := by
  constructor
  · intro otherKey otherTag
    refine get?_set_of_not_prefix settled inner innerOther ?_ tag otherTag value
    intro leads
    rcases List.prefix_or_prefix_of_prefix leads (List.prefix_append _ _) with around | inside
    · exact apart.notAroundOther around
    · exact apart.notInOther inside
  · intro bytes
    refine read_versionFile_of_set settled inner ?_ tag value
    intro unnamed
    exact apart.notAroundOther (unnamed ▸ List.nil_prefix)

def openedDisk : Disk :=
  prepare {} "/cache" "v1"

/-- Two buckets side by side, the first of which is not called as it would be at its shortest. -/
theorem get?_set_sideBySide
    : IsApart "./units//" "units.old/1"
      ∧ (∀ otherKey otherTag,
        (Cache.directory "/cache").get?
            ((Cache.directory "/cache").set openedDisk "./units//" "old/1" "t" [1]) "units.old/1"
            otherKey otherTag
          = (Cache.directory "/cache").get? openedDisk "units.old/1" otherKey otherTag)
      ∧ ∀ bytes,
          ((Cache.directory "/cache").set openedDisk "./units//" "old/1" "t" [1]).read
              (versionFile "/cache")
            = .ok bytes
          ↔ openedDisk.read (versionFile "/cache") = .ok bytes := by
  have apart : IsApart "./units//" "units.old/1" := by decide +kernel
  refine ⟨apart, ?_⟩
  exact get?_set_apart (.inl (by decide +kernel)) (by decide +kernel) (by decide +kernel) apart
    "old/1" "t" [1]

/-- What is stored in a bucket is found in a different one that lies inside of it, and what is
stored in the bucket without a name may take the place of the file of the version.
-/
theorem get?_set_nested
    : "a" ≠ "a/b"
      ∧ (Cache.directory "/cache").get? openedDisk "a/b" "k" "" = none
      ∧ (Cache.directory "/cache").get?
            ((Cache.directory "/cache").set openedDisk "a" "b/k" "" [1]) "a/b" "k" ""
        = some [1]
      ∧ openedDisk.read (versionFile "/cache") = .ok (Text.utf8 "v1")
      ∧ ((Cache.directory "/cache").set openedDisk "" "VERSION" "" [1]).read (versionFile "/cache")
        ≠ .ok (Text.utf8 "v1") := by
  refine ⟨by decide, by decide +kernel, by decide +kernel, ?_, ?_⟩
  · exact toOption_eq_some.mp (by decide +kernel)
  · intro kept
    have kept := toOption_eq_some.mpr kept
    revert kept
    decide +kernel

end Folio.Cache
