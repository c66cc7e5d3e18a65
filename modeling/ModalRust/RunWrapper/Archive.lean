import ModalRust.Machine

/-!
# The archive of the build cache

`_pack_cache` writes the archive with zstd, or with gzip if that fails, under two different
names, and `_unpack_cache` prefers the zstd name whenever it exists. So an archive in one
format can hide a newer one in the other. The archive that was written last is the one that
is restored as long as no run falls back to gzip, and no run is without zstd, on a volume
with a zstd archive.
-/

namespace ModalRust.RunWrapper

/-- The format of an archive. -/
inductive ArchiveFormat
  /-- `cache.tar.zst`. -/
  | zstd
  /-- `cache.tar.gz`. -/
  | gzip
  deriving DecidableEq

/-- The archives on the volume, with what they hold. -/
structure Archives (δ : Type) where
  /-- `_ARCHIVE_ZSTD`. -/
  zstd : Option δ
  /-- `_ARCHIVE_GZIP`. -/
  gzip : Option δ
  deriving DecidableEq

/-- What decides one run of `_build` in a fresh container. -/
structure ArchiveRun (δ : Type) where
  /-- Whether a cached runner is used, so that nothing is unpacked or built. -/
  hit : Bool
  /-- Whether the image has zstd. -/
  hasZstd : Bool
  /-- Whether unpacking succeeds, if the format can be read. -/
  unpacks : Bool
  /-- Whether cargo succeeds. -/
  builds : Bool
  /-- Whether cargo compiled something. -/
  compiled : Bool
  /-- Whether packing with zstd succeeds, if there is zstd. -/
  packsZstd : Bool
  /-- Whether packing with gzip succeeds. -/
  packsGzip : Bool
  /-- Whether the stale gzip archive can be removed. -/
  removes : Bool
  /-- What is packed. -/
  dirs : δ
  deriving DecidableEq

/-- What `_unpack_cache` returns, with the cache on. -/
inductive UnpackState
  /-- `WARM`. -/
  | warm
  /-- `COLD (no archive)`. -/
  | noArchive
  /-- `COLD (unpack failed)`. -/
  | unpackFailed
  deriving DecidableEq

variable {δ : Type}

/-- `_existing_archive`. -/
def existingArchive (s : Archives δ) : Option (ArchiveFormat × δ) :=
  match s.zstd with
  | some dirs => some (.zstd, dirs)
  | none => s.gzip.map fun dirs => (.gzip, dirs)

/-- `_unpack_cache`. -/
def unpackCache (s : Archives δ) (r : ArchiveRun δ) : UnpackState :=
  match existingArchive s with
  | none => .noArchive
  | some (.zstd, _) => if r.hasZstd && r.unpacks then .warm else .unpackFailed
  | some (.gzip, _) => if r.unpacks then .warm else .unpackFailed

/-- Whether `_pack_one` writes the zstd archive. -/
def packedZstd (r : ArchiveRun δ) : Bool := r.hasZstd && r.packsZstd

/-- `_pack_one` with gzip. -/
def packGzip (s : Archives δ) (r : ArchiveRun δ) : Archives δ :=
  if r.packsGzip then { s with gzip := some r.dirs } else s

/-- `_pack_cache`. A gzip archive that cannot be removed counts as a failure of zstd. -/
def packCache (s : Archives δ) (r : ArchiveRun δ) : Archives δ :=
  if packedZstd r then
    if s.gzip.isNone then { s with zstd := some r.dirs }
    else if r.removes then ⟨some r.dirs, none⟩
    else packGzip { s with zstd := some r.dirs } r
  else packGzip s r

/-- Whether `_build` comes to `_pack_cache`. -/
def comesToPack (s : Archives δ) (r : ArchiveRun δ) : Bool :=
  !r.hit && r.builds && (r.compiled || unpackCache s r != .warm)

/-- One run. -/
def archiveStep (s : Archives δ) (r : ArchiveRun δ) : Option (Archives δ) :=
  some (if comesToPack s r then packCache s r else s)

/-- The archive that a run writes, if it succeeds in writing one. -/
def writtenArchive (s : Archives δ) (r : ArchiveRun δ) : Option (ArchiveFormat × δ) :=
  if !comesToPack s r then none
  else if packedZstd r then some (.zstd, r.dirs)
  else if r.packsGzip then some (.gzip, r.dirs)
  else none

/-- A volume without archives. -/
def Archives.empty : Archives δ := ⟨none, none⟩

/-- On a volume with a zstd archive, a run that unpacks has zstd, and when it packs, it does
not write the gzip archive in place of the zstd one. -/
def KeepsFormat (s : Archives δ) (r : ArchiveRun δ) : Prop :=
  s.zstd ≠ none → r.hit = false → r.hasZstd = true ∧
    (comesToPack s r = true → r.packsZstd = true ∨ r.packsGzip = false)

instance [DecidableEq δ] (s : Archives δ) (r : ArchiveRun δ) : Decidable (KeepsFormat s r) :=
  inferInstanceAs (Decidable (_ → _ → _ ∧ (_ → _ ∨ _)))

/-- What a run does to the archive that is restored next, and what a run without zstd means
for the later ones. -/
structure RestoresLast (s : Archives δ) (r : ArchiveRun δ) (later : List (ArchiveRun δ)) :
    Prop where
  /-- An archive that was written is selected next. -/
  selected : ∀ archive, writtenArchive s r = some archive →
    ∀ t, archiveStep s r = some t → existingArchive t = some archive
  /-- If none was written, the selected archive stays in place. -/
  kept : writtenArchive s r = none → ∀ t, archiveStep s r = some t → t = s
  /-- After a run without zstd has packed, the later ones without zstd are warm, unless
  unpacking itself fails. -/
  warm : r.hasZstd = false → writtenArchive s r ≠ none → ∀ before next after t,
    later = before ++ next :: after → Machine.run archiveStep s (r :: before) = some t →
    next.hit = false → next.hasZstd = false → next.unpacks = true → unpackCache t next = .warm

variable {s t : Archives δ} {r : ArchiveRun δ}

/-- A run that writes no archive changes nothing. -/
theorem archiveStep_of_none (hnone : writtenArchive s r = none)
    (hstep : archiveStep s r = some t) : t = s := by
  unfold writtenArchive at hnone
  unfold archiveStep packCache packGzip at hstep
  grind

/-- A run keeps the format, and writes an archive: this is the one that is selected. -/
theorem existingArchive_of_written {archive : ArchiveFormat × δ} (hkeeps : KeepsFormat s r)
    (hwritten : writtenArchive s r = some archive) (hstep : archiveStep s r = some t) :
    existingArchive t = some archive := by
  unfold KeepsFormat at hkeeps
  unfold existingArchive
  unfold archiveStep packCache packGzip at hstep
  unfold writtenArchive at hwritten
  grind [comesToPack, packedZstd]

/-- An archive never disappears altogether. -/
theorem existingArchive_of_step (hexists : existingArchive s ≠ none)
    (hstep : archiveStep s r = some t) : existingArchive t ≠ none := by
  unfold existingArchive at hexists ⊢
  unfold archiveStep packCache packGzip at hstep
  grind

/-- Where there is an archive, a run that keeps the format can be warm. -/
theorem unpackCache_of_keepsFormat (hexists : existingArchive s ≠ none)
    (hkeeps : KeepsFormat s r) (hhit : r.hit = false) (hunpacks : r.unpacks = true) :
    unpackCache s r = .warm := by
  unfold unpackCache
  cases hzstd : s.zstd with
  | some dirs =>
    have hhas := (hkeeps (by simp [hzstd]) hhit).1
    simp [existingArchive, hzstd, hhas, hunpacks]
  | none =>
    cases hgzip : s.gzip with
    | some dirs => simp [existingArchive, hzstd, hgzip, hunpacks]
    | none => simp [existingArchive, hzstd, hgzip] at hexists

/-- **The cache restores what was last saved, on volumes that keep their format.** In every
sequence of runs over one volume each of which keeps the format, whatever else fails in
them: an archive that a run writes is the one selected next, a run that writes none leaves
the selected one in place, and after a run without zstd has packed, the later ones without
zstd are warm. -/
theorem cache_restores_last (runs : List (ArchiveRun δ))
    (hkeeps : Machine.Guarded archiveStep KeepsFormat .empty runs)
    (before : List (ArchiveRun δ)) (r : ArchiveRun δ) (later : List (ArchiveRun δ))
    (hruns : runs = before ++ r :: later) (s : Archives δ)
    (hrun : Machine.run archiveStep .empty before = some s) : RestoresLast s r later := by
  subst hruns
  have hguarded := hkeeps.drop hrun
  refine ⟨fun archive hwritten t ht => existingArchive_of_written hguarded.1 hwritten ht,
    fun hnone t ht => archiveStep_of_none hnone ht, ?_⟩
  rintro - hwritten mid next after t rfl hmid hhit - hunpacks
  obtain ⟨archive, harchive⟩ := Option.ne_none_iff_exists'.mp hwritten
  obtain ⟨u, hu, hrest⟩ := Machine.run_cons_eq_some.mp hmid
  have hexists : existingArchive u ≠ none := by
    rw [existingArchive_of_written hguarded.1 harchive hu]
    exact Option.some_ne_none archive
  have hrest' : Machine.Guarded archiveStep KeepsFormat s ((r :: mid) ++ next :: after) := hguarded
  have hnext : KeepsFormat t next := (hrest'.drop hmid).1
  have hexists' : existingArchive t ≠ none := Machine.run_invariant_of_step
    (I := fun s => existingArchive s ≠ none)
    (fun _ _ _ hs hstep => existingArchive_of_step hs hstep) hexists hrest
  exact unpackCache_of_keepsFormat hexists' hnext hhit hunpacks

/-- A run that compiles and packs its version of the directories, if nothing fails. -/
def compilingRun (hasZstd packsZstd : Bool) (dirs : ℕ) : ArchiveRun ℕ where
  hit := false
  hasZstd := hasZstd
  unpacks := true
  builds := true
  compiled := true
  packsZstd := packsZstd
  packsGzip := true
  removes := true
  dirs := dirs

/-- Three runs without zstd, and then one with it. -/
theorem cache_restores_last_gzip :
    RestoresLast (⟨none, some 0⟩ : Archives ℕ) (compilingRun false true 1)
      [compilingRun false true 2, compilingRun true true 3] :=
  cache_restores_last
    [compilingRun false true 0, compilingRun false true 1, compilingRun false true 2,
      compilingRun true true 3]
    (by decide) [compilingRun false true 0] (compilingRun false true 1)
    [compilingRun false true 2, compilingRun true true 3] rfl ⟨none, some 0⟩ rfl

/-- Packing with zstd fails on a volume with a zstd archive, and gzip is written instead: the
old archive is selected next. And a run without zstd that packs on such a volume leaves the
next one cold. -/
theorem cache_restores_old :
    Machine.run archiveStep .empty [compilingRun true true 0] = some ⟨some 0, none⟩ ∧
      writtenArchive ⟨some 0, none⟩ (compilingRun true false 1) = some (.gzip, 1) ∧
      (archiveStep ⟨some 0, none⟩ (compilingRun true false 1)).bind existingArchive =
        some (.zstd, 0) ∧
      ¬ RestoresLast (⟨some 0, none⟩ : Archives ℕ) (compilingRun true false 1) [] ∧
      ¬ RestoresLast (⟨some 0, none⟩ : Archives ℕ) (compilingRun false true 1)
        [compilingRun false true 2] := by
  refine ⟨rfl, rfl, rfl, fun hrestores => ?_, fun hrestores => ?_⟩
  · have hselected := hrestores.selected (.gzip, 1) rfl ⟨some 0, some 1⟩ rfl
    revert hselected
    decide
  · have hwarm := hrestores.warm rfl (by decide) [] (compilingRun false true 2) []
      ⟨some 0, some 1⟩ rfl rfl rfl rfl rfl
    revert hwarm
    decide

end ModalRust.RunWrapper
