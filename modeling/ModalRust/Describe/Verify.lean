import ModalRust.Describe.Manifest

/-!
# Verifying a manifest

`build_and_describe` and `remote_describe_outcome` look for a manifest in the same cache,
under the same key, and store what they describe there. `verify_manifest_outcome` runs one
after the other and compares what they return. What the local description stores is what
the remote one finds.
-/

namespace ModalRust.Describe

open Provision (FunctionOptions)

/-- What a description reads, apart from the target directory. -/
structure Project (κ : Type) where
  /-- The package. -/
  package : Text
  /-- Whether the crate has a runner or one can be generated, as far as the metadata say. -/
  runnable : Bool
  /-- The key of the sources, if it can be computed. -/
  key : Option κ

/-- The target directory. -/
structure TargetDir (κ ρ : Type) where
  /-- The manifests in the cache. -/
  entries : κ → Option Bytes
  /-- `runner-<package>`. -/
  pin : Option ρ
  /-- Whether the cache can be written. -/
  writable : Bool

/-- What cargo does. -/
structure LocalBuild (ρ : Type) where
  /-- The runner, unless the build fails. -/
  runner : Option ρ
  /-- Whether the runner can be linked or copied to the pin. -/
  linked : Bool

/-- `DescribeOutcome`. -/
structure DescribeOutcome (ρ : Type) where
  /-- The manifest. -/
  manifest : Manifest
  /-- The runner that checks inputs. -/
  runnerBin : Option ρ

section Outcome

variable {κ ρ : Type} (fromSlice : Bytes → Option Manifest) (describe : ρ → Option Bytes)

/-- The manifest in the cache. An entry that cannot be read is none. -/
def consult (dir : TargetDir κ ρ) (key : Option κ) : Option Manifest := do
  let bytes ← dir.entries (← key)
  (parseAndCheck fromSlice bytes).toOption

/-- `store`, which fails silently. -/
def TargetDir.store [DecidableEq κ] (dir : TargetDir κ ρ) (key : Option κ) (bytes : Bytes) :
    TargetDir κ ρ :=
  match key with
  | some k =>
    if dir.writable then { dir with entries := Function.update dir.entries k (some bytes) } else dir
  | none => dir

/-- `scope_runner_artifact`, which removes the pin first. -/
def scopeRunnerArtifact (dir : TargetDir κ ρ) (linked : Bool) (runner : ρ) : TargetDir κ ρ :=
  { dir with pin := if linked then some runner else none }

variable [DecidableEq κ]

/-- `build_and_describe`. -/
def buildAndDescribe (project : Project κ) (build : LocalBuild ρ) (dir : TargetDir κ ρ) :
    Except DescribeError (DescribeOutcome ρ) × TargetDir κ ρ :=
  if project.runnable = false then (.error (.unrunnable project.package), dir)
  else
    match consult fromSlice dir project.key with
    | some manifest =>
      ((checkEntrypoints project.package manifest).map fun _ => ⟨manifest, dir.pin⟩, dir)
    | none =>
      match build.runner with
      | none => (.error (.buildFailed project.package), dir)
      | some runner =>
        let dir := scopeRunnerArtifact dir build.linked runner
        match describe runner with
        | none => (.error (.describeFailed project.package), dir)
        | some bytes =>
          match readManifest fromSlice project.package bytes with
          | .error e => (.error e, dir)
          | .ok manifest => (.ok ⟨manifest, some runner⟩, dir.store project.key bytes)

/-- `remote_describe_outcome`, where `remote` is the runner that is built on Modal. -/
def remoteDescribeOutcome (project : Project κ) (remote : Option ρ) (dir : TargetDir κ ρ) :
    Except DescribeError (DescribeOutcome ρ) × TargetDir κ ρ :=
  match consult fromSlice dir project.key with
  | some manifest =>
    ((checkEntrypoints project.package manifest).map fun _ => ⟨manifest, none⟩, dir)
  | none =>
    match remote.bind describe with
    | none => (.error .remoteDescribeFailed, dir)
    | some bytes =>
      match readManifest fromSlice project.package bytes with
      | .error e => (.error e, dir)
      | .ok manifest => (.ok ⟨manifest, none⟩, dir.store project.key bytes)

end Outcome

/-- The entrypoints of a manifest with the texts of their options. -/
def index (manifest : Manifest) : Std.TreeMap Text Text :=
  manifest.entrypoints.foldl (fun map e => map.insert e.name (configText e.config)) ∅

/-- What differs between two manifests. -/
def divergences (l r : Std.TreeMap Text Text) : List Divergence :=
  (l.toList.filterMap fun (name, lcfg) =>
    match r[name]? with
    | none => some (.absentRemotely name)
    | some rcfg => if rcfg ≠ lcfg then some (.differs name lcfg rcfg) else none) ++
  r.keys.filterMap fun name => if l.contains name then none else some (.absentLocally name)

/-- `diff_manifests`. -/
def diffManifests (locally remotely : Manifest) : Except DescribeError Unit :=
  let diffs := divergences (index locally) (index remotely)
  if diffs.isEmpty then .ok () else .error (.diverge diffs)

/-- `verify_manifest_outcome`. -/
def verifyManifestOutcome {κ ρ : Type} [DecidableEq κ] (fromSlice : Bytes → Option Manifest)
    (describe : ρ → Option Bytes) (project : Project κ) (build : LocalBuild ρ) (remote : Option ρ)
    (dir : TargetDir κ ρ) : Except DescribeError (DescribeOutcome ρ) × TargetDir κ ρ :=
  match buildAndDescribe fromSlice describe project build dir with
  | (.error e, dir) => (.error e, dir)
  | (.ok locally, dir) =>
    match remoteDescribeOutcome fromSlice describe project remote dir with
    | (.error e, dir) => (.error e, dir)
    | (.ok remotely, dir) =>
      ((diffManifests locally.manifest remotely.manifest).map fun _ => locally, dir)

/-- The options of a name. The last entrypoint of the name counts. -/
def Manifest.options (manifest : Manifest) (name : Text) : Option FunctionOptions :=
  (manifest.entrypoints.reverse.find? fun e => e.name = name).map ManifestEntry.config

/-- Two manifests have the same names, with the same options. -/
def Manifest.Agree (m n : Manifest) : Prop := ∀ name, m.options name = n.options name

/-- The runner describes a manifest. -/
def Describes {ρ : Type} (fromSlice : Bytes → Option Manifest) (describe : ρ → Option Bytes)
    (package : Text) (runner : ρ) (manifest : Manifest) : Prop :=
  ∃ bytes, describe runner = some bytes ∧ readManifest fromSlice package bytes = .ok manifest

/-- The index holds the texts of the options. -/
theorem getElem?_index (m : Manifest) (name : Text) :
    (index m)[name]? = (m.options name).map configText := by
  obtain ⟨schema, entrypoints⟩ := m
  simp only [index, Manifest.options]
  induction entrypoints using List.reverseRecOn with
  | nil => rfl
  | append_singleton entrypoints e ih =>
    rw [List.foldl_append, List.foldl_cons, List.foldl_nil, Std.TreeMap.getElem?_insert,
      List.reverse_append, List.reverse_singleton, List.singleton_append, List.find?_cons]
    by_cases hname : e.name = name
    · simp [hname]
    · simp only [Std.LawfulEqCmp.compare_eq_iff_eq, hname, if_false, decide_false]
      exact ih

/-- Nothing is reported exactly if the indices are equal. -/
theorem divergences_eq_nil_iff (l r : Std.TreeMap Text Text) :
    divergences l r = [] ↔ ∀ name : Text, l[name]? = r[name]? := by
  simp only [divergences, List.append_eq_nil_iff, List.filterMap_eq_nil_iff, Prod.forall,
    Std.TreeMap.mem_toList_iff_getElem?_eq_some]
  constructor
  · rintro ⟨hleft, hright⟩ name
    cases hl : l[name]? with
    | some lcfg =>
      have hsame := hleft name lcfg hl
      cases hr : r[name]? with
      | none => simp [hr] at hsame
      | some rcfg =>
        have heq : rcfg = lcfg := by simpa [hr] using hsame
        rw [heq]
    | none =>
      by_contra hr
      have hmem : name ∈ r := by
        rw [Std.TreeMap.mem_iff_isSome_getElem?, Option.isSome_iff_ne_none]
        exact fun hnone => hr hnone.symm
      have hreport := hright name (Std.TreeMap.mem_keys.mpr hmem)
      simp [Std.TreeMap.contains_eq_isSome_getElem?, hl] at hreport
  · intro hsame
    refine ⟨fun name lcfg hl => ?_, fun name hr => ?_⟩
    · rw [hsame] at hl
      simp [hl]
    · rw [Std.TreeMap.mem_keys, Std.TreeMap.mem_iff_isSome_getElem?, ← hsame] at hr
      simp [Std.TreeMap.contains_eq_isSome_getElem?, hr]

/-- The comparison succeeds exactly if the manifests agree. -/
theorem isOk_diffManifests (m n : Manifest) : (diffManifests m n).isOk = true ↔ m.Agree n := by
  have hagree : divergences (index m) (index n) = [] ↔ m.Agree n := by
    rw [divergences_eq_nil_iff]
    refine forall_congr' fun name => ?_
    rw [getElem?_index, getElem?_index]
    exact (Option.map_injective configText_injective).eq_iff
  rw [← hagree, ← List.isEmpty_iff]
  simp only [diffManifests]
  split_ifs with hempty
  · exact iff_of_true rfl hempty
  · exact iff_of_false nofun hempty

/-- A manifest agrees with itself. -/
theorem Manifest.Agree.refl (m : Manifest) : m.Agree m := fun _ => rfl

section Verdict

variable {κ ρ : Type} {fromSlice : Bytes → Option Manifest} {describe : ρ → Option Bytes}

/-- A manifest that can be used has a known schema and entrypoints. -/
theorem readManifest_eq_ok {package : Text} {bytes : Bytes} {m : Manifest}
    (hread : readManifest fromSlice package bytes = .ok m) :
    parseAndCheck fromSlice bytes = .ok m ∧ checkEntrypoints package m = .ok () := by
  unfold readManifest at hread
  cases hparse : parseAndCheck fromSlice bytes with
  | error e =>
    rw [hparse] at hread
    cases hread
  | ok manifest =>
    cases hcheck : checkEntrypoints package manifest with
    | error e =>
      rw [hparse] at hread
      simp only [bind, Except.bind, hcheck] at hread
      cases hread
    | ok _ =>
      rw [hparse] at hread
      simp only [bind, Except.bind, hcheck] at hread
      obtain rfl := Except.ok.inj hread
      exact ⟨rfl, hcheck⟩

/-- What has been stored is found. -/
theorem consult_store [DecidableEq κ] {dir : TargetDir κ ρ} {key : Option κ} {bytes : Bytes}
    {m : Manifest} (hparse : parseAndCheck fromSlice bytes = .ok m)
    (hmiss : consult fromSlice dir key = none) :
    consult fromSlice (dir.store key bytes) key =
      if key.isSome ∧ dir.writable then some m else none := by
  cases key with
  | none => rfl
  | some k =>
    by_cases hwritable : dir.writable = true
    · simp [TargetDir.store, consult, hwritable, hparse, Except.toOption]
    · simp only [TargetDir.store, hwritable]
      simpa using hmiss

variable [DecidableEq κ] {project : Project κ} {dir : TargetDir κ ρ} {runner remote : ρ}
  {linked : Bool} {m n : Manifest}

/-- With a manifest in the cache, only that one is looked at. -/
theorem verify_of_hit (hrunnable : project.runnable = true) {cached : Manifest}
    (hhit : consult fromSlice dir project.key = some cached) :
    (verifyManifestOutcome fromSlice describe project ⟨some runner, linked⟩ (some remote)
      dir).1.isOk = (checkEntrypoints project.package cached).isOk := by
  have hlocal : buildAndDescribe fromSlice describe project ⟨some runner, linked⟩ dir =
      ((checkEntrypoints project.package cached).map fun _ => ⟨cached, dir.pin⟩, dir) := by
    simp [buildAndDescribe, hrunnable, hhit]
  cases hcheck : checkEntrypoints project.package cached with
  | error e =>
    rw [hcheck] at hlocal
    simp only [verifyManifestOutcome, hlocal]
    rfl
  | ok _ =>
    have hremote : remoteDescribeOutcome fromSlice describe project (some remote) dir =
        (.ok ⟨cached, none⟩, dir) := by
      simp only [remoteDescribeOutcome, hhit, hcheck]
      rfl
    rw [hcheck] at hlocal
    rw [Except.map] at hlocal
    simp only [verifyManifestOutcome, hlocal, hremote]
    have hsame := (isOk_diffManifests cached cached).mpr (.refl cached)
    cases hdiff : diffManifests cached cached with
    | error e => simp [hdiff, Except.isOk, Except.toBool] at hsame
    | ok _ => rfl

/-- With no manifest in the cache, the local manifest is compared with what the remote
description finds after it was stored. -/
theorem verify_of_miss (hrunnable : project.runnable = true)
    (hmiss : consult fromSlice dir project.key = none)
    (hlocal : Describes fromSlice describe project.package runner m)
    (hremote : Describes fromSlice describe project.package remote n) :
    (verifyManifestOutcome fromSlice describe project ⟨some runner, linked⟩ (some remote)
      dir).1.isOk =
      (diffManifests m (if project.key.isSome ∧ dir.writable then m else n)).isOk := by
  obtain ⟨bytes, hbytes, hread⟩ := hlocal
  obtain ⟨bytes', hbytes', hread'⟩ := hremote
  have hlocal : buildAndDescribe fromSlice describe project ⟨some runner, linked⟩ dir =
      (.ok ⟨m, some runner⟩,
        (scopeRunnerArtifact dir linked runner).store project.key bytes) := by
    simp [buildAndDescribe, hrunnable, hmiss, hbytes, hread]
  have hfound : consult fromSlice ((scopeRunnerArtifact dir linked runner).store project.key bytes)
      project.key = if project.key.isSome ∧ dir.writable then some m else none :=
    consult_store (readManifest_eq_ok hread).1 hmiss
  have hremote : ∃ dir' : TargetDir κ ρ,
      remoteDescribeOutcome fromSlice describe project (some remote)
        ((scopeRunnerArtifact dir linked runner).store project.key bytes) =
      (.ok ⟨if project.key.isSome ∧ dir.writable then m else n, none⟩, dir') := by
    by_cases hstored : project.key.isSome = true ∧ dir.writable = true
    · rw [if_pos hstored]
      rw [if_pos hstored] at hfound
      simp only [remoteDescribeOutcome, hfound, (readManifest_eq_ok hread).2]
      exact ⟨_, rfl⟩
    · rw [if_neg hstored]
      rw [if_neg hstored] at hfound
      simp only [remoteDescribeOutcome, hfound, Option.bind_some, hbytes', hread']
      exact ⟨_, rfl⟩
  obtain ⟨dir', hremote⟩ := hremote
  simp only [verifyManifestOutcome, hlocal, hremote]
  cases diffManifests m _ <;> rfl

end Verdict

/-- **The verdict of the verification**: for all manifests that the two sides describe, the
verification succeeds exactly if they agree, if and only if the sources have no key, or
there is no manifest in the cache and the local one cannot be stored there. -/
theorem verify_succeeds_iff_agree {κ ρ : Type} [DecidableEq κ]
    {fromSlice : Bytes → Option Manifest} {describe : ρ → Option Bytes} {project : Project κ}
    (dir : TargetDir κ ρ) (hrunnable : project.runnable = true)
    (hdiffer : ∃ (runner remote : ρ) (m n : Manifest),
      Describes fromSlice describe project.package runner m ∧
        Describes fromSlice describe project.package remote n ∧ ¬m.Agree n) :
    (∀ (runner remote : ρ) (linked : Bool) (m n : Manifest),
      Describes fromSlice describe project.package runner m →
      Describes fromSlice describe project.package remote n →
      ((verifyManifestOutcome fromSlice describe project ⟨some runner, linked⟩ (some remote)
        dir).1.isOk = true ↔ m.Agree n)) ↔
    (project.key.isSome = true →
      dir.writable = false ∧ consult fromSlice dir project.key = none) := by
  constructor
  · intro hverdict hkey
    obtain ⟨runner, remote, m, n, hlocal, hremote, hdiffer⟩ := hdiffer
    have hmiss : consult fromSlice dir project.key = none := by
      cases hhit : consult fromSlice dir project.key with
      | none => rfl
      | some cached =>
        -- Two sides that agree and two that differ get the same answer.
        have hagree := (hverdict runner runner true m m hlocal hlocal).mpr (.refl m)
        have hdisagree := (hverdict runner remote true m n hlocal hremote).not.mpr hdiffer
        rw [verify_of_hit hrunnable hhit] at hagree hdisagree
        exact absurd hagree hdisagree
    refine ⟨Bool.eq_false_iff.mpr fun hwritable => hdiffer ?_, hmiss⟩
    rw [← hverdict runner remote true m n hlocal hremote,
      verify_of_miss hrunnable hmiss hlocal hremote, if_pos ⟨hkey, hwritable⟩, isOk_diffManifests]
    exact .refl m
  · intro hconsulted runner remote linked m n hlocal hremote
    have hmiss : consult fromSlice dir project.key = none := by
      cases hkey : project.key with
      | none => rfl
      | some k => exact hkey ▸ (hconsulted (by rw [hkey]; rfl)).2
    have hnot : ¬(project.key.isSome = true ∧ dir.writable = true) :=
      fun hstored => Bool.false_ne_true ((hconsulted hstored.1).1.symm.trans hstored.2)
    rw [verify_of_miss hrunnable hmiss hlocal hremote, if_neg hnot, isOk_diffManifests]

/-- What a runner with one entrypoint prints. -/
def sampleText (name : Text) : Text :=
  "\x7b\"schema\":\"modal-rust/describe@1\",\"entrypoints\":[\x7b\"name\":\"".toList ++ name ++
    "\",\"config\":\x7b\x7d\x7d]\x7d".toList

/-- The manifest with one entrypoint. -/
def sampleManifest (name : Text) : Manifest :=
  ⟨"modal-rust/describe@1".toList, [⟨name, FunctionOptions.default⟩]⟩

/-- Read the manifests of two runners. -/
def readSample (bytes : Bytes) : Option Manifest :=
  (["a".toList, "b".toList].find? fun name => toUtf8 (sampleText name) = bytes).map sampleManifest

/-- A runner with one entrypoint prints its manifest. -/
def printSample (name : Text) : Option Bytes := some (toUtf8 (sampleText name))

/-- A package whose sources have the key `0`. -/
def sampleProject : Project ℕ := ⟨"app".toList, true, some 0⟩

/-- An empty target directory. -/
def emptyTarget (writable : Bool) : TargetDir ℕ Text := ⟨fun _ => none, none, writable⟩

/-- With a target directory that cannot be written, the two runners are compared. -/
theorem verify_succeeds_iff_agree_sample :
    (∀ (runner remote : Text) (linked : Bool) (m n : Manifest),
      Describes readSample printSample sampleProject.package runner m →
      Describes readSample printSample sampleProject.package remote n →
      ((verifyManifestOutcome readSample printSample sampleProject ⟨some runner, linked⟩
        (some remote) (emptyTarget false)).1.isOk = true ↔ m.Agree n)) ↔
    (sampleProject.key.isSome = true →
      (emptyTarget false).writable = false ∧
        consult readSample (emptyTarget false) sampleProject.key = none) :=
  verify_succeeds_iff_agree (emptyTarget false) rfl
    ⟨"a".toList, "b".toList, sampleManifest "a".toList, sampleManifest "b".toList,
      ⟨_, rfl, by decide +kernel⟩, ⟨_, rfl, by decide +kernel⟩,
      fun hagree => absurd (hagree "a".toList) (by decide +kernel)⟩

/-- The local runner has the entrypoint `a` and the one on Modal has `b`, and nothing is in the
cache. The verification succeeds. -/
theorem verify_succeeds_without_agreement :
    Describes readSample printSample sampleProject.package "a".toList
        (sampleManifest "a".toList) ∧
      Describes readSample printSample sampleProject.package "b".toList
        (sampleManifest "b".toList) ∧
      ¬(sampleManifest "a".toList).Agree (sampleManifest "b".toList) ∧
      (verifyManifestOutcome readSample printSample sampleProject ⟨some "a".toList, true⟩
        (some "b".toList) (emptyTarget true)).1.isOk = true :=
  ⟨⟨_, rfl, by decide +kernel⟩, ⟨_, rfl, by decide +kernel⟩,
    fun hagree => absurd (hagree "a".toList) (by decide +kernel), by decide +kernel⟩

end ModalRust.Describe
