import Mathlib.Data.List.Sort
import ModalRust.FileTree
import ModalRust.PrefixCode
import ModalRust.Provision.Run

/-!
# The key of the runner cache

`_source_key` of the run wrapper hashes the package name and then, for every source file,
its path and its content. Nothing separates these fields, so the boundary between a path
and a content, and between one file and the next, is not part of the key.
-/

namespace ModalRust.RunWrapper

/-- The source tree in a container. A file that cannot be read has no content. -/
abbrev SourceTree := FileTree Text (Option Bytes)

/-- A file of a walk: the names on its path, and its content. -/
abbrev SourceFile := List Text × Option Bytes

/-- An entry of a directory in `os.walk`: a file, or the files below a directory. -/
abbrev WalkEntry := Option Bytes ⊕ List SourceFile

/-- Entries in the order of their names, as `dirs.sort()` and `sorted(files)` put them. -/
def sortedByName (entries : List (Text × WalkEntry)) : List (Text × WalkEntry) :=
  entries.insertionSort fun a b => a.1 ≤ b.1

/-- The files of a directory itself. -/
def ownFiles (entries : List (Text × WalkEntry)) : List SourceFile :=
  (sortedByName entries).filterMap fun entry =>
    entry.2.getLeft?.map fun content => ([entry.1], content)

/-- The files below the directories of a directory. -/
def filesBelow (entries : List (Text × WalkEntry)) : List SourceFile :=
  (sortedByName entries).flatMap fun entry =>
    (entry.2.getRight?.getD []).map fun file => (entry.1 :: file.1, file.2)

mutual

/-- The walk of one node below a name. -/
def walkNode : SourceTree → WalkEntry
  | .file content => .inl content
  | .dir entries => .inr (ownFiles (walkNodes entries) ++ filesBelow (walkNodes entries))
  | .blocked => .inr []
  | .other => .inl none

/-- The walk of the entries of a directory. -/
def walkNodes : List (Text × SourceTree) → List (Text × WalkEntry)
  | [] => []
  | (name, node) :: rest => (name, walkNode node) :: walkNodes rest

end

/-- `os.walk(REMOTE_SRC)`: in each directory first its files, then the directories below. -/
def sourceFiles (tree : SourceTree) : List SourceFile := (walkNode tree).getRight?.getD []

/-- `os.path.relpath`. -/
def relPath (names : List Text) : Text := ['/'].intercalate names

/-- What is hashed for the content of a file. -/
def contentBytes (content : Option Bytes) : Bytes :=
  content.getD (toUtf8 "<unreadable>".toList)

/-- The bytes that `_source_key` feeds to its hash. -/
def sourceStream (package : Text) (tree : SourceTree) : Bytes :=
  toUtf8 package ++
    (sourceFiles tree).flatMap fun file => toUtf8 (relPath file.1) ++ contentBytes file.2

/-- A file alone in its directories. -/
def singleFile (content : Bytes) : List Text → SourceTree
  | [] => .file (some content)
  | name :: names => .dir [(name, singleFile content names)]

/-- A tree with one file. -/
theorem walkNode_singleFile (content : Bytes) (name : Text) (names : List Text) :
    walkNode (singleFile content (name :: names)) = .inr [(name :: names, some content)] := by
  induction names generalizing name with
  | nil =>
    rw [singleFile, singleFile, walkNode, walkNodes, walkNodes, walkNode]
    rfl
  | cons next names ih =>
    rw [singleFile, walkNode, walkNodes, walkNodes, ih]
    rfl

/-- Every path of a walk has a name. -/
theorem ne_nil_of_mem_sourceFiles {tree : SourceTree} {file : SourceFile}
    (hfile : file ∈ sourceFiles tree) : file.1 ≠ [] := by
  unfold sourceFiles at hfile
  cases tree with
  | file content => cases hfile
  | blocked => cases hfile
  | other => cases hfile
  | dir entries =>
    rw [walkNode] at hfile
    rcases List.mem_append.mp hfile with hown | hbelow
    · obtain ⟨entry, _, hentry⟩ := List.mem_filterMap.mp hown
      obtain ⟨content, _, rfl⟩ := Option.map_eq_some_iff.mp hentry
      exact List.cons_ne_nil _ _
    · obtain ⟨entry, _, hentry⟩ := List.mem_flatMap.mp hbelow
      obtain ⟨below, _, rfl⟩ := List.mem_map.mp hentry
      exact List.cons_ne_nil _ _

/-- All files of a tree can be folded into its first one without changing the stream. -/
theorem exists_single_of_sourceFiles {tree : SourceTree} {file : SourceFile}
    {rest : List SourceFile} (hfiles : sourceFiles tree = file :: rest) :
    ∃ content, sourceFiles (singleFile content file.1) = [(file.1, some content)] ∧
      ∀ package, sourceStream package (singleFile content file.1) = sourceStream package tree := by
  have hne : file.1 ≠ [] := ne_nil_of_mem_sourceFiles (hfiles ▸ List.mem_cons_self)
  obtain ⟨name, names, hnames⟩ := List.exists_cons_of_ne_nil hne
  let content := contentBytes file.2 ++
    rest.flatMap fun file => toUtf8 (relPath file.1) ++ contentBytes file.2
  have hsingle : sourceFiles (singleFile content file.1) = [(file.1, some content)] := by
    rw [sourceFiles, hnames, walkNode_singleFile]
    rfl
  refine ⟨content, hsingle, fun package => ?_⟩
  unfold sourceStream
  rw [hsingle, hfiles]
  simp only [List.flatMap_cons, List.flatMap_nil, List.append_nil, List.append_assoc]
  rfl

/-- What a runner is built from: the package, the source, and the image of the container. -/
structure BuildInput (ι : Type) where
  /-- The package. -/
  package : Text
  /-- The source. -/
  tree : SourceTree
  /-- The image. -/
  image : ι

/-- What else decides a call of `_build` in a fresh container. -/
structure BuildChance where
  /-- `CACHE_ON`. -/
  cacheOn : Bool
  /-- Whether a cached runner can be copied. -/
  copies : Bool
  /-- Whether a built runner can be stored. -/
  stores : Bool

variable {ι κ ρ : Type} [DecidableEq κ]

/-- `_build` of a fresh container, with the runners on the volume. The result is the runner
that the container executes, or none if cargo fails. The build is an arbitrary function of
its input, and the hash an arbitrary function of the stream. -/
def build (hash : Bytes → κ) (cargo : BuildInput ι → Option ρ) (chance : BuildChance)
    (volume : κ → Option ρ) (input : BuildInput ι) : Option ρ × (κ → Option ρ) :=
  let key := hash (sourceStream input.package input.tree)
  let cached := if chance.cacheOn && chance.copies then volume key else none
  match cached with
  | some runner => (some runner, volume)
  | none =>
    match cargo input with
    | none => (none, volume)
    | some runner => (some runner,
        if chance.cacheOn && chance.stores then Function.update volume key (some runner)
        else volume)

/-- Fresh containers on one volume, one after another, each with what it executes. -/
def buildAll (hash : Bytes → κ) (cargo : BuildInput ι → Option ρ) (volume : κ → Option ρ) :
    List (BuildChance × BuildInput ι) → List (BuildInput ι × Option ρ)
  | [] => []
  | (chance, input) :: rest =>
    (input, (build hash cargo chance volume input).1) ::
      buildAll hash cargo (build hash cargo chance volume input).2 rest

/-- A run that finds no usable runner on the volume executes what it builds itself. -/
theorem build_of_miss {hash : Bytes → κ} {cargo : BuildInput ι → Option ρ} {chance : BuildChance}
    {volume : κ → Option ρ} {input : BuildInput ι}
    (hmiss : volume (hash (sourceStream input.package input.tree)) = none) :
    (build hash cargo chance volume input).1 = cargo input := by
  unfold build
  simp only [hmiss, ite_self]
  cases cargo input with
  | none => rfl
  | some runner => rfl

/-- A run with a runner on the volume under its key executes it, or builds its own. -/
theorem build_of_hit {hash : Bytes → κ} {cargo : BuildInput ι → Option ρ} {chance : BuildChance}
    {volume : κ → Option ρ} {input : BuildInput ι} {runner : ρ}
    (hhit : volume (hash (sourceStream input.package input.tree)) = some runner)
    (hrunner : cargo input = some runner) :
    (build hash cargo chance volume input).1 = some runner := by
  unfold build
  simp only [hhit, hrunner]
  by_cases hcopied : (chance.cacheOn && chance.copies) = true
  · simp [hcopied]
  · simp [hcopied]

/-- What a run leaves under a key was there before, or is what it built. -/
theorem volume_build {hash : Bytes → κ} {cargo : BuildInput ι → Option ρ} {chance : BuildChance}
    {volume : κ → Option ρ} {input : BuildInput ι} {key : κ} {runner : ρ}
    (hkey : (build hash cargo chance volume input).2 key = some runner) :
    volume key = some runner ∨
      key = hash (sourceStream input.package input.tree) ∧ cargo input = some runner := by
  unfold build at hkey
  cases hcached : (if chance.cacheOn && chance.copies then
      volume (hash (sourceStream input.package input.tree)) else none) with
  | some cached =>
    simp only [hcached] at hkey
    exact .inl hkey
  | none =>
    simp only [hcached] at hkey
    cases hcargo : cargo input with
    | none =>
      simp only [hcargo] at hkey
      exact .inl hkey
    | some built =>
      simp only [hcargo] at hkey
      by_cases hstored : (chance.cacheOn && chance.stores) = true
      · rw [if_pos hstored] at hkey
        by_cases hsame : key = hash (sourceStream input.package input.tree)
        · rw [hsame, Function.update_self] at hkey
          exact .inr ⟨hsame, hkey⟩
        · rw [Function.update_of_ne hsame] at hkey
          exact .inl hkey
      · rw [if_neg hstored] at hkey
        exact .inl hkey

/-- After a run that stores its runner, a run with the same stream executes that runner. -/
theorem build_after_build {hash : Bytes → κ} {cargo : BuildInput ι → Option ρ}
    {input input' : BuildInput ι} {runner : ρ} (hrunner : cargo input = some runner)
    (hstream : sourceStream input'.package input'.tree =
      sourceStream input.package input.tree) :
    (build hash cargo ⟨true, true, true⟩
      (build hash cargo ⟨true, true, true⟩ (fun _ => none) input).2 input').1 = some runner := by
  simp [build, hrunner, hstream]

/-- **The key does not determine the source.** For every source with two files there is
another one with the same stream, so for every hash; and whatever cargo builds, a container
with the second source then executes the runner of the first one. -/
theorem source_key_collides (package : Text) (tree : SourceTree)
    (hfiles : ∃ file ∈ sourceFiles tree, ∃ other ∈ sourceFiles tree, other.1 ≠ file.1) :
    ∃ tree', sourceStream package tree' = sourceStream package tree ∧
      (∃ file ∈ sourceFiles tree, file ∉ sourceFiles tree') ∧
      ∀ (ι κ ρ : Type) (_ : DecidableEq κ) (hash : Bytes → κ) (cargo : BuildInput ι → Option ρ)
        (image : ι) (runner : ρ), cargo ⟨package, tree, image⟩ = some runner →
        (build hash cargo ⟨true, true, true⟩ (build hash cargo ⟨true, true, true⟩
          (fun _ => none) ⟨package, tree, image⟩).2 ⟨package, tree', image⟩).1 = some runner := by
  obtain ⟨file, hfile, other, hother, hne⟩ := hfiles
  obtain ⟨first, rest, hsplit⟩ := List.exists_cons_of_ne_nil (List.ne_nil_of_mem hfile)
  obtain ⟨content, hsingle, hstream⟩ := exists_single_of_sourceFiles hsplit
  have hdifferent : ∃ file ∈ sourceFiles tree, file.1 ≠ first.1 := by
    by_cases hsame : file.1 = first.1
    · exact ⟨other, hother, fun heq => hne (heq.trans hsame.symm)⟩
    · exact ⟨file, hfile, hsame⟩
  obtain ⟨lost, hlost, hpath⟩ := hdifferent
  refine ⟨singleFile content first.1, hstream package, ⟨lost, hlost, fun hmem => ?_⟩, ?_⟩
  · rw [hsingle, List.mem_singleton] at hmem
    rw [hmem] at hpath
    exact hpath rfl
  · intro ι κ ρ _ hash cargo image runner hrunner
    exact build_after_build hrunner (hstream package)

/-- A small package. -/
def smallPackage : SourceTree :=
  .dir [("src".toList, .dir [("main.rs".toList, .file (some (toUtf8 "fn main() {}".toList)))]),
    ("Cargo.toml".toList, .file (some (toUtf8 "[package]".toList)))]

/-- The collision for a small package. -/
theorem source_key_collides_small :
    ∃ tree', sourceStream "hello".toList tree' = sourceStream "hello".toList smallPackage ∧
      (∃ file ∈ sourceFiles smallPackage, file ∉ sourceFiles tree') ∧
      ∀ (ι κ ρ : Type) (_ : DecidableEq κ) (hash : Bytes → κ) (cargo : BuildInput ι → Option ρ)
        (image : ι) (runner : ρ), cargo ⟨"hello".toList, smallPackage, image⟩ = some runner →
        (build hash cargo ⟨true, true, true⟩ (build hash cargo ⟨true, true, true⟩
          (fun _ => none) ⟨"hello".toList, smallPackage, image⟩).2
            ⟨"hello".toList, tree', image⟩).1 = some runner :=
  source_key_collides "hello".toList smallPackage
    ⟨(["Cargo.toml".toList], some (toUtf8 "[package]".toList)), by decide +kernel,
      (["src".toList, "main.rs".toList], some (toUtf8 "fn main() {}".toList)), by decide +kernel,
      by decide⟩

/-- Two different packages with one stream: a manifest that ends with what is a source file
in the other one. -/
theorem source_streams_equal :
    sourceStream "hello".toList smallPackage = sourceStream "hello".toList
      (.dir [("Cargo.toml".toList,
        .file (some (toUtf8 "[package]src/main.rsfn main() {}".toList)))]) ∧
    sourceFiles smallPackage ≠ sourceFiles (.dir [("Cargo.toml".toList,
      .file (some (toUtf8 "[package]src/main.rsfn main() {}".toList)))]) := by
  decide +kernel

/-- What holds of a volume on which no key serves two inputs: every runner is what the
inputs of its key build. -/
theorem buildAll_own {hash : Bytes → κ} (hinjective : Function.Injective hash)
    {cargo : BuildInput ι → Option ρ} {inputs : Set (BuildInput ι)}
    (hkeys : ∀ x ∈ inputs, ∀ y ∈ inputs,
      sourceStream x.package x.tree = sourceStream y.package y.tree → x = y)
    (runs : List (BuildChance × BuildInput ι)) (hruns : ∀ run ∈ runs, run.2 ∈ inputs)
    (volume : κ → Option ρ)
    (hvolume : ∀ x ∈ inputs, ∀ runner,
      volume (hash (sourceStream x.package x.tree)) = some runner → cargo x = some runner) :
    ∀ result ∈ buildAll hash cargo volume runs, result.2 = cargo result.1 := by
  induction runs generalizing volume with
  | nil => rintro result ⟨⟩
  | cons run rest ih =>
    obtain ⟨chance, input⟩ := run
    have hinput : input ∈ inputs := hruns _ List.mem_cons_self
    intro result hresult
    rcases List.mem_cons.mp hresult with rfl | hlater
    · cases hhit : volume (hash (sourceStream input.package input.tree)) with
      | none => exact build_of_miss hhit
      | some runner =>
        have hrunner := hvolume input hinput runner hhit
        exact (build_of_hit hhit hrunner).trans hrunner.symm
    · refine ih (fun r hr => hruns r (List.mem_cons_of_mem _ hr)) _ (fun x hx runner hkey => ?_)
        result hlater
      rcases volume_build hkey with hold | ⟨hsame, hbuilt⟩
      · exact hvolume x hx runner hold
      · rwa [hkeys x hx input hinput (hinjective hsame)]

/-- The fields that `_source_key` hashes one after another: the package name, and the path and
the content of each file. -/
def BuildInput.fields (input : BuildInput ι) : List Bytes :=
  toUtf8 input.package :: (sourceFiles input.tree).flatMap fun file =>
    [toUtf8 (relPath file.1), contentBytes file.2]

/-- The stream is the fields without their boundaries. -/
theorem flatten_fields (input : BuildInput ι) :
    input.fields.flatten = sourceStream input.package input.tree := by
  unfold BuildInput.fields sourceStream
  rw [List.flatten_cons]
  congr 1
  induction sourceFiles input.tree with
  | nil => rfl
  | cons file files ih =>
    rw [List.flatMap_cons, List.flatten_append, ih, List.flatMap_cons]
    simp

/-- Equal streams are fields with moved boundaries. -/
theorem reframed_fields_iff (x y : BuildInput ι) :
    Reframed x.fields y.fields ↔ sourceStream x.package x.tree = sourceStream y.package y.tree := by
  have hx : x.fields ≠ [] := List.cons_ne_nil _ _
  have hy : y.fields ≠ [] := List.cons_ne_nil _ _
  rw [reframed_iff hx hy, flatten_fields, flatten_fields]

/-- Inputs that may share a volume. -/
structure ApartOnVolume (inputs : Set (BuildInput ι)) : Prop where
  /-- A package at a source is built in one image. -/
  oneImage : ∀ x ∈ inputs, ∀ y ∈ inputs, x.package = y.package → x.tree = y.tree →
    x.image = y.image
  /-- No other package or source has the same fields up to their boundaries. -/
  boundaries : ∀ x ∈ inputs, ∀ y ∈ inputs, Reframed x.fields y.fields →
    x.package = y.package ∧ x.tree = y.tree

/-- No key serves two inputs exactly if they may share a volume. -/
theorem apartOnVolume_iff (inputs : Set (BuildInput ι)) :
    ApartOnVolume inputs ↔ ∀ x ∈ inputs, ∀ y ∈ inputs,
      sourceStream x.package x.tree = sourceStream y.package y.tree → x = y := by
  constructor
  · rintro ⟨himage, hboundaries⟩ x hx y hy hstream
    obtain ⟨hpackage, htree⟩ := hboundaries x hx y hy ((reframed_fields_iff x y).mpr hstream)
    have hsame := himage x hx y hy hpackage htree
    obtain ⟨package, tree, image⟩ := x
    obtain ⟨package', tree', image'⟩ := y
    obtain rfl : package = package' := hpackage
    obtain rfl : tree = tree' := htree
    exact congrArg _ hsame
  · intro hkeys
    refine ⟨fun x hx y hy hpackage htree => ?_, fun x hx y hy hframes => ?_⟩
    · rw [hkeys x hx y hy (by rw [hpackage, htree])]
    · obtain rfl := hkeys x hx y hy ((reframed_fields_iff x y).mp hframes)
      exact ⟨rfl, rfl⟩

/-- **Containers that share a volume execute their own runners exactly if no source is built in
two images, and no two sources differ in the boundaries of their fields only.** The build and
the order of the runs are arbitrary. -/
theorem executed_own_runner_iff (inputs : Set (BuildInput ι)) :
    (∀ (κ ρ : Type) (_ : DecidableEq κ) (hash : Bytes → κ), Function.Injective hash →
      ∀ (cargo : BuildInput ι → Option ρ) (runs : List (BuildChance × BuildInput ι)),
        (∀ run ∈ runs, run.2 ∈ inputs) →
        ∀ result ∈ buildAll hash cargo (fun _ => none) runs, result.2 = cargo result.1) ↔
      ApartOnVolume inputs := by
  rw [apartOnVolume_iff]
  refine ⟨fun hown x hx y hy hstream => ?_, fun hkeys κ ρ _ hash hinjective cargo runs hruns => ?_⟩
  · -- a runner that tells what it was built from
    have hrun := hown Bytes (BuildInput ι) inferInstance id Function.injective_id some
      [(⟨true, true, true⟩, x), (⟨true, true, true⟩, y)] (by simp [hx, hy])
    have hsecond := hrun (y, _) (List.mem_cons_of_mem _ List.mem_cons_self)
    have hfirst : (build id some ⟨true, true, true⟩
        (build id some ⟨true, true, true⟩ (fun _ => none) x).2 y).1 = some x :=
      build_after_build rfl hstream.symm
    rw [hfirst] at hsecond
    exact Option.some.inj hsecond
  · exact buildAll_own hinjective hkeys runs hruns _ (by rintro x _ runner ⟨⟩)

/-- The image of a run with a given base image. -/
def runImage (baseImage : Text) : Sdk.ImageSpec :=
  Provision.buildImageSpec Provision.plainHost Provision.runBoundary
    { Provision.plainInputs [] with baseImage := baseImage } []

/-- A container in another image executes the runner of the first image. -/
theorem runner_of_other_image :
    (build id (fun input : BuildInput Sdk.ImageSpec => some input.image.baseImage)
      ⟨true, true, true⟩
      (build id (fun input : BuildInput Sdk.ImageSpec => some input.image.baseImage)
        ⟨true, true, true⟩ (fun _ => none)
        ⟨"hello".toList, smallPackage, runImage "rust:1".toList⟩).2
      ⟨"hello".toList, smallPackage, runImage "rust:2".toList⟩).1 =
        some (runImage "rust:1".toList).baseImage ∧
    (runImage "rust:1".toList).baseImage ≠ (runImage "rust:2".toList).baseImage :=
  ⟨build_after_build rfl rfl, by decide⟩

end ModalRust.RunWrapper
