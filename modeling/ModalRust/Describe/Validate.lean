import ModalRust.Describe.Verify
import ModalRust.JsonNumber
import ModalRust.Machine

/-!
# Checking an input before the call

`modal-rust run` asks the runner of the described manifest to decode the input, and stops
when it cannot. The manifests in the cache belong to states of the sources, but there is
one pinned runner for a package: the one that was built last. After a return to an earlier
state, the manifest is found in the cache and the input is checked by another state's
runner.
-/

namespace ModalRust.Describe

/-- What a runner does when it is asked to check an input. -/
structure CheckOutput where
  /-- Whether the exit status is zero. -/
  success : Bool
  /-- The standard output. -/
  stdout : Text

/-- Why a run of the CLI ends before the call. -/
inductive RunError
  /-- There is no manifest. -/
  | describe (error : DescribeError)
  /-- The manifest has no such entrypoint. -/
  | unknownEntrypoint (name : Text) (known : List Text)
  /-- The input does not match the entrypoint. -/
  | mismatch (entrypoint detail : Text)
  deriving DecidableEq

/-- A line that is followed by a newline, without its carriage return. -/
def stripReturn (line : Text) : Text :=
  if line.getLast? = some '\r' then line.dropLast else line

/-- `str::lines`. -/
def lines (t : Text) : List Text :=
  let pieces := t.splitOn '\n'
  pieces.dropLast.map stripReturn ++ pieces.getLast?.toList.filter (· ≠ [])

/-- A field of an envelope's error that is a text. -/
def errorField (field : Text) (envelope : Option Json) : Option Text := do
  let error ← (← envelope).get "error".toList
  (← error.get field).asStr

/-- `validate_input_locally`. The runner's answer is missing if it could not be started. -/
def validateInputLocally (readFloat : Literal → Option FloatText) (output : Option CheckOutput)
    (entrypoint : Text) : Except RunError Unit :=
  match output with
  | none => .ok ()
  | some output =>
    if output.success then .ok ()
    else
      let envelope := (lines output.stdout).reverse.findSome? (fromStr readFloat)
      if errorField "kind".toList envelope = some "unknown_entrypoint".toList then .ok ()
      else
        .error (.mismatch entrypoint
          ((errorField "message".toList envelope).getD (trim output.stdout)))

/-- Where the manifest comes from. -/
inductive ManifestSource
  /-- No build: the manifest is given by a file or by flags, unless it cannot be read. -/
  | noLocalBuild (manifest : Except DescribeError Manifest)
  /-- `--verify-manifest`. -/
  | verifyManifest
  /-- `--remote-describe`. -/
  | remoteDescribe
  /-- The default. -/
  | buildAndDescribe

/-- What the states of the sources and the runners do. -/
structure Workbench (σ κ ρ : Type) where
  /-- `serde_json::from_slice` for manifests. -/
  fromSlice : Bytes → Option Manifest
  /-- How a decimal text is read as a float. -/
  readFloat : Literal → Option FloatText
  /-- The package in a state of the sources. -/
  project : σ → Project κ
  /-- The runner that is built from a state, unless the build fails. -/
  runner : σ → Option ρ
  /-- What a runner prints when it is asked for its manifest. -/
  describe : ρ → Option Bytes
  /-- What a runner answers for an entrypoint and an input. -/
  check : ρ → Text → Text → Option CheckOutput

/-- A call that was stopped by the validation. -/
structure RejectedCall (σ : Type) where
  /-- The sources at the time. -/
  source : σ
  /-- The entrypoint. -/
  entrypoint : Text
  /-- The input. -/
  input : Text
  deriving DecidableEq

/-- The sources of one package and its target directory. -/
structure Workstation (σ κ ρ : Type) where
  /-- The sources. -/
  source : σ
  /-- The target directory. -/
  dir : TargetDir κ ρ
  /-- The calls that were rejected so far. -/
  rejected : List (RejectedCall σ)

/-- What happens at the workstation. -/
inductive WorkAction (σ ρ : Type)
  /-- The sources are edited, reverted, or replaced by another branch. -/
  | edit (source : σ)
  /-- `cargo clean`. -/
  | clean
  /-- `modal-rust run`. -/
  | run (source : ManifestSource) (linked : Bool) (remote : Option ρ) (entrypoint input : Text)
  /-- `modal-rust deploy`, which checks no input. -/
  | deploy (source : ManifestSource) (linked : Bool) (remote : Option ρ)

variable {σ κ ρ : Type}

section Step

variable [DecidableEq κ] (wb : Workbench σ κ ρ)

/-- `describe_outcome`. -/
def describeOutcome (source : ManifestSource) (project : Project κ) (build : LocalBuild ρ)
    (remote : Option ρ) (dir : TargetDir κ ρ) :
    Except DescribeError (DescribeOutcome ρ) × TargetDir κ ρ :=
  match source with
  | .noLocalBuild manifest => (manifest.map fun manifest => ⟨manifest, none⟩, dir)
  | .verifyManifest => verifyManifestOutcome wb.fromSlice wb.describe project build remote dir
  | .remoteDescribe => remoteDescribeOutcome wb.fromSlice wb.describe project remote dir
  | .buildAndDescribe => buildAndDescribe wb.fromSlice wb.describe project build dir

/-- `cmd_run_programmatic`, as far as the call. -/
def cmdRun (source : ManifestSource) (project : Project κ) (build : LocalBuild ρ)
    (remote : Option ρ) (entrypoint input : Text) (dir : TargetDir κ ρ) :
    Except RunError Unit × TargetDir κ ρ :=
  match describeOutcome wb source project build remote dir with
  | (.error e, dir) => (.error (.describe e), dir)
  | (.ok outcome, dir) =>
    let known := outcome.manifest.entrypoints.map ManifestEntry.name
    if entrypoint ∉ known then (.error (.unknownEntrypoint entrypoint known), dir)
    else
      match outcome.runnerBin with
      | none => (.ok (), dir)
      | some runner =>
        (validateInputLocally wb.readFloat (wb.check runner entrypoint input) entrypoint, dir)

/-- One step at the workstation. -/
def workStep (s : Workstation σ κ ρ) : WorkAction σ ρ → Option (Workstation σ κ ρ)
  | .edit source => some { s with source := source }
  | .clean => some { s with dir := { s.dir with entries := fun _ => none, pin := none } }
  | .run source linked remote entrypoint input =>
    match cmdRun wb source (wb.project s.source) ⟨wb.runner s.source, linked⟩ remote entrypoint
      input s.dir with
    | (.error (.mismatch _ _), dir) =>
      some { s with dir := dir, rejected := s.rejected ++ [⟨s.source, entrypoint, input⟩] }
    | (_, dir) => some { s with dir := dir }
  | .deploy source linked remote =>
    some { s with
      dir := (describeOutcome wb source (wb.project s.source) ⟨wb.runner s.source, linked⟩ remote
        s.dir).2 }

end Step

/-- The entrypoint in the sources accepts the input: their runner decodes it. -/
def Workbench.Accepts (wb : Workbench σ κ ρ) (source : σ) (entrypoint input : Text) : Prop :=
  ∃ runner output, wb.runner source = some runner ∧
    wb.check runner entrypoint input = some output ∧ output.success = true

/-- The manifest is described locally. -/
def ManifestSource.isLocal : ManifestSource → Bool
  | .verifyManifest | .buildAndDescribe => true
  | _ => false

/-- A local description that finds its manifest in the cache finds no pinned runner, or the one
of the current sources. -/
def PinCurrent (wb : Workbench σ κ ρ) (s : Workstation σ κ ρ) : WorkAction σ ρ → Prop
  | .run source _ _ _ _ =>
    source.isLocal = true → (consult wb.fromSlice s.dir (wb.project s.source).key).isSome = true →
      s.dir.pin = none ∨ s.dir.pin = wb.runner s.source
  | _ => True

instance [DecidableEq ρ] (wb : Workbench σ κ ρ) (s : Workstation σ κ ρ) :
    ∀ action : WorkAction σ ρ, Decidable (PinCurrent wb s action)
  | .run source _ _ _ _ => inferInstanceAs (Decidable (source.isLocal = true →
      (consult wb.fromSlice s.dir (wb.project s.source).key).isSome = true →
        s.dir.pin = none ∨ s.dir.pin = wb.runner s.source))
  | .edit _ => isTrue trivial
  | .clean => isTrue trivial
  | .deploy .. => isTrue trivial

section Lemmas

/-- The runner of a local description is the pinned one if the manifest was in the cache, and
else the one that was built. -/
theorem runnerBin_buildAndDescribe [DecidableEq κ] {fromSlice : Bytes → Option Manifest}
    {describe : ρ → Option Bytes} {project : Project κ} {build : LocalBuild ρ}
    {dir dir' : TargetDir κ ρ} {outcome : DescribeOutcome ρ}
    (hok : buildAndDescribe fromSlice describe project build dir = (.ok outcome, dir')) :
    (consult fromSlice dir project.key).isSome = true ∧ outcome.runnerBin = dir.pin ∨
      outcome.runnerBin = build.runner := by
  unfold buildAndDescribe at hok
  split_ifs at hok with hrunnable
  · cases hok
  · cases hconsult : consult fromSlice dir project.key with
    | some manifest =>
      cases hcheck : checkEntrypoints project.package manifest with
      | error e =>
        simp only [hconsult, hcheck] at hok
        cases hok
      | ok _ =>
        simp only [hconsult, hcheck] at hok
        cases hok
        exact .inl ⟨rfl, rfl⟩
    | none =>
      cases hrunner : build.runner with
      | none =>
        simp only [hconsult, hrunner] at hok
        cases hok
      | some runner =>
        cases hdescribe : describe runner with
        | none =>
          simp only [hconsult, hrunner, hdescribe] at hok
          cases hok
        | some bytes =>
          cases hread : readManifest fromSlice project.package bytes with
          | error e =>
            simp only [hconsult, hrunner, hdescribe, hread] at hok
            cases hok
          | ok manifest =>
            simp only [hconsult, hrunner, hdescribe, hread] at hok
            cases hok
            exact .inr rfl

/-- A verification that succeeds returns the local outcome. -/
theorem buildAndDescribe_of_verify [DecidableEq κ] {fromSlice : Bytes → Option Manifest}
    {describe : ρ → Option Bytes} {project : Project κ} {build : LocalBuild ρ}
    {remote : Option ρ} {dir dir' : TargetDir κ ρ} {outcome : DescribeOutcome ρ}
    (hok : verifyManifestOutcome fromSlice describe project build remote dir =
      (.ok outcome, dir')) :
    ∃ between, buildAndDescribe fromSlice describe project build dir = (.ok outcome, between) := by
  unfold verifyManifestOutcome at hok
  rcases hlocal : buildAndDescribe fromSlice describe project build dir with
    ⟨locally | locally, between⟩
  · rw [hlocal] at hok
    cases hok
  · rcases hremote : remoteDescribeOutcome fromSlice describe project remote between with
      ⟨remotely | remotely, after⟩
    · simp only [hlocal, hremote] at hok
      cases hok
    · cases hdiff : diffManifests locally.manifest remotely.manifest with
      | error e =>
        simp only [hlocal, hremote, hdiff] at hok
        cases hok
      | ok _ =>
        simp only [hlocal, hremote, hdiff] at hok
        cases hok
        exact ⟨between, rfl⟩

/-- Where the runner of an outcome comes from. -/
theorem runnerBin_describeOutcome [DecidableEq κ] {wb : Workbench σ κ ρ} {source : ManifestSource}
    {project : Project κ} {build : LocalBuild ρ} {remote : Option ρ} {dir dir' : TargetDir κ ρ}
    {outcome : DescribeOutcome ρ}
    (hok : describeOutcome wb source project build remote dir = (.ok outcome, dir')) :
    outcome.runnerBin = none ∨ source.isLocal = true ∧
      ((consult wb.fromSlice dir project.key).isSome = true ∧ outcome.runnerBin = dir.pin ∨
        outcome.runnerBin = build.runner) := by
  cases source with
  | noLocalBuild manifest =>
    left
    cases manifest with
    | error e => cases hok
    | ok manifest =>
      cases hok
      rfl
  | verifyManifest =>
    obtain ⟨between, hlocal⟩ := buildAndDescribe_of_verify hok
    exact .inr ⟨rfl, runnerBin_buildAndDescribe hlocal⟩
  | remoteDescribe =>
    left
    simp only [describeOutcome, remoteDescribeOutcome] at hok
    cases hconsult : consult wb.fromSlice dir project.key with
    | some manifest =>
      cases hcheck : checkEntrypoints project.package manifest with
      | error e =>
        simp only [hconsult, hcheck] at hok
        cases hok
      | ok _ =>
        simp only [hconsult, hcheck] at hok
        cases hok
        rfl
    | none =>
      cases hdescribe : remote.bind wb.describe with
      | none =>
        simp only [hconsult, hdescribe] at hok
        cases hok
      | some bytes =>
        cases hread : readManifest wb.fromSlice project.package bytes with
        | error e =>
          simp only [hconsult, hdescribe, hread] at hok
          cases hok
        | ok manifest =>
          simp only [hconsult, hdescribe, hread] at hok
          cases hok
          rfl
  | buildAndDescribe => exact .inr ⟨rfl, runnerBin_buildAndDescribe hok⟩

/-- A rejected run has asked a runner that did not decode the input. -/
theorem exists_runner_of_mismatch [DecidableEq κ] {wb : Workbench σ κ ρ} {source : ManifestSource}
    {project : Project κ} {build : LocalBuild ρ} {remote : Option ρ} {entrypoint input : Text}
    {dir dir' : TargetDir κ ρ} {name detail : Text}
    (hrejected : cmdRun wb source project build remote entrypoint input dir =
      (.error (.mismatch name detail), dir')) :
    ∃ (outcome : DescribeOutcome ρ) (between : TargetDir κ ρ) (runner : ρ),
      describeOutcome wb source project build remote dir = (.ok outcome, between) ∧
        outcome.runnerBin = some runner ∧
        ∀ output, wb.check runner entrypoint input = some output → output.success = false := by
  unfold cmdRun at hrejected
  rcases hdescribe : describeOutcome wb source project build remote dir with
    ⟨outcome | outcome, between⟩
  · rw [hdescribe] at hrejected
    cases hrejected
  · simp only [hdescribe] at hrejected
    split_ifs at hrejected with hknown
    · cases hrunner : outcome.runnerBin with
      | none =>
        rw [hrunner] at hrejected
        cases hrejected
      | some runner =>
        refine ⟨outcome, between, runner, rfl, hrunner, fun output houtput => ?_⟩
        by_contra hsuccess
        rw [Bool.not_eq_false] at hsuccess
        simp only [hrunner, houtput, validateInputLocally, hsuccess, if_true] at hrejected
        cases hrejected
    · cases hrejected

/-- A run whose pinned runner is current rejects no call that the sources accept. -/
theorem not_accepts_of_mismatch [DecidableEq κ] {wb : Workbench σ κ ρ} {s : Workstation σ κ ρ}
    {source : ManifestSource} {linked : Bool} {remote : Option ρ} {entrypoint input : Text}
    (hcurrent : PinCurrent wb s (.run source linked remote entrypoint input))
    {name detail : Text} {dir' : TargetDir κ ρ}
    (hrejected : cmdRun wb source (wb.project s.source) ⟨wb.runner s.source, linked⟩ remote
      entrypoint input s.dir = (.error (.mismatch name detail), dir')) :
    ¬wb.Accepts s.source entrypoint input := by
  rintro ⟨current, output, hbuilt, hcheck, hsuccess⟩
  obtain ⟨outcome, between, runner, hdescribe, hrunner, hfails⟩ :=
    exists_runner_of_mismatch hrejected
  have hsame : runner = current := by
    rcases runnerBin_describeOutcome hdescribe with hnone | ⟨hlocal, hpin | hfresh⟩
    · rw [hrunner] at hnone
      cases hnone
    · rcases hcurrent hlocal hpin.1 with hnone | hpinned
      · rw [hpin.2, hnone] at hrunner
        cases hrunner
      · rw [hpin.2, hpinned, hbuilt] at hrunner
        exact (Option.some.inj hrunner).symm
    · rw [hfresh] at hrunner
      exact Option.some.inj (hrunner.symm.trans hbuilt)
  rw [hfails output (hsame ▸ hcheck)] at hsuccess
  exact absurd hsuccess Bool.false_ne_true

/-- No call in the record was accepted by the sources of its time. -/
def OnlyInvalidRejected (wb : Workbench σ κ ρ) (s : Workstation σ κ ρ) : Prop :=
  ∀ call ∈ s.rejected, ¬wb.Accepts call.source call.entrypoint call.input

/-- A step at the workstation rejects no valid call if the pinned runner is current. -/
theorem workStep_onlyInvalidRejected [DecidableEq κ] {wb : Workbench σ κ ρ}
    {s t : Workstation σ κ ρ} {action : WorkAction σ ρ} (hs : OnlyInvalidRejected wb s)
    (hcurrent : PinCurrent wb s action) (hstep : workStep wb s action = some t) :
    OnlyInvalidRejected wb t := by
  cases action with
  | edit source =>
    obtain rfl := Option.some.inj hstep
    exact hs
  | clean =>
    obtain rfl := Option.some.inj hstep
    exact hs
  | deploy source linked remote =>
    obtain rfl := Option.some.inj hstep
    exact hs
  | run source linked remote entrypoint input =>
    simp only [workStep] at hstep
    split at hstep
    · next hrejected =>
      obtain rfl := Option.some.inj hstep
      intro call hcall
      rcases List.mem_append.mp hcall with hbefore | hnow
      · exact hs call hbefore
      · obtain rfl := List.mem_singleton.mp hnow
        exact not_accepts_of_mismatch hcurrent hrejected
    · obtain rfl := Option.some.inj hstep
      exact hs

end Lemmas

/-- **Valid calls are not rejected**: in every history of edits, cleans, runs and deploys in
which a local description that finds its manifest in the cache finds no pinned runner or the one
of the current sources, every rejected call was one that the sources did not accept. -/
theorem rejected_calls_invalid [DecidableEq κ] {wb : Workbench σ κ ρ} {s t : Workstation σ κ ρ}
    {history : List (WorkAction σ ρ)} (hstart : s.rejected = [])
    (hcurrent : Machine.Guarded (workStep wb) (PinCurrent wb) s history)
    (hrun : Machine.run (workStep wb) s history = some t) :
    ∀ call ∈ t.rejected, ¬wb.Accepts call.source call.entrypoint call.input := by
  have hnone : OnlyInvalidRejected wb s := by
    intro call hcall
    rw [hstart] at hcall
    cases hcall
  exact Machine.run_invariant (I := OnlyInvalidRejected wb)
    (fun _ _ _ hs hok hstep => workStep_onlyInvalidRejected hs hok hstep) hnone hcurrent hrun

/-- A package whose entrypoint `a` accepts the number of the state that the sources are in. -/
def sampleBench : Workbench ℕ ℕ ℕ where
  fromSlice := readSample
  readFloat _ := none
  project state := ⟨"app".toList, true, some state⟩
  runner := some
  describe _ := printSample "a".toList
  check runner _ input :=
    if input = Nat.toDigits 10 runner then some ⟨true, "\x7b\"ok\":true\x7d\n".toList⟩
    else some ⟨false, "\x7b\"error\":\x7b\"kind\":\"decode_error\"\x7d\x7d\n".toList⟩

/-- Call the entrypoint with an input. -/
def sampleRun (input : Text) : WorkAction ℕ ℕ :=
  .run .buildAndDescribe true none "a".toList input

/-- The sources in state `0`, and an empty target directory. -/
def sampleStation : Workstation ℕ ℕ ℕ := ⟨0, ⟨fun _ => none, none, true⟩, []⟩

/-- An edit and its revert, with a clean before the next run. -/
theorem rejected_calls_invalid_after_clean :
    ∃ t, Machine.run (workStep sampleBench) sampleStation [sampleRun "0".toList, .edit 1,
        sampleRun "1".toList, .edit 0, .clean, sampleRun "0".toList, sampleRun "0".toList] =
          some t ∧
      ∀ call ∈ t.rejected, ¬sampleBench.Accepts call.source call.entrypoint call.input := by
  have hsome : (Machine.run (workStep sampleBench) sampleStation [sampleRun "0".toList, .edit 1,
      sampleRun "1".toList, .edit 0, .clean, sampleRun "0".toList,
      sampleRun "0".toList]).isSome = true := by decide +kernel
  obtain ⟨t, ht⟩ := Option.isSome_iff_exists.mp hsome
  exact ⟨t, ht, rejected_calls_invalid rfl (by decide +kernel) ht⟩

/-- An edit and its revert without a clean: the call that was good before the edit is rejected. -/
theorem valid_call_rejected :
    (Machine.run (workStep sampleBench) sampleStation [sampleRun "0".toList, .edit 1,
        sampleRun "1".toList, .edit 0, sampleRun "0".toList]).map Workstation.rejected =
      some [⟨0, "a".toList, "0".toList⟩] ∧
    sampleBench.Accepts 0 "a".toList "0".toList :=
  ⟨by decide +kernel, 0, _, rfl, rfl, rfl⟩

end ModalRust.Describe
