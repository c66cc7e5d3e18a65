import ModalRust.Provision.DeployTranscript
import ModalRust.Provision.Dump

/-!
# When the dry run shows the deploy

Both the live control plane and the recording one follow the transcript of a deploy. So the
dry run shows what a deploy sends exactly if both prepare the same inputs, up to the lines
of the base layer, and the live control plane finds the stub source that the dry run always
records. The two preparations differ in the FastAPI step of web endpoints, which only the
deploy appends, and in the function that stands in for an empty list of entrypoints.
-/

namespace ModalRust.Provision

open ModalRust.Sdk ModalRust.Session

variable {σ : Type}

/-- What a live control plane sends, up to ids. -/
def liveObs (std : Std) (floats : Floats) (w : PlaneWorld σ) : List PlannedRequest :=
  (w.log.flatMap (sentBy std floats)).map PlannedRequest.upToIds

/-- What the recording control plane records, up to ids. -/
def recordedObs (w : PlaneWorld Recorder) : List PlannedRequest :=
  w.server.requests.map PlannedRequest.upToIds

/-- The live control plane sends what is planned. -/
theorem follows_liveControlPlane (std : Std) (floats : Floats) (backend : Backend σ) :
    Follows std floats (liveControlPlane backend) (liveObs std floats) backend.stubFound where
  own _ _ := rfl
  sends request hsends w := by
    have hshown (reply : Except Error request.Reply) (s : σ)
        (hsent : sentBy std floats ⟨request, reply⟩ = [request.planned std floats]) :
        liveObs std floats (w.answered s request reply) =
          liveObs std floats w ++ [(request.planned std floats).upToIds] := by
      simp [liveObs, hsent]
    cases request with
    | ensureApp appName preResolved state =>
      cases state with
      | deployed => cases preResolved <;> exact ⟨_, _, rfl, trivial, hshown _ _ rfl⟩
      | ephemeral =>
        cases preResolved with
        | none => exact ⟨_, _, rfl, trivial, hshown _ _ rfl⟩
        | some appId => rcases hsends with hstate | hnone <;> contradiction
    | ensurePrebuildMount source remotePath => exact absurd hsends id
    | _ => exact ⟨_, _, rfl, trivial, hshown _ _ rfl⟩
  stub source remotePath w := by
    cases hfound : source.useCargoScoping && backend.stubFound source with
    | false =>
      refine ⟨none, w.answered w.server (.ensurePrebuildMount source remotePath) (.ok none), ?_,
        rfl, ?_⟩
      · simp [ask, liveControlPlane, hfound]
      · simp [liveObs, sentBy]
    | true =>
      let answer := backend.answer (.ensurePrebuildMount source remotePath) w.server
      refine ⟨some answer.1, w.answered answer.2 (.ensurePrebuildMount source remotePath)
        (.ok (some answer.1)), ?_, rfl, ?_⟩
      · simp [ask, liveControlPlane, hfound, answer]
      · simp [liveObs, sentBy, Request.planned, PlannedRequest.upToIds]

/-- The recording control plane records what is planned, and always finds a stub source. -/
theorem follows_recordingControlPlane (std : Std) (floats : Floats) :
    Follows std floats (recordingControlPlane std floats) recordedObs fun _ => true where
  own _ _ := rfl
  sends request hsends w := by
    have hrecorded (reply : Except Error request.Reply) (s : Recorder)
        (hpushed : s.requests = w.server.requests ++ [request.planned std floats]) :
        recordedObs (w.answered s request reply) =
          recordedObs w ++ [(request.planned std floats).upToIds] := by
      simp [recordedObs, World.answered, hpushed]
    cases request with
    | ensurePrebuildMount source remotePath => exact absurd hsends id
    | _ => exact ⟨_, _, rfl, trivial, hrecorded _ _ rfl⟩
  stub source remotePath w := by
    cases hscoping : source.useCargoScoping with
    | false =>
      refine ⟨none, w.answered w.server (.ensurePrebuildMount source remotePath) (.ok none), ?_,
        rfl, ?_⟩
      · simp [ask, recordingControlPlane, hscoping]
      · simp [recordedObs, World.answered]
    | true =>
      let answer := w.server.answer
        ((Request.ensurePrebuildMount source remotePath).planned std floats) "mo-".toList
      refine ⟨some answer.1, w.answered answer.2 (.ensurePrebuildMount source remotePath)
        (.ok (some answer.1)), ?_, rfl, ?_⟩
      · simp [ask, recordingControlPlane, hscoping, answer]
      · simp [recordedObs, World.answered, answer, Recorder.answer, Recorder.nextId, Recorder.push,
          Request.planned, PlannedRequest.upToIds]

/-- What a deploy sends, up to ids. -/
theorem upToIds_deployFunction (host : Host) (floats : Floats) (backend : Backend σ) (s : σ)
    (config : DeployConfig) (entrypoints : List DeployEntrypoint) :
    (deployFunction backend host floats config entrypoints s).map
        (List.map PlannedRequest.upToIds) =
      (deployInputs host config entrypoints).bind
        (deployTranscript host floats backend.stubFound) := by
  unfold deployFunction
  cases deployInputs host config entrypoints with
  | error e => rfl
  | ok inputs =>
    refine Eq.trans ?_ (Shows.transcriptOf_eq (shows_provision
      (follows_liveControlPlane host.std floats backend)) (w := ⟨s, .default, []⟩) rfl)
    simp only [transcriptOf, bind, Except.bind]
    cases provision (liveControlPlane backend) host inputs deployBoundary ⟨s, .default, []⟩ <;> rfl

/-- What the dry run records, up to ids. -/
theorem upToIds_dumpDeployManifest (host : Host) (floats : Floats) (config : DeployConfig)
    (entrypoints : List DeployEntrypoint) :
    (dumpDeployManifest host floats config entrypoints).map
        (fun manifest => manifest.requests.map PlannedRequest.upToIds) =
      (dumpInputs host config entrypoints).bind
        (deployTranscript host floats fun _ => true) := by
  unfold dumpDeployManifest recordProvision
  cases dumpInputs host config entrypoints with
  | error e => rfl
  | ok inputs =>
    refine Eq.trans ?_ (Shows.transcriptOf_eq (shows_provision
      (follows_recordingControlPlane host.std floats)) (w := ⟨.new, .default, []⟩) rfl)
    simp only [transcriptOf, bind, Except.bind]
    cases provision (recordingControlPlane host.std floats) host inputs deployBoundary
      ⟨.new, .default, []⟩ <;> rfl

/-- A FastAPI step is due: there is a web endpoint, and no step installs FastAPI. -/
def pipStepDue (imageSteps : List ImageStep) (entrypointOptions : List FunctionOptions) : Bool :=
  (entrypointOptions.any fun options => options.webhookMethod.isSome) &&
    !imageSteps.any ImageStep.installsFastapi

/-- The options of a function are rejected. -/
def Rejected (std : Std) (options : FunctionOptions) : Prop :=
  ∃ e, acceptOptions std ⟨[], options, 0⟩ = .error e

/-- The source of a deploy. -/
def DeployConfig.source (config : DeployConfig) : SourceInputs :=
  ⟨config.localRoot, config.package, config.useCargoScoping, config.modalignoreName, deploySrc⟩

/-- If the dependencies are to be built in a layer of their own, their stub source is found. -/
def StubSettled (stubFound : SourceInputs → Bool) (config : DeployConfig) : Prop :=
  config.depPrebuild = true → config.useCargoScoping = true → stubFound config.source = true

/-- The dry run and the deploy prepare the same. With entrypoints, the image of the first that
declares one is folded by both, but only the deploy appends a FastAPI step. Without, the deploy
neither folds the image of the configuration's options nor reads their timeout. -/
def PreparesAlike (host : Host) (stubFound : SourceInputs → Bool) (config : DeployConfig) :
    List DeployEntrypoint → Prop
  | [] => ∃ folded, config.withFunctionImage host [config.options.image] = .ok folded ∧
      (Rejected host.std config.options ∨
        folded.baseImage = config.baseImage ∧ folded.installRust = config.installRust ∧
          stepLines folded.imageSteps =
            stepLines (appendEndpointPipStep config.imageSteps [config.options]) ∧
          config.options.timeoutSecs.getD config.timeoutSecs = config.timeoutSecs ∧
          StubSettled stubFound config)
  | first :: rest => ∀ folded,
      config.withFunctionImage host ((first :: rest).map fun ep => ep.options.image) = .ok folded →
        (∃ ep ∈ first :: rest, Rejected host.std ep.options) ∨
          pipStepDue folded.imageSteps ((first :: rest).map DeployEntrypoint.options) = false ∧
            StubSettled stubFound config

/-- A step that is due has a line. -/
theorem stepLines_appendEndpointPipStep_iff {imageSteps : List ImageStep}
    {entrypointOptions : List FunctionOptions} :
    stepLines imageSteps = stepLines (appendEndpointPipStep imageSteps entrypointOptions) ↔
      pipStepDue imageSteps entrypointOptions = false := by
  unfold appendEndpointPipStep pipStepDue
  cases entrypointOptions.any fun options => options.webhookMethod.isSome with
  | false => simp
  | true =>
    cases imageSteps.any ImageStep.installsFastapi with
    | true => simp
    | false =>
      rw [if_pos rfl, if_neg (by simp), stepLines_append]
      have hline : stepLines [.pip [endpointFastapiRequirement]] ≠ [] := by
        simp [stepLines, applyImageSteps, ImageStep.apply, ImageSpec.withPipInstall]
      simpa using hline

/-- Two deploys of the same app and package with the same gates, whose create loops fail with the
same errors. They send the same exactly if the loops fail, or if they build the same base layer,
both or neither build the dependencies in a layer of their own, and they create the same
functions. -/
theorem deployTranscript_eq_iff (host : Host) (floats : Floats)
    (found found' : SourceInputs → Bool) (inputs inputs' : ProvisionInputs)
    (hname : inputs.appName = inputs'.appName)
    (hpackage : inputs.source.package = inputs'.source.package)
    (hbest : inputs.snapshotBestEffort = inputs'.snapshotBestEffort)
    (hgates : deployGates inputs.entrypoints = deployGates inputs'.entrypoints)
    (hfails : ∀ e, createsTranscript host.std floats inputs.appName inputs.entrypoints =
        .error e ↔
      createsTranscript host.std floats inputs'.appName inputs'.entrypoints = .error e) :
    deployTranscript host floats found inputs = deployTranscript host floats found' inputs' ↔
      (∃ e, createsTranscript host.std floats inputs.appName inputs.entrypoints = .error e) ∨
        baseTranscript host inputs = baseTranscript host inputs' ∧
          prebuilds found inputs = prebuilds found' inputs' ∧
          createsTranscript host.std floats inputs.appName inputs.entrypoints =
            createsTranscript host.std floats inputs'.appName inputs'.entrypoints := by
  have htop : topTranscript host inputs = topTranscript host inputs' := by
    unfold topTranscript topLayer
    rw [hpackage, hbest, hgates]
  have htop' : topTranscript host inputs' =
      .imageGetOrCreate (dockerfileCommands (topLayer host inputs' [] [])) 0 := rfl
  unfold deployTranscript
  cases hcreates : createsTranscript host.std floats inputs.appName inputs.entrypoints with
  | error e =>
    rw [(hfails e).mp hcreates]
    exact iff_of_true rfl (.inl ⟨e, rfl⟩)
  | ok functions =>
    cases hcreates' : createsTranscript host.std floats inputs'.appName inputs'.entrypoints with
    | error e =>
      rw [(hfails e).mpr hcreates'] at hcreates
      cases hcreates
    | ok functions' =>
      unfold resolveTranscript prebuildTranscript
      rw [hname, hpackage, htop, htop']
      simp only [Except.map, Except.ok.injEq]
      cases prebuilds found inputs <;> cases prebuilds found' inputs' <;> simp

/-- Folding an image changes the base image, the toolchain and the steps only. -/
theorem exists_eq_of_withFunctionImage {host : Host} {config folded : DeployConfig}
    {images : List (Option Text)} (hfold : config.withFunctionImage host images = .ok folded) :
    ∃ baseImage installRust imageSteps, folded =
      { config with
        baseImage := baseImage
        installRust := installRust
        imageSteps := imageSteps } := by
  unfold DeployConfig.withFunctionImage at hfold
  split at hfold
  · cases hfold
    exact ⟨_, _, _, rfl⟩
  · next spec _ _ =>
    cases himage : applyFunctionImage host config.view (some spec) with
    | error e =>
      rw [himage] at hfold
      cases hfold
    | ok view =>
      rw [himage] at hfold
      cases hfold
      exact ⟨_, _, _, rfl⟩

/-- The function of an entrypoint fails with the error that its options are rejected with. -/
theorem functionTranscript_eq_error_iff {std : Std} {floats : Floats} {appName : Text}
    {ep : Entrypoint} {e : Error} :
    functionTranscript std floats appName ep = .error e ↔
      acceptOptions std ⟨[], ep.options, 0⟩ = .error e := by
  have hsame : acceptOptions std ⟨[], ep.options, 0⟩ = acceptOptions std ep := rfl
  unfold functionTranscript
  rw [hsame]
  cases acceptOptions std ep <;> simp [Except.map]

/-- The function of an entrypoint is not created exactly if its options are rejected. -/
theorem rejected_iff {std : Std} {floats : Floats} {appName : Text} {ep : Entrypoint} :
    (∃ e, functionTranscript std floats appName ep = .error e) ↔ Rejected std ep.options := by
  simp only [functionTranscript_eq_error_iff]
  rfl

/-- The create loop fails exactly if the options of an entrypoint are rejected. -/
theorem exists_rejected_iff {std : Std} {floats : Floats} {appName : Text}
    {entrypoints : List Entrypoint} :
    (∃ e, createsTranscript std floats appName entrypoints = .error e) ↔
      ∃ ep ∈ entrypoints, Rejected std ep.options := by
  unfold createsTranscript
  simp only [inOrder_eq_error_iff, List.mem_map, exists_exists_and_eq_and, rejected_iff]

/-- Both build the dependencies in a layer of their own, or neither does. -/
theorem prebuilds_eq_iff {found : SourceInputs → Bool} {config : DeployConfig}
    {inputs inputs' : ProvisionInputs} (hprebuild : inputs.depPrebuild = config.depPrebuild)
    (hsource : inputs.source = config.source)
    (hprebuild' : inputs'.depPrebuild = config.depPrebuild)
    (hsource' : inputs'.source = config.source) :
    prebuilds (fun _ => true) inputs = prebuilds found inputs' ↔ StubSettled found config := by
  have hscoping : config.source.useCargoScoping = config.useCargoScoping := rfl
  unfold prebuilds StubSettled
  rw [hprebuild, hsource, hprebuild', hsource', hscoping]
  cases config.depPrebuild <;> cases config.useCargoScoping <;> cases found config.source <;> simp

/-- With entrypoints. -/
theorem transcripts_eq_iff_of_cons (host : Host) (floats : Floats) (found : SourceInputs → Bool)
    (config : DeployConfig) (first : DeployEntrypoint) (rest : List DeployEntrypoint) :
    (dumpInputs host config (first :: rest)).bind (deployTranscript host floats fun _ => true) =
        (deployInputs host config (first :: rest)).bind (deployTranscript host floats found) ↔
      PreparesAlike host found config (first :: rest) := by
  have hdump : dumpInputs host config (first :: rest) =
      (config.withFunctionImage host ((first :: rest).map fun ep => ep.options.image)).map
        fun config => config.provisionInputs ((first :: rest).map config.planned) := rfl
  have hprepares : PreparesAlike host found config (first :: rest) ↔ ∀ folded,
      config.withFunctionImage host ((first :: rest).map fun ep => ep.options.image) = .ok folded →
        (∃ ep ∈ first :: rest, Rejected host.std ep.options) ∨
          pipStepDue folded.imageSteps ((first :: rest).map DeployEntrypoint.options) = false ∧
            StubSettled found config := Iff.rfl
  rw [hdump, hprepares, deployInputs]
  cases hfold : config.withFunctionImage host ((first :: rest).map fun ep => ep.options.image) with
  | error e => exact iff_of_true rfl fun _ hok => nomatch hok
  | ok folded =>
    obtain ⟨baseImage, installRust, imageSteps, hfolded⟩ := exists_eq_of_withFunctionImage hfold
    let plan := (first :: rest).map folded.planned
    let imageSteps' := appendEndpointPipStep folded.imageSteps (plan.map Entrypoint.options)
    have hoptions : plan.map Entrypoint.options = (first :: rest).map DeployEntrypoint.options := by
      rw [List.map_map]
      rfl
    have hrejected : (∃ e, createsTranscript host.std floats folded.appName plan = .error e) ↔
        ∃ ep ∈ first :: rest, Rejected host.std ep.options := by
      rw [exists_rejected_iff]
      constructor
      · rintro ⟨_, hplanned, hrejected⟩
        obtain ⟨ep', hep', rfl⟩ := List.mem_map.mp hplanned
        exact ⟨ep', hep', hrejected⟩
      · rintro ⟨ep', hep', hrejected⟩
        exact ⟨folded.planned ep', List.mem_map_of_mem hep', hrejected⟩
    let inputs := folded.provisionInputs plan
    let inputs' := DeployConfig.provisionInputs { folded with imageSteps := imageSteps' } plan
    have hresult := deployTranscript_eq_iff host floats (fun _ => true) found inputs inputs'
      rfl rfl rfl rfl fun _ => Iff.rfl
    have hbase : baseTranscript host inputs = baseTranscript host inputs' ↔
        pipStepDue folded.imageSteps ((first :: rest).map DeployEntrypoint.options) = false := by
      unfold baseTranscript
      rw [PlannedRequest.imageGetOrCreate.injEq, dockerfileCommands_base_eq_iff,
        ← stepLines_appendEndpointPipStep_iff, ← hoptions]
      exact ⟨fun h => h.1.2.2, fun h => ⟨⟨rfl, rfl, h⟩, rfl⟩⟩
    have hprebuilds : prebuilds (fun _ => true) inputs = prebuilds found inputs' ↔
        StubSettled found config := by
      have hprebuild : folded.depPrebuild = config.depPrebuild := by rw [hfolded]
      have hsource : folded.source = config.source := by rw [hfolded]; rfl
      exact prebuilds_eq_iff hprebuild hsource hprebuild hsource
    rw [hbase, hprebuilds] at hresult
    simp only [Except.ok.injEq, forall_eq', ← hrejected]
    exact hresult.trans (or_congr_right ⟨fun h => ⟨h.1, h.2.1⟩, fun h => ⟨h.1, h.2, rfl⟩⟩)

/-- An image that cannot be folded is an error of the configuration. -/
theorem eq_config_of_withFunctionImage {host : Host} {config : DeployConfig}
    {images : List (Option Text)} {e : Error}
    (hfold : config.withFunctionImage host images = .error e) : ∃ message, e = .config message := by
  unfold DeployConfig.withFunctionImage applyFunctionImage at hfold
  split at hfold
  · cases hfold
  · next spec _ _ =>
    cases hread : host.readImageOptions spec with
    | error message =>
      simp only [hread] at hfold
      cases hfold
      exact ⟨_, rfl⟩
    | ok image =>
      simp only [hread] at hfold
      cases hfold

/-- Rejected options are an error of the SDK. -/
theorem eq_sdk_of_functionTranscript {std : Std} {floats : Floats} {appName : Text}
    {ep : Entrypoint} {e : Error}
    (hrejected : functionTranscript std floats appName ep = .error e) :
    ∃ rejection, e = .sdk rejection := by
  unfold functionTranscript acceptOptions at hrejected
  cases hcheck : checkOptions std deployBoundary ep with
  | error rejection =>
    rw [hcheck] at hrejected
    cases hrejected
    exact ⟨rejection, rfl⟩
  | ok checked =>
    rw [hcheck] at hrejected
    cases hrejected

/-- The create request of an entrypoint determines its timeout. -/
theorem createTranscript_eq_iff {std : Std} {floats : Floats} {name : Text}
    {options : FunctionOptions} {timeoutSecs timeoutSecs' : ℕ}
    {checked : Option Schedule × Option FunctionRetryPolicy} :
    createTranscript std floats ⟨name, options, timeoutSecs⟩ checked =
        createTranscript std floats ⟨name, options, timeoutSecs'⟩ checked ↔
      timeoutSecs = timeoutSecs' := by
  refine ⟨fun hsame => ?_, fun hsame => by rw [hsame]⟩
  exact congrArg PlannedCreate.timeoutSecs (PlannedRequest.functionCreate.inj hsame)

/-- Entrypoints that only differ in their timeouts. -/
theorem functionTranscript_eq_iff {std : Std} {floats : Floats} {appName name : Text}
    {options : FunctionOptions} {timeoutSecs timeoutSecs' : ℕ}
    (haccepted : ¬ Rejected std options) :
    functionTranscript std floats appName ⟨name, options, timeoutSecs⟩ =
        functionTranscript std floats appName ⟨name, options, timeoutSecs'⟩ ↔
      timeoutSecs = timeoutSecs' := by
  have hsame (t : ℕ) : acceptOptions std ⟨name, options, t⟩ = acceptOptions std ⟨[], options, 0⟩ :=
    rfl
  unfold functionTranscript
  rw [hsame, hsame]
  cases haccept : acceptOptions std ⟨[], options, 0⟩ with
  | error e => exact absurd ⟨e, haccept⟩ haccepted
  | ok checked =>
    simp only [Except.map, Except.ok.injEq, List.cons.injEq, true_and,
      List.append_cancel_left_eq, and_true]
    exact createTranscript_eq_iff

/-- The create loop of one entrypoint. -/
theorem createsTranscript_singleton (std : Std) (floats : Floats) (appName : Text)
    (ep : Entrypoint) :
    createsTranscript std floats appName [ep] = functionTranscript std floats appName ep := by
  change followedBy _ (.ok []) = _
  cases functionTranscript std floats appName ep with
  | error e => rfl
  | ok requests => exact congrArg Except.ok (List.append_nil requests)

/-- The gates do not depend on timeouts. -/
theorem deployGates_singleton (name : Text) (options : FunctionOptions)
    (timeoutSecs timeoutSecs' : ℕ) :
    deployGates [⟨name, options, timeoutSecs⟩] = deployGates [⟨name, options, timeoutSecs'⟩] := by
  cases hmethod : options.webhookMethod <;> cases hport : options.webServerPort <;>
    simp [deployGates, hmethod, hport]

/-- Without entrypoints. -/
theorem transcripts_eq_iff_of_nil (host : Host) (floats : Floats) (found : SourceInputs → Bool)
    (config : DeployConfig) :
    (dumpInputs host config []).bind (deployTranscript host floats fun _ => true) =
        (deployInputs host config []).bind (deployTranscript host floats found) ↔
      PreparesAlike host found config [] := by
  let ep : Entrypoint := ⟨deployWrapperCallable, config.options, config.timeoutSecs⟩
  let imageSteps' := appendEndpointPipStep config.imageSteps [config.options]
  let inputs' := DeployConfig.provisionInputs { config with imageSteps := imageSteps' } [ep]
  have hdump : dumpInputs host config [] =
      (config.withFunctionImage host [config.options.image]).map fun folded =>
        folded.provisionInputs [folded.planned ⟨deployWrapperCallable, config.options⟩] := rfl
  have hdeploy : (deployInputs host config []).bind (deployTranscript host floats found) =
      deployTranscript host floats found inputs' := rfl
  have hcreates' : createsTranscript host.std floats inputs'.appName inputs'.entrypoints =
      functionTranscript host.std floats config.appName ep := createsTranscript_singleton ..
  rw [hdump, hdeploy, PreparesAlike]
  cases hfold : config.withFunctionImage host [config.options.image] with
  | error e =>
    refine iff_of_false (fun hsame => ?_) fun ⟨_, hok, _⟩ => nomatch hok
    obtain ⟨message, rfl⟩ := eq_config_of_withFunctionImage hfold
    change Except.error (Error.config message) = deployTranscript host floats found inputs' at hsame
    rw [deployTranscript, hcreates'] at hsame
    cases hfunction : functionTranscript host.std floats config.appName ep with
    | error e =>
      obtain ⟨rejection, rfl⟩ := eq_sdk_of_functionTranscript hfunction
      rw [hfunction] at hsame
      cases hsame
    | ok requests =>
      rw [hfunction] at hsame
      cases hsame
  | ok folded =>
    obtain ⟨baseImage, installRust, imageSteps, hfolded⟩ := exists_eq_of_withFunctionImage hfold
    have hname : folded.appName = config.appName := by rw [hfolded]
    have hpackage : folded.package = config.package := by rw [hfolded]
    have hbest : folded.snapshotBestEffort = config.snapshotBestEffort := by rw [hfolded]
    have htimeout : folded.timeoutSecs = config.timeoutSecs := by rw [hfolded]
    have hprebuild : folded.depPrebuild = config.depPrebuild := by rw [hfolded]
    have hsource : folded.source = config.source := by rw [hfolded]; rfl
    let ep' : Entrypoint := folded.planned ⟨deployWrapperCallable, config.options⟩
    let inputs := folded.provisionInputs [ep']
    have hcreates : createsTranscript host.std floats inputs.appName inputs.entrypoints =
        functionTranscript host.std floats config.appName ep' := by
      rw [← hname]
      exact createsTranscript_singleton ..
    have hresult := deployTranscript_eq_iff host floats (fun _ => true) found inputs inputs' hname
      hpackage hbest (deployGates_singleton ..)
    have hbase : baseTranscript host inputs = baseTranscript host inputs' ↔
        folded.baseImage = config.baseImage ∧ folded.installRust = config.installRust ∧
          stepLines folded.imageSteps = stepLines imageSteps' := by
      unfold baseTranscript
      rw [PlannedRequest.imageGetOrCreate.injEq, dockerfileCommands_base_eq_iff]
      exact and_iff_left rfl
    have hprebuilds : prebuilds (fun _ => true) inputs = prebuilds found inputs' ↔
        StubSettled found config := prebuilds_eq_iff hprebuild hsource rfl rfl
    rw [hcreates, hcreates', hbase, hprebuilds] at hresult
    have hrejected : (∃ e, functionTranscript host.std floats config.appName ep' = .error e) ↔
        Rejected host.std config.options := rejected_iff
    have hfails (e : Error) : functionTranscript host.std floats config.appName ep' = .error e ↔
        functionTranscript host.std floats config.appName ep = .error e := by
      have hdump : functionTranscript host.std floats config.appName ep' = .error e ↔
          acceptOptions host.std ⟨[], config.options, 0⟩ = .error e :=
        functionTranscript_eq_error_iff
      have hdeploy : functionTranscript host.std floats config.appName ep = .error e ↔
          acceptOptions host.std ⟨[], config.options, 0⟩ = .error e :=
        functionTranscript_eq_error_iff
      exact hdump.trans hdeploy.symm
    have hcreate (haccepted : ¬ Rejected host.std config.options) :
        functionTranscript host.std floats config.appName ep' =
          functionTranscript host.std floats config.appName ep ↔
            config.options.timeoutSecs.getD folded.timeoutSecs = config.timeoutSecs :=
      functionTranscript_eq_iff haccepted
    rw [htimeout] at hcreate
    rw [hrejected] at hresult
    refine (hresult hfails).trans ?_
    by_cases hreject : Rejected host.std config.options
    · exact iff_of_true (.inl hreject) ⟨folded, rfl, .inl hreject⟩
    · rw [hcreate hreject]
      constructor
      · rintro (hreject | ⟨⟨himage, hrust, hsteps⟩, hstub, htimeout⟩)
        · contradiction
        · exact ⟨folded, rfl, .inr ⟨himage, hrust, hsteps, htimeout, hstub⟩⟩
      · rintro ⟨_, hok, hreject | ⟨himage, hrust, hsteps, htimeout, hstub⟩⟩
        · contradiction
        · cases hok
          exact .inr ⟨⟨himage, hrust, hsteps⟩, hstub, htimeout⟩

/-- **When the dry run shows the deploy.** For every configuration, every list of entrypoints and
every backend, the dry run shows what the deploy sends, up to ids, exactly if both prepare the
same. -/
theorem dump_eq_deploy_iff (host : Host) (floats : Floats) (backend : Backend σ) (s : σ)
    (config : DeployConfig) (entrypoints : List DeployEntrypoint) :
    (dumpDeployManifest host floats config entrypoints).map
          (fun manifest => manifest.requests.map PlannedRequest.upToIds) =
        (deployFunction backend host floats config entrypoints s).map
          (List.map PlannedRequest.upToIds) ↔
      PreparesAlike host backend.stubFound config entrypoints := by
  rw [upToIds_dumpDeployManifest, upToIds_deployFunction]
  cases entrypoints with
  | nil => exact transcripts_eq_iff_of_nil host floats backend.stubFound config
  | cons first rest =>
    exact transcripts_eq_iff_of_cons host floats backend.stubFound config first rest

/-- A backend that counts its answers and finds no stub source. -/
def countingBackend : Backend ℕ where
  stubFound := fun _ => false
  answer := fun _ n => (Nat.toDigits 10 n, n + 1)
  created := fun _ n => (⟨Nat.toDigits 10 n, [], []⟩, n + 1)

/-- A configuration with the defaults of a package without cargo scoping. -/
def plainDeployConfig : DeployConfig where
  appName := "app".toList
  localRoot := ".".toList
  package := "hello".toList
  useCargoScoping := false
  modalignoreName := ".modalignore".toList
  baseImage := "rust:1".toList
  timeoutSecs := 300
  installRust := false
  imageSteps := []
  snapshotBestEffort := false
  depPrebuild := true
  options := .default

/-- A web endpoint. -/
def hookEntrypoint : DeployEntrypoint :=
  ⟨"hook".toList, { FunctionOptions.default with webhookMethod := some "POST".toList }⟩

/-- The dry run of an app with one web endpoint shows no FastAPI step. -/
theorem dump_lacks_fastapi_step :
    (dumpDeployManifest plainHost noFloats plainDeployConfig [hookEntrypoint]).map
        (fun manifest => manifest.requests.map PlannedRequest.upToIds) ≠
      (deployFunction countingBackend plainHost noFloats plainDeployConfig [hookEntrypoint] 0).map
        (List.map PlannedRequest.upToIds) := by
  decide +kernel

end ModalRust.Provision
