import ModalRust.Provision.Planned
import ModalRust.Transcript

/-!
# The transcript of a deploy

What a deploy sends is the same for all control planes, up to ids. The control planes may
only differ in whether they find the stub source of the dependency layer.
-/

namespace ModalRust.Provision

open ModalRust.Sdk ModalRust.Session

/-- A call of the control plane that always sends a request: not the resolution of an app that is
there already, and not the upload of a stub source. -/
def Request.AlwaysSends : Request → Prop
  | .ensureApp _ preResolved state => state = .deployed ∨ preResolved = none
  | .ensurePrebuildMount _ _ => False
  | _ => True

variable {σ : Type} {std : Std} {floats : Floats}

/-- The control plane answers every call, and what is observed of it are the requests that it
sends, up to ids. It uploads the stub sources that are found. -/
structure Follows (std : Std) (floats : Floats) (plane : ControlPlane σ)
    (obs : PlaneWorld σ → List PlannedRequest) (found : SourceInputs → Bool) : Prop where
  /-- The published functions are not observed. -/
  own : ∀ (w : PlaneWorld σ) published, obs { w with own := published } = obs w
  /-- Requests that are always sent. -/
  sends : ∀ request : Request, request.AlwaysSends →
    Shows obs (ask plane request) (.ok [(request.planned std floats).upToIds]) fun _ => True
  /-- Stub sources. -/
  stub : ∀ source remotePath,
    Shows obs (ask plane (.ensurePrebuildMount source remotePath))
      (.ok (if source.useCargoScoping && found source then [.mountGetOrCreate .prebuildStub]
        else []))
      fun mount : Option Text => mount.isSome = (source.useCargoScoping && found source)

/-- The requests for the secrets of an entrypoint. -/
def secretTranscript (appName objectTag : Text) (options : FunctionOptions) :
    List PlannedRequest :=
  (options.secrets.map fun name => .secretGetOrCreate name options.requiredKeys false) ++
    if options.env.isEmpty then []
    else [.secretGetOrCreate (inlineSecretName appName objectTag) [] true]

/-- The requests for the volumes of an entrypoint. -/
def volumeTranscript (volumes : List (Text × Text)) : List PlannedRequest :=
  volumes.map fun volume => .volumeGetOrCreate volume.2 false

/-- The resources of an entrypoint of a deploy, with empty ids. -/
def noIds (options : FunctionOptions) : AttachedResources where
  clientMountId := []
  sourceMountId := []
  cacheVolId := none
  secretIds := List.replicate (options.secrets.length + if options.env.isEmpty then 0 else 1) []
  userVolumeMounts := options.volumes.map fun volume => ([], volume.1)

/-- The create request of an entrypoint, from its checked options. -/
def createTranscript (std : Std) (floats : Floats) (ep : Entrypoint)
    (checked : Option Schedule × Option FunctionRetryPolicy) : PlannedRequest :=
  ((Request.create [] []
    (functionSpecOf deployBoundary ep [] (noIds ep.options) checked.1 checked.2)).planned std
      floats).upToIds

/-- The options of an entrypoint are rejected, or accepted with what is read from them. -/
def acceptOptions (std : Std) (ep : Entrypoint) :
    Except Error (Option Schedule × Option FunctionRetryPolicy) :=
  (checkOptions std deployBoundary ep).mapError Error.sdk

/-- The requests for the function of one entrypoint, or the error that its options are rejected
with. -/
def functionTranscript (std : Std) (floats : Floats) (appName : Text) (ep : Entrypoint) :
    Except Error (List PlannedRequest) :=
  (acceptOptions std ep).map fun checked =>
    .functionPrecreate (sanitizeObjectTag ep.name) ::
      (secretTranscript appName (sanitizeObjectTag ep.name) ep.options ++
        volumeTranscript ep.options.volumes ++ [createTranscript std floats ep checked])

/-- The request for the base layer. -/
def baseTranscript (host : Host) (inputs : ProvisionInputs) : PlannedRequest :=
  .imageGetOrCreate (dockerfileCommands (buildImageSpec host deployBoundary inputs [])) 0

/-- A deploy builds the dependencies in a layer of their own. -/
def prebuilds (found : SourceInputs → Bool) (inputs : ProvisionInputs) : Bool :=
  inputs.depPrebuild && (inputs.source.useCargoScoping && found inputs.source)

/-- The requests for the dependency layer. -/
def prebuildTranscript (found : SourceInputs → Bool) (inputs : ProvisionInputs) :
    List PlannedRequest :=
  if prebuilds found inputs then
    [.mountGetOrCreate .prebuildStub,
      .imageGetOrCreate (dockerfileCommands (buildDeployDepLayerSpec [] [] inputs.source.package))
        0]
  else []

/-- The top layer of a deploy. -/
def topLayer (host : Host) (inputs : ProvisionInputs) (top sourceMountId : Text) : ImageSpec :=
  let gates := deployGates inputs.entrypoints
  buildDeployTopLayerSpec host top sourceMountId inputs.source.package gates.bakeSnapshotPrime
    inputs.snapshotBestEffort gates.endpointEntrypoints gates.webServerEntrypoints

/-- The request for the top layer. -/
def topTranscript (host : Host) (inputs : ProvisionInputs) : PlannedRequest :=
  .imageGetOrCreate (dockerfileCommands (topLayer host inputs [] [])) 0

/-- The requests before the create loop. -/
def resolveTranscript (host : Host) (found : SourceInputs → Bool) (inputs : ProvisionInputs) :
    List PlannedRequest :=
  [.mountGetOrCreate .client, .mountGetOrCreate .source, .mountGetOrCreate .pythonStandalone,
      .appGetOrCreate inputs.appName, baseTranscript host inputs] ++
    prebuildTranscript found inputs ++ [topTranscript host inputs]

/-- The requests of the create loop, or the error of the first entrypoint whose options are
rejected. -/
def createsTranscript (std : Std) (floats : Floats) (appName : Text)
    (entrypoints : List Entrypoint) : Except Error (List PlannedRequest) :=
  inOrder (entrypoints.map (functionTranscript std floats appName))

/-- The requests of a deploy, or the error that its create loop fails with. -/
def deployTranscript (host : Host) (floats : Floats) (found : SourceInputs → Bool)
    (inputs : ProvisionInputs) : Except Error (List PlannedRequest) :=
  (createsTranscript host.std floats inputs.appName inputs.entrypoints).map
    fun functions =>
      resolveTranscript host found inputs ++ functions ++ [.appPublish "deployed".toList]

variable {plane : ControlPlane σ} {obs : PlaneWorld σ → List PlannedRequest}
  {found : SourceInputs → Bool} {host : Host} {inputs : ProvisionInputs}

/-- The secrets of an entrypoint. -/
theorem shows_resolveEntrypointSecrets (hplane : Follows std floats plane obs found)
    (appName objectTag : Text) (options : FunctionOptions) :
    Shows obs (resolveEntrypointSecrets plane appName objectTag options)
      (.ok (secretTranscript appName objectTag options))
      fun ids => ids.length = options.secrets.length + if options.env.isEmpty then 0 else 1 := by
  have hnamed (name : Text) := hplane.sends (.ensureSecret name options.requiredKeys) trivial
  refine (Shows.mapM' hnamed options.secrets).bind_append fun named hlength => ?_
  have hlength := hlength.length_eq
  by_cases henv : options.env.isEmpty = true
  · rw [if_pos henv, if_pos henv, if_pos henv]
    exact Shows.pure hlength.symm
  · rw [if_neg henv, if_neg henv, if_neg henv]
    refine (hplane.sends (.ensureInlineSecret _ options.env) trivial).bind_silent fun id _ => ?_
    refine Shows.pure ?_
    rw [List.length_append, hlength]
    rfl

/-- The volumes of an entrypoint. -/
theorem shows_resolveVolumes (hplane : Follows std floats plane obs found)
    (volumes : List (Text × Text)) :
    Shows obs (resolveVolumes plane (fun _ => .ok ()) volumes) (.ok (volumeTranscript volumes))
      fun mounts => mounts.map Prod.snd = volumes.map Prod.fst := by
  refine Shows.mono (A := List.Forall₂ (fun volume mount => mount.2 = volume.1) volumes)
    (Shows.mapM' (fun volume => ?_) volumes) fun mounts hmounts => ?_
  rotate_left
  · induction hmounts with
    | nil => rfl
    | cons hhead _ ih => rw [List.map_cons, List.map_cons, hhead, ih]
  refine Shows.silent_bind (A := fun _ => True) (Shows.pure trivial) fun _ _ => ?_
  exact (hplane.sends (.ensureVolume volume.2 false) trivial).bind_silent fun id _ =>
    Shows.pure rfl

/-- The mounts. -/
theorem shows_resolveMounts (hplane : Follows std floats plane obs found) :
    Shows obs (resolveMounts plane inputs deployBoundary)
      (.ok [.mountGetOrCreate .client, .mountGetOrCreate .source,
        .mountGetOrCreate .pythonStandalone]) fun _ => True := by
  refine (hplane.sends .ensureClientMount trivial).bind_cons fun client _ => ?_
  refine (hplane.sends (.ensureSourceMount _ _) trivial).bind_cons fun source _ => ?_
  exact (hplane.sends (.ensurePythonMount _) trivial).bind_silent fun python _ => Shows.pure trivial

/-- The image below the top layer. -/
theorem shows_topBase (hplane : Follows std floats plane obs found) (appId baseImageId : Text) :
    Shows obs (topBase plane inputs deployBoundary appId baseImageId)
      (.ok (prebuildTranscript found inputs)) fun _ => True := by
  unfold topBase prebuildTranscript prebuilds
  cases inputs.depPrebuild with
  | false => exact Shows.pure trivial
  | true =>
    have hstub := hplane.stub inputs.source (sourceRemote inputs deployBoundary)
    rw [Bool.true_and]
    cases hfound : inputs.source.useCargoScoping && found inputs.source with
    | false =>
      rw [hfound] at hstub
      refine hstub.silent_bind fun stub hnone => ?_
      cases stub with
      | none => exact Shows.pure trivial
      | some stub => cases hnone
    | true =>
      rw [hfound] at hstub
      refine hstub.bind_cons fun stub hsome => ?_
      cases stub with
      | none => cases hsome
      | some stub => exact hplane.sends (.ensureImage _ _ _) trivial

/-- The lines of the top layer do not depend on ids. -/
theorem upToIds_top (appId top sourceMountId : Text) (layer : ℕ) :
    ((Request.ensureImage appId (topLayer host inputs top sourceMountId) layer).planned std
      floats).upToIds = topTranscript host inputs := by
  simp only [Request.planned, PlannedRequest.upToIds, topTranscript, topLayer,
    buildDeployTopLayerSpec]
  cases (deployGates inputs.entrypoints).bakeSnapshotPrime with
  | false => rfl
  | true => cases inputs.snapshotBestEffort <;> rfl

/-- The image. -/
theorem shows_buildImage (hplane : Follows std floats plane obs found) (appId : Text)
    (mounts : Mounts) :
    Shows obs (buildImage plane host inputs deployBoundary appId mounts)
      (.ok (baseTranscript host inputs :: (prebuildTranscript found inputs ++
        [topTranscript host inputs]))) fun _ => True := by
  have hbase : ((Request.ensureImage appId
      (buildImageSpec host deployBoundary inputs mounts.python) 0).planned std floats).upToIds =
        baseTranscript host inputs := by
    simp only [Request.planned, PlannedRequest.upToIds, baseTranscript, dockerfileCommands_base]
  have hsent := hplane.sends (.ensureImage appId
    (buildImageSpec host deployBoundary inputs mounts.python) 0) trivial
  rw [hbase] at hsent
  refine hsent.bind_cons fun baseImageId _ => ?_
  refine (shows_topBase hplane appId baseImageId).bind_append fun top _ => ?_
  have htop := hplane.sends (.ensureImage appId (topLayer host inputs top mounts.source)
    (@ite ℕ (top = baseImageId) (instDecidableEqList _ _) 1 2)) trivial
  rw [upToIds_top] at htop
  exact htop

/-- Everything before the create loop. -/
theorem shows_resolveAll (hplane : Follows std floats plane obs found) :
    Shows obs (resolveAll plane host inputs deployBoundary)
      (.ok (resolveTranscript host found inputs)) fun resolved => resolved.run = none := by
  refine Shows.silent_bind (A := fun plan => plan = .many) (Shows.pure rfl) ?_
  rintro plan rfl
  refine Shows.silent_bind (A := fun run => run = none) (Shows.pure rfl) ?_
  rintro run rfl
  refine (shows_resolveMounts hplane).bind_append fun mounts _ => ?_
  refine (hplane.sends (.ensureApp inputs.appName inputs.appId .deployed) (.inl rfl)).bind_cons
    fun appId _ => ?_
  exact (shows_buildImage hplane appId mounts).bind_silent fun imageId _ => Shows.pure rfl

/-- Mounted volumes are planned as their paths, up to ids. -/
theorem paths_of_mounts (mounts : List (Text × Text)) :
    ((((mounts.map fun mount => FunctionVolumeMount.new mount.1 mount.2).map
      FunctionVolumeMount.toProto).map fun m => (m.mountPath, m.volumeId)).map
        fun mount => (mount.1, ([] : Text))) =
      (mounts.map Prod.snd).map fun path => (path, []) := by
  simp only [List.map_map]
  rfl

/-- What is planned for a create request is determined up to ids by the entrypoint. -/
theorem upToIds_create {ep : Entrypoint} {appId precreateId imageId : Text}
    (res : AttachedResources) {checked : Option Schedule × Option FunctionRetryPolicy}
    (hcache : res.cacheVolId = none)
    (hsecrets : res.secretIds.length =
      ep.options.secrets.length + if ep.options.env.isEmpty then 0 else 1)
    (hvolumes : res.userVolumeMounts.map Prod.snd = ep.options.volumes.map Prod.fst) :
    ((Request.create appId precreateId
        (functionSpecOf deployBoundary ep imageId res checked.1 checked.2)).planned std
      floats).upToIds = createTranscript std floats ep checked := by
  have hpaths : (noIds ep.options).userVolumeMounts.map Prod.snd =
      ep.options.volumes.map Prod.fst := by
    simp [noIds]
  have hcount : (noIds ep.options).secretIds.length =
      ep.options.secrets.length + if ep.options.env.isEmpty then 0 else 1 := List.length_replicate
  simp only [createTranscript, Request.planned, PlannedRequest.upToIds, PlannedFunction.recorded,
    planFunctionRequest, buildFunctionCreateRequest, functionSpecOf, hcache, Option.toList_none,
    List.map_nil, List.nil_append, paths_of_mounts, hvolumes, hsecrets]
  rw [← hpaths, ← paths_of_mounts, ← hcount]
  rfl

/-- The cache, secrets and volumes of one entrypoint. -/
theorem shows_entrypointResources (hplane : Follows std floats plane obs found)
    (ep : Entrypoint) :
    Shows obs (entrypointResources plane inputs none ep)
      (.ok (secretTranscript inputs.appName (sanitizeObjectTag ep.name) ep.options ++
        volumeTranscript ep.options.volumes))
      fun resources => resources.1 = none ∧
        resources.2.1.length =
          (ep.options.secrets.length + if ep.options.env.isEmpty then 0 else 1) ∧
        resources.2.2.map Prod.snd = ep.options.volumes.map Prod.fst := by
  refine (shows_resolveEntrypointSecrets hplane _ _ ep.options).bind_append fun ids hids => ?_
  exact (shows_resolveVolumes hplane ep.options.volumes).bind_silent fun mounts hmounts =>
    Shows.pure ⟨rfl, hids, hmounts⟩

/-- The function of one entrypoint. -/
theorem shows_createFunction (hplane : Follows host.std floats plane obs found)
    (mounts : Mounts) (appId imageId : Text) (ep : Entrypoint) :
    Shows obs (createFunction plane host inputs deployBoundary none mounts appId imageId ep)
      (functionTranscript host.std floats inputs.appName ep) fun _ => True := by
  have hspec (res : AttachedResources) :
      (buildFunctionSpec host.std deployBoundary ep imageId res).mapError Error.sdk =
        (acceptOptions host.std ep).map fun checked =>
          functionSpecOf deployBoundary ep imageId res checked.1 checked.2 := by
    rw [buildFunctionSpec_eq, acceptOptions]
    cases checkOptions host.std deployBoundary ep <;> rfl
  have hprecreate := hplane.sends (.precreate appId (sanitizeObjectTag ep.name)) trivial
  unfold functionTranscript createFunction
  simp only [hspec]
  cases acceptOptions host.std ep with
  | error e =>
    refine hprecreate.bind_error fun precreateId _ => ?_
    refine (shows_entrypointResources hplane ep).bind_error fun resources _ => ?_
    exact Shows.error_bind (A := fun _ => True) fun w => ⟨w, rfl⟩
  | ok checked =>
    refine hprecreate.bind_cons fun precreateId _ => ?_
    refine (shows_entrypointResources hplane ep).bind_append fun resources hresources => ?_
    obtain ⟨cacheVolId, secretIds, userVolumeMounts⟩ := resources
    obtain ⟨hcache, hsecrets, hvolumes⟩ := hresources
    let spec := functionSpecOf deployBoundary ep imageId ⟨mounts.client, mounts.source, cacheVolId,
      secretIds, userVolumeMounts⟩ checked.1 checked.2
    refine Shows.silent_bind (A := (· = spec)) (Shows.pure rfl) ?_
    rintro _ rfl
    have hplanned : ((Request.create appId precreateId spec).planned host.std floats).upToIds =
        createTranscript host.std floats ep checked := upToIds_create _ hcache hsecrets hvolumes
    have hcreate := hplane.sends (.create appId precreateId spec) trivial
    rw [hplanned] at hcreate
    exact hcreate.bind_silent fun created _ => Shows.update fun w => hplane.own w _

/-- The create loop. -/
theorem shows_createEach (hplane : Follows host.std floats plane obs found)
    (mounts : Mounts) (appId imageId : Text) (entrypoints : List Entrypoint) (publishUrl : Text) :
    Shows obs (createEach plane host inputs deployBoundary none mounts appId imageId entrypoints
        publishUrl)
      (createsTranscript host.std floats inputs.appName entrypoints) fun _ => True := by
  induction entrypoints generalizing publishUrl with
  | nil => exact Shows.pure trivial
  | cons ep rest ih =>
    refine (shows_createFunction hplane mounts appId imageId ep).bind fun _ _ => ?_
    exact Shows.silent_bind (A := fun _ => True) (Shows.pure trivial) fun url _ => ih url

/-- **A deploy sends the same through all control planes**, up to ids and to the stub source. -/
theorem shows_provision (hplane : Follows host.std floats plane obs found) :
    Shows obs (provision plane host inputs deployBoundary)
      (deployTranscript host floats found inputs) fun _ => True := by
  have hpublish (appId publishUrl : Text) : Shows obs
      (publishIf plane inputs deployBoundary true appId publishUrl)
      (.ok [.appPublish "deployed".toList]) fun _ => True := by
    refine Shows.silent_bind Shows.own fun published _ => ?_
    exact hplane.sends (.publish appId inputs.appName published.functionIds
      published.definitionIds .deployed) trivial
  have hloop (mounts : Mounts) (appId imageId : Text) : Shows obs
      (createEach plane host inputs deployBoundary none mounts appId imageId inputs.entrypoints [])
      (createsTranscript host.std floats inputs.appName inputs.entrypoints)
      fun _ => True := shows_createEach hplane mounts appId imageId inputs.entrypoints []
  unfold deployTranscript
  cases hrounds : createsTranscript host.std floats inputs.appName inputs.entrypoints with
  | error e =>
    refine (shows_resolveAll hplane).bind_error fun resolved hrun => ?_
    obtain ⟨run, mounts, appId, imageId⟩ := resolved
    cases hrun
    have hfails := hloop mounts appId imageId
    rw [hrounds] at hfails
    exact hfails.error_bind
  | ok functions =>
    simp only [Except.map, List.append_assoc]
    refine (shows_resolveAll hplane).bind_append fun resolved hrun => ?_
    obtain ⟨run, mounts, appId, imageId⟩ := resolved
    cases hrun
    have hcreates := hloop mounts appId imageId
    rw [hrounds] at hcreates
    refine hcreates.bind_append fun publishUrl _ => ?_
    exact (hpublish appId publishUrl).bind_silent fun url _ => Shows.pure trivial

end ModalRust.Provision
