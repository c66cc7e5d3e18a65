import Mathlib.Logic.Function.Basic
import ModalRust.Provision.Image
import ModalRust.Session

/-!
# The provisioning sequence

`provision` of `control_plane.rs`, as a session with an arbitrary control plane. The
control plane may answer and fail in any way; its own state stands for everything that it
remembers. The requests are the calls of the `ControlPlane` trait, and the state of the
session is the accumulator of published functions, which survives a failure.
-/

namespace ModalRust.Provision

open ModalRust.Sdk ModalRust.Session

/-- `Created`: what a create returned. -/
structure Created where
  /-- The function id. -/
  functionId : Text
  /-- The definition id, or the empty text. -/
  definitionId : Text
  /-- The URL of a web endpoint, or the empty text. -/
  webUrl : Text
  deriving DecidableEq

/-- A call of the control plane. -/
inductive Request
  /-- Resolve the app. -/
  | ensureApp (appName : Text) (preResolved : Option Text) (state : AppState)
  /-- Resolve a volume by its name. -/
  | ensureVolume (name : Text) (v2 : Bool)
  /-- Look a named secret up. -/
  | ensureSecret (name : Text) (requiredKeys : List Text)
  /-- Create an inline secret, if its name is new. -/
  | ensureInlineSecret (name : Text) (env : List (Text × Text))
  /-- Resolve the mount of the client. -/
  | ensureClientMount
  /-- Upload the source. -/
  | ensureSourceMount (source : SourceInputs) (remotePath : Text)
  /-- Upload the stub source of the dependency layer. -/
  | ensurePrebuildMount (source : SourceInputs) (remotePath : Text)
  /-- Resolve the mount of the standalone Python. -/
  | ensurePythonMount (series : Text)
  /-- Build an image. -/
  | ensureImage (appId : Text) (spec : ImageSpec) (layer : ℕ)
  /-- `FunctionPrecreate`. -/
  | precreate (appId objectTag : Text)
  /-- `FunctionCreate`. -/
  | create (appId precreateId : Text) (spec : FunctionSpec)
  /-- `AppPublish`. -/
  | publish (appId appName : Text) (functionIds definitionIds : Text → Option Text)
    (state : AppState)

/-- The reply to a call. -/
def Request.Reply : Request → Type
  | .ensurePrebuildMount _ _ => Option Text
  | .create _ _ _ => Created
  | .ensureApp _ _ _ | .ensureVolume _ _ | .ensureSecret _ _ | .ensureInlineSecret _ _
  | .ensureClientMount | .ensureSourceMount _ _ | .ensurePythonMount _ | .ensureImage _ _ _
  | .precreate _ _ | .publish _ _ _ _ _ => Text

/-- A control plane with states `σ`. -/
abbrev ControlPlane (σ : Type) := Server Request.Reply Error σ

/-- `Published`: the functions created so far in one app. -/
structure Published where
  /-- The function of an object tag. -/
  functionIds : Text → Option Text
  /-- The definition of a function. -/
  definitionIds : Text → Option Text
  /-- The URL of an object tag. -/
  endpointUrls : Text → Option Text

/-- `Published::default`. -/
def Published.default : Published := ⟨fun _ => none, fun _ => none, fun _ => none⟩

/-- `Published::record`. -/
def Published.record (objectTag : Text) (created : Created) (published : Published) :
    Published where
  functionIds := Function.update published.functionIds objectTag (some created.functionId)
  definitionIds :=
    if created.definitionId.isEmpty then published.definitionIds
    else Function.update published.definitionIds created.functionId (some created.definitionId)
  endpointUrls :=
    if created.webUrl.isEmpty then published.endpointUrls
    else Function.update published.endpointUrls objectTag (some created.webUrl)

/-- A request with the reply of the control plane. -/
abbrev Call := Event Request.Reply Error

/-- The world of a provisioning. -/
abbrev PlaneWorld (σ : Type) := World Request.Reply Error σ Published

/-- A part of a provisioning. -/
abbrev Provisioning (σ α : Type) := Program Request.Reply Error σ Published α

/-- `Provisioned`. -/
structure Provisioned where
  /-- The built image. -/
  imageId : Text
  /-- The URL of the published app. -/
  publishUrl : Text

/-- `ProvisionPlan`. -/
inductive ProvisionPlan
  /-- A run: one entrypoint. -/
  | single (ep : Entrypoint)
  /-- A deploy: all entrypoints. -/
  | many

/-- `Boundary::plan`. -/
def Boundary.plan (boundary : Boundary) (entrypoints : List Entrypoint) :
    Except Error ProvisionPlan :=
  match boundary.sourceDelivery, entrypoints with
  | .runMount, ep :: _ => .ok (.single ep)
  | .runMount, [] => .error (.config "RUN provision requires exactly one entrypoint".toList)
  | .deployContext, _ => .ok .many

/-- `CACHE_VOLUME_NAME`. -/
def cacheVolumeName : Text := "modal-rust-cargo-cache".toList

/-- `reject_cache_collision`. -/
def rejectCacheCollision (cache : Bool) (mountPath : Text) : Except Error Unit :=
  if cache && mountPath == cacheMount then
    .error (.config ("user volume mount path \"/cache\" collides with the cargo-cache ".toList ++
      "volume; choose a different mount path (or disable the cache)".toList))
  else .ok ()

variable {σ : Type} (cp : ControlPlane σ) (host : Host) (inputs : ProvisionInputs)
  (boundary : Boundary)

/-- `resolve_entrypoint_secrets`: the named secrets, then the inline secret. -/
def resolveEntrypointSecrets (appName objectTag : Text) (options : FunctionOptions) :
    Provisioning σ (List Text) := do
  let named ← options.secrets.mapM' fun name => ask cp (.ensureSecret name options.requiredKeys)
  if options.env.isEmpty then return named
  let inlineId : Text ←
    ask cp (.ensureInlineSecret (inlineSecretName appName objectTag) options.env)
  return named ++ [inlineId]

/-- The volumes of an entrypoint, with their mount paths. -/
def resolveVolumes (check : Text → Except Error Unit) (volumes : List (Text × Text)) :
    Provisioning σ (List (Text × Text)) :=
  volumes.mapM' fun volume => do
    offline (check volume.1)
    let id ← ask cp (.ensureVolume volume.2 false)
    return (id, volume.1)

/-- What a run resolves before its create loop. -/
structure RunResources where
  /-- The app. -/
  appId : Text
  /-- The volume of the cargo cache. -/
  cacheVolId : Option Text
  /-- The secrets. -/
  secretIds : List Text
  /-- The user's volumes, with their mount paths. -/
  userVolumeMounts : List (Text × Text)

/-- The volume of the cargo cache, if the cache is on. -/
def resolveCache : Provisioning σ (Option Text) :=
  if inputs.cache then some <$> ask cp (.ensureVolume cacheVolumeName true) else pure none

/-- The first part of a run: the app, the cargo cache, and the entrypoint's secrets and
volumes. -/
def resolveRun (ep : Entrypoint) : Provisioning σ RunResources := do
  let appId ← ask cp (.ensureApp inputs.appName inputs.appId boundary.appState)
  let cacheVolId ← resolveCache cp inputs
  let secretIds ←
    resolveEntrypointSecrets cp inputs.appName (sanitizeObjectTag ep.name) ep.options
  let userVolumeMounts ← resolveVolumes cp (rejectCacheCollision inputs.cache) ep.options.volumes
  return ⟨appId, cacheVolId, secretIds, userVolumeMounts⟩

/-- The part before the mounts, by the plan. -/
def resolvePlan : ProvisionPlan → Provisioning σ (Option RunResources)
  | .single ep => do return some (← resolveRun cp inputs boundary ep)
  | .many => pure none

/-- The mounts of one provisioning: client, source and standalone Python. -/
structure Mounts where
  /-- The mount of the client. -/
  client : Text
  /-- The mount of the source. -/
  source : Text
  /-- The mount of the standalone Python. -/
  python : Text

/-- Where the source goes. -/
def sourceRemote : Text :=
  match boundary.sourceDelivery with
  | .runMount => inputs.source.remoteSrc
  | .deployContext => deploySrc

/-- Resolve the mounts. -/
def resolveMounts : Provisioning σ Mounts := do
  let client ← ask cp .ensureClientMount
  let source ← ask cp (.ensureSourceMount inputs.source (sourceRemote inputs boundary))
  let python ← ask cp (.ensurePythonMount pythonSeries)
  return ⟨client, source, python⟩

/-- The app: a run has it already, a deploy resolves it here. -/
def resolveApp : Option RunResources → Provisioning σ Text
  | some run => pure run.appId
  | none => ask cp (.ensureApp inputs.appName inputs.appId boundary.appState)

/-- The image that the top layer of a deploy is built on. -/
def topBase (appId baseImageId : Text) : Provisioning σ Text := do
  if !inputs.depPrebuild then return baseImageId
  let stub : Option Text ←
    ask cp (.ensurePrebuildMount inputs.source (sourceRemote inputs boundary))
  match stub with
  | some stubMountId =>
    ask cp (.ensureImage appId
      (buildDeployDepLayerSpec baseImageId stubMountId inputs.source.package) 1)
  | none => return baseImageId

/-- Build the image: one layer in a run, two or three in a deploy. -/
def buildImage (appId : Text) (mounts : Mounts) : Provisioning σ Text := do
  let baseImageId : Text ←
    ask cp (.ensureImage appId (buildImageSpec host boundary inputs mounts.python) 0)
  match boundary.sourceDelivery with
  | .runMount => return baseImageId
  | .deployContext =>
    let top ← topBase cp inputs boundary appId baseImageId
    let gates := deployGates inputs.entrypoints
    ask cp (.ensureImage appId
      (buildDeployTopLayerSpec host top mounts.source inputs.source.package
        gates.bakeSnapshotPrime inputs.snapshotBestEffort gates.endpointEntrypoints
        gates.webServerEntrypoints)
      (if top = baseImageId then 1 else 2))

/-- The cache, secrets and volumes of one entrypoint: a run has resolved them, a deploy
resolves them here. -/
def entrypointResources (run : Option RunResources) (ep : Entrypoint) :
    Provisioning σ (Option Text × List Text × List (Text × Text)) :=
  match run with
  | some run => pure (run.cacheVolId, run.secretIds, run.userVolumeMounts)
  | none => do
    let secretIds ←
      resolveEntrypointSecrets cp inputs.appName (sanitizeObjectTag ep.name) ep.options
    let userVolumeMounts ← resolveVolumes cp (fun _ => .ok ()) ep.options.volumes
    return (none, secretIds, userVolumeMounts)

/-- Create and record the function of one entrypoint. -/
def createFunction (run : Option RunResources) (mounts : Mounts) (appId imageId : Text)
    (ep : Entrypoint) : Provisioning σ Unit := do
  let objectTag := sanitizeObjectTag ep.name
  let precreateId : Text ← ask cp (.precreate appId objectTag)
  let (cacheVolId, secretIds, userVolumeMounts) ← entrypointResources cp inputs run ep
  let res : AttachedResources :=
    ⟨mounts.client, mounts.source, cacheVolId, secretIds, userVolumeMounts⟩
  let spec ← offline ((buildFunctionSpec host.std boundary ep imageId res).mapError Error.sdk)
  let created : Created ← ask cp (.create appId precreateId spec)
  update (Published.record objectTag created)

/-- Publish the union of all functions recorded so far. -/
def publishAll (appId : Text) : Provisioning σ Text := do
  let published ← own
  ask cp (.publish appId inputs.appName published.functionIds published.definitionIds
    boundary.appState)

/-- Publish now, or keep the URL of the last publish. -/
def publishIf (now : Bool) (appId publishUrl : Text) : Provisioning σ Text :=
  if now then publishAll cp inputs boundary appId else pure publishUrl

/-- The create loop. A run publishes after every create. -/
def createEach (run : Option RunResources) (mounts : Mounts) (appId imageId : Text) :
    List Entrypoint → Text → Provisioning σ Text
  | [], publishUrl => pure publishUrl
  | ep :: rest, publishUrl => do
    createFunction cp host inputs boundary run mounts appId imageId ep
    let publishUrl ← publishIf cp inputs boundary run.isSome appId publishUrl
    createEach run mounts appId imageId rest publishUrl

/-- What a provisioning has resolved when it comes to its create loop. -/
structure Resolved where
  /-- The first part of a run. -/
  run : Option RunResources
  /-- The mounts. -/
  mounts : Mounts
  /-- The app. -/
  appId : Text
  /-- The image. -/
  imageId : Text

/-- `provision`, up to its create loop. -/
def resolveAll : Provisioning σ Resolved := do
  let plan ← offline (boundary.plan inputs.entrypoints)
  let run ← resolvePlan cp inputs boundary plan
  let mounts ← resolveMounts cp inputs boundary
  let appId ← resolveApp cp inputs boundary run
  let imageId ← buildImage cp host inputs boundary appId mounts
  return ⟨run, mounts, appId, imageId⟩

/-- `provision`. -/
def provision : Provisioning σ Provisioned := do
  let ⟨run, mounts, appId, imageId⟩ ← resolveAll cp host inputs boundary
  let publishUrl ←
    createEach cp host inputs boundary run mounts appId imageId inputs.entrypoints []
  let publishUrl ← publishIf cp inputs boundary run.isNone appId publishUrl
  return ⟨imageId, publishUrl⟩

end ModalRust.Provision
