import ModalRust.Provision.Creates

/-!
# The calls of a run

`resolve_function` of a connected app: the function of an entrypoint is created at its
first call and remembered under the entrypoint and its effective options. The locks of the
app make the creations follow each other, so a run is a list of calls. All of them share
the control plane and one accumulator of published functions.
-/

namespace ModalRust.Provision

open ModalRust.Sdk ModalRust.Session

/-- `RemoteConfig`, without the options of the called entrypoint. -/
structure RemoteConfig where
  /-- The workspace root. -/
  localRoot : Text
  /-- The cargo package. -/
  package : Text
  /-- Where the source is mounted. -/
  remoteSrc : Text
  /-- Whether the upload is scoped to the package's dependency closure. -/
  useCargoScoping : Bool
  /-- The name of the ignore file. -/
  modalignoreName : Text
  /-- The registry tag of the base image. -/
  baseImage : Text
  /-- The default timeout in seconds. -/
  timeoutSecs : ℕ
  /-- Whether the Rust toolchain is installed. -/
  installRust : Bool
  /-- The image steps. -/
  imageSteps : List ImageStep
  /-- Whether the build cache is on by default. -/
  cache : Bool

/-- A connected app: its handle, and the options of its entrypoints. -/
structure RemoteApp where
  /-- The app id. -/
  appId : Text
  /-- The app name. -/
  appName : Text
  /-- The path config. -/
  config : RemoteConfig
  /-- `config_for`. -/
  configFor : Text → FunctionOptions

/-- `ImageOptions::steps`. -/
def ImageOptions.steps (image : ImageOptions) : List ImageStep :=
  (if image.apt.isEmpty then [] else [.apt image.apt]) ++
    (if image.pip.isEmpty then [] else [.pip image.pip]) ++
    (if image.run.isEmpty then [] else [.run image.run])

/-- `apply_function_image`. -/
def applyFunctionImage (host : Host) (config : RemoteConfig) :
    Option Text → Except Error RemoteConfig
  | none => .ok config
  | some spec =>
    match host.readImageOptions spec with
    | .error e =>
      .error (.config ("invalid `image = Image(..)` spec ".toList ++ host.std.debug spec ++
        ": ".toList ++ e))
    | .ok image => .ok { config with
        imageSteps := image.steps ++ config.imageSteps
        baseImage := image.base.getD config.baseImage
        installRust := image.installRust.getD config.installRust }

/-- The one entrypoint that `ensure_function` provisions. -/
def runEntrypoint (entrypoint : Text) (config : RemoteConfig) (options : FunctionOptions) :
    Entrypoint where
  name := entrypoint
  options := options
  timeoutSecs := options.timeoutSecs.getD config.timeoutSecs

/-- The inputs that `ensure_function` provisions it with. -/
def runInputs (appId appName entrypoint : Text) (config : RemoteConfig)
    (options : FunctionOptions) : ProvisionInputs where
  appName := appName
  appId := some appId
  source := ⟨config.localRoot, config.package, config.useCargoScoping, config.modalignoreName,
    config.remoteSrc⟩
  baseImage := config.baseImage
  installRust := config.installRust
  imageSteps := config.imageSteps
  cache := options.cache.getD config.cache
  snapshotBestEffort := false
  depPrebuild := false
  entrypoints := [runEntrypoint entrypoint config options]

variable {σ : Type} (cp : ControlPlane σ) (host : Host) (app : RemoteApp)

/-- `ensure_function`. -/
def ensureFunction (appId appName entrypoint : Text) (config : RemoteConfig)
    (options : FunctionOptions) : Provisioning σ Text := do
  let _ ← provision cp host (runInputs appId appName entrypoint config options) runBoundary
  let published ← own
  offline (match published.functionIds (sanitizeObjectTag entrypoint) with
    | some functionId => .ok functionId
    | none => .error (.config ("provision did not yield a function id for ".toList ++
        host.std.debug entrypoint)))

/-- A call of `resolve_function` that has ended. -/
structure Visit where
  /-- The entrypoint. -/
  entrypoint : Text
  /-- What was returned. -/
  result : Except Error Text
  /-- The calls of the control plane that it made. -/
  calls : List Call

/-- The part of `RemoteHandle` that calls change, with the control plane behind it. The
visits are recorded to state what a publish belongs to. -/
structure Handle (σ : Type) where
  /-- The remembered functions. -/
  functionIds : Text × FunctionOptions → Option Text
  /-- The published functions. -/
  published : Published
  /-- The state of the control plane. -/
  server : σ
  /-- The ended calls, the latest last. -/
  visits : List Visit

/-- A freshly connected app. -/
def Handle.connected (server : σ) : Handle σ := ⟨fun _ => none, .default, server, []⟩

/-- The effective options of an entrypoint. -/
def effectiveOptions (entrypoint : Text) : FunctionOptions :=
  let options := app.configFor entrypoint
  { options with
    cache := some (options.cache.getD app.config.cache)
    timeoutSecs := some (options.timeoutSecs.getD app.config.timeoutSecs) }

/-- `resolve_function`. -/
def resolveFunction (h : Handle σ) (entrypoint : Text) : Handle σ :=
  let options := effectiveOptions app entrypoint
  match h.functionIds (entrypoint, options) with
  | some functionId => { h with visits := h.visits ++ [⟨entrypoint, .ok functionId, []⟩] }
  | none =>
    match applyFunctionImage host app.config options.image with
    | .error e => { h with visits := h.visits ++ [⟨entrypoint, .error e, []⟩] }
    | .ok config =>
      match ensureFunction cp host app.appId app.appName entrypoint config options
          ⟨h.server, h.published, []⟩ with
      | .ok functionId w =>
        { functionIds :=
            Function.update h.functionIds (entrypoint, options) (some functionId)
          published := w.own
          server := w.server
          visits := h.visits ++ [⟨entrypoint, .ok functionId, w.log⟩] }
      | .error e w =>
        { functionIds := h.functionIds
          published := w.own
          server := w.server
          visits := h.visits ++ [⟨entrypoint, .error e, w.log⟩] }

/-- A run: some entrypoints are called, one after another. -/
def callAll (h : Handle σ) (entrypoints : List Text) : Handle σ :=
  entrypoints.foldl (resolveFunction cp host app) h

/-- The reply that carries a number, for runs on concrete inputs. -/
def numberedReply (n : ℕ) : (request : Request) → request.Reply
  | .ensurePrebuildMount _ _ => some (Nat.toDigits 10 n)
  | .create _ _ _ => ⟨"fu-".toList ++ Nat.toDigits 10 n, "de-".toList ++ Nat.toDigits 10 n, []⟩
  | .ensureApp _ _ _ | .ensureVolume _ _ | .ensureSecret _ _ | .ensureInlineSecret _ _
  | .ensureClientMount | .ensureSourceMount _ _ | .ensurePythonMount _ | .ensureImage _ _ _
  | .precreate _ _ | .publish _ _ _ _ _ => Nat.toDigits 10 n

/-- A control plane that counts the requests, answers each with its number, and fails on the
given ones. -/
def numberedPlane (failing : List ℕ) : ControlPlane ℕ := fun request n =>
  (if n ∈ failing then .error (.sdk (.transport "unavailable".toList))
    else .ok (numberedReply n request), n + 1)

/-- A host for runs on concrete inputs. -/
def plainHost : Host where
  std := ⟨fun _ => none, id, id⟩
  runWrapperSrc := []
  deployWrapperSrc := []
  cacheTarget := false
  readImageOptions := fun _ => .error []

/-- An app whose entrypoints have the default options. -/
def plainApp : RemoteApp where
  appId := "ap-1".toList
  appName := "app".toList
  config := {
    localRoot := ".".toList
    package := "hello".toList
    remoteSrc := "/src".toList
    useCargoScoping := false
    modalignoreName := ".modalignore".toList
    baseImage := "rust:1".toList
    timeoutSecs := 600
    installRust := false
    imageSteps := []
    cache := false }
  configFor := fun _ => .default

/-- An entrypoint with the default options. -/
def plainEntrypoint (name : Text) : Entrypoint := ⟨name, .default, 600⟩

/-- A deploy of entrypoints of this app. -/
def plainInputs (entrypoints : List Entrypoint) : ProvisionInputs where
  appName := "app".toList
  appId := none
  source := ⟨".".toList, "hello".toList, false, ".modalignore".toList, "/src".toList⟩
  baseImage := "rust:1".toList
  installRust := false
  imageSteps := []
  cache := false
  snapshotBestEffort := false
  depPrebuild := false
  entrypoints := entrypoints

/-- What one visit of an entrypoint did to the published functions. -/
structure Visited (published : Published) (entrypoint : Text) (calls : List Call)
    (after : Published) : Prop where
  /-- The accumulator is the record of all creates. -/
  after_eq : after = published.afterAll calls
  /-- Every publish carried it. -/
  union : PublishesUnion published calls
  /-- Only the entrypoint's own function was created. -/
  own : ∀ call ∈ calls, ∀ created ∈ createdBy call, created.1 = sanitizeObjectTag entrypoint

/-- What `ensure_function` does, however it ends. -/
theorem triple_ensureFunction (published : Published) (appId appName entrypoint : Text)
    (config : RemoteConfig) (options : FunctionOptions) :
    Triple (fun w : PlaneWorld σ => w.own = published ∧ w.log = [])
      (ensureFunction cp host appId appName entrypoint config options)
      (fun functionId w => Visited published entrypoint w.log w.own ∧
        w.own.functionIds (sanitizeObjectTag entrypoint) = some functionId)
      (fun w => Visited published entrypoint w.log w.own) := by
  have hvisited {w : PlaneWorld σ}
      (hw : Sound host (runInputs appId appName entrypoint config options) runBoundary published
        w) : Visited published entrypoint w.log w.own := by
    refine ⟨hw.tracks.own_eq, hw.tracks.union, ?_⟩
    rintro ⟨request, reply⟩ hcall created hcreated
    obtain ⟨before, after, hsplit⟩ := List.append_of_mem hcall
    cases request with
    | create requestApp precreateId spec =>
      obtain ⟨ep, shared, ownIds, hep, hissued⟩ :=
        hw.issued before _ after hsplit requestApp precreateId spec reply rfl
      have hname : ep = runEntrypoint entrypoint config options :=
        List.mem_singleton.mp (List.mem_of_getElem? hep)
      have htag := objectTag_of_build hissued.spec_eq
      rw [hname] at htag
      cases reply with
      | error e => cases hcreated
      | ok reply =>
        cases hcreated
        exact htag
    | _ => cases hcreated
  have hadmits : runBoundary.Admits
      (runInputs appId appName entrypoint config options).entrypoints := fun _ => ⟨_, rfl⟩
  refine Triple.bind ((triple_provision hadmits).mono (fun w hw => hw)
    (fun _ w hw => hvisited hw) (fun w hw => hvisited hw)) fun _ => ?_
  refine Triple.bind (Q := fun p w => Visited published entrypoint w.log w.own ∧ w.own = p)
    (Triple.own fun w hw => ⟨hw, rfl⟩) fun p => ?_
  refine Triple.offline ?_ fun w hw => hw.1
  rintro functionId w hresult ⟨hw, rfl⟩
  refine ⟨hw, ?_⟩
  cases hid : w.own.functionIds (sanitizeObjectTag entrypoint) with
  | none =>
    rw [hid] at hresult
    cases hresult
  | some id =>
    rw [hid] at hresult
    cases hresult
    rfl

end ModalRust.Provision
