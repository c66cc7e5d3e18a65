import ModalRust.Provision.UnionKept

/-!
# Isolation of functions

Every function that a provisioning creates carries the options of its own entrypoint: its
own secrets and volumes, as the control plane resolved them for it, and its own resources,
schedule, autoscaler, webhook and snapshot flag. What all functions of a provisioning share
are the app, the mounts and the image; the image depends on the whole list of entrypoints.
-/

namespace ModalRust.Provision

open ModalRust.Sdk ModalRust.Session

/-- A create carries the options of its own entrypoint, with ids that the control plane
returned for this entrypoint, and the shared ids. -/
structure CarriesOwn (host : Host) (inputs : ProvisionInputs) (boundary : Boundary)
    (ep : Entrypoint) (calls : List Call) (appId precreateId : Text) (spec : FunctionSpec)
    (shared : SharedIds) (own : OwnIds) : Prop extends
    IssuedFor host inputs boundary ep calls appId precreateId spec shared own where
  /-- All fields, from the entrypoint's options. -/
  fields : ∃ checked, checkOptions host.std boundary ep = .ok checked ∧
    spec = functionSpecOf boundary ep shared.imageId (resourcesOf ep shared own) checked.1
      checked.2

/-- The `k`-th create carries the options of the `k`-th entrypoint. -/
def EachCarriesOwn (host : Host) (inputs : ProvisionInputs) (boundary : Boundary) :
    List Call → Prop :=
  EachAfter fun before call => ∀ appId precreateId spec reply,
    call = ⟨.create appId precreateId spec, reply⟩ →
    ∃ ep shared own, inputs.entrypoints[(before.filterMap createRequest).length]? = some ep ∧
      CarriesOwn host inputs boundary ep before appId precreateId spec shared own

variable {host : Host} {inputs : ProvisionInputs} {boundary : Boundary} {ep : Entrypoint}
  {calls : List Call} {appId precreateId : Text} {spec : FunctionSpec} {shared : SharedIds}
  {own : OwnIds}

/-- A create that is issued for an entrypoint carries its options. -/
theorem IssuedFor.carriesOwn
    (hissued : IssuedFor host inputs boundary ep calls appId precreateId spec shared own) :
    CarriesOwn host inputs boundary ep calls appId precreateId spec shared own := by
  refine ⟨hissued, ?_⟩
  have hspec := hissued.spec_eq
  rw [buildFunctionSpec_eq] at hspec
  cases hchecked : checkOptions host.std boundary ep with
  | error e =>
    rw [hchecked] at hspec
    cases hspec
  | ok checked =>
    rw [hchecked] at hspec
    exact ⟨checked, rfl, (Except.ok.inj hspec).symm⟩

/-- What the creates of one entrypoint in two provisionings may differ in, when its own
ids are the same. -/
theorem CarriesOwn.eq_of_own_eq {inputs' : ProvisionInputs} {calls' : List Call}
    {appId' precreateId' : Text} {spec' : FunctionSpec} {shared' : SharedIds}
    (hcarries : CarriesOwn host inputs boundary ep calls appId precreateId spec shared own)
    (hcarries' : CarriesOwn host inputs' boundary ep calls' appId' precreateId' spec' shared'
      own) (hcache : shared.cacheVolId = shared'.cacheVolId) :
    spec' = { spec with imageId := spec'.imageId, mountIds := spec'.mountIds } := by
  obtain ⟨checked, hchecked, rfl⟩ := hcarries.fields
  obtain ⟨checked', hchecked', rfl⟩ := hcarries'.fields
  obtain rfl := Except.ok.inj (hchecked.symm.trans hchecked')
  unfold functionSpecOf resourcesOf
  rw [hcache]

/-- **Isolation of functions.** However a provisioning ends, each of its creates carries the
options of its own entrypoint. In two provisionings the functions of one entrypoint, with
the same ids for its own secrets and volumes, differ at most in the image and the mounts. -/
theorem creates_isolated {σ : Type} (cp : ControlPlane σ) (host : Host)
    (inputs : ProvisionInputs) (boundary : Boundary) (published : Published)
    (hadmits : boundary.Admits inputs.entrypoints) :
    Triple (fun w => w.own = published ∧ w.log = []) (provision cp host inputs boundary)
      (fun _ w => EachCarriesOwn host inputs boundary w.log)
      (fun w => EachCarriesOwn host inputs boundary w.log) ∧
    ∀ (inputs' : ProvisionInputs) (ep : Entrypoint) (own : OwnIds) (calls calls' : List Call)
      (appId appId' precreateId precreateId' : Text) (spec spec' : FunctionSpec)
      (shared shared' : SharedIds),
      CarriesOwn host inputs boundary ep calls appId precreateId spec shared own →
      CarriesOwn host inputs' boundary ep calls' appId' precreateId' spec' shared' own →
      shared.cacheVolId = shared'.cacheVolId →
      spec' = { spec with imageId := spec'.imageId, mountIds := spec'.mountIds } := by
  have hown {w : PlaneWorld σ} (hw : Sound host inputs boundary published w) :
      EachCarriesOwn host inputs boundary w.log := by
    intro before call after hsplit appId precreateId spec reply heq
    obtain ⟨ep, shared, own, hep, hissued⟩ :=
      hw.issued before call after hsplit appId precreateId spec reply heq
    exact ⟨ep, shared, own, hep, hissued.carriesOwn⟩
  refine ⟨(triple_provision hadmits).mono (fun w hw => hw) (fun _ w hw => hown hw)
    fun w hw => hown hw, ?_⟩
  intro inputs' ep own calls calls' appId appId' precreateId precreateId' spec spec' shared
    shared' hcarries hcarries' hcache
  exact hcarries.eq_of_own_eq hcarries' hcache

/-- A control plane that names an image after the number of its commands, and answers
everything else in the same way. -/
def contentPlane : ControlPlane Unit := fun request s =>
  match request with
  | .ensureImage _ spec _ => (.ok (Nat.toDigits 10 spec.extraCommands.length), s)
  | request => (.ok (numberedReply 0 request), s)

/-- The specs of the creates, after a provisioning. -/
def createdSpecs {σ α : Type} (result : EStateM.Result Error (PlaneWorld σ) α) :
    List FunctionSpec :=
  match result with
  | .ok _ w | .error _ w => w.log.filterMap createRequest

/-- An entrypoint that declares an endpoint and a memory snapshot. -/
def endpointEntrypoint (name : Text) : Entrypoint :=
  ⟨name, { FunctionOptions.default with
    webhookMethod := some "GET".toList, enableMemorySnapshot := true }, 600⟩

/-- An entrypoint with a named secret, an inline one and a volume. -/
def storingEntrypoint (name : Text) : Entrypoint :=
  ⟨name, { FunctionOptions.default with
    secrets := ["token".toList]
    env := [("MODE".toList, "fast".toList)]
    volumes := [("/data".toList, "data".toList)] }, 600⟩

/-- Shared ids with a given image. -/
def storedShared (imageId : Text) : SharedIds :=
  ⟨"ap-1".toList, imageId, "mo-1".toList, "mo-2".toList, none⟩

/-- No cargo cache is among them. -/
theorem storedShared_cacheVolId_eq (imageId imageId' : Text) :
    (storedShared imageId).cacheVolId = (storedShared imageId').cacheVolId := rfl

/-- Ids for the secrets and the volume. -/
def storedOwn : OwnIds := ⟨["st-1".toList, "st-2".toList], ["vo-1".toList]⟩

/-- The calls of a deploy before the create of such an entrypoint. -/
def storedCalls (inputs : ProvisionInputs) (imageId name : Text) : List Call :=
  [⟨.ensureClientMount, .ok "mo-1".toList⟩,
    ⟨.ensureSourceMount inputs.source (sourceRemote inputs deployBoundary), .ok "mo-2".toList⟩,
    ⟨.ensureImage "ap-1".toList (buildImageSpec plainHost deployBoundary inputs []) 0,
      .ok imageId⟩] ++
    ⟨.precreate "ap-1".toList (sanitizeObjectTag name), .ok "fu-1".toList⟩ ::
      ownCalls inputs.appName (storingEntrypoint name) storedOwn

/-- The shared ids are what these calls returned. -/
theorem storedShared_fromCalls (entrypoints : List Entrypoint) (imageId name : Text) :
    (storedShared imageId).FromCalls (plainInputs entrypoints) deployBoundary
      (storedCalls (plainInputs entrypoints) imageId name) where
  client := List.mem_cons_self
  source := List.mem_cons_of_mem _ List.mem_cons_self
  image := ⟨_, _, List.mem_cons_of_mem _ (List.mem_cons_of_mem _ List.mem_cons_self)⟩
  cache_isSome := rfl
  cache := nofun

/-- So are the own ids. -/
theorem storedOwn_fromCalls (entrypoints : List Entrypoint) (imageId name : Text) :
    storedOwn.FromCalls (plainInputs entrypoints) deployBoundary (storingEntrypoint name)
      "ap-1".toList "fu-1".toList (storedCalls (plainInputs entrypoints) imageId name) :=
  ⟨_, rfl⟩

/-- A create after these calls carries the options of the entrypoint. -/
theorem exists_carriesOwn_stored (entrypoints : List Entrypoint) (imageId : Text) :
    ∃ spec, CarriesOwn plainHost (plainInputs entrypoints) deployBoundary
      (storingEntrypoint "b".toList) (storedCalls (plainInputs entrypoints) imageId "b".toList)
      "ap-1".toList "fu-1".toList spec (storedShared imageId) storedOwn := by
  have hspec : ∃ spec, buildFunctionSpec plainHost.std deployBoundary
      (storingEntrypoint "b".toList) (storedShared imageId).imageId
      (resourcesOf (storingEntrypoint "b".toList) (storedShared imageId) storedOwn) = .ok spec :=
    ⟨_, rfl⟩
  obtain ⟨spec, hspec⟩ := hspec
  have hissued : IssuedFor plainHost (plainInputs entrypoints) deployBoundary
      (storingEntrypoint "b".toList) (storedCalls (plainInputs entrypoints) imageId "b".toList)
      "ap-1".toList "fu-1".toList spec (storedShared imageId) storedOwn :=
    { appId_eq := rfl
      shared_calls := storedShared_fromCalls entrypoints imageId "b".toList
      fits := ⟨rfl, rfl⟩
      own_calls := storedOwn_fromCalls entrypoints imageId "b".toList
      spec_eq := hspec }
  exact ⟨spec, hissued.carriesOwn⟩

/-- A deploy of an entrypoint with an endpoint and of one with secrets and a volume; and the
second one's function in a deploy of its own, with another image. -/
theorem creates_isolated_endpoint :
    let inputs := plainInputs [endpointEntrypoint "a".toList, storingEntrypoint "b".toList]
    let alone := plainInputs [storingEntrypoint "b".toList]
    Triple (fun w => w.own = .default ∧ w.log = [])
      (provision contentPlane plainHost inputs deployBoundary)
      (fun _ w => EachCarriesOwn plainHost inputs deployBoundary w.log)
      (fun w => EachCarriesOwn plainHost inputs deployBoundary w.log) ∧
    ∃ spec spec',
      CarriesOwn plainHost inputs deployBoundary (storingEntrypoint "b".toList)
        (storedCalls inputs "im-2".toList "b".toList) "ap-1".toList "fu-1".toList spec
        (storedShared "im-2".toList) storedOwn ∧
      CarriesOwn plainHost alone deployBoundary (storingEntrypoint "b".toList)
        (storedCalls alone "im-1".toList "b".toList) "ap-1".toList "fu-1".toList spec'
        (storedShared "im-1".toList) storedOwn ∧
      spec' = { spec with imageId := spec'.imageId, mountIds := spec'.mountIds } := by
  intro inputs alone
  obtain ⟨hdeploy, hsame⟩ := creates_isolated contentPlane plainHost inputs deployBoundary .default
    (by rintro ⟨⟩)
  obtain ⟨spec, hspec⟩ := exists_carriesOwn_stored
    [endpointEntrypoint "a".toList, storingEntrypoint "b".toList] "im-2".toList
  obtain ⟨spec', hspec'⟩ := exists_carriesOwn_stored [storingEntrypoint "b".toList] "im-1".toList
  exact ⟨hdeploy, spec, spec', hspec, hspec',
    hsame _ _ _ _ _ _ _ _ _ _ _ _ _ hspec hspec' (storedShared_cacheVolId_eq _ _)⟩

/-- A second entrypoint in the list changes the image of the first one's function, and a
function that a run creates does not carry the declared endpoint. -/
theorem create_depends_on_list_and_boundary :
    (createdSpecs (provision contentPlane plainHost (plainInputs [plainEntrypoint "a".toList])
        deployBoundary ⟨(), .default, []⟩))[0]? ≠
      (createdSpecs (provision contentPlane plainHost
        (plainInputs [plainEntrypoint "a".toList, endpointEntrypoint "b".toList])
        deployBoundary ⟨(), .default, []⟩))[0]? ∧
    (createdSpecs (provision contentPlane plainHost
      (plainInputs [endpointEntrypoint "b".toList]) runBoundary ⟨(), .default, []⟩)).map
        FunctionSpec.webhook = [none] := by
  decide +kernel

end ModalRust.Provision
