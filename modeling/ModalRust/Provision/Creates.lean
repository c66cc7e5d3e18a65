import ModalRust.Provision.Lookups

/-!
# Creates

Which function each create of a provisioning is for, and what it carries. In a deploy the
creates follow the list of entrypoints: right before the create of an entrypoint come the
precreate under its own tag and the calls for its own secrets and volumes. A run has a
single entrypoint, whose secrets and volumes come first.
-/

namespace ModalRust.Provision

open ModalRust.Sdk ModalRust.Session

/-- The ids that all creates of one provisioning share. -/
structure SharedIds where
  /-- The app. -/
  appId : Text
  /-- The image. -/
  imageId : Text
  /-- The mount of the client. -/
  clientMountId : Text
  /-- The mount of the source. -/
  sourceMountId : Text
  /-- The volume of the cargo cache. -/
  cacheVolId : Option Text
  deriving DecidableEq

/-- The shared ids are what the control plane returned for them. -/
structure SharedIds.FromCalls (shared : SharedIds) (inputs : ProvisionInputs)
    (boundary : Boundary) (calls : List Call) : Prop where
  /-- The client. -/
  client : ⟨.ensureClientMount, .ok shared.clientMountId⟩ ∈ calls
  /-- The source. -/
  source : ⟨.ensureSourceMount inputs.source (sourceRemote inputs boundary),
    .ok shared.sourceMountId⟩ ∈ calls
  /-- The image. -/
  image : ∃ spec layer, ⟨.ensureImage shared.appId spec layer, .ok shared.imageId⟩ ∈ calls
  /-- Only a run uses the cargo cache. -/
  cache_isSome : shared.cacheVolId.isSome =
    (inputs.cache && boundary.sourceDelivery == .runMount)
  /-- The cargo cache. -/
  cache : ∀ volume ∈ shared.cacheVolId,
    ⟨.ensureVolume cacheVolumeName true, .ok volume⟩ ∈ calls

/-- The own ids of an entrypoint, and its precreate id, are what the control plane returned
for its own requests, the last ones before its create. -/
def OwnIds.FromCalls (own : OwnIds) (inputs : ProvisionInputs) (boundary : Boundary)
    (ep : Entrypoint) (appId precreateId : Text) (calls : List Call) : Prop :=
  let precreated : Call := ⟨.precreate appId (sanitizeObjectTag ep.name), .ok precreateId⟩
  match boundary.sourceDelivery with
  | .runMount => ∃ before, calls = before ++ [precreated] ∧
      ownCalls inputs.appName ep own <:+: before
  | .deployContext => ∃ before, calls = before ++ precreated :: ownCalls inputs.appName ep own

/-- The resources of an entrypoint. -/
def resourcesOf (ep : Entrypoint) (shared : SharedIds) (own : OwnIds) : AttachedResources where
  clientMountId := shared.clientMountId
  sourceMountId := shared.sourceMountId
  cacheVolId := shared.cacheVolId
  secretIds := own.secretIds
  userVolumeMounts := own.mounts ep.options

/-- A create that is issued for an entrypoint after some calls. -/
structure IssuedFor (host : Host) (inputs : ProvisionInputs) (boundary : Boundary)
    (ep : Entrypoint) (calls : List Call) (appId precreateId : Text) (spec : FunctionSpec)
    (shared : SharedIds) (own : OwnIds) : Prop where
  /-- The app. -/
  appId_eq : appId = shared.appId
  /-- The shared ids. -/
  shared_calls : shared.FromCalls inputs boundary calls
  /-- The own ids answer the entrypoint's own requests, one by one. -/
  fits : own.Fits ep.options
  /-- They are what the control plane returned. -/
  own_calls : own.FromCalls inputs boundary ep appId precreateId calls
  /-- The spec. -/
  spec_eq : buildFunctionSpec host.std boundary ep shared.imageId (resourcesOf ep shared own) =
    .ok spec

/-- The `k`-th create of a log is issued for the `k`-th entrypoint. -/
def EachIssued (host : Host) (inputs : ProvisionInputs) (boundary : Boundary) :
    List Call → Prop :=
  EachAfter fun before call => ∀ appId precreateId spec reply,
    call = ⟨.create appId precreateId spec, reply⟩ →
    ∃ ep shared own, inputs.entrypoints[(before.filterMap createRequest).length]? = some ep ∧
      IssuedFor host inputs boundary ep before appId precreateId spec shared own

/-- Every publish comes after the successful creates of all entrypoints. -/
def PublishesAll (inputs : ProvisionInputs) : List Call → Prop :=
  EachAfter fun before call => publishRequest call ≠ none →
    List.Forall₂ (fun ep created => created.1 = sanitizeObjectTag ep.name) inputs.entrypoints
      (before.filterMap createdBy)

variable {σ : Type} {cp : ControlPlane σ} {host : Host} {inputs : ProvisionInputs}
  {boundary : Boundary} {published : Published}

/-- The tag of a built spec is the entrypoint's. -/
theorem objectTag_of_build {std : Std} {ep : Entrypoint} {imageId : Text}
    {res : AttachedResources} {spec : FunctionSpec}
    (hspec : buildFunctionSpec std boundary ep imageId res = .ok spec) :
    spec.objectTag = sanitizeObjectTag ep.name := by
  rw [buildFunctionSpec_eq] at hspec
  cases hchecked : checkOptions std boundary ep with
  | error e =>
    rw [hchecked] at hspec
    cases hspec
  | ok checked =>
    rw [hchecked] at hspec
    cases hspec
    rfl

/-- What holds of a provisioning at any time. -/
structure Sound (host : Host) (inputs : ProvisionInputs) (boundary : Boundary)
    (published : Published) (w : PlaneWorld σ) : Prop where
  /-- The accumulator is in step with the log. -/
  tracks : Tracks published w
  /-- The creates follow the entrypoints. -/
  issued : EachIssued host inputs boundary w.log
  /-- A publish comes last. -/
  complete : PublishesAll inputs w.log

/-- What the create loop has resolved before it comes to an entrypoint: in a run, the
resources of that entrypoint. -/
def Prepared (inputs : ProvisionInputs) (boundary : Boundary) (run : Option RunResources)
    (ep : Entrypoint) (log : List Call) : Prop :=
  match run with
  | some run => boundary.sourceDelivery = .runMount ∧ ∃ own, RunCalls inputs ep own run log
  | none => boundary.sourceDelivery = .deployContext

/-- What holds in the create loop when `k` functions have been requested. -/
structure InLoop (host : Host) (inputs : ProvisionInputs) (boundary : Boundary)
    (published : Published) (mounts : Mounts) (appId imageId : Text) (k : ℕ)
    (w : PlaneWorld σ) : Prop extends Sound host inputs boundary published w where
  /-- How many functions have been requested. -/
  count : (w.log.filterMap createRequest).length = k
  /-- All of them were created. -/
  created : List.Forall₂ (fun ep created => created.1 = sanitizeObjectTag ep.name)
    (inputs.entrypoints.take k) (w.log.filterMap createdBy)
  /-- The client. -/
  client : ⟨.ensureClientMount, .ok mounts.client⟩ ∈ w.log
  /-- The source. -/
  source : ⟨.ensureSourceMount inputs.source (sourceRemote inputs boundary),
    .ok mounts.source⟩ ∈ w.log
  /-- The image. -/
  image : ∃ spec layer, ⟨.ensureImage appId spec layer, .ok imageId⟩ ∈ w.log

/-- Lookups keep what holds of a provisioning. -/
theorem Sound.lookups {w w' : PlaneWorld σ} {calls : List Call}
    (hw : Sound host inputs boundary published w) (hown : w'.own = w.own)
    (hlog : w'.log = w.log ++ calls) (hcalls : ∀ call ∈ calls, IsLookup call) :
    Sound host inputs boundary published w' where
  tracks := hw.tracks.lookups hown hlog hcalls
  issued := by
    rw [hlog]
    refine hw.issued.append_of_forall fun call hcall before appId precreateId spec reply heq => ?_
    cases heq ▸ (hcalls call hcall).1
  complete := by
    rw [hlog]
    exact hw.complete.append_of_forall fun call hcall before hpublish =>
      (hpublish (hcalls call hcall).2).elim

/-- Lookups create nothing. -/
theorem filterMap_createRequest_append {log calls : List Call}
    (hcalls : ∀ call ∈ calls, IsLookup call) :
    (log ++ calls).filterMap createRequest = log.filterMap createRequest := by
  have hnil : calls.filterMap createRequest = [] :=
    List.filterMap_eq_nil_iff.mpr fun call hcall => (hcalls call hcall).1
  rw [List.filterMap_append, hnil, List.append_nil]

/-- Lookups do not succeed in creating anything. -/
theorem filterMap_createdBy_append {log calls : List Call}
    (hcalls : ∀ call ∈ calls, IsLookup call) :
    (log ++ calls).filterMap createdBy = log.filterMap createdBy := by
  have hnil : calls.filterMap createdBy = [] :=
    List.filterMap_eq_nil_iff.mpr fun call hcall =>
      createdBy_of_createRequest (hcalls call hcall).1
  rw [List.filterMap_append, hnil, List.append_nil]

/-- Lookups keep what holds in the create loop. -/
theorem InLoop.lookups {mounts : Mounts} {appId imageId : Text} {k : ℕ} {w w' : PlaneWorld σ}
    {calls : List Call} (hw : InLoop host inputs boundary published mounts appId imageId k w)
    (hown : w'.own = w.own) (hlog : w'.log = w.log ++ calls)
    (hcalls : ∀ call ∈ calls, IsLookup call) :
    InLoop host inputs boundary published mounts appId imageId k w' where
  toSound := hw.toSound.lookups hown hlog hcalls
  count := by rw [hlog, filterMap_createRequest_append hcalls, hw.count]
  created := by
    rw [hlog, filterMap_createdBy_append hcalls]
    exact hw.created
  client := by
    rw [hlog]
    exact List.mem_append_left _ hw.client
  source := by
    rw [hlog]
    exact List.mem_append_left _ hw.source
  image := by
    obtain ⟨spec, layer, himage⟩ := hw.image
    exact ⟨spec, layer, by rw [hlog]; exact List.mem_append_left _ himage⟩

/-- A part that only looks things up, within the create loop. -/
theorem InLoop.of_emits {α : Type} {m : Provisioning σ α} {S : α → List Call → Prop}
    (hm : Emits IsLookup m S) {mounts : Mounts} {appId imageId : Text} {k : ℕ}
    {J : List Call → Prop} :
    Triple (fun w => InLoop host inputs boundary published mounts appId imageId k w ∧ J w.log) m
      (fun a w => InLoop host inputs boundary published mounts appId imageId k w ∧
        ∃ log calls, w.log = log ++ calls ∧ J log ∧ S a calls)
      (Sound host inputs boundary published) := by
  refine Triple.intro ?_
  rintro w ⟨hw, hJ⟩
  have hresult := hm w
  cases hrun : m w with
  | ok a w' =>
    rw [hrun] at hresult
    obtain ⟨hown, calls, hlog, hcalls, hS⟩ := hresult
    exact ⟨hw.lookups hown hlog hcalls, w.log, calls, hlog, hJ, hS⟩
  | error e w' =>
    rw [hrun] at hresult
    obtain ⟨hown, calls, hlog, hcalls⟩ := hresult
    exact hw.toSound.lookups hown hlog hcalls

/-- The resources of an entrypoint within the create loop. -/
theorem emits_entrypointResources {run : Option RunResources} {ep : Entrypoint} :
    Emits IsLookup (entrypointResources cp inputs run ep) fun res calls =>
      match run with
      | some run => res = (run.cacheVolId, run.secretIds, run.userVolumeMounts) ∧ calls = []
      | none => ∃ own : OwnIds, own.Fits ep.options ∧
          res = (none, own.secretIds, own.mounts ep.options) ∧
          calls = ownCalls inputs.appName ep own := by
  cases run with
  | some run => exact Emits.pure ⟨rfl, rfl⟩
  | none =>
    refine Emits.bind (emits_resolveEntrypointSecrets _ _ _) fun secretIds calls hsecrets => ?_
    refine Emits.bind (emits_resolveVolumes _ _) fun mounts volumeCalls hvolumes => ?_
    obtain ⟨hcount, rfl⟩ := hsecrets
    obtain ⟨volumeIds, hlength, rfl, rfl⟩ := hvolumes
    refine Emits.pure ⟨⟨secretIds, volumeIds⟩, ⟨hcount, hlength⟩, rfl, ?_⟩
    simp [ownCalls]

/-- Creating and recording a function logs the create with its reply. -/
theorem triple_create_log (cp : ControlPlane σ) (appId precreateId objectTag : Text)
    (spec : FunctionSpec) (log : List Call) :
    Triple (fun w : PlaneWorld σ => w.log = log) (do
        let created : Created ← ask cp (.create appId precreateId spec)
        update (Published.record objectTag created))
      (fun _ w => ∃ created, w.log = log ++ [⟨.create appId precreateId spec, .ok created⟩])
      (fun w => ∃ e, w.log = log ++ [⟨.create appId precreateId spec, .error e⟩]) := by
  refine Triple.bind (Q := fun _ w =>
    ∃ created, w.log = log ++ [⟨.create appId precreateId spec, .ok created⟩]) ?_ ?_
  · exact Triple.ask (fun w a s hw _ => ⟨a, by rw [World.log_answered, hw]⟩)
      (fun w e s hw _ => ⟨e, by rw [World.log_answered, hw]⟩)
  · exact fun created => Triple.update fun w hw => hw

/-- The create of the next entrypoint. -/
theorem triple_create {ep : Entrypoint} {shared : SharedIds} {own : OwnIds} {mounts : Mounts}
    {appId imageId precreateId : Text} {spec : FunctionSpec} {k : ℕ}
    (hep : inputs.entrypoints[k]? = some ep) :
    Triple (fun w : PlaneWorld σ =>
        InLoop host inputs boundary published mounts appId imageId k w ∧
          IssuedFor host inputs boundary ep w.log appId precreateId spec shared own) (do
        let created : Created ← ask cp (.create appId precreateId spec)
        update (Published.record (sanitizeObjectTag ep.name) created))
      (fun _ => InLoop host inputs boundary published mounts appId imageId (k + 1))
      (Sound host inputs boundary published) := by
  refine Triple.intro ?_
  rintro w ⟨hw, hissued⟩
  have htag := objectTag_of_build hissued.spec_eq
  have hresult := ((keeps_tracks_create cp htag).and
    (triple_create_log cp appId precreateId (sanitizeObjectTag ep.name) spec w.log)).apply
    ⟨hw.tracks, rfl⟩
  have hcount := hw.count
  have hlogged {w' : PlaneWorld σ} {reply : Except Error Created}
      (htracks : Tracks published w')
      (hlog : w'.log = w.log ++ [⟨.create appId precreateId spec, reply⟩]) :
      Sound host inputs boundary published w' := by
    refine ⟨htracks, ?_, ?_⟩
    · rw [hlog]
      refine hw.issued.concat fun appId' precreateId' spec' reply' heq => ?_
      cases heq
      exact ⟨ep, shared, own, by rw [hcount]; exact hep, hissued⟩
    · rw [hlog]
      exact hw.complete.concat fun hpublish => (hpublish rfl).elim
  split at hresult
  · obtain ⟨htracks, created, hlog⟩ := hresult
    obtain ⟨imageSpec, layer, himage⟩ := hw.image
    refine ⟨hlogged htracks hlog, ?_, ?_, ?_, ?_, imageSpec, layer, ?_⟩
    · rw [hlog, List.filterMap_append, List.length_append, hcount]
      rfl
    · rw [hlog, List.filterMap_append, List.take_add_one, hep]
      exact List.rel_append hw.created (.cons htag .nil)
    · rw [hlog]
      exact List.mem_append_left _ hw.client
    · rw [hlog]
      exact List.mem_append_left _ hw.source
    · rw [hlog]
      exact List.mem_append_left _ himage
  · obtain ⟨htracks, e, hlog⟩ := hresult
    exact hlogged htracks hlog

/-- Creating the function of the next entrypoint. -/
theorem triple_createFunction {run : Option RunResources} {ep : Entrypoint} {mounts : Mounts}
    {appId imageId : Text} {k : ℕ} (hep : inputs.entrypoints[k]? = some ep) :
    Triple (fun w : PlaneWorld σ =>
        InLoop host inputs boundary published mounts appId imageId k w ∧
          Prepared inputs boundary run ep w.log)
      (createFunction cp host inputs boundary run mounts appId imageId ep)
      (fun _ => InLoop host inputs boundary published mounts appId imageId (k + 1))
      (Sound host inputs boundary published) := by
  refine Triple.bind (InLoop.of_emits (emits_ask fun _ => ⟨rfl, rfl⟩)) fun precreateId => ?_
  refine Triple.bind (Q := fun res w =>
    InLoop host inputs boundary published mounts appId imageId k w ∧
      ∃ shared own, shared.imageId = imageId ∧
        resourcesOf ep shared own = ⟨mounts.client, mounts.source, res.1, res.2.1, res.2.2⟩ ∧
        ∀ spec, buildFunctionSpec host.std boundary ep imageId (resourcesOf ep shared own) =
          .ok spec → IssuedFor host inputs boundary ep w.log appId precreateId spec shared own)
    ?_ ?_
  · refine (InLoop.of_emits emits_entrypointResources (J := fun log => ∃ before calls,
      log = before ++ calls ∧ Prepared inputs boundary run ep before ∧
        calls = [⟨.precreate appId (sanitizeObjectTag ep.name), .ok precreateId⟩])).mono
      (fun w hw => hw) ?_ (fun w hw => hw)
    rintro res w ⟨hw, log, calls, hlog, ⟨before, _, rfl, hprepared, rfl⟩, hres⟩
    refine ⟨hw, ?_⟩
    cases run with
    | none =>
      obtain ⟨own, hfits, rfl, rfl⟩ := hres
      have hdeploy : boundary.sourceDelivery = .deployContext := hprepared
      refine ⟨⟨appId, imageId, mounts.client, mounts.source, none⟩, own, rfl, rfl, ?_⟩
      intro spec hspec
      refine ⟨rfl, ⟨hw.client, hw.source, hw.image, ?_, by simp⟩, hfits, ?_, hspec⟩
      · rw [hdeploy]
        simp
      · rw [OwnIds.FromCalls, hdeploy]
        exact ⟨before, by rw [hlog, List.append_assoc]; rfl⟩
    | some run =>
      obtain ⟨rfl, rfl⟩ := hres
      obtain ⟨hrun, own, hcalls⟩ := hprepared
      refine ⟨⟨appId, imageId, mounts.client, mounts.source, run.cacheVolId⟩, own, rfl, ?_, ?_⟩
      · rw [resourcesOf, hcalls.secretIds_eq, hcalls.userVolumeMounts_eq]
      intro spec hspec
      rw [List.append_nil] at hlog
      refine ⟨rfl, ⟨hw.client, hw.source, hw.image, ?_, ?_⟩, hcalls.fits, ?_, hspec⟩
      · rw [hrun, hcalls.cache_isSome]
        simp
      · intro volume hvolume
        rw [hlog]
        exact List.mem_append_left _ (hcalls.cache_call volume hvolume)
      · rw [OwnIds.FromCalls, hrun]
        exact ⟨before, hlog, hcalls.own_calls⟩
  · rintro ⟨cacheVolId, secretIds, userVolumeMounts⟩
    refine Triple.bind (Triple.offline (Q := fun spec w =>
      InLoop host inputs boundary published mounts appId imageId k w ∧
        ∃ shared own, IssuedFor host inputs boundary ep w.log appId precreateId spec shared own)
      ?_ fun w hw => hw.1.toSound) ?_
    · rintro spec w hspec ⟨hw, shared, own, rfl, hres, hissued⟩
      refine ⟨hw, shared, own, hissued spec ?_⟩
      rw [hres]
      cases hbuild : buildFunctionSpec host.std boundary ep shared.imageId
        ⟨mounts.client, mounts.source, cacheVolId, secretIds, userVolumeMounts⟩ with
      | error e =>
        rw [hbuild] at hspec
        cases hspec
      | ok spec' =>
        rw [hbuild] at hspec
        cases hspec
        rfl
    · refine fun spec => Triple.intro ?_
      rintro w ⟨hw, shared, own, hissued⟩
      exact (triple_create hep).apply ⟨hw, hissued⟩

/-- Publishing logs one call, which creates nothing. -/
theorem triple_publishAll_log (cp : ControlPlane σ) (inputs : ProvisionInputs)
    (boundary : Boundary) (appId : Text) (log : List Call) :
    Triple (fun w : PlaneWorld σ => w.log = log) (publishAll cp inputs boundary appId)
      (fun _ w => ∃ call, createRequest call = none ∧ w.log = log ++ [call])
      (fun w => ∃ call, createRequest call = none ∧ w.log = log ++ [call]) := by
  refine Triple.bind (Triple.own (Q := fun _ w => w.log = log) fun w hw => hw) fun published => ?_
  exact Triple.ask (fun w url s hw _ => ⟨_, rfl, by rw [World.log_answered, hw]⟩)
    (fun w e s hw _ => ⟨_, rfl, by rw [World.log_answered, hw]⟩)

/-- Publishing, after all functions were created. -/
theorem triple_publishAll {mounts : Mounts} {appId imageId : Text} :
    Triple (fun w : PlaneWorld σ => InLoop host inputs boundary published mounts appId imageId
        inputs.entrypoints.length w)
      (publishAll cp inputs boundary appId)
      (fun _ => Sound host inputs boundary published) (Sound host inputs boundary published) := by
  refine Triple.intro ?_
  intro w hw
  have hresult := ((keeps_tracks_publishAll cp inputs boundary appId).and
    (triple_publishAll_log cp inputs boundary appId w.log)).apply ⟨hw.tracks, rfl⟩
  have hcreated := hw.created
  rw [List.take_length] at hcreated
  have hlogged {w' : PlaneWorld σ} {call : Call} (htracks : Tracks published w')
      (hcall : createRequest call = none) (hlog : w'.log = w.log ++ [call]) :
      Sound host inputs boundary published w' := by
    refine ⟨htracks, ?_, ?_⟩
    · rw [hlog]
      refine hw.issued.concat fun appId' precreateId spec reply heq => ?_
      cases heq ▸ hcall
    · rw [hlog]
      exact hw.complete.concat fun _ => hcreated
  split at hresult
  · obtain ⟨htracks, call, hcall, hlog⟩ := hresult
    exact hlogged htracks hcall hlog
  · obtain ⟨htracks, call, hcall, hlog⟩ := hresult
    exact hlogged htracks hcall hlog

/-- The create loop of a deploy. -/
theorem triple_createEach {mounts : Mounts} {appId imageId : Text}
    (hdeploy : boundary.sourceDelivery = .deployContext) (rest : List Entrypoint)
    (publishUrl : Text) (k : ℕ) (hrest : inputs.entrypoints.drop k = rest)
    (hk : k + rest.length = inputs.entrypoints.length) :
    Triple (fun w : PlaneWorld σ =>
        InLoop host inputs boundary published mounts appId imageId k w)
      (createEach cp host inputs boundary none mounts appId imageId rest publishUrl)
      (fun _ => InLoop host inputs boundary published mounts appId imageId
        inputs.entrypoints.length)
      (Sound host inputs boundary published) := by
  induction rest generalizing k publishUrl with
  | nil =>
    refine Triple.pure fun w hw => ?_
    rw [List.length_nil, Nat.add_zero] at hk
    rwa [hk] at hw
  | cons ep rest ih =>
    have hep : inputs.entrypoints[k]? = some ep := by
      rw [← List.head?_drop, hrest]
      rfl
    have htail : inputs.entrypoints.drop (k + 1) = rest := by
      rw [← List.tail_drop, hrest]
      rfl
    have hlength : k + 1 + rest.length = inputs.entrypoints.length := by
      rw [List.length_cons] at hk
      omega
    refine Triple.bind ((triple_createFunction hep).mono (fun w hw => ⟨hw, hdeploy⟩)
      (fun _ _ hw => hw) (fun _ hw => hw)) fun _ => ?_
    exact Triple.bind (Triple.pure fun w hw => hw)
      fun publishUrl => ih publishUrl (k + 1) htail hlength

/-- The create loop of a run. -/
theorem triple_createEach_run {mounts : Mounts} {appId imageId publishUrl : Text}
    {ep : Entrypoint} {run : RunResources} (hep : inputs.entrypoints = [ep]) :
    Triple (fun w : PlaneWorld σ =>
        InLoop host inputs boundary published mounts appId imageId 0 w ∧
          Prepared inputs boundary (some run) ep w.log)
      (createEach cp host inputs boundary (some run) mounts appId imageId [ep] publishUrl)
      (fun _ => Sound host inputs boundary published)
      (Sound host inputs boundary published) := by
  refine Triple.bind (triple_createFunction (by rw [hep]; rfl)) fun _ => ?_
  have hall : 0 + 1 = inputs.entrypoints.length := by
    rw [hep]
    rfl
  rw [hall]
  exact Triple.bind triple_publishAll fun publishUrl => Triple.pure fun w hw => hw

/-- A run has one entrypoint; a deploy has any number. -/
def Boundary.Admits (boundary : Boundary) (entrypoints : List Entrypoint) : Prop :=
  boundary.sourceDelivery = .runMount → ∃ ep, entrypoints = [ep]

/-- What a plan resolves first. -/
def PlanCalls (inputs : ProvisionInputs) (boundary : Boundary) (run : Option RunResources)
    (calls : List Call) : Prop :=
  match run with
  | some run => boundary.sourceDelivery = .runMount ∧
      ∃ ep, inputs.entrypoints = [ep] ∧ ∃ own, RunCalls inputs ep own run calls
  | none => boundary.sourceDelivery = .deployContext

/-- More calls do not change what a plan has resolved. -/
theorem PlanCalls.append {run : Option RunResources} {calls : List Call}
    (hplan : PlanCalls inputs boundary run calls) (later : List Call) :
    PlanCalls inputs boundary run (calls ++ later) := by
  cases run with
  | none => exact hplan
  | some run =>
    obtain ⟨hrun, ep, hep, own, hcalls⟩ := hplan
    refine ⟨hrun, ep, hep, own, ⟨hcalls.fits, hcalls.secretIds_eq, hcalls.userVolumeMounts_eq, ?_,
      hcalls.cache_isSome, ?_⟩⟩
    · exact hcalls.own_calls.trans (List.prefix_append calls later).isInfix
    · exact fun volume hvolume => List.mem_append_left _ (hcalls.cache_call volume hvolume)

/-- What is resolved by the plan. -/
theorem emits_resolvePlan (hadmits : boundary.Admits inputs.entrypoints) {plan : ProvisionPlan}
    (hplan : boundary.plan inputs.entrypoints = .ok plan) :
    Emits IsLookup (resolvePlan cp inputs boundary plan) (PlanCalls inputs boundary) := by
  obtain ⟨state, delivery⟩ := boundary
  cases delivery with
  | deployContext =>
    cases hplan
    exact Emits.pure rfl
  | runMount =>
    obtain ⟨ep, hep⟩ := hadmits rfl
    rw [hep] at hplan
    cases hplan
    refine Emits.bind (emits_resolveRun ep) fun run calls hrun => Emits.pure ?_
    rw [List.append_nil]
    exact ⟨rfl, ep, hep, hrun⟩

/-- Everything before the create loop. -/
structure ResolvedCalls (inputs : ProvisionInputs) (boundary : Boundary) (resolved : Resolved)
    (calls : List Call) : Prop where
  /-- The plan. -/
  plan : PlanCalls inputs boundary resolved.run calls
  /-- The client. -/
  client : ⟨.ensureClientMount, .ok resolved.mounts.client⟩ ∈ calls
  /-- The source. -/
  source : ⟨.ensureSourceMount inputs.source (sourceRemote inputs boundary),
    .ok resolved.mounts.source⟩ ∈ calls
  /-- The image. -/
  image : ∃ spec layer, ⟨.ensureImage resolved.appId spec layer, .ok resolved.imageId⟩ ∈ calls

/-- Everything before the create loop. -/
theorem emits_resolveAll (hadmits : boundary.Admits inputs.entrypoints) :
    Emits IsLookup (resolveAll cp host inputs boundary) (ResolvedCalls inputs boundary) := by
  refine Emits.bind (Emits.offline (S := fun plan calls =>
    boundary.plan inputs.entrypoints = .ok plan ∧ calls = []) fun plan hplan => ⟨hplan, rfl⟩)
    fun plan calls hplan => ?_
  obtain ⟨hplan, rfl⟩ := hplan
  refine Emits.bind (emits_resolvePlan hadmits hplan) fun run planCalls hrun => ?_
  refine Emits.bind emits_resolveMounts fun mounts mountCalls hmounts => ?_
  refine Emits.bind (emits_resolveApp run) fun appId appCalls _ => ?_
  refine Emits.bind (emits_buildImage appId mounts) fun imageId imageCalls himage => ?_
  obtain ⟨spec, layer, himage⟩ := himage
  refine Emits.pure ⟨?_, ?_, ?_, spec, layer, ?_⟩
  · exact hrun.append _
  · simp [hmounts.1]
  · simp [hmounts.2]
  · simp [himage]

/-- **A provisioning, from an empty log, keeps its accumulator in step, and the creates that
it issues follow the entrypoints.** -/
theorem triple_provision (hadmits : boundary.Admits inputs.entrypoints) :
    Triple (fun w : PlaneWorld σ => w.own = published ∧ w.log = [])
      (provision cp host inputs boundary)
      (fun _ => Sound host inputs boundary published)
      (Sound host inputs boundary published) := by
  have hstart {w : PlaneWorld σ} {calls : List Call} (hown : w.own = published)
      (hlog : w.log = [] ++ calls) (hcalls : ∀ call ∈ calls, IsLookup call) :
      Sound host inputs boundary published w := by
    have hempty : Sound host inputs boundary published
        (⟨w.server, published, []⟩ : PlaneWorld σ) := ⟨⟨rfl, .nil⟩, .nil, .nil⟩
    exact hempty.lookups hown hlog hcalls
  refine Triple.bind (((emits_resolveAll hadmits).triple published []).mono (fun w hw => hw)
    (fun _ _ hw => hw) fun w hw => hstart hw.1 hw.2.choose_spec.1 hw.2.choose_spec.2)
    fun resolved => ?_
  obtain ⟨run, mounts, appId, imageId⟩ := resolved
  have hloop {w : PlaneWorld σ} (hw : w.own = published ∧ ∃ calls, w.log = [] ++ calls ∧
      (∀ call ∈ calls, IsLookup call) ∧
      ResolvedCalls inputs boundary ⟨run, mounts, appId, imageId⟩ calls) :
      InLoop host inputs boundary published mounts appId imageId 0 w ∧
        PlanCalls inputs boundary run w.log := by
    obtain ⟨hown, calls, hlog, hcalls, hresolved⟩ := hw
    have hsound := hstart hown hlog hcalls
    rw [List.nil_append] at hlog
    rw [hlog]
    refine ⟨⟨hsound, ?_, ?_, ?_, ?_, ?_⟩, hresolved.plan⟩
    · rw [hlog, ← List.nil_append calls, filterMap_createRequest_append hcalls]
      rfl
    · rw [hlog, ← List.nil_append calls, filterMap_createdBy_append hcalls]
      exact .nil
    · rw [hlog]
      exact hresolved.client
    · rw [hlog]
      exact hresolved.source
    · rw [hlog]
      exact hresolved.image
  cases run with
  | none =>
    refine Triple.bind (Q := fun _ w => InLoop host inputs boundary published mounts appId imageId
      inputs.entrypoints.length w) ?_ fun publishUrl =>
        Triple.bind triple_publishAll fun publishUrl => Triple.pure fun w hw => hw
    refine Triple.intro ?_
    intro w hw
    obtain ⟨hin, hdeploy⟩ := hloop hw
    exact (triple_createEach hdeploy inputs.entrypoints [] 0 rfl (Nat.zero_add _)).apply hin
  | some run =>
    refine Triple.bind (Q := fun _ => Sound host inputs boundary published) ?_ fun publishUrl =>
      Triple.bind (Triple.pure fun w hw => hw) fun publishUrl => Triple.pure fun w hw => hw
    refine Triple.intro ?_
    intro w hw
    obtain ⟨hin, hrun, ep, hep, hown⟩ := hloop hw
    rw [hep]
    exact (triple_createEach_run hep).apply ⟨hin, hrun, hown⟩

end ModalRust.Provision
