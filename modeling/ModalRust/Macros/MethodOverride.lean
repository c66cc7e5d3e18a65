import ModalRust.Fallible
import ModalRust.Macros.Decorator
import ModalRust.Macros.RetriesAgree
import ModalRust.Provision.Creates
import ModalRust.Sdk.FunctionCreate

/-!
# Methods over their class

A method's config is merged over that of its class, registered, and turned into a create request.
Every knob of the request is compared with that of a method without a class or of a class without
a method. The retry policy has two spellings, which are merged apart from each other, and this is
where a method may lose against its class.
-/

namespace ModalRust.Macros

open ModalRust.Provision ModalRust.Sdk

/-- What a function is provisioned with, apart from its options: the boundary, the defaults of the
app, and the ids of what functions refer to. -/
structure Setup where
  /-- What is taken from Rust's standard library. -/
  std : Std
  /-- What is taken from Rust's floats. -/
  floats : Floats
  /-- The boundary. -/
  boundary : Boundary
  /-- The name of the entrypoint. -/
  name : Text
  /-- The app. -/
  appId : Text
  /-- The function that was created before. -/
  precreateId : Text
  /-- The default timeout. -/
  timeoutSecs : ℕ
  /-- Whether the build cache is on by default. -/
  cache : Bool
  /-- The mount of the client. -/
  clientMount : Text
  /-- The mount of the source. -/
  sourceMount : Text
  /-- The named secrets. -/
  secret : Text → Text
  /-- The inline secrets, by their environment. -/
  inlineSecret : List (Text × Text) → Text
  /-- The volumes, by their name. -/
  volume : Text → Text
  /-- The volume of the cargo cache. -/
  cacheVolume : Text
  /-- The images, by the declared image, the cache and the snapshot opt-in. -/
  image : Option Text → Bool → Bool → Text

variable (setup : Setup) (options : FunctionOptions)

/-- The entrypoint with the given options. -/
def Setup.entrypoint : Entrypoint :=
  ⟨setup.name, options, options.timeoutSecs.getD setup.timeoutSecs⟩

/-- Whether the build cache is on. -/
def Setup.cacheOn : Bool := options.cache.getD setup.cache

/-- The named secrets of a function. -/
def Setup.namedSecrets : List Text := options.secrets.map setup.secret

/-- The inline secret of a function. -/
def Setup.inlineSecrets : List Text :=
  if options.env.isEmpty then [] else [setup.inlineSecret options.env]

/-- What is attached to a function. Only a run has the cargo cache. -/
def Setup.resources : AttachedResources where
  clientMountId := setup.clientMount
  sourceMountId := setup.sourceMount
  cacheVolId :=
    if setup.boundary.sourceDelivery = .runMount ∧ setup.cacheOn options then
      some setup.cacheVolume
    else none
  secretIds := setup.namedSecrets options ++ setup.inlineSecrets options
  userVolumeMounts := options.volumes.map fun volume => (setup.volume volume.2, volume.1)

/-- The image of a function. -/
def Setup.imageId : Text :=
  setup.image options.image (setup.cacheOn options) options.enableMemorySnapshot

/-- A create request, with what its lists are put together from. -/
structure Produced where
  /-- The request. -/
  request : FunctionCreateRequest
  /-- The image that is declared. -/
  image : Option Text
  /-- The named secrets. -/
  namedSecrets : List Text
  /-- The inline secret. -/
  inlineSecrets : List Text
  /-- The mount of the cargo cache. -/
  cacheMounts : List VolumeMount
  /-- The mounts of the user's volumes. -/
  userMounts : List VolumeMount
  /-- The secrets are the named ones and the inline one. -/
  secretIds_eq : request.function.secretIds = namedSecrets ++ inlineSecrets
  /-- The mounts are that of the cargo cache and those of the user. -/
  volumeMounts_eq : request.function.volumeMounts = cacheMounts ++ userMounts

/-- The create request of a function, from its checked options. -/
def Setup.produce (schedule : Option Schedule) (policy : Option FunctionRetryPolicy) :
    Produced where
  request := buildFunctionCreateRequest setup.std setup.floats setup.appId setup.precreateId
    (functionSpecOf setup.boundary (setup.entrypoint options) (setup.imageId options)
      (setup.resources options) schedule policy)
  image := options.image
  namedSecrets := setup.namedSecrets options
  inlineSecrets := setup.inlineSecrets options
  cacheMounts := (setup.resources options).cacheVolId.toList.map fun volume =>
    (FunctionVolumeMount.new volume cacheMount).toProto
  userMounts := (setup.resources options).userVolumeMounts.map fun mount =>
    (FunctionVolumeMount.new mount.1 mount.2).toProto
  secretIds_eq := rfl
  volumeMounts_eq := by
    unfold buildFunctionCreateRequest functionSpecOf
    rw [List.map_append, List.map_map, List.map_map]
    rfl

/-- The create request of a function, unless its options are refused. -/
def Setup.functionCreate : Except Sdk.Error Produced :=
  (checkOptions setup.std setup.boundary (setup.entrypoint options)).map fun checked =>
    setup.produce options checked.1 checked.2

/-- The request is the one that the control plane builds from the function spec. -/
theorem request_functionCreate :
    (setup.functionCreate options).map Produced.request =
      (buildFunctionSpec setup.std setup.boundary (setup.entrypoint options)
        (setup.imageId options) (setup.resources options)).map
        (buildFunctionCreateRequest setup.std setup.floats setup.appId setup.precreateId) := by
  rw [buildFunctionSpec_eq]
  unfold Setup.functionCreate
  cases checkOptions setup.std setup.boundary (setup.entrypoint options) <;> rfl

/-- A create that a provisioning issues is the one of the setup that names its ids. -/
theorem request_of_issuedFor {host : Host} {inputs : ProvisionInputs} {calls : List Call}
    {appId precreateId : Text} {spec : FunctionSpec} {shared : SharedIds} {own : OwnIds}
    (hissued : IssuedFor host inputs setup.boundary (setup.entrypoint options) calls appId
      precreateId spec shared own)
    (hstd : setup.std = host.std) (himage : setup.imageId options = shared.imageId)
    (hresources : setup.resources options =
      resourcesOf (setup.entrypoint options) shared own) :
    (setup.functionCreate options).map Produced.request =
      .ok (buildFunctionCreateRequest setup.std setup.floats setup.appId setup.precreateId
        spec) := by
  rw [request_functionCreate, himage, hresources, hstd, hissued.spec_eq]
  rfl

/-- The policy of a bare retry count. -/
def fixedPolicy (n : ℕ) : FunctionRetryPolicy :=
  ⟨retryDefaultBackoffCoefficient, retryDefaultInitialDelayMs, retryDefaultMaxDelayMs, n⟩

/-- The retry policy that options stand for. The spec is looked at first. -/
def retryPolicyOf (std : Std) (options : FunctionOptions) : Option FunctionRetryPolicy :=
  match options.retriesSpec with
  | some spec => (parseRetriesSpec std spec).toOption
  | none => options.retries.map fixedPolicy

/-- The schedule that options stand for. -/
def scheduleOf (std : Std) (options : FunctionOptions) : Option Schedule :=
  options.schedule.bind fun spec => (parseSchedule std spec).toOption

/-- The create request that options stand for, whether or not they are refused. -/
def Setup.carried : Produced :=
  setup.produce options (scheduleOf setup.std options) (retryPolicyOf setup.std options)

/-- Options that are not refused have the schedule and the policy that they stand for. -/
theorem eq_of_checkOptions {std : Std} {boundary : Boundary} {ep : Entrypoint}
    {checked : Option Schedule × Option FunctionRetryPolicy}
    (hchecked : checkOptions std boundary ep = .ok checked) :
    checked = (scheduleOf std ep.options, retryPolicyOf std ep.options) := by
  unfold checkOptions at hchecked
  obtain ⟨-, -, hchecked⟩ := exists_of_bind_ok hchecked
  obtain ⟨-, -, hchecked⟩ := exists_of_bind_ok hchecked
  obtain ⟨schedule, hschedule, hchecked⟩ := exists_of_bind_ok hchecked
  obtain ⟨-, -, hchecked⟩ := exists_of_bind_ok hchecked
  obtain ⟨-, -, hchecked⟩ := exists_of_bind_ok hchecked
  unfold scheduleOf retryPolicyOf
  rw [← eq_of_mapM_ok hschedule]
  cases hspec : ep.options.retriesSpec with
  | none =>
    rw [hspec] at hchecked
    cases hchecked
    rfl
  | some spec =>
    rw [hspec] at hchecked
    obtain ⟨policy, hpolicy, heq⟩ := exists_of_bind_ok hchecked
    cases heq
    dsimp only
    rw [hpolicy]
    rfl

/-- **A create request is the one that its options stand for.** -/
theorem functionCreate_eq {produced : Produced}
    (hproduced : setup.functionCreate options = .ok produced) :
    produced = setup.carried options := by
  obtain ⟨checked, hchecked, rfl⟩ := exists_of_map_ok hproduced
  rw [eq_of_checkOptions hchecked]
  rfl

/-! ### Knobs -/

/-- The scheduling and resource knobs of a function. -/
inductive Knob
  | retries | schedule | gpu | timeout | cpu | memory | minContainers | maxContainers
  | bufferContainers | scaledownWindow | maxConcurrentInputs | targetConcurrentInputs | secrets
  | env | volumes | image | snapshot | cache

/-- What a knob of a create request carries. -/
def Knob.Value : Knob → Type
  | .retries => Option FunctionRetryPolicy
  | .schedule => Option Schedule
  | .gpu => Option (Option GpuConfig)
  | .timeout | .maxConcurrentInputs | .targetConcurrentInputs => ℕ
  | .cpu | .memory => Option ℕ
  | .minContainers | .maxContainers | .bufferContainers | .scaledownWindow => Option ℕ × ℕ
  | .secrets | .env => List Text
  | .volumes | .cache => List VolumeMount
  | .image => Option Text
  | .snapshot => Bool × Bool

/-- A knob of the autoscaler. -/
def autoscalerKnob (function : Sdk.Function) (get : FunctionAutoscaler → Option ℕ) : Option ℕ :=
  function.autoscalerSettings.bind get

/-- What a create request carries for a knob, under all of its names. -/
def Knob.read (produced : Produced) : (knob : Knob) → knob.Value
  | .retries => produced.request.function.retryPolicy
  | .schedule => produced.request.function.schedule
  | .gpu => produced.request.function.resources.map Resources.gpuConfig
  | .timeout => produced.request.function.timeoutSecs
  | .cpu => produced.request.function.resources.map Resources.milliCpu
  | .memory => produced.request.function.resources.map Resources.memoryMb
  | .minContainers => (autoscalerKnob produced.request.function FunctionAutoscaler.minContainers,
      produced.request.function.warmPoolSize)
  | .maxContainers => (autoscalerKnob produced.request.function FunctionAutoscaler.maxContainers,
      produced.request.function.concurrencyLimit)
  | .bufferContainers =>
    (autoscalerKnob produced.request.function FunctionAutoscaler.bufferContainers,
      produced.request.function.experimentalBufferContainers)
  | .scaledownWindow =>
    (autoscalerKnob produced.request.function FunctionAutoscaler.scaledownWindow,
      produced.request.function.taskIdleTimeoutSecs)
  | .maxConcurrentInputs => produced.request.function.maxConcurrentInputs
  | .targetConcurrentInputs => produced.request.function.targetConcurrentInputs
  | .secrets => produced.namedSecrets
  | .env => produced.inlineSecrets
  | .volumes => produced.userMounts
  | .image => produced.image
  | .snapshot => (produced.request.function.checkpointingEnabled,
      produced.request.function.isCheckpointingFunction)
  | .cache => produced.cacheMounts

/-- Whether a config sets a knob, in one of its spellings. -/
def Knob.isSet (cfg : DecoratorConfig) : Knob → Bool
  | .retries => cfg.retries.isSome || cfg.retriesSpec.isSome
  | .schedule => cfg.schedule.isSome
  | .gpu => cfg.gpu.isSome
  | .timeout => cfg.timeoutSecs.isSome
  | .cpu => cfg.milliCpu.isSome
  | .memory => cfg.memoryMb.isSome
  | .minContainers => cfg.minContainers.isSome
  | .maxContainers => cfg.maxContainers.isSome
  | .bufferContainers => cfg.bufferContainers.isSome
  | .scaledownWindow => cfg.scaledownWindow.isSome
  | .maxConcurrentInputs => cfg.maxConcurrentInputs.isSome
  | .targetConcurrentInputs => cfg.targetConcurrentInputs.isSome
  | .secrets => cfg.secrets.isSome
  | .env => cfg.env.isSome
  | .volumes => cfg.volumes.isSome
  | .image => cfg.image.isSome
  | .snapshot => cfg.enableMemorySnapshot.isSome
  | .cache => cfg.cache.isSome

/-- The config that decides a knob: that of the method alone if it sets the knob, and that of the
class alone otherwise. -/
def Knob.decidedBy (knob : Knob) (cls method : DecoratorConfig) : DecoratorConfig :=
  if knob.isSet method then DecoratorConfig.default.mergeOver method
  else cls.mergeOver .default

/-- What options stand for in a knob. -/
def Setup.written : (knob : Knob) → knob.Value
  | .retries => retryPolicyOf setup.std options
  | .schedule => scheduleOf setup.std options
  | .gpu => some (options.gpu.map fun spec =>
      (parseGpuConfig setup.std spec).toOption.getD ⟨[], 0⟩)
  | .timeout => options.timeoutSecs.getD setup.timeoutSecs
  | .cpu => some (options.milliCpu.getD 0)
  | .memory => some (options.memoryMb.getD 0)
  | .minContainers => (options.minContainers, options.minContainers.getD 0)
  | .maxContainers => (options.maxContainers, options.maxContainers.getD 0)
  | .bufferContainers => (options.bufferContainers, options.bufferContainers.getD 0)
  | .scaledownWindow => (options.scaledownWindow, options.scaledownWindow.getD 0)
  | .maxConcurrentInputs => options.maxConcurrentInputs.getD 0
  | .targetConcurrentInputs => options.targetConcurrentInputs.getD 0
  | .secrets => setup.namedSecrets options
  | .env => setup.inlineSecrets options
  | .volumes => options.volumes.map fun volume =>
      (FunctionVolumeMount.new (setup.volume volume.2) volume.1).toProto
  | .image => options.image
  | .snapshot =>
    let on := options.enableMemorySnapshot && setup.boundary.appState == .deployed
    (on, on)
  | .cache => (setup.resources options).cacheVolId.toList.map fun volume =>
      (FunctionVolumeMount.new volume cacheMount).toProto

/-- The settings of an autoscaler have its knobs, also when they are left out. -/
theorem autoscalerKnob_carried (get : FunctionAutoscaler → Option ℕ)
    (hget : ∀ a : FunctionAutoscaler, a.isEmpty → get a = none) :
    autoscalerKnob (setup.carried options).request.function get =
      get ⟨options.minContainers, options.maxContainers, options.bufferContainers,
        options.scaledownWindow⟩ := by
  change (if _ then none else some _ : Option FunctionAutoscaler).bind get = _
  split
  · next hempty => exact (hget _ hempty).symm
  · rfl

/-- **Every knob of a create request** is what the options stand for. -/
theorem read_carried (knob : Knob) :
    knob.read (setup.carried options) = setup.written options knob := by
  cases knob with
  | minContainers =>
    refine Prod.ext (autoscalerKnob_carried setup options _ fun a ha => ?_) rfl
    simp_all [FunctionAutoscaler.isEmpty]
  | maxContainers =>
    refine Prod.ext (autoscalerKnob_carried setup options _ fun a ha => ?_) rfl
    simp_all [FunctionAutoscaler.isEmpty]
  | bufferContainers =>
    refine Prod.ext (autoscalerKnob_carried setup options _ fun a ha => ?_) rfl
    simp_all [FunctionAutoscaler.isEmpty]
  | scaledownWindow =>
    refine Prod.ext (autoscalerKnob_carried setup options _ fun a ha => ?_) rfl
    simp_all [FunctionAutoscaler.isEmpty]
  | volumes => exact List.map_map
  | _ => rfl

/-! ### The merge -/

/-- A field of a merged config is that of the method if it is set, and that of the class
otherwise. -/
theorem or_cases {α β : Type} (f : Option α → β) (top base : Option α) :
    f (top.or base) = if top.isSome then f (top.or none) else f (Option.none.or base) := by
  cases top <;> rfl

/-- **Every knob but the retry policy** is that of the method if the method sets it, and that of
the class otherwise. -/
theorem written_mergeOver {knob : Knob} (hknob : knob ≠ .retries) (cls method : DecoratorConfig) :
    setup.written (functionConfigTokens (cls.mergeOver method)) knob =
      setup.written (functionConfigTokens (knob.decidedBy cls method)) knob := by
  have hdecided : setup.written (functionConfigTokens (knob.decidedBy cls method)) knob =
      if knob.isSet method then
        setup.written (functionConfigTokens (DecoratorConfig.default.mergeOver method)) knob
      else setup.written (functionConfigTokens (cls.mergeOver .default)) knob := by
    unfold Knob.decidedBy
    split <;> rfl
  rw [hdecided]
  -- a knob reads one field, so the other ones may have any value
  let rest := FunctionOptions.default
  cases knob with
  | retries => exact absurd rfl hknob
  | schedule => exact or_cases (fun x => setup.written { rest with schedule := x } .schedule) _ _
  | gpu => exact or_cases (fun x => setup.written { rest with gpu := x } .gpu) _ _
  | timeout =>
    exact or_cases (fun x => setup.written
      { rest with timeoutSecs := x.map fun n => n % 2 ^ 32 } .timeout) _ _
  | cpu => exact or_cases (fun x => setup.written { rest with milliCpu := x } .cpu) _ _
  | memory => exact or_cases (fun x => setup.written { rest with memoryMb := x } .memory) _ _
  | minContainers =>
    exact or_cases (fun x => setup.written { rest with minContainers := x } .minContainers) _ _
  | maxContainers =>
    exact or_cases (fun x => setup.written { rest with maxContainers := x } .maxContainers) _ _
  | bufferContainers =>
    exact or_cases (fun x =>
      setup.written { rest with bufferContainers := x } .bufferContainers) _ _
  | scaledownWindow =>
    exact or_cases (fun x => setup.written { rest with scaledownWindow := x } .scaledownWindow) _ _
  | maxConcurrentInputs =>
    exact or_cases (fun x =>
      setup.written { rest with maxConcurrentInputs := x } .maxConcurrentInputs) _ _
  | targetConcurrentInputs =>
    exact or_cases (fun x =>
      setup.written { rest with targetConcurrentInputs := x } .targetConcurrentInputs) _ _
  | secrets =>
    exact or_cases (fun x => setup.written { rest with secrets := x.getD [] } .secrets) _ _
  | env => exact or_cases (fun x => setup.written { rest with env := x.getD [] } .env) _ _
  | volumes =>
    exact or_cases (fun x => setup.written { rest with volumes := x.getD [] } .volumes) _ _
  | image => exact or_cases (fun x => setup.written { rest with image := x } .image) _ _
  | snapshot =>
    exact or_cases (fun x =>
      setup.written { rest with enableMemorySnapshot := x.getD false } .snapshot) _ _
  | cache => exact or_cases (fun x => setup.written { rest with cache := x } .cache) _ _

/-- The class shadows no retry count of the method: where the method sets the bare count and the
class sets `Retries(..)`, both stand for the same policy. -/
def CountStands (std : Std) (cls method : DecoratorConfig) : Prop :=
  ∀ n spec, method.retries = some n → method.retriesSpec = none → cls.retriesSpec = some spec →
    parseRetriesSpec std spec = .ok (fixedPolicy n)

/-- **The retry policy** is that of the method or that of the class, exactly if the class shadows
no count. -/
theorem written_retries_mergeOver_iff (cls method : DecoratorConfig) :
    setup.written (functionConfigTokens (cls.mergeOver method)) .retries =
        setup.written (functionConfigTokens (Knob.retries.decidedBy cls method)) .retries ↔
      CountStands setup.std cls method := by
  have hread (cfg : DecoratorConfig) : setup.written (functionConfigTokens cfg) .retries =
      match cfg.retriesSpec with
      | some spec => (parseRetriesSpec setup.std spec).toOption
      | none => cfg.retries.map fixedPolicy := rfl
  have hmerged : (cls.mergeOver method).retriesSpec = method.retriesSpec.or cls.retriesSpec ∧
      (cls.mergeOver method).retries = method.retries.or cls.retries := ⟨rfl, rfl⟩
  have hmethod : (DecoratorConfig.default.mergeOver method).retriesSpec =
      method.retriesSpec.or none ∧
      (DecoratorConfig.default.mergeOver method).retries = method.retries.or none := ⟨rfl, rfl⟩
  have hcls : (cls.mergeOver .default).retriesSpec = cls.retriesSpec ∧
      (cls.mergeOver .default).retries = cls.retries := ⟨rfl, rfl⟩
  rw [hread, hread, hmerged.1, hmerged.2]
  unfold Knob.decidedBy Knob.isSet CountStands
  cases hspec : method.retriesSpec with
  | some spec =>
    rw [if_pos (by simp), hmethod.1, hspec]
    exact ⟨fun _ _ _ _ hnone => (nomatch hnone), fun _ => rfl⟩
  | none =>
    cases hcount : method.retries with
    | none =>
      rw [if_neg (by simp), hcls.1, hcls.2]
      exact ⟨fun _ _ _ hsome => (nomatch hsome), fun _ => rfl⟩
    | some n =>
      rw [if_pos (by simp), hmethod.1, hmethod.2, hspec, hcount]
      cases hshadow : cls.retriesSpec with
      | none => exact ⟨fun _ _ _ _ _ hsome => (nomatch hsome), fun _ => rfl⟩
      | some spec =>
        dsimp only [Option.none_or, Option.some_or, Option.map_some]
        constructor
        · rintro hpolicy _ _ ⟨⟩ _ ⟨⟩
          cases hparse : parseRetriesSpec setup.std spec with
          | error e =>
            rw [hparse] at hpolicy
            cases hpolicy
          | ok policy =>
            rw [hparse] at hpolicy
            exact congrArg _ (Option.some.inj hpolicy)
        · intro hstands
          rw [hstands n spec rfl rfl rfl]
          rfl

/-- **A method's config wins over that of its class, exactly if the class shadows no count**: every
knob of the method's create request is what the method alone carries, if the method sets it, and
what the class alone carries otherwise. -/
theorem method_overrides_class_iff {cls method : DecoratorConfig} {produced : Produced}
    (hproduced :
      setup.functionCreate (functionConfigTokens (cls.mergeOver method)) = .ok produced) :
    (∀ knob : Knob, knob.read produced =
        knob.read (setup.carried (functionConfigTokens (knob.decidedBy cls method)))) ↔
      CountStands setup.std cls method := by
  rw [functionCreate_eq setup _ hproduced]
  simp only [read_carried]
  rw [← written_retries_mergeOver_iff]
  constructor
  · intro hall
    exact hall .retries
  · intro hretries knob
    by_cases hknob : knob = .retries
    · subst hknob
      exact hretries
    · exact written_mergeOver setup hknob cls method

/-! ### A class and its method -/

/-- A setup whose ids are names. -/
def plainSetup : Setup where
  std := plainStd
  floats := ⟨fun _ => 0, fun _ => [], no_comma_nil⟩
  boundary := deployBoundary
  name := "Embedder.embed".toList
  appId := "ap-1".toList
  precreateId := "fu-0".toList
  timeoutSecs := 300
  cache := true
  clientMount := "mo-1".toList
  sourceMount := "mo-2".toList
  secret := id
  inlineSecret := fun _ => "st-1".toList
  volume := id
  cacheVolume := "vo-1".toList
  image := fun _ _ _ => "im-1".toList

/-- `#[cls(retries = Retries(max_retries = 5))]`. -/
def retriesClass : DecoratorConfig :=
  { DecoratorConfig.default with retriesSpec := some "retries:max=5".toList }

/-- `#[method(retries = 2)]`. -/
def countMethod : DecoratorConfig := { DecoratorConfig.default with retries := some 2 }

/-- The result for a method that sets a GPU. -/
theorem method_overrides_class_gpu :
    (∀ knob : Knob, knob.read (plainSetup.carried (functionConfigTokens
          (retriesClass.mergeOver { DecoratorConfig.default with gpu := some "T4".toList }))) =
        knob.read (plainSetup.carried (functionConfigTokens (knob.decidedBy retriesClass
          { DecoratorConfig.default with gpu := some "T4".toList })))) ↔
      CountStands plainSetup.std retriesClass
        { DecoratorConfig.default with gpu := some "T4".toList } :=
  method_overrides_class_iff plainSetup rfl

/-- The parser accepts a class with `Retries(max_retries = 5)` and a method with the count `2`, and
the method is created with five retries. -/
theorem count_is_shadowed :
    parseDecoratorConfig plainStd .cls [⟨⟨false, [⟨"retries".toList, false⟩]⟩,
        some (.call (integerCall "Retries".toList "max_retries".toList "5".toList))⟩] =
      .ok retriesClass ∧
    parseDecoratorConfig plainStd .cls [⟨⟨false, [⟨"retries".toList, false⟩]⟩,
        some (.expr (.lit (.int "2".toList)))⟩] = .ok countMethod ∧
    ∃ produced alone,
      plainSetup.functionCreate (functionConfigTokens (retriesClass.mergeOver countMethod)) =
        .ok produced ∧
      plainSetup.functionCreate
        (functionConfigTokens (DecoratorConfig.default.mergeOver countMethod)) = .ok alone ∧
      Knob.retries.isSet countMethod ∧
      produced.request.function.retryPolicy = some (fixedPolicy 5) ∧
      alone.request.function.retryPolicy = some (fixedPolicy 2) := by
  refine ⟨rfl, rfl, _, _, rfl, rfl, rfl, ?_, ?_⟩
  · decide
  · decide

end ModalRust.Macros
