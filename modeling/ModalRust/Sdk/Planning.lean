import ModalRust.Sdk.FunctionCreate

/-!
# Plans

`ops/planning.rs` projects a create request into a plan for the dry run. The plan holds
most of what the request holds: it only counts mounts and secrets, and a schedule is
rendered. What the plan leaves out is on a list of fields that the dry run skips, or is
lost.
-/

namespace ModalRust.Sdk

/-- `PlannedFunction`. -/
structure PlannedFunction where
  /-- The importable module. -/
  moduleName : Text
  /-- The object tag. -/
  functionName : Text
  /-- The number of mounts. -/
  mountIdsCount : ℕ
  /-- The GPU type. -/
  gpu : Option Text
  /-- CPU in thousandths of a core. -/
  milliCpu : ℕ
  /-- Memory in mebibytes. -/
  memoryMb : ℕ
  /-- The timeout in seconds. -/
  timeoutSecs : ℕ
  /-- The volumes, as mount path and volume. -/
  volumeMounts : List (Text × Text)
  /-- The number of secrets. -/
  secretIdsCount : ℕ
  /-- The retry count. -/
  retries : Option ℕ
  /-- The factor between two delays. -/
  retryBackoffCoefficient : Option F32
  /-- The first delay. -/
  retryInitialDelayMs : Option ℕ
  /-- The largest delay. -/
  retryMaxDelayMs : Option ℕ
  /-- The schedule, rendered. -/
  schedule : Option Text
  /-- The autoscaler's floor. -/
  minContainers : Option ℕ
  /-- The autoscaler's ceiling. -/
  maxContainers : Option ℕ
  /-- Warm containers beyond demand. -/
  bufferContainers : Option ℕ
  /-- Seconds before an idle container is stopped. -/
  scaledownWindow : Option ℕ
  /-- Whether memory snapshots are on. -/
  checkpointingEnabled : Bool
  /-- The method of a web endpoint. -/
  webhookMethod : Option Text
  /-- Whether proxy authentication is required. -/
  webhookRequiresProxyAuth : Bool
  /-- The formats of inputs. -/
  supportedInputFormats : List Text
  /-- The formats of outputs. -/
  supportedOutputFormats : List Text
  /-- Whether the alternative to the function is not set. -/
  functionDataIsNone : Bool
  deriving DecidableEq

/-- `data_format_name`. -/
def dataFormatName : DataFormat → Text
  | .pickle => "PICKLE".toList
  | .cbor => "CBOR".toList
  | .asgi => "ASGI".toList
  | .generatorDone => "GENERATOR_DONE".toList

/-- The decimal text of an integer. -/
def showInt (z : ℤ) : Text := (if z < 0 then ['-'] else []) ++ Nat.toDigits 10 z.natAbs

/-- The float is zero, of either sign. -/
def isZeroF32 (x : F32) : Bool := x == 0 || x == 0x80000000

/-- The text of a period's seconds, unless they are zero. -/
def Period.secondsText (floats : Floats) (p : Period) : Option Text :=
  if isZeroF32 p.seconds then none else some (floats.display p.seconds)

/-- The components of a period with their texts, unless they are zero. -/
def periodEntries (floats : Floats) (p : Period) : List (Text × Option Text) :=
  let integer (name : Text) (v : ℤ) := (name, if v ≠ 0 then some (showInt v) else none)
  [integer "years".toList p.years, integer "months".toList p.months,
    integer "weeks".toList p.weeks, integer "days".toList p.days, integer "hours".toList p.hours,
    integer "minutes".toList p.minutes,
    ("seconds".toList, p.secondsText floats)]

/-- A component of a period, unless it is zero. -/
def periodPart (entry : Text × Option Text) : Option Text :=
  entry.2.map fun value => entry.1 ++ '=' :: value

/-- `render_schedule`. -/
def renderSchedule (floats : Floats) : Schedule → Text
  | .cron cronString timezone =>
    "cron(".toList ++ cronString ++ " @ ".toList ++ timezone ++ ")".toList
  | .period p =>
    "period(".toList ++ [','].intercalate ((periodEntries floats p).filterMap periodPart) ++
      ")".toList

/-- `plan_function_request`. -/
def planFunctionRequest (std : Std) (floats : Floats) (appId precreateId : Text)
    (spec : FunctionSpec) : PlannedFunction :=
  let req := buildFunctionCreateRequest std floats appId precreateId spec
  let function := req.function
  let autoscaler := function.autoscalerSettings
  { moduleName := function.moduleName
    functionName := function.functionName
    mountIdsCount := function.mountIds.length
    gpu := (function.resources.bind Resources.gpuConfig).map GpuConfig.gpuType
    milliCpu := (function.resources.map Resources.milliCpu).getD 0
    memoryMb := (function.resources.map Resources.memoryMb).getD 0
    timeoutSecs := function.timeoutSecs
    volumeMounts := function.volumeMounts.map fun m => (m.mountPath, m.volumeId)
    secretIdsCount := function.secretIds.length
    retries := function.retryPolicy.map FunctionRetryPolicy.retries
    retryBackoffCoefficient := function.retryPolicy.map FunctionRetryPolicy.backoffCoefficient
    retryInitialDelayMs := function.retryPolicy.map FunctionRetryPolicy.initialDelayMs
    retryMaxDelayMs := function.retryPolicy.map FunctionRetryPolicy.maxDelayMs
    schedule := function.schedule.map (renderSchedule floats)
    minContainers := autoscaler.bind FunctionAutoscaler.minContainers
    maxContainers := autoscaler.bind FunctionAutoscaler.maxContainers
    bufferContainers := autoscaler.bind FunctionAutoscaler.bufferContainers
    scaledownWindow := autoscaler.bind FunctionAutoscaler.scaledownWindow
    checkpointingEnabled := function.checkpointingEnabled
    webhookMethod := function.webhookConfig.map WebhookConfig.method
    webhookRequiresProxyAuth :=
      (function.webhookConfig.map WebhookConfig.requiresProxyAuth).getD false
    supportedInputFormats := function.supportedInputFormats.map dataFormatName
    supportedOutputFormats := function.supportedOutputFormats.map dataFormatName
    functionDataIsNone := req.functionData.isNone }

/-- A create request without the fields that the plan skips: those that are derived from others,
the image, and the constants. -/
def FunctionCreateRequest.withoutSkipped (req : FunctionCreateRequest) : FunctionCreateRequest :=
  { req with function := { req.function with
      implementationName := []
      imageId := []
      definitionType := .unspecified
      functionType := .unspecified
      mountClientDependencies := false
      warmPoolSize := 0
      concurrencyLimit := 0
      experimentalBufferContainers := 0
      taskIdleTimeoutSecs := 0
      isCheckpointingFunction := false } }

/-- Two schedules that a rendering does not tell apart: the texts of two cron schedules are equal
once the time zone is appended, and two periods have equal components, seconds up to their text. -/
def Schedule.Alike (floats : Floats) : Schedule → Schedule → Prop
  | .cron cronString timezone, .cron cronString' timezone' =>
    cronString ++ " @ ".toList ++ timezone = cronString' ++ " @ ".toList ++ timezone'
  | .period p, .period p' => p.years = p'.years ∧ p.months = p'.months ∧ p.weeks = p'.weeks ∧
      p.days = p'.days ∧ p.hours = p'.hours ∧ p.minutes = p'.minutes ∧
      p.secondsText floats = p'.secondsText floats
  | _, _ => False

/-- Two create requests agree on everything that a plan determines. -/
structure AgreeAsPlanned (floats : Floats) (req req' : FunctionCreateRequest) : Prop where
  /-- The app. -/
  appId : req.appId = req'.appId
  /-- The function that was created before. -/
  existingFunctionId : req.existingFunctionId = req'.existingFunctionId
  /-- The alternative to the function. -/
  functionData : req.functionData = req'.functionData
  /-- The module. -/
  moduleName : req.function.moduleName = req'.function.moduleName
  /-- The object tag. -/
  functionName : req.function.functionName = req'.function.functionName
  /-- The number of mounts. -/
  mountIds : req.function.mountIds.length = req'.function.mountIds.length
  /-- The pickled function. -/
  functionSerialized : req.function.functionSerialized = req'.function.functionSerialized
  /-- How the function is defined. -/
  definitionType : req.function.definitionType = req'.function.definitionType
  /-- What the function is. -/
  functionType : req.function.functionType = req'.function.functionType
  /-- The resources, with the type of the GPUs. -/
  resources : req.function.resources.map (fun r => (r.memoryMb, r.milliCpu,
      r.gpuConfig.map GpuConfig.gpuType)) =
    req'.function.resources.map fun r => (r.memoryMb, r.milliCpu, r.gpuConfig.map GpuConfig.gpuType)
  /-- The timeout. -/
  timeoutSecs : req.function.timeoutSecs = req'.function.timeoutSecs
  /-- The formats of inputs. -/
  inputFormats : req.function.supportedInputFormats = req'.function.supportedInputFormats
  /-- The formats of outputs. -/
  outputFormats : req.function.supportedOutputFormats = req'.function.supportedOutputFormats
  /-- The volumes and their paths. -/
  volumeMounts : req.function.volumeMounts.map (fun m => (m.mountPath, m.volumeId)) =
    req'.function.volumeMounts.map fun m => (m.mountPath, m.volumeId)
  /-- The number of secrets. -/
  secretIds : req.function.secretIds.length = req'.function.secretIds.length
  /-- The retry policy. -/
  retryPolicy : req.function.retryPolicy = req'.function.retryPolicy
  /-- The schedule. -/
  schedule : Option.Rel (Schedule.Alike floats) req.function.schedule req'.function.schedule
  /-- The autoscaler. -/
  autoscalerSettings : req.function.autoscalerSettings = req'.function.autoscalerSettings
  /-- The autoscaler under its old names. -/
  autoscalerMirrors : (req.function.warmPoolSize, req.function.concurrencyLimit,
      req.function.experimentalBufferContainers, req.function.taskIdleTimeoutSecs) =
    (req'.function.warmPoolSize, req'.function.concurrencyLimit,
      req'.function.experimentalBufferContainers, req'.function.taskIdleTimeoutSecs)
  /-- Memory snapshots. -/
  checkpointing : (req.function.checkpointingEnabled, req.function.isCheckpointingFunction) =
    (req'.function.checkpointingEnabled, req'.function.isCheckpointingFunction)
  /-- Whether there is a webhook, its method, and whether proxy authentication is required. -/
  webhookConfig : req.function.webhookConfig.map (fun w => (w.method, w.requiresProxyAuth)) =
    req'.function.webhookConfig.map fun w => (w.method, w.requiresProxyAuth)

section Rendering

/-- Different integers have different texts. -/
theorem showInt_injective : Function.Injective showInt := by
  intro a b hshow
  have hnat {m n : ℕ} (hdigits : Nat.toDigits 10 m = Nat.toDigits 10 n) : m = n := by
    have hvalue := congrArg (fun t => Nat.ofDigitChars 10 t 0) hdigits
    simpa only [Nat.ofDigitChars_ten_toDigits] using hvalue
  have hsign {m n : ℕ} : '-' :: Nat.toDigits 10 m ≠ Nat.toDigits 10 n := by
    intro heq
    have hminus : '-' ∈ Nat.toDigits 10 n := heq ▸ List.mem_cons_self
    exact absurd (Nat.isDigit_of_mem_toDigits (by omega) (by omega) hminus) (by decide)
  unfold showInt at hshow
  by_cases ha : a < 0
  · by_cases hb : b < 0
    · rw [if_pos ha, if_pos hb] at hshow
      have habs := hnat (List.cons.inj hshow).2
      omega
    · rw [if_pos ha, if_neg hb] at hshow
      exact absurd hshow hsign
  · by_cases hb : b < 0
    · rw [if_neg ha, if_pos hb] at hshow
      exact absurd hshow.symm hsign
    · rw [if_neg ha, if_neg hb] at hshow
      have habs := hnat hshow
      omega

/-- The text of an integer has no comma. -/
theorem comma_not_mem_showInt (z : ℤ) : ',' ∉ showInt z := by
  intro hmem
  rcases List.mem_append.mp hmem with hsign | hdigit
  · split_ifs at hsign <;> simp at hsign
  · exact absurd (Nat.isDigit_of_mem_toDigits (by omega) (by omega) hdigit) (by decide)

/-- Entries under the same keys are determined by those that have a value. -/
theorem eq_of_filterMap {α β : Type} {l l' : List (α × Option β)}
    (hkeys : l.map Prod.fst = l'.map Prod.fst) (hnodup : (l.map Prod.fst).Nodup)
    (hvalues : l.filterMap (fun e => e.2.map fun value => (e.1, value)) =
      l'.filterMap fun e => e.2.map fun value => (e.1, value)) : l = l' := by
  have hkey {k : α} {b : β} {m : List (α × Option β)} (hmem : (k, b) ∈ m.filterMap fun e =>
      e.2.map fun value => (e.1, value)) : k ∈ m.map Prod.fst := by
    obtain ⟨e, he, hvalue⟩ := List.mem_filterMap.mp hmem
    obtain ⟨value, -, hpair⟩ := Option.map_eq_some_iff.mp hvalue
    exact List.mem_map.mpr ⟨e, he, (Prod.mk.inj hpair).1⟩
  induction l generalizing l' with
  | nil => exact (List.map_eq_nil_iff.mp hkeys.symm).symm
  | cons e l ih =>
    cases l' with
    | nil => cases hkeys
    | cons e' l' =>
      obtain ⟨k, value⟩ := e
      obtain ⟨k', value'⟩ := e'
      obtain ⟨rfl, hrest⟩ := List.cons.inj hkeys
      obtain ⟨hnew, hlater⟩ := List.nodup_cons.mp hnodup
      -- A value under the first key cannot come from a later entry.
      cases value with
      | none =>
        cases value' with
        | none => rw [ih hrest hlater hvalues]
        | some b =>
          have hmem : (k, b) ∈ l.filterMap fun e => e.2.map fun value => (e.1, value) := by
            have hvalues : l.filterMap (fun e => e.2.map fun value => (e.1, value)) =
              (k, b) :: _ := hvalues
            exact hvalues ▸ List.mem_cons_self
          exact absurd (hkey hmem) hnew
      | some a =>
        cases value' with
        | none =>
          have hmem : (k, a) ∈ l'.filterMap fun e => e.2.map fun value => (e.1, value) := by
            have hvalues : (k, a) :: _ =
              l'.filterMap (fun e => e.2.map fun value => (e.1, value)) := hvalues
            exact hvalues ▸ List.mem_cons_self
          exact absurd (hrest ▸ hkey hmem) hnew
        | some b =>
          obtain ⟨hhead, htail⟩ := List.cons.inj hvalues
          rw [(Prod.mk.inj hhead).2, ih hrest hlater htail]

variable {floats : Floats}

/-- The names of the components, which do not depend on the period. -/
theorem map_fst_periodEntries (p : Period) : (periodEntries floats p).map Prod.fst =
    ["years", "months", "weeks", "days", "hours", "minutes", "seconds"].map String.toList := rfl

/-- A component's name and value can be told apart, and neither has a comma. -/
theorem mem_periodEntries {p : Period} {entry : Text × Option Text}
    (hentry : entry ∈ periodEntries floats p) :
    '=' ∉ entry.1 ∧ ',' ∉ entry.1 ∧ ∀ value, entry.2 = some value → ',' ∉ value := by
  have hname : entry.1 ∈
      ["years", "months", "weeks", "days", "hours", "minutes", "seconds"].map String.toList := by
    rw [← map_fst_periodEntries p]
    exact List.mem_map_of_mem hentry
  have hclean : ∀ name ∈ ["years", "months", "weeks", "days", "hours", "minutes",
      "seconds"].map String.toList, '=' ∉ name ∧ ',' ∉ name := by decide
  refine ⟨(hclean _ hname).1, (hclean _ hname).2, fun value hvalue => ?_⟩
  have hinteger {name : Text} {v : ℤ}
      (he : entry = (name, if v ≠ 0 then some (showInt v) else none)) : ',' ∉ value := by
    rw [he] at hvalue
    simp only at hvalue
    split_ifs at hvalue
    rw [← Option.some.inj hvalue]
    exact comma_not_mem_showInt v
  simp only [periodEntries, List.mem_cons, List.not_mem_nil, or_false] at hentry
  rcases hentry with he | he | he | he | he | he | he
  · exact hinteger he
  · exact hinteger he
  · exact hinteger he
  · exact hinteger he
  · exact hinteger he
  · exact hinteger he
  · rw [he] at hvalue
    simp only [Period.secondsText] at hvalue
    split_ifs at hvalue
    rw [← Option.some.inj hvalue]
    exact floats.no_comma p.seconds

/-- The parts of a rendered period, taken apart. -/
theorem map_splitOnce_parts (p : Period) :
    ((periodEntries floats p).filterMap periodPart).map (splitOnce '=') =
      ((periodEntries floats p).filterMap fun e => e.2.map fun value => (e.1, value)).map some := by
  rw [List.map_filterMap, List.map_filterMap]
  refine List.filterMap_congr fun e he => ?_
  cases hvalue : e.2 with
  | none => simp [periodPart, hvalue]
  | some value =>
    simp only [periodPart, hvalue, Option.map_some]
    rw [splitOnce_append (mem_periodEntries he).1]

/-- No part of a rendered period is empty or has a comma. -/
theorem mem_parts {p : Period} {part : Text}
    (hpart : part ∈ (periodEntries floats p).filterMap periodPart) : part ≠ [] ∧ ',' ∉ part := by
  obtain ⟨e, he, hmap⟩ := List.mem_filterMap.mp hpart
  obtain ⟨value, hvalue, rfl⟩ := Option.map_eq_some_iff.mp hmap
  obtain ⟨-, hname, hclean⟩ := mem_periodEntries he
  refine ⟨by simp, fun hmem => ?_⟩
  rcases List.mem_append.mp hmem with hmem | hmem
  · exact hname hmem
  · rcases List.mem_cons.mp hmem with heq | hmem
    · exact absurd heq (by decide)
    · exact hclean value hvalue hmem

/-- Parts between commas are determined by the whole. -/
theorem intercalate_comma_inj {parts parts' : List Text}
    (hparts : ∀ part ∈ parts, part ≠ [] ∧ ',' ∉ part)
    (hparts' : ∀ part ∈ parts', part ≠ [] ∧ ',' ∉ part)
    (hsame : [','].intercalate parts = [','].intercalate parts') : parts = parts' := by
  rw [← components_intercalate hparts, hsame, components_intercalate hparts']

/-- How a rendered schedule starts. -/
theorem head?_renderSchedule (s : Schedule) :
    (renderSchedule floats s).head? =
      some (match s with
        | .cron .. => 'c'
        | .period _ => 'p') := by
  cases s <;> rfl

/-- Periods that are rendered alike have the same components. -/
theorem periodEntries_of_renderSchedule {p p' : Period}
    (hrender : renderSchedule floats (.period p) = renderSchedule floats (.period p')) :
    periodEntries floats p = periodEntries floats p' := by
  unfold renderSchedule at hrender
  rw [List.append_left_inj, List.append_right_inj] at hrender
  have hparts := intercalate_comma_inj (fun _ => mem_parts) (fun _ => mem_parts) hrender
  have hvalues := congrArg (List.map (splitOnce '=')) hparts
  rw [map_splitOnce_parts, map_splitOnce_parts] at hvalues
  refine eq_of_filterMap ((map_fst_periodEntries p).trans (map_fst_periodEntries p').symm) ?_
    (List.map_injective_iff.mpr (fun _ _ => Option.some.inj) hvalues)
  rw [map_fst_periodEntries p]
  decide

/-- Schedules that are rendered alike are alike. -/
theorem alike_of_renderSchedule {s s' : Schedule}
    (hrender : renderSchedule floats s = renderSchedule floats s') : s.Alike floats s' := by
  have hhead := congrArg List.head? hrender
  rw [head?_renderSchedule, head?_renderSchedule] at hhead
  cases s with
  | cron cronString timezone =>
    cases s' with
    | cron cronString' timezone' =>
      unfold renderSchedule at hrender
      rw [List.append_left_inj] at hrender
      rw [List.append_assoc, List.append_assoc, List.append_assoc, List.append_assoc,
        List.append_right_inj, ← List.append_assoc, ← List.append_assoc] at hrender
      exact hrender
    | period p' =>
      have hletter : 'c' = 'p' := Option.some.inj hhead
      exact absurd hletter (by decide)
  | period p =>
    cases s' with
    | cron cronString' timezone' =>
      have hletter : 'p' = 'c' := Option.some.inj hhead
      exact absurd hletter (by decide)
    | period p' =>
      have hinteger {a b : ℤ} (h : (if a ≠ 0 then some (showInt a) else none) =
          if b ≠ 0 then some (showInt b) else none) : a = b := by
        split_ifs at h with ha hb hb
        · exact showInt_injective (Option.some.inj h)
        · omega
      have hentries := periodEntries_of_renderSchedule hrender
      simp only [periodEntries, List.cons.injEq, Prod.mk.injEq, true_and, and_true] at hentries
      obtain ⟨hyears, hmonths, hweeks, hdays, hhours, hminutes, hseconds⟩ := hentries
      exact ⟨hinteger hyears, hinteger hmonths, hinteger hweeks, hinteger hdays, hinteger hhours,
        hinteger hminutes, hseconds⟩

end Rendering

/-- A spec as the builders make it: its webhook was checked, and its volumes are mounted with
background commits. -/
def FunctionSpec.Built (std : Std) (spec : FunctionSpec) : Prop :=
  checkWebhook std spec.webhook = .ok () ∧
    ∀ m ∈ spec.volumeMounts, m = .new m.volumeId m.mountPath

section Plan

/-- A retry policy is determined by its fields. -/
theorem retryPolicy_ext {r r' : Option FunctionRetryPolicy}
    (hretries : r.map FunctionRetryPolicy.retries = r'.map FunctionRetryPolicy.retries)
    (hbackoff : r.map FunctionRetryPolicy.backoffCoefficient =
      r'.map FunctionRetryPolicy.backoffCoefficient)
    (hinitial : r.map FunctionRetryPolicy.initialDelayMs =
      r'.map FunctionRetryPolicy.initialDelayMs)
    (hmax : r.map FunctionRetryPolicy.maxDelayMs = r'.map FunctionRetryPolicy.maxDelayMs) :
    r = r' := by
  cases r with
  | none =>
    cases r' with
    | none => rfl
    | some r' => cases hretries
  | some r =>
    cases r' with
    | none => cases hretries
    | some r' =>
      obtain ⟨backoff, initial, max, retries⟩ := r
      obtain ⟨backoff', initial', max', retries'⟩ := r'
      cases hretries
      cases hbackoff
      cases hinitial
      cases hmax
      rfl

/-- A knob of an autoscaler that is not sent is not set. -/
theorem bind_autoscaler (a : FunctionAutoscaler) :
    ((if a.isEmpty then none else some a).bind FunctionAutoscaler.minContainers,
      (if a.isEmpty then none else some a).bind FunctionAutoscaler.maxContainers,
      (if a.isEmpty then none else some a).bind FunctionAutoscaler.bufferContainers,
      (if a.isEmpty then none else some a).bind FunctionAutoscaler.scaledownWindow) =
    (a.minContainers, a.maxContainers, a.bufferContainers, a.scaledownWindow) := by
  by_cases hempty : a.isEmpty = true
  · rw [if_pos hempty]
    simp only [FunctionAutoscaler.isEmpty, Bool.and_eq_true, Option.isNone_iff_eq_none] at hempty
    obtain ⟨⟨⟨hmin, hmax⟩, hbuffer⟩, hscaledown⟩ := hempty
    rw [hmin, hmax, hbuffer, hscaledown]
    rfl
  · rw [if_neg hempty]
    rfl

variable {std : Std} {floats : Floats} {appId precreateId : Text} {spec spec' : FunctionSpec}

/-- The plan determines the autoscaler. -/
theorem autoscaler_of_plan (hplan : planFunctionRequest std floats appId precreateId spec =
    planFunctionRequest std floats appId precreateId spec') :
    spec.autoscaler = spec'.autoscaler := by
  have hknobs := bind_autoscaler spec.autoscaler
  have hknobs' := bind_autoscaler spec'.autoscaler
  have hmin := congrArg PlannedFunction.minContainers hplan
  have hmax := congrArg PlannedFunction.maxContainers hplan
  have hbuffer := congrArg PlannedFunction.bufferContainers hplan
  have hscaledown := congrArg PlannedFunction.scaledownWindow hplan
  simp only [planFunctionRequest, buildFunctionCreateRequest] at hmin hmax hbuffer hscaledown
  rw [hmin, hmax, hbuffer, hscaledown, hknobs'] at hknobs
  simp only [Prod.mk.injEq] at hknobs
  obtain ⟨hmin, hmax, hbuffer, hscaledown⟩ := hknobs
  cases hspec : spec.autoscaler
  cases hspec' : spec'.autoscaler
  simp_all

/-- The plan determines whether there is a webhook, its method and its authentication. -/
theorem webhook_of_plan (hplan : planFunctionRequest std floats appId precreateId spec =
    planFunctionRequest std floats appId precreateId spec') :
    (spec.webhook.map (WebhookSpec.toProto floats)).map (fun w => (w.method, w.requiresProxyAuth)) =
      (spec'.webhook.map (WebhookSpec.toProto floats)).map
        fun w => (w.method, w.requiresProxyAuth) := by
  have hmethod := congrArg PlannedFunction.webhookMethod hplan
  have hauth := congrArg PlannedFunction.webhookRequiresProxyAuth hplan
  simp only [planFunctionRequest, buildFunctionCreateRequest] at hmethod hauth
  revert hmethod hauth
  generalize spec.webhook.map (WebhookSpec.toProto floats) = w
  generalize spec'.webhook.map (WebhookSpec.toProto floats) = w'
  intro hmethod hauth
  cases w with
  | none =>
    cases w' with
    | none => rfl
    | some w' => cases hmethod
  | some w =>
    cases w' with
    | none => cases hmethod
    | some w' =>
      have hmethod : w.method = w'.method := Option.some.inj hmethod
      have hauth : w.requiresProxyAuth = w'.requiresProxyAuth := hauth
      simp only [Option.map_some, hmethod, hauth]

/-- A webhook that was checked is a web server exactly if it has no method. -/
theorem type_toProto {w : WebhookSpec} (hcheck : FunctionSpec.checkWebhook std (some w) = .ok ()) :
    (w.toProto floats).type = if (w.toProto floats).method = [] then .webServer else .function := by
  cases hport : w.webServerPort with
  | some port => simp [WebhookSpec.toProto, hport]
  | none =>
    have hmethod : w.method ∈ FunctionSpec.methods := by
      by_contra hnone
      simp [FunctionSpec.checkWebhook, hport, hnone, throw, throwThe,
        MonadExceptOf.throw] at hcheck
    have hne : w.method ≠ [] := by
      intro hempty
      rw [hempty] at hmethod
      exact absurd hmethod (by decide)
    simp [WebhookSpec.toProto, hport, hne]

/-- Whether there is a webhook decides the formats. -/
theorem isSome_of_plan (hplan : planFunctionRequest std floats appId precreateId spec =
    planFunctionRequest std floats appId precreateId spec') :
    spec.webhook.isSome = spec'.webhook.isSome := by
  have hsome := congrArg Option.isSome (webhook_of_plan hplan)
  simpa only [Option.isSome_map] using hsome

/-- The plan determines the schedule as far as it is rendered. -/
theorem schedule_of_plan (hplan : planFunctionRequest std floats appId precreateId spec =
    planFunctionRequest std floats appId precreateId spec') :
    Option.Rel (Schedule.Alike floats) spec.schedule spec'.schedule := by
  have hrender : spec.schedule.map (renderSchedule floats) =
      spec'.schedule.map (renderSchedule floats) := congrArg PlannedFunction.schedule hplan
  cases hspec : spec.schedule with
  | none =>
    cases hspec' : spec'.schedule with
    | none => exact .none
    | some s' => rw [hspec, hspec'] at hrender; cases hrender
  | some s =>
    cases hspec' : spec'.schedule with
    | none => rw [hspec, hspec'] at hrender; cases hrender
    | some s' =>
      rw [hspec, hspec'] at hrender
      exact .some (alike_of_renderSchedule (Option.some.inj hrender))

/-- Specs of one plan have requests that agree on what a plan determines. -/
theorem agreeAsPlanned_of_plan (hplan : planFunctionRequest std floats appId precreateId spec =
    planFunctionRequest std floats appId precreateId spec') :
    AgreeAsPlanned floats (buildFunctionCreateRequest std floats appId precreateId spec)
      (buildFunctionCreateRequest std floats appId precreateId spec') := by
  have hautoscaler := autoscaler_of_plan hplan
  have hformats := isSome_of_plan hplan
  have hcheckpointing : spec.checkpointingEnabled = spec'.checkpointingEnabled :=
    congrArg PlannedFunction.checkpointingEnabled hplan
  have hgpu : (spec.resources.toProto std).gpuConfig.map GpuConfig.gpuType =
      (spec'.resources.toProto std).gpuConfig.map GpuConfig.gpuType :=
    congrArg PlannedFunction.gpu hplan
  have hmemory : spec.resources.memoryMb = spec'.resources.memoryMb :=
    congrArg PlannedFunction.memoryMb hplan
  have hcpu : spec.resources.milliCpu = spec'.resources.milliCpu :=
    congrArg PlannedFunction.milliCpu hplan
  refine
    { appId := rfl
      existingFunctionId := rfl
      functionData := rfl
      moduleName := congrArg PlannedFunction.moduleName hplan
      functionName := congrArg PlannedFunction.functionName hplan
      mountIds := congrArg PlannedFunction.mountIdsCount hplan
      functionSerialized := rfl
      definitionType := rfl
      functionType := rfl
      resources := congrArg some (Prod.ext hmemory (Prod.ext hcpu hgpu))
      timeoutSecs := congrArg PlannedFunction.timeoutSecs hplan
      inputFormats := ?_
      outputFormats := ?_
      volumeMounts := congrArg PlannedFunction.volumeMounts hplan
      secretIds := congrArg PlannedFunction.secretIdsCount hplan
      retryPolicy := retryPolicy_ext (congrArg PlannedFunction.retries hplan)
        (congrArg PlannedFunction.retryBackoffCoefficient hplan)
        (congrArg PlannedFunction.retryInitialDelayMs hplan)
        (congrArg PlannedFunction.retryMaxDelayMs hplan)
      schedule := schedule_of_plan hplan
      autoscalerSettings := ?_
      autoscalerMirrors := ?_
      checkpointing := Prod.ext hcheckpointing hcheckpointing
      webhookConfig := webhook_of_plan hplan }
  · simp only [buildFunctionCreateRequest, hformats]
  · simp only [buildFunctionCreateRequest, hformats]
  · simp only [buildFunctionCreateRequest, hautoscaler]
  · simp only [buildFunctionCreateRequest, hautoscaler]

/-- Mounts with background commits are determined by their volumes and paths. -/
theorem volumeMounts_of_plan (hplan : planFunctionRequest std floats appId precreateId spec =
    planFunctionRequest std floats appId precreateId spec')
    (hbuilt : spec.Built std) (hbuilt' : spec'.Built std) :
    spec.volumeMounts = spec'.volumeMounts := by
  have hpairs : (spec.volumeMounts.map FunctionVolumeMount.toProto).map
      (fun m => (m.mountPath, m.volumeId)) = (spec'.volumeMounts.map
        FunctionVolumeMount.toProto).map fun m => (m.mountPath, m.volumeId) :=
    congrArg PlannedFunction.volumeMounts hplan
  rw [List.map_map, List.map_map] at hpairs
  have hnew {l : List FunctionVolumeMount} (hl : ∀ m ∈ l, m = .new m.volumeId m.mountPath) :
      (l.map ((fun m => (m.mountPath, m.volumeId)) ∘ FunctionVolumeMount.toProto)).map
        (fun p => FunctionVolumeMount.new p.2 p.1) = l := by
    rw [List.map_map]
    exact (List.map_congr_left fun m hm => (hl m hm).symm).trans (List.map_id l)
  rw [← hnew hbuilt.2, hpairs, hnew hbuilt'.2]

/-- Checked webhooks of one method are of one kind. -/
theorem webhookType_of_plan (hplan : planFunctionRequest std floats appId precreateId spec =
    planFunctionRequest std floats appId precreateId spec')
    (hbuilt : spec.Built std) (hbuilt' : spec'.Built std) :
    (spec.webhook.map (WebhookSpec.toProto floats)).map WebhookConfig.type =
      (spec'.webhook.map (WebhookSpec.toProto floats)).map WebhookConfig.type := by
  have hmethod := webhook_of_plan hplan
  have hcheck := hbuilt.1
  have hcheck' := hbuilt'.1
  cases hspec : spec.webhook with
  | none =>
    cases hspec' : spec'.webhook with
    | none => rfl
    | some w' => rw [hspec, hspec'] at hmethod; cases hmethod
  | some w =>
    cases hspec' : spec'.webhook with
    | none => rw [hspec, hspec'] at hmethod; cases hmethod
    | some w' =>
      rw [hspec, hspec'] at hmethod
      rw [hspec] at hcheck
      rw [hspec'] at hcheck'
      have hsame := (Prod.mk.inj (Option.some.inj hmethod)).1
      simp only [Option.map_some, type_toProto hcheck, type_toProto hcheck', hsame]

end Plan

/-- **What a plan determines.** The create requests of two specs with the same plan agree on all
that a plan determines; if the builders made the specs, also on the volume mounts as a whole and
on the kind of the webhook. -/
theorem plan_determines_request {std : Std} {floats : Floats} {appId precreateId : Text}
    {spec spec' : FunctionSpec}
    (hplan : planFunctionRequest std floats appId precreateId spec =
      planFunctionRequest std floats appId precreateId spec') :
    let req := buildFunctionCreateRequest std floats appId precreateId spec
    let req' := buildFunctionCreateRequest std floats appId precreateId spec'
    AgreeAsPlanned floats req req' ∧
      (spec.Built std → spec'.Built std →
        req.function.volumeMounts = req'.function.volumeMounts ∧
        req.function.webhookConfig.map WebhookConfig.type =
          req'.function.webhookConfig.map WebhookConfig.type) := by
  refine ⟨agreeAsPlanned_of_plan hplan, fun hbuilt hbuilt' => ⟨?_, ?_⟩⟩
  · exact congrArg (List.map FunctionVolumeMount.toProto)
      (volumeMounts_of_plan hplan hbuilt hbuilt')
  · exact webhookType_of_plan hplan hbuilt hbuilt'

/-- A standard library that is not asked. -/
def noStd : Std := ⟨fun _ => none, id, id⟩

/-- Floats that are not shown. -/
def noFloats : Floats := ⟨fun _ => 0, fun _ => [], no_comma_nil⟩

/-- A spec of an entrypoint with a schedule. -/
def addSpec : FunctionSpec :=
  { FunctionSpec.new "modal_rust_deploy_wrapper".toList "handler".toList "im-1".toList with
    appFunctionName := some "add".toList
    schedule := some (.cron "0 9 * * 1".toList "UTC".toList) }

/-- The plan of a spec. -/
def planOf (spec : FunctionSpec) : PlannedFunction :=
  planFunctionRequest noStd noFloats "ap-1".toList "fu-1".toList spec

/-- The create request of a spec. -/
def requestOf (spec : FunctionSpec) : FunctionCreateRequest :=
  buildFunctionCreateRequest noStd noFloats "ap-1".toList "fu-1".toList spec

/-- The spec with a secret. -/
def secretSpec (secretId : Text) : FunctionSpec := addSpec.withSecretIds [secretId]

/-- The spec with a GPU. -/
def gpuSpec (gpu : Text) : FunctionSpec := { addSpec with resources := ⟨0, 0, some gpu⟩ }

/-- The spec with a limit for the inputs of a container. -/
def concurrencySpec (n : ℕ) : FunctionSpec := { addSpec with maxConcurrentInputs := some n }

/-- The spec of a web server. -/
def portSpec (port : ℕ) : FunctionSpec :=
  { addSpec with webhook := some ⟨[], false, some port, none⟩ }

/-- A secret is only counted. -/
theorem planOf_secretSpec (secretId secretId' : Text) :
    planOf (secretSpec secretId) = planOf (secretSpec secretId') := rfl

/-- Of the GPUs, only the type is planned. -/
theorem planOf_gpuSpec (gpu : Text) : planOf (gpuSpec gpu) =
    { planOf addSpec with
      gpu := some ((parseGpuConfig noStd gpu).toOption.getD ⟨[], 0⟩).gpuType } := rfl

/-- The limit for the inputs of a container is not planned. -/
theorem planOf_concurrencySpec (m n : ℕ) :
    planOf (concurrencySpec m) = planOf (concurrencySpec n) := rfl

/-- The port of a web server is not planned. -/
theorem planOf_portSpec (port port' : ℕ) : planOf (portSpec port) = planOf (portSpec port') := rfl

/-- Specs that only differ in their secret. -/
theorem plan_determines_request_secret :
    AgreeAsPlanned noFloats (requestOf (secretSpec "st-1".toList))
        (requestOf (secretSpec "st-2".toList)) ∧
      ((secretSpec "st-1".toList).Built noStd → (secretSpec "st-2".toList).Built noStd →
        (requestOf (secretSpec "st-1".toList)).function.volumeMounts =
          (requestOf (secretSpec "st-2".toList)).function.volumeMounts ∧
        (requestOf (secretSpec "st-1".toList)).function.webhookConfig.map WebhookConfig.type =
          (requestOf (secretSpec "st-2".toList)).function.webhookConfig.map WebhookConfig.type) :=
  plan_determines_request (planOf_secretSpec _ _)

/-- The specs of a pair have one plan, but their requests differ in a field that is not
skipped. -/
def PlanLoses (spec spec' : FunctionSpec) : Prop :=
  planOf spec = planOf spec' ∧
    (requestOf spec).withoutSkipped ≠ (requestOf spec').withoutSkipped

/-- The plan loses which secret is attached, how many GPUs there are, how many inputs a container
runs at once, and the port of a web server. -/
theorem plan_loses :
    PlanLoses (secretSpec "st-1".toList) (secretSpec "st-2".toList) ∧
      PlanLoses (gpuSpec "T4".toList) (gpuSpec "T4:2".toList) ∧
      PlanLoses (concurrencySpec 1) (concurrencySpec 2) ∧
      PlanLoses (portSpec 8000) (portSpec 9000) := by
  refine ⟨⟨planOf_secretSpec _ _, fun hsame => ?_⟩, ⟨?_, fun hsame => ?_⟩,
    ⟨planOf_concurrencySpec _ _, fun hsame => ?_⟩, ⟨planOf_portSpec _ _, fun hsame => ?_⟩⟩
  · have hsecrets : ["st-1".toList] = ["st-2".toList] :=
      congrArg (fun req => req.function.secretIds) hsame
    exact absurd hsecrets (by decide)
  · have htype : ((parseGpuConfig noStd "T4".toList).toOption.getD ⟨[], 0⟩).gpuType =
        ((parseGpuConfig noStd "T4:2".toList).toOption.getD ⟨[], 0⟩).gpuType := by decide
    rw [planOf_gpuSpec, planOf_gpuSpec, htype]
  · have hgpus : some (((gpuSpec "T4".toList).resources).toProto noStd) =
        some (((gpuSpec "T4:2".toList).resources).toProto noStd) :=
      congrArg (fun req => req.function.resources) hsame
    revert hgpus
    decide
  · have hinputs : 1 = 2 := congrArg (fun req => req.function.maxConcurrentInputs) hsame
    omega
  · have hports : (8000 : ℕ) = 9000 := congrArg
      (fun req => (req.function.webhookConfig.map WebhookConfig.webServerPort).getD 0) hsame
    omega

end ModalRust.Sdk
