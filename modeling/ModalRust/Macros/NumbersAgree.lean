import ModalRust.Macros.MethodOverride

/-!
# Numbers from the attribute to the request

The integer literals of an attribute are followed through the parser, the registered config and
the create request. Each one passes its own conversions between 64, 32 and 16 bits and floats. A
request that is produced carries exactly what is written, if the timeout and the thousandths of
cores fit 32 bits and the startup timeout of a deployed web server is a single.
-/

namespace ModalRust.Macros

open BinaryFormat ModalRust.Provision ModalRust.Sdk

/-- The knobs that an integer literal sets. -/
inductive NumberKnob
  | timeout | cpu | memory | retries | minContainers | maxContainers | bufferContainers
  | scaledownWindow | maxConcurrentInputs | targetConcurrentInputs | port | startupTimeout
  deriving DecidableEq

namespace NumberKnob

/-- The key of a knob. -/
def key : NumberKnob → Key
  | .timeout => .timeout
  | .cpu => .cpu
  | .memory => .memory
  | .retries => .retries
  | .minContainers => .minContainers
  | .maxContainers => .maxContainers
  | .bufferContainers => .bufferContainers
  | .scaledownWindow => .scaledownWindow
  | .maxConcurrentInputs => .maxConcurrentInputs
  | .targetConcurrentInputs => .targetConcurrentInputs
  | .port => .port
  | .startupTimeout => .startupTimeout

/-- The field of a knob in the parsed config. -/
def get (cfg : DecoratorConfig) : NumberKnob → Option ℕ
  | .timeout => cfg.timeoutSecs
  | .cpu => cfg.milliCpu
  | .memory => cfg.memoryMb
  | .retries => cfg.retries
  | .minContainers => cfg.minContainers
  | .maxContainers => cfg.maxContainers
  | .bufferContainers => cfg.bufferContainers
  | .scaledownWindow => cfg.scaledownWindow
  | .maxConcurrentInputs => cfg.maxConcurrentInputs
  | .targetConcurrentInputs => cfg.targetConcurrentInputs
  | .port => cfg.webServerPort
  | .startupTimeout => cfg.webServerStartupTimeout

/-- The field of a knob in the registered config. -/
def registered (options : FunctionOptions) : NumberKnob → Option ℕ
  | .timeout => options.timeoutSecs
  | .cpu => options.milliCpu
  | .memory => options.memoryMb
  | .retries => options.retries
  | .minContainers => options.minContainers
  | .maxContainers => options.maxContainers
  | .bufferContainers => options.bufferContainers
  | .scaledownWindow => options.scaledownWindow
  | .maxConcurrentInputs => options.maxConcurrentInputs
  | .targetConcurrentInputs => options.targetConcurrentInputs
  | .port => options.webServerPort
  | .startupTimeout => options.webServerStartupTimeout

/-- What is stored for a literal. -/
def stored : NumberKnob → Text → Except Text ℕ
  | .timeout => base10ParseInt parseU64
  | .cpu => fun digits => parseCpuToMilli (.expr (.lit (.int digits)))
  | .port => base10ParseInt parseU16
  | _ => base10ParseInt parseU32

/-- The unit of a knob: cores are counted in thousandths. -/
def scale : NumberKnob → ℕ
  | .cpu => 1000
  | _ => 1

end NumberKnob

/-! ### What is written -/

/-- The number of an integer literal. -/
def literalValue (digits : Text) : Option ℕ :=
  digitsValue (if digits.head? = some '+' then digits.tail else digits)

/-- A knob is written as an integer literal: no later argument has its key, and a bare retry count
stands without the struct form. -/
def Written (args : List MetaArg) (knob : NumberKnob) (digits : Text) : Prop :=
  (∃ before arg after, args = before ++ arg :: after ∧ arg.key = some knob.key ∧
    arg.value = some (.expr (.lit (.int digits))) ∧ ∀ other ∈ after, other.key ≠ some knob.key) ∧
  (knob = .retries → ∀ arg ∈ args, arg.key = some .retries → ∀ v ∈ arg.value, isInt v = true)

/-- `as f32` on a `u32`. -/
def asF32 (n : ℕ) : F32 := UInt32.ofNat (single.bits n)

/-- The request carries a number for a knob, in every field of the knob. A web server's fields are
there if the request has a webhook. -/
def Carried (function : Sdk.Function) (n : ℕ) : NumberKnob → Prop
  | .timeout => function.timeoutSecs = n
  | .cpu => function.resources.map Resources.milliCpu = some n
  | .memory => function.resources.map Resources.memoryMb = some n
  | .retries => function.retryPolicy.map FunctionRetryPolicy.retries = some n
  | .minContainers => autoscalerKnob function FunctionAutoscaler.minContainers = some n ∧
      function.warmPoolSize = n
  | .maxContainers => autoscalerKnob function FunctionAutoscaler.maxContainers = some n ∧
      function.concurrencyLimit = n
  | .bufferContainers => autoscalerKnob function FunctionAutoscaler.bufferContainers = some n ∧
      function.experimentalBufferContainers = n
  | .scaledownWindow => autoscalerKnob function FunctionAutoscaler.scaledownWindow = some n ∧
      function.taskIdleTimeoutSecs = n
  | .maxConcurrentInputs => function.maxConcurrentInputs = n
  | .targetConcurrentInputs => function.targetConcurrentInputs = n
  | .port => ∀ w ∈ function.webhookConfig, w.webServerPort = n
  | .startupTimeout =>
    ∀ w ∈ function.webhookConfig, valueF32 w.webServerStartupTimeout = some (n : ℚ)

/-- A written number is unchanged in the registered config and in the request. -/
def Unchanged (options : FunctionOptions) (function : Sdk.Function) (knob : NumberKnob)
    (digits : Text) : Prop :=
  ∃ n, literalValue digits = some n ∧ knob.registered options = some (knob.scale * n) ∧
    Carried function (knob.scale * n) knob

/-- The written numbers fit: the timeout and the thousandths of cores are below `2 ^ 32`, and the
startup timeout of a deployed web server is a number of single precision. -/
structure NumbersFit (boundary : Boundary) (args : List MetaArg) : Prop where
  /-- The timeout. -/
  timeout : ∀ digits n, Written args .timeout digits → literalValue digits = some n → n < 2 ^ 32
  /-- The cores. -/
  cpu : ∀ digits n, Written args .cpu digits → literalValue digits = some n → 1000 * n < 2 ^ 32
  /-- The startup timeout. -/
  startupTimeout : boundary.appState = .deployed → ∀ digits n,
    Written args .startupTimeout digits → literalValue digits = some n → single.Holds n

/-! ### The parser -/

/-- The key that a setting belongs to. -/
def Setting.key : Setting → Key
  | .name _ => .name
  | .gpu _ => .gpu
  | .timeout _ => .timeout
  | .cache _ => .cache
  | .cpu _ => .cpu
  | .memory _ => .memory
  | .retries _ | .retriesSpec _ => .retries
  | .schedule _ => .schedule
  | .minContainers _ => .minContainers
  | .maxContainers _ => .maxContainers
  | .bufferContainers _ => .bufferContainers
  | .scaledownWindow _ => .scaledownWindow
  | .maxConcurrentInputs _ => .maxConcurrentInputs
  | .targetConcurrentInputs _ => .targetConcurrentInputs
  | .secrets _ => .secrets
  | .requiredKeys _ => .requiredKeys
  | .env _ => .env
  | .volumes _ => .volumes
  | .image _ => .image
  | .method _ => .method
  | .requiresProxyAuth _ => .requiresProxyAuth
  | .port _ => .port
  | .startupTimeout _ => .startupTimeout
  | .enableMemorySnapshot _ => .enableMemorySnapshot

variable {std : Std} {kind : HandlerKind}

/-- What an argument sets belongs to its key. -/
theorem key_of_readSetting {key : Key} {value : Option MetaValue} {s : Setting}
    (hread : readSetting std kind key value = .ok s) : s.key = key := by
  cases key with
  | retries =>
    obtain ⟨v, -, hread⟩ := exists_of_bind_ok hread
    cases hint : isInt v with
    | true =>
      rw [hint, if_pos rfl] at hread
      obtain ⟨-, -, rfl⟩ := exists_of_map_ok hread
      rfl
    | false =>
      rw [hint, if_neg (by decide)] at hread
      obtain ⟨-, -, rfl⟩ := exists_of_map_ok hread
      rfl
  | name | method | requiresProxyAuth | port | startupTimeout | enableMemorySnapshot =>
    obtain ⟨-, -, hread⟩ := exists_of_bind_ok hread
    obtain ⟨-, -, rfl⟩ := exists_of_map_ok hread
    rfl
  | _ =>
    obtain ⟨-, -, rfl⟩ := exists_of_map_ok hread
    rfl

/-- A setting of another key leaves a knob as it is. -/
theorem get_apply_of_ne {knob : NumberKnob} {s : Setting} (hkey : s.key ≠ knob.key)
    (cfg : DecoratorConfig) : knob.get (s.apply cfg) = knob.get cfg := by
  cases s <;> cases knob <;> first | rfl | exact absurd rfl hkey

/-- An argument with another key leaves a knob as it is. -/
theorem get_decoratorArg_of_ne {knob : NumberKnob} {arg : MetaArg} {cfg cfg' : DecoratorConfig}
    (harg : decoratorArg std kind cfg arg = .ok cfg') (hkey : arg.key ≠ some knob.key) :
    knob.get cfg' = knob.get cfg := by
  unfold decoratorArg at harg
  cases hargkey : arg.key with
  | none =>
    rw [hargkey] at harg
    cases harg
  | some key =>
    rw [hargkey] at harg hkey
    obtain ⟨s, hs, rfl⟩ := exists_of_map_ok harg
    refine get_apply_of_ne ?_ cfg
    rw [key_of_readSetting hs]
    exact fun h => hkey (congrArg some h)

/-- Arguments with other keys leave a knob as it is. -/
theorem get_foldlM_of_ne {knob : NumberKnob} {args : List MetaArg} {cfg cfg' : DecoratorConfig}
    (hargs : args.foldlM (decoratorArg std kind) cfg = .ok cfg')
    (hkeys : ∀ arg ∈ args, arg.key ≠ some knob.key) : knob.get cfg' = knob.get cfg := by
  induction args generalizing cfg with
  | nil =>
    cases hargs
    rfl
  | cons arg args ih =>
    rw [List.foldlM_cons] at hargs
    obtain ⟨next, harg, hrest⟩ := exists_of_bind_ok hargs
    rw [ih hrest fun other hother => hkeys other (List.mem_cons_of_mem _ hother)]
    exact get_decoratorArg_of_ne harg (hkeys arg List.mem_cons_self)

/-- An integer literal is stored in the field of its knob. -/
theorem get_decoratorArg {knob : NumberKnob} {arg : MetaArg} {digits : Text}
    {cfg cfg' : DecoratorConfig} (harg : decoratorArg std kind cfg arg = .ok cfg')
    (hkey : arg.key = some knob.key) (hvalue : arg.value = some (.expr (.lit (.int digits)))) :
    ∃ n, knob.stored digits = .ok n ∧ knob.get cfg' = some n := by
  unfold decoratorArg at harg
  rw [hkey, hvalue] at harg
  obtain ⟨s, hs, rfl⟩ := exists_of_map_ok harg
  cases knob with
  | port | startupTimeout =>
    obtain ⟨-, -, hs⟩ := exists_of_bind_ok hs
    obtain ⟨n, hn, rfl⟩ := exists_of_map_ok hs
    exact ⟨n, hn, rfl⟩
  | _ =>
    obtain ⟨n, hn, rfl⟩ := exists_of_map_ok hs
    exact ⟨n, hn, rfl⟩

/-- The config of an accepted attribute is what its arguments leave. -/
theorem foldlM_of_parse {args : List MetaArg} {cfg : DecoratorConfig}
    (hparse : parseDecoratorConfig std kind args = .ok cfg) :
    args.foldlM (decoratorArg std kind) .default = .ok cfg ∧
      (kind = .webServer → cfg.webServerPort ≠ none) := by
  obtain ⟨parsed, hfold, hchecks⟩ := exists_of_bind_ok hparse
  by_cases hendpoint : kind = .endpoint ∧ parsed.webhookMethod = none
  · rw [if_pos hendpoint] at hchecks
    cases hchecks
  · rw [if_neg hendpoint] at hchecks
    by_cases hserver : kind = .webServer ∧ parsed.webServerPort = none
    · rw [if_pos hserver] at hchecks
      cases hchecks
    · rw [if_neg hserver] at hchecks
      cases hchecks
      exact ⟨hfold, fun hkind hnone => hserver ⟨hkind, hnone⟩⟩

/-- **A written number is stored**: of an accepted attribute the config has the number of the
literal. -/
theorem exists_stored {args : List MetaArg} {cfg : DecoratorConfig} {knob : NumberKnob}
    {digits : Text} (hparse : parseDecoratorConfig std kind args = .ok cfg)
    (hwritten : Written args knob digits) :
    ∃ n, knob.stored digits = .ok n ∧ knob.get cfg = some n := by
  obtain ⟨⟨before, arg, after, rfl, hkey, hvalue, hafter⟩, -⟩ := hwritten
  obtain ⟨hfold, -⟩ := foldlM_of_parse hparse
  obtain ⟨_, _, harg, hrest⟩ := exists_of_foldlM_ok hfold
  rw [get_foldlM_of_ne hrest hafter]
  exact get_decoratorArg harg hkey hvalue

/-- A startup timeout is accepted for a web server only, which has a port. -/
theorem webServerPort_of_written {args : List MetaArg} {cfg : DecoratorConfig} {digits : Text}
    (hparse : parseDecoratorConfig std kind args = .ok cfg)
    (hwritten : Written args .startupTimeout digits) : ∃ port, cfg.webServerPort = some port := by
  obtain ⟨⟨before, arg, after, rfl, hkey, hvalue, -⟩, -⟩ := hwritten
  obtain ⟨hfold, hport⟩ := foldlM_of_parse hparse
  obtain ⟨_, _, harg, -⟩ := exists_of_foldlM_ok hfold
  unfold decoratorArg at harg
  rw [hkey, hvalue] at harg
  obtain ⟨_, hs, -⟩ := exists_of_map_ok harg
  obtain ⟨_, honly, -⟩ := exists_of_bind_ok hs
  refine Option.ne_none_iff_exists'.mp (hport ?_)
  by_contra hkind
  unfold onlyFor at honly
  rw [if_neg hkind] at honly
  cases honly

/-- A setting that is no struct form of retries leaves the retry spec as it is. -/
theorem retriesSpec_apply {s : Setting} (hs : ∀ spec, s ≠ .retriesSpec spec)
    (cfg : DecoratorConfig) : (s.apply cfg).retriesSpec = cfg.retriesSpec := by
  cases s <;> first | rfl | exact absurd rfl (hs _)

/-- Bare retry counts set no retry spec. -/
theorem retriesSpec_foldlM {args : List MetaArg} {cfg cfg' : DecoratorConfig}
    (hfold : args.foldlM (decoratorArg std kind) cfg = .ok cfg')
    (hbare : ∀ arg ∈ args, arg.key = some .retries → ∀ v ∈ arg.value, isInt v = true) :
    cfg'.retriesSpec = cfg.retriesSpec := by
  induction args generalizing cfg with
  | nil =>
    cases hfold
    rfl
  | cons arg args ih =>
    rw [List.foldlM_cons] at hfold
    obtain ⟨next, harg, hrest⟩ := exists_of_bind_ok hfold
    rw [ih hrest fun other hother => hbare other (List.mem_cons_of_mem _ hother)]
    have harg_bare := hbare arg List.mem_cons_self
    unfold decoratorArg at harg
    cases hkey : arg.key with
    | none =>
      rw [hkey] at harg
      cases harg
    | some key =>
      rw [hkey] at harg harg_bare
      obtain ⟨s, hs, rfl⟩ := exists_of_map_ok harg
      refine retriesSpec_apply ?_ cfg
      rintro spec rfl
      have hretries : key = .retries := (key_of_readSetting hs).symm
      subst hretries
      obtain ⟨v, hv, hs⟩ := exists_of_bind_ok hs
      have hint : isInt v = true := by
        cases hvalue : arg.value with
        | none =>
          rw [hvalue] at hv
          cases hv
        | some value =>
          rw [hvalue] at hv
          cases hv
          exact harg_bare rfl v hvalue
      rw [if_pos hint] at hs
      obtain ⟨_, -, heq⟩ := exists_of_map_ok hs
      cases heq

/-! ### The conversions -/

/-- A literal that is read as an unsigned integer has this number. -/
theorem literalValue_of_base10ParseInt (bound : ℕ) {n : ℕ} {parse : Text → Option ℕ} {digits : Text}
    (hparse : ∀ t, parse t = (literalValue t).filter fun n => n < bound)
    (hread : base10ParseInt parse digits = .ok n) : literalValue digits = some n ∧ n < bound := by
  unfold base10ParseInt at hread
  split at hread
  · cases hread
  · unfold base10Parse at hread
    split at hread
    · next m hm =>
      cases hread
      rw [hparse, Option.filter_eq_some_iff] at hm
      exact ⟨hm.1, of_decide_eq_true hm.2⟩
    · cases hread

/-- What is stored of a knob other than the cores is the number of the literal. -/
theorem literalValue_of_stored {knob : NumberKnob} {digits : Text} {n : ℕ}
    (hstored : knob.stored digits = .ok n) (hknob : knob ≠ .cpu) :
    literalValue digits = some n ∧ (knob ≠ .timeout → n < 2 ^ 32) := by
  cases knob with
  | cpu => exact absurd rfl hknob
  | timeout =>
    obtain ⟨hvalue, -⟩ := literalValue_of_base10ParseInt (2 ^ 64) (fun _ => rfl) hstored
    exact ⟨hvalue, fun h => absurd rfl h⟩
  | port =>
    obtain ⟨hvalue, hlt⟩ := literalValue_of_base10ParseInt (2 ^ 16) (fun _ => rfl) hstored
    exact ⟨hvalue, fun _ => by omega⟩
  | _ =>
    obtain ⟨hvalue, hlt⟩ := literalValue_of_base10ParseInt (2 ^ 32) (fun _ => rfl) hstored
    exact ⟨hvalue, fun _ => hlt⟩

/-- An integer below `2 ^ 53` is a number of double precision. -/
theorem double_round_natCast {n : ℕ} (hn : n < 2 ^ 53) : double.round n = n := by
  have hholds : double.Holds n := ⟨n, 0, by decide, hn, by simp⟩
  exact (double.nearest_round n.cast_nonneg).eq_of_holds hholds

/-- The cores in thousandths: exact below `2 ^ 32`, and the largest number from there on. -/
theorem stored_cpu {digits : Text} {m : ℕ} (hstored : NumberKnob.cpu.stored digits = .ok m) :
    ∃ n, literalValue digits = some n ∧ m < 2 ^ 32 ∧ (1000 * n < 2 ^ 32 → m = 1000 * n) := by
  obtain ⟨n, hn, hmilli⟩ := exists_of_bind_ok hstored
  obtain ⟨hvalue, -⟩ := literalValue_of_base10ParseInt (2 ^ 64) (fun _ => rfl) hn
  unfold milliOfCores at hmilli
  split at hmilli
  · cases hmilli
  · cases hmilli
    refine ⟨n, hvalue, F64.toU32_lt _, fun hfits => ?_⟩
    have hcores : double.round n = n := double_round_natCast (by omega)
    have hfinite : double.round n < 2 ^ double.maxExp := by
      rw [hcores]
      have hsmall : (n : ℚ) < 2 ^ (32 : ℤ) := by
        have hlt : n < 2 ^ 32 := by omega
        exact_mod_cast hlt
      exact hsmall.trans_le (zpow_le_zpow_right₀ (by norm_num) (by decide))
    have htimes : (F64.ofRat n).times 1000 = F64.ofRat (n * 1000) := by
      unfold F64.times
      rw [F64.value_ofRat hfinite, hcores]
    rw [htimes, F64.toU32_ofRat]
    have hproduct : double.round ((n : ℚ) * 1000) = ((1000 * n : ℕ) : ℚ) := by
      have hcast : (n : ℚ) * 1000 = ((1000 * n : ℕ) : ℚ) := by
        push_cast
        ring
      rw [hcast]
      exact double_round_natCast (by omega)
    rw [hproduct, Nat.floor_natCast]
    omega

/-- A `u32` as a single is exact if it is a number of single precision. -/
theorem valueF32_asF32_iff {n : ℕ} (hn : n < 2 ^ 32) :
    valueF32 (asF32 n) = some (n : ℚ) ↔ single.Holds n := by
  have hlimit : single.Holds (2 ^ 32) := ⟨1, 32, by decide, by decide, by norm_num⟩
  have hround : single.round n ≤ 2 ^ 32 := by
    have hle : (n : ℚ) ≤ 2 ^ 32 := by exact_mod_cast hn.le
    have hmono := single.round_mono n.cast_nonneg hle
    rwa [(single.nearest_round (by positivity)).eq_of_holds hlimit] at hmono
  have hfinite : single.round n < 2 ^ single.maxExp := by
    refine hround.trans_lt ?_
    have hpower : (2 : ℚ) ^ (32 : ℤ) < 2 ^ single.maxExp :=
      zpow_lt_zpow_right₀ (by norm_num) (by decide)
    exact_mod_cast hpower
  unfold asF32
  rw [valueF32_bits, if_pos hfinite, Option.some_inj]
  constructor
  · intro heq
    rw [← heq]
    exact single.holds_round n
  · exact (single.nearest_round n.cast_nonneg).eq_of_holds

/-! ### The request -/

variable {setup : Setup} {options : FunctionOptions} {args : List MetaArg}
  {cfg : DecoratorConfig} {digits : Text}

/-- The webhook of a web server, which only a deploy has. -/
theorem webhookConfig_carried {port : ℕ} (hport : options.webServerPort = some port) :
    (setup.carried options).request.function.webhookConfig =
      if setup.boundary.appState = .deployed then
        some ⟨.webServer, [], port, setup.floats.ofU32 (options.webServerStartupTimeout.getD 0),
          options.webhookRequiresProxyAuth⟩
      else none := by
  change (webhookFor setup.boundary (setup.entrypoint options)).map
    (WebhookSpec.toProto setup.floats) = _
  have hoption : (setup.entrypoint options).options.webServerPort = some port := hport
  unfold webhookFor
  rw [hoption]
  cases setup.boundary.appState <;> rfl

/-- A setting of the autoscaler with its old name. -/
theorem autoscaler_carried {knob : Option ℕ × ℕ} {field : Option ℕ} {v w : ℕ}
    (hknob : knob = (field, field.getD 0)) (hfield : field = some v) :
    knob.1 = some w ∧ knob.2 = w ↔ v = w := by
  subst hfield hknob
  rw [Option.some_inj, Option.getD_some, and_self]

/-- A number that is sent as it is registered, with a default. -/
theorem getD_carried {sent : ℕ} {field : Option ℕ} {default v w : ℕ}
    (hread : sent = field.getD default) (hfield : field = some v) : sent = w ↔ v = w := by
  rw [hread, hfield, Option.getD_some]

/-- A resource that is sent as it is registered. -/
theorem map_getD_carried {sent field : Option ℕ} {default v w : ℕ}
    (hread : sent = some (field.getD default)) (hfield : field = some v) :
    sent = some w ↔ v = w := by
  rw [hread, hfield, Option.getD_some, Option.some_inj]

/-- What is only there under a condition. -/
theorem forall_mem_ite_some {β : Type} {p : Prop} [Decidable p] {x : β} {P : β → Prop} :
    (∀ y ∈ if p then some x else none, P y) ↔ (p → P x) := by
  split_ifs with hp
  · exact ⟨fun h _ => h x rfl, fun h y hy => Option.some.inj hy ▸ h hp⟩
  · exact ⟨fun _ h => absurd h hp, fun _ y hy => absurd hy (Option.not_mem_none y)⟩

/-- What a registered number arrives as. -/
def NumberKnob.Arrives (boundary : Boundary) (v w : ℕ) : NumberKnob → Prop
  | .port => boundary.appState = .deployed → v = w
  | .startupTimeout => boundary.appState = .deployed → valueF32 (asF32 v) = some (w : ℚ)
  | _ => v = w

/-- **A registered number arrives** in the request. -/
theorem carried_iff (hfloats : setup.floats.ofU32 = asF32) {knob : NumberKnob} {v w : ℕ}
    (hfield : knob.registered options = some v)
    (hspec : knob = .retries → options.retriesSpec = none)
    (hport : knob = .startupTimeout → ∃ port, options.webServerPort = some port) :
    Carried (setup.carried options).request.function w knob ↔
      knob.Arrives setup.boundary v w := by
  cases knob with
  | timeout =>
    have hread : (setup.carried options).request.function.timeoutSecs =
        options.timeoutSecs.getD setup.timeoutSecs := rfl
    exact getD_carried hread hfield
  | cpu =>
    have hread : (setup.carried options).request.function.resources.map Resources.milliCpu =
        some (options.milliCpu.getD 0) := rfl
    exact map_getD_carried hread hfield
  | memory =>
    have hread : (setup.carried options).request.function.resources.map Resources.memoryMb =
        some (options.memoryMb.getD 0) := rfl
    exact map_getD_carried hread hfield
  | retries =>
    have hread : (setup.carried options).request.function.retryPolicy =
        retryPolicyOf setup.std options := rfl
    unfold NumberKnob.registered at hfield
    unfold Carried NumberKnob.Arrives
    dsimp only at hfield ⊢
    rw [hread, retryPolicyOf, hspec rfl]
    dsimp only
    rw [hfield, Option.map_some, Option.map_some, Option.some_inj]
    rfl
  | minContainers =>
    exact autoscaler_carried (read_carried setup options .minContainers) hfield
  | maxContainers =>
    exact autoscaler_carried (read_carried setup options .maxContainers) hfield
  | bufferContainers =>
    exact autoscaler_carried (read_carried setup options .bufferContainers) hfield
  | scaledownWindow =>
    exact autoscaler_carried (read_carried setup options .scaledownWindow) hfield
  | maxConcurrentInputs =>
    have hread : (setup.carried options).request.function.maxConcurrentInputs =
        options.maxConcurrentInputs.getD 0 := rfl
    exact getD_carried hread hfield
  | targetConcurrentInputs =>
    have hread : (setup.carried options).request.function.targetConcurrentInputs =
        options.targetConcurrentInputs.getD 0 := rfl
    exact getD_carried hread hfield
  | port =>
    unfold NumberKnob.registered at hfield
    unfold Carried NumberKnob.Arrives
    dsimp only at hfield ⊢
    rw [webhookConfig_carried hfield]
    exact forall_mem_ite_some
  | startupTimeout =>
    obtain ⟨port, hport⟩ := hport rfl
    unfold NumberKnob.registered at hfield
    unfold Carried NumberKnob.Arrives
    dsimp only at hfield ⊢
    rw [webhookConfig_carried hport, hfloats, hfield, Option.getD_some]
    exact forall_mem_ite_some

/-- A written number is unchanged if it is registered and carried. -/
theorem unchanged_iff_of_literal {function : Sdk.Function} {knob : NumberKnob} {n : ℕ}
    (hvalue : literalValue digits = some n) :
    Unchanged options function knob digits ↔
      knob.registered options = some (knob.scale * n) ∧ Carried function (knob.scale * n) knob := by
  unfold Unchanged
  rw [hvalue]
  constructor
  · rintro ⟨_, ⟨⟩, hboth⟩
    exact hboth
  · intro hboth
    exact ⟨n, rfl, hboth⟩

/-- What is registered of a stored number: a timeout is taken modulo `2 ^ 32`. -/
theorem registered_tokens {knob : NumberKnob} {m : ℕ} (hget : knob.get cfg = some m) :
    knob.registered (functionConfigTokens cfg) =
      some (if knob = .timeout then m % 2 ^ 32 else m) := by
  cases knob with
  | timeout =>
    rw [if_pos rfl]
    change cfg.timeoutSecs.map (fun n => n % 2 ^ 32) = _
    rw [show cfg.timeoutSecs = some m from hget]
    rfl
  | _ =>
    rw [if_neg nofun]
    exact hget

/-- When a written number fits its conversions. -/
def NumberKnob.Fits (boundary : Boundary) (n : ℕ) : NumberKnob → Prop
  | .timeout => n < 2 ^ 32
  | .cpu => 1000 * n < 2 ^ 32
  | .startupTimeout => boundary.appState = .deployed → single.Holds n
  | _ => True

/-- **A written number is unchanged**, unless it is a timeout that is too large, too many cores, or
a startup timeout of a deployed web server that is no single. -/
theorem exists_unchanged_iff (hfloats : setup.floats.ofU32 = asF32) {knob : NumberKnob}
    (hparse : parseDecoratorConfig std kind args = .ok cfg)
    (hwritten : Written args knob digits) :
    ∃ n, literalValue digits = some n ∧
      (Unchanged (functionConfigTokens cfg)
          (setup.carried (functionConfigTokens cfg)).request.function knob digits ↔
        knob.Fits setup.boundary n) := by
  obtain ⟨m, hstored, hget⟩ := exists_stored hparse hwritten
  have hregistered := registered_tokens hget
  have hspec : knob = .retries → (functionConfigTokens cfg).retriesSpec = none := by
    intro hknob
    exact retriesSpec_foldlM (foldlM_of_parse hparse).1 (hwritten.2 hknob)
  have hport : knob = .startupTimeout →
      ∃ port, (functionConfigTokens cfg).webServerPort = some port := by
    rintro rfl
    exact webServerPort_of_written hparse hwritten
  by_cases hcpu : knob = .cpu
  · subst hcpu
    obtain ⟨n, hvalue, hlt, hexact⟩ := stored_cpu hstored
    refine ⟨n, hvalue, ?_⟩
    rw [unchanged_iff_of_literal hvalue, carried_iff hfloats hregistered hspec hport, hregistered,
      if_neg nofun, Option.some_inj]
    unfold NumberKnob.Arrives NumberKnob.scale NumberKnob.Fits
    dsimp only
    omega
  · obtain ⟨hvalue, hlt⟩ := literalValue_of_stored hstored hcpu
    refine ⟨m, hvalue, ?_⟩
    have hscale : knob.scale = 1 := by
      cases knob with
      | cpu => exact absurd rfl hcpu
      | _ => rfl
    rw [unchanged_iff_of_literal hvalue, carried_iff hfloats hregistered hspec hport, hregistered,
      hscale, one_mul, Option.some_inj]
    cases knob with
    | cpu => exact absurd rfl hcpu
    | timeout =>
      rw [if_pos rfl]
      unfold NumberKnob.Arrives NumberKnob.Fits
      dsimp only
      omega
    | startupTimeout =>
      rw [if_neg nofun]
      unfold NumberKnob.Arrives NumberKnob.Fits
      dsimp only
      rw [valueF32_asF32_iff (hlt nofun)]
      exact ⟨fun h => h.2, fun h => ⟨rfl, h⟩⟩
    | port =>
      rw [if_neg nofun]
      exact ⟨fun _ => trivial, fun _ => ⟨rfl, fun _ => rfl⟩⟩
    | _ =>
      rw [if_neg nofun]
      exact ⟨fun _ => trivial, fun _ => ⟨rfl, rfl⟩⟩

/-- **Every written number is unchanged exactly if the numbers fit**: in the registered config and
in the create request, an accepted integer literal is its number in the knob's unit, unless a
timeout or the thousandths of cores do not fit 32 bits or the startup timeout of a deployed web
server is no single. -/
theorem numbers_unchanged_iff (std : Std) (kind : HandlerKind) (setup : Setup)
    {produced : Produced} (hfloats : setup.floats.ofU32 = asF32)
    (hparse : parseDecoratorConfig std kind args = .ok cfg)
    (hproduced : setup.functionCreate (functionConfigTokens cfg) = .ok produced) :
    (∀ knob digits, Written args knob digits →
        Unchanged (functionConfigTokens cfg) produced.request.function knob digits) ↔
      NumbersFit setup.boundary args := by
  rw [functionCreate_eq setup _ hproduced]
  constructor
  · intro hall
    have hfits {knob : NumberKnob} {digits : Text} {n : ℕ} (hwritten : Written args knob digits)
        (hvalue : literalValue digits = some n) : knob.Fits setup.boundary n := by
      obtain ⟨m, hm, hiff⟩ := exists_unchanged_iff hfloats hparse hwritten
      rw [hvalue] at hm
      cases hm
      exact hiff.mp (hall knob digits hwritten)
    exact ⟨fun _ _ hwritten hvalue => hfits hwritten hvalue,
      fun _ _ hwritten hvalue => hfits hwritten hvalue,
      fun hdeployed _ _ hwritten hvalue => hfits hwritten hvalue hdeployed⟩
  · intro hfit knob digits hwritten
    obtain ⟨n, hvalue, hiff⟩ := exists_unchanged_iff hfloats hparse hwritten
    refine hiff.mpr ?_
    cases knob with
    | timeout => exact hfit.timeout digits n hwritten hvalue
    | cpu => exact hfit.cpu digits n hwritten hvalue
    | startupTimeout =>
      exact fun hdeployed => hfit.startupTimeout hdeployed digits n hwritten hvalue
    | _ => exact trivial

/-- A setup with the conversion of Rust. -/
def rustSetup : Setup := { plainSetup with floats := ⟨asF32, fun _ => [], no_comma_nil⟩ }

/-- `#[function(timeout = digits)]`. -/
def timeoutArgs (digits : Text) : List MetaArg :=
  [⟨⟨false, [⟨"timeout".toList, false⟩]⟩, some (.expr (.lit (.int digits)))⟩]

/-- The result for a timeout of a minute. -/
theorem numbers_unchanged_minute :
    (∀ knob digits, Written (timeoutArgs "60".toList) knob digits →
        Unchanged (functionConfigTokens { DecoratorConfig.default with timeoutSecs := some 60 })
          (rustSetup.carried (functionConfigTokens
            { DecoratorConfig.default with timeoutSecs := some 60 })).request.function
          knob digits) ↔
      NumbersFit rustSetup.boundary (timeoutArgs "60".toList) :=
  numbers_unchanged_iff plainStd .function rustSetup rfl rfl rfl

/-- A timeout of `2 ^ 32 + 1` seconds is accepted, and the function is created with a timeout of one
second. -/
theorem large_timeout_wraps :
    parseDecoratorConfig plainStd .function (timeoutArgs "4294967297".toList) =
      .ok { DecoratorConfig.default with timeoutSecs := some 4294967297 } ∧
    ∃ produced, rustSetup.functionCreate (functionConfigTokens
        { DecoratorConfig.default with timeoutSecs := some 4294967297 }) = .ok produced ∧
      produced.request.function.timeoutSecs = 1 := by
  refine ⟨rfl, _, rfl, ?_⟩
  decide +kernel

end ModalRust.Macros
