import ModalRust.Macros.Image
import ModalRust.Macros.Retries
import ModalRust.Macros.Schedule
import ModalRust.Provision.Options

/-!
# The shared decorator grammar

`parse_decorator_config`, the one parser of `#[function]`, `#[endpoint]`, `#[web_server]`,
`#[cls]` and `#[method]`, and `function_config_tokens`, the one emitter. The parser goes through
the arguments, reads the value of each one and stores it in the config record. The text for a
value of the wrong shape is that of `syn`.
-/

namespace ModalRust.Macros

open ModalRust.Provision ModalRust.Sdk

/-- `HandlerKind`: which attribute is expanding. -/
inductive HandlerKind
  /-- `#[function]`. -/
  | function
  /-- `#[endpoint]`. -/
  | endpoint
  /-- `#[web_server]`. -/
  | webServer
  /-- `#[cls]` or `#[method]`. -/
  | cls
  deriving DecidableEq

/-- `HandlerKind::display`. -/
def HandlerKind.display : HandlerKind → Text
  | .function => "#[modal_rust::function]".toList
  | .endpoint => "#[modal_rust::endpoint]".toList
  | .webServer => "#[modal_rust::web_server]".toList
  | .cls => "#[modal_rust::cls]".toList

/-- `ENDPOINT_METHODS`. -/
def endpointMethods : List Text := ["GET", "POST", "PUT", "DELETE", "PATCH"].map String.toList

/-- `ENDPOINT_EXPECTED_SYNTAX`. -/
def endpointExpectedSyntax : Text :=
  "#[modal_rust::endpoint(method = \"GET\"|\"POST\"|\"PUT\"|\"DELETE\"|\"PATCH\", ".toList ++
    "<any #[function] config>)]".toList

/-- `WEB_SERVER_EXPECTED_SYNTAX`. -/
def webServerExpectedSyntax : Text :=
  "#[modal_rust::web_server(port = <u16>, startup_timeout = <secs, optional>, ".toList ++
    "<any #[function] config>)]".toList

/-- `DecoratorConfig`. A list that is set may be empty. -/
structure DecoratorConfig where
  /-- The name of the entrypoint. -/
  explicitName : Option Text
  /-- The GPU spec. -/
  gpu : Option Text
  /-- The timeout in seconds. -/
  timeoutSecs : Option ℕ
  /-- Whether the build cache is on. -/
  cache : Option Bool
  /-- CPU in thousandths of a core. -/
  milliCpu : Option ℕ
  /-- Memory in mebibytes. -/
  memoryMb : Option ℕ
  /-- The retry count. -/
  retries : Option ℕ
  /-- The retry spec. -/
  retriesSpec : Option Text
  /-- The schedule spec. -/
  schedule : Option Text
  /-- The autoscaler's floor. -/
  minContainers : Option ℕ
  /-- The autoscaler's ceiling. -/
  maxContainers : Option ℕ
  /-- Warm containers beyond demand. -/
  bufferContainers : Option ℕ
  /-- Seconds before an idle container is stopped. -/
  scaledownWindow : Option ℕ
  /-- The named secrets. -/
  secrets : Option (List Text)
  /-- The keys that the named secrets must have. -/
  requiredKeys : Option (List Text)
  /-- The inline environment. -/
  env : Option (List (Text × Text))
  /-- The volumes, as mount path and volume name. -/
  volumes : Option (List (Text × Text))
  /-- The image spec. -/
  image : Option Text
  /-- The memory-snapshot opt-in. -/
  enableMemorySnapshot : Option Bool
  /-- The method of an endpoint. -/
  webhookMethod : Option Text
  /-- The proxy-authentication opt-in. -/
  webhookRequiresProxyAuth : Bool
  /-- The port of a web server. -/
  webServerPort : Option ℕ
  /-- The startup timeout of a web server. -/
  webServerStartupTimeout : Option ℕ
  /-- The largest number of inputs that a container runs at once. -/
  maxConcurrentInputs : Option ℕ
  /-- The number of inputs that a container should run at once. -/
  targetConcurrentInputs : Option ℕ

/-- `DecoratorConfig::default`. -/
def DecoratorConfig.default : DecoratorConfig :=
  ⟨none, none, none, none, none, none, none, none, none, none, none, none, none, none, none, none,
    none, none, none, none, false, none, none, none, none⟩

/-! ### Arguments -/

/-- The value of an argument of an attribute. -/
inductive MetaValue
  /-- A literal, a path or an array. -/
  | expr (value : Expr)
  /-- A call. -/
  | call (value : ExprCall)
  /-- Braces around pairs `left = right`. -/
  | map (pairs : List (Expr × Expr))

/-- An argument of an attribute: a path, and the value after `=` if there is one. -/
structure MetaArg where
  /-- The path. -/
  path : Path
  /-- The value. -/
  value : Option MetaValue

/-- The keys of the grammar. -/
inductive Key
  | name | gpu | timeout | cache | cpu | memory | retries | schedule | minContainers
  | maxContainers | bufferContainers | scaledownWindow | maxConcurrentInputs
  | targetConcurrentInputs | secrets | requiredKeys | env | volumes | image | method
  | requiresProxyAuth | port | startupTimeout | enableMemorySnapshot
  deriving DecidableEq

/-- The identifier of a key. -/
def Key.ident : Key → Text
  | .name => "name".toList
  | .gpu => "gpu".toList
  | .timeout => "timeout".toList
  | .cache => "cache".toList
  | .cpu => "cpu".toList
  | .memory => "memory".toList
  | .retries => "retries".toList
  | .schedule => "schedule".toList
  | .minContainers => "min_containers".toList
  | .maxContainers => "max_containers".toList
  | .bufferContainers => "buffer_containers".toList
  | .scaledownWindow => "scaledown_window".toList
  | .maxConcurrentInputs => "max_concurrent_inputs".toList
  | .targetConcurrentInputs => "target_concurrent_inputs".toList
  | .secrets => "secrets".toList
  | .requiredKeys => "required_keys".toList
  | .env => "env".toList
  | .volumes => "volumes".toList
  | .image => "image".toList
  | .method => "method".toList
  | .requiresProxyAuth => "requires_proxy_auth".toList
  | .port => "port".toList
  | .startupTimeout => "startup_timeout".toList
  | .enableMemorySnapshot => "enable_memory_snapshot".toList

/-- The keys, in the order in which the parser compares them. -/
def keys : List Key :=
  [.name, .gpu, .timeout, .cache, .cpu, .memory, .retries, .schedule, .minContainers,
    .maxContainers, .bufferContainers, .scaledownWindow, .maxConcurrentInputs,
    .targetConcurrentInputs, .secrets, .requiredKeys, .env, .volumes, .image, .method,
    .requiresProxyAuth, .port, .startupTimeout, .enableMemorySnapshot]

/-- The key of an argument. -/
def MetaArg.key (arg : MetaArg) : Option Key :=
  arg.path.getIdent.bind fun ident => keys.find? fun key => key.ident = ident

/-- `meta.value()`. -/
def metaValue : Option MetaValue → Except Text MetaValue
  | some value => .ok value
  | none => .error "expected `=`".toList

/-! ### Values -/

/-- A `LitStr`. -/
def litStr : MetaValue → Except Text Text
  | .expr (.lit (.str s)) => .ok s
  | _ => .error "expected string literal".toList

/-- A `LitBool`. -/
def litBool : MetaValue → Except Text Bool
  | .expr (.lit (.bool b)) => .ok b
  | _ => .error "expected boolean literal".toList

/-- The digits of a `LitInt`, which may have a minus sign. -/
def litInt : MetaValue → Except Text Text
  | .expr (.lit (.int digits)) => .ok digits
  | _ => .error "expected integer literal".toList

/-- `LitInt::base10_parse`, where `parse` is that of an unsigned type. -/
def base10ParseInt (parse : Text → Option ℕ) (digits : Text) : Except Text ℕ :=
  if digits.head? = some '-' then .error "invalid digit found in string".toList
  else base10Parse (parse digits)

/-- The number of an integer literal. -/
def litNumber (parse : Text → Option ℕ) (value : Option MetaValue) : Except Text ℕ :=
  metaValue value >>= litInt >>= base10ParseInt parse

/-- `(cores * 1000.0) as u32`, of a number of cores that may have a minus sign. -/
def milliOfCores (negative : Bool) (cores : F64) : Except Text ℕ :=
  if cores.value.all fun y => negative && y != 0 then
    .error "`cpu` (cores) must be a finite, non-negative number".toList
  else .ok (cores.times 1000).toU32

/-- `parse_cpu_to_milli`. -/
def parseCpuToMilli : MetaValue → Except Text ℕ
  | .expr (.lit (.float digits)) =>
    if digits.head? = some '-' then do milliOfCores true (← base10ParseF64 digits.tail)
    else do milliOfCores false (← base10ParseF64 digits)
  | .expr (.lit (.int digits)) => do
    let cores ← base10ParseInt parseU64 digits
    milliOfCores false (.ofRat cores)
  | .expr (.lit _) =>
    .error "`cpu` must be a number of cores, e.g. `cpu = 2.0` or `cpu = 1`".toList
  | _ => .error "expected literal".toList

/-- An element of a list of strings. -/
def strElem : Expr → Except Text Text
  | .lit (.str s) => .ok s
  | _ => .error "expected string literal".toList

/-- `parse_str_list`. -/
def parseStrList : MetaValue → Except Text (List Text)
  | .expr (.array elems) => elems.mapM strElem
  | _ => .error "expected square brackets".toList

/-- A pair of a map of strings, after the pairs before it. -/
def strPair (std : Std) (pairs : List (Text × Text)) (pair : Expr × Expr) :
    Except Text (List (Text × Text)) := do
  let key ← strElem pair.1
  let value ← strElem pair.2
  if key ∈ pairs.map Prod.fst then .error ("duplicate `env` key ".toList ++ std.debug key)
  else return pairs ++ [(key, value)]

/-- `parse_str_map`. -/
def parseStrMap (std : Std) : MetaValue → Except Text (List (Text × Text))
  | .map pairs => pairs.foldlM (strPair std) []
  | _ => .error "expected curly braces".toList

/-- An entry of `volumes`. -/
def volumeEntry (std : Std) (raw : Text) : Except Text (Text × Text) :=
  match splitOnce '=' raw with
  | none => .error ("`volumes` entries must be \"MOUNT_PATH=VOLUME_NAME\" ".toList ++
      "(path=name pairs), got ".toList ++ std.debug raw)
  | some (mount, name) =>
    if trim mount = [] ∨ trim name = [] then
      .error ("`volumes` entry ".toList ++ std.debug raw ++
        " must have a non-empty mount path AND volume name ".toList ++
        "(\"MOUNT_PATH=VOLUME_NAME\")".toList)
    else .ok (trim mount, trim name)

/-- Whether a value starts with an integer literal. -/
def isInt : MetaValue → Bool
  | .expr (.lit (.int _)) => true
  | _ => false

/-- The call that a value is, if it is one. -/
def asCall : MetaValue → Option ExprCall
  | .call c => some c
  | _ => none

/-! ### The parser -/

/-- What an argument sets. -/
inductive Setting
  | name (s : Text) | gpu (s : Text) | timeout (n : ℕ) | cache (b : Bool) | cpu (n : ℕ)
  | memory (n : ℕ) | retries (n : ℕ) | retriesSpec (s : Text) | schedule (s : Text)
  | minContainers (n : ℕ) | maxContainers (n : ℕ) | bufferContainers (n : ℕ)
  | scaledownWindow (n : ℕ) | maxConcurrentInputs (n : ℕ) | targetConcurrentInputs (n : ℕ)
  | secrets (list : List Text) | requiredKeys (list : List Text)
  | env (list : List (Text × Text)) | volumes (list : List (Text × Text)) | image (s : Text)
  | method (s : Text) | requiresProxyAuth (b : Bool) | port (n : ℕ) | startupTimeout (n : ℕ)
  | enableMemorySnapshot (b : Bool)

/-- Store a setting. Lists are appended to, and anything else replaces what was set before. -/
def Setting.apply (cfg : DecoratorConfig) : Setting → DecoratorConfig
  | .name s => { cfg with explicitName := some s }
  | .gpu s => { cfg with gpu := some s }
  | .timeout n => { cfg with timeoutSecs := some n }
  | .cache b => { cfg with cache := some b }
  | .cpu n => { cfg with milliCpu := some n }
  | .memory n => { cfg with memoryMb := some n }
  | .retries n => { cfg with retries := some n }
  | .retriesSpec s => { cfg with retriesSpec := some s }
  | .schedule s => { cfg with schedule := some s }
  | .minContainers n => { cfg with minContainers := some n }
  | .maxContainers n => { cfg with maxContainers := some n }
  | .bufferContainers n => { cfg with bufferContainers := some n }
  | .scaledownWindow n => { cfg with scaledownWindow := some n }
  | .maxConcurrentInputs n => { cfg with maxConcurrentInputs := some n }
  | .targetConcurrentInputs n => { cfg with targetConcurrentInputs := some n }
  | .secrets list => { cfg with secrets := some (cfg.secrets.getD [] ++ list) }
  | .requiredKeys list => { cfg with requiredKeys := some (cfg.requiredKeys.getD [] ++ list) }
  | .env list => { cfg with env := some (cfg.env.getD [] ++ list) }
  | .volumes list => { cfg with volumes := some (cfg.volumes.getD [] ++ list) }
  | .image s => { cfg with image := some s }
  | .method s => { cfg with webhookMethod := some s }
  | .requiresProxyAuth b => { cfg with webhookRequiresProxyAuth := b }
  | .port n => { cfg with webServerPort := some n }
  | .startupTimeout n => { cfg with webServerStartupTimeout := some n }
  | .enableMemorySnapshot b => { cfg with enableMemorySnapshot := some b }

/-- Refuse a key that another attribute owns. -/
def onlyFor (allowed : Prop) [Decidable allowed] (message : Text) : Except Text Unit :=
  if allowed then .ok () else .error message

/-- The HTTP verb of an endpoint. -/
def endpointMethod (std : Std) (s : Text) : Except Text Text :=
  if s ∈ endpointMethods then .ok s
  else .error ("invalid endpoint method ".toList ++ std.debug s ++
    "; expected one of \"GET\", \"POST\", \"PUT\", \"DELETE\", \"PATCH\" ".toList ++
    "(uppercase): ".toList ++ endpointExpectedSyntax)

/-- The value of an argument that is a string literal. -/
def readStr (value : Option MetaValue) : Except Text Text := metaValue value >>= litStr

/-- The value of an argument that is a Boolean literal. -/
def readBool (value : Option MetaValue) : Except Text Bool := metaValue value >>= litBool

/-- The spec of an argument whose value should be a call. -/
def readCall (toSpec : Option ExprCall → Except Text Text) (value : Option MetaValue) :
    Except Text Text :=
  metaValue value >>= fun v => toSpec (asCall v)

/-- The entries of `volumes`. -/
def readVolumes (std : Std) (value : Option MetaValue) : Except Text (List (Text × Text)) := do
  let entries ← parseStrList (← metaValue value)
  entries.mapM (volumeEntry std)

/-- What an argument with a known key sets. -/
def readSetting (std : Std) (kind : HandlerKind) (key : Key) (value : Option MetaValue) :
    Except Text Setting :=
  match key with
  | .name => do
    onlyFor (kind ≠ .cls) ("`name` is not valid on `#[cls]`/`#[method]`: the entrypoint ".toList ++
      "name is derived as \"<Class>.<method>\". Rename the method instead.".toList)
    (readStr value).map .name
  | .gpu => (readStr value).map .gpu
  | .timeout => (litNumber parseU64 value).map .timeout
  | .cache => (readBool value).map .cache
  | .cpu => (metaValue value >>= parseCpuToMilli).map .cpu
  | .memory => (litNumber parseU32 value).map .memory
  | .retries => do
    let v ← metaValue value
    if isInt v then (litNumber parseU32 value).map .retries
    else (parseRetriesToSpec std (asCall v)).map .retriesSpec
  | .schedule => (readCall (parseScheduleToSpec std) value).map .schedule
  | .minContainers => (litNumber parseU32 value).map .minContainers
  | .maxContainers => (litNumber parseU32 value).map .maxContainers
  | .bufferContainers => (litNumber parseU32 value).map .bufferContainers
  | .scaledownWindow => (litNumber parseU32 value).map .scaledownWindow
  | .maxConcurrentInputs => (litNumber parseU32 value).map .maxConcurrentInputs
  | .targetConcurrentInputs => (litNumber parseU32 value).map .targetConcurrentInputs
  | .secrets => (metaValue value >>= parseStrList).map .secrets
  | .requiredKeys => (metaValue value >>= parseStrList).map .requiredKeys
  | .env => (metaValue value >>= parseStrMap std).map .env
  | .volumes => (readVolumes std value).map .volumes
  | .image => (readCall (parseImageToSpec std) value).map .image
  | .method => do
    onlyFor (kind = .endpoint) ("`method` is `#[endpoint]`-only: it sets the HTTP verb of a ".toList
      ++ "web endpoint. To expose this handler over HTTP, decorate it ".toList ++
      "`#[modal_rust::endpoint(method = \"POST\", ..)]` instead.".toList)
    (readStr value >>= endpointMethod std).map .method
  | .requiresProxyAuth => do
    onlyFor (kind = .endpoint) ("`requires_proxy_auth` is `#[endpoint]`-only: it gates the ".toList
      ++ "web endpoint behind Modal proxy-auth. Use `#[modal_rust::endpoint(method = ".toList ++
      "\"..\", requires_proxy_auth = true)]` instead.".toList)
    (readBool value).map .requiresProxyAuth
  | .port => do
    onlyFor (kind = .webServer) ("`port` is `#[web_server]`-only: it sets the TCP port a ".toList ++
      "long-running HTTP server binds. To launch a web server, decorate this handler ".toList ++
      "`#[modal_rust::web_server(port = 3000)]` instead.".toList)
    (litNumber parseU16 value).map .port
  | .startupTimeout => do
    onlyFor (kind = .webServer) ("`startup_timeout` is `#[web_server]`-only: it sets how ".toList ++
      "long Modal waits for the server port. Use `#[modal_rust::web_server(port = .., ".toList ++
      "startup_timeout = 30)]` instead.".toList)
    (litNumber parseU32 value).map .startupTimeout
  | .enableMemorySnapshot => do
    onlyFor (kind = .cls) ("memory snapshot is `#[cls]`-only in v0; it captures the ".toList ++
      "`#[enter]` load. Move this handler into a `#[cls]` and set ".toList ++
      "`#[cls(enable_memory_snapshot = true)]`.".toList)
    (readBool value).map .enableMemorySnapshot

/-- `unsupported_argument_message`. -/
def unsupportedArgumentMessage (kind : HandlerKind) : Text :=
  if kind = .cls then
    "unsupported `#[cls]`/`#[method]` argument; recognized: `gpu`, `timeout`, `cache`, ".toList ++
      "`cpu`, `memory`, `retries`, `schedule`, `min_containers`, `max_containers`, ".toList ++
      "`buffer_containers`, `scaledown_window`, `max_concurrent_inputs`, ".toList ++
      "`target_concurrent_inputs`, `secrets`, `required_keys`, `env`, `volumes`, ".toList ++
      "`image`, `enable_memory_snapshot`".toList
  else
    "unsupported `".toList ++ kind.display ++ "` argument; recognized: ".toList ++
      (match kind with
        | .endpoint =>
          "`method = \"GET\"|\"POST\"|\"PUT\"|\"DELETE\"|\"PATCH\"` (REQUIRED), ".toList ++
            "`requires_proxy_auth = <bool>`, ".toList
        | .webServer => "`port = <u16>` (REQUIRED), `startup_timeout = <secs>`, ".toList
        | _ => []) ++
      "`name = \"...\"`, `gpu = \"...\"`, `timeout = <int secs>`, `cache = <bool>`, ".toList ++
      "`cpu = <cores>`, `memory = <MiB>`, `retries = <count>` or ".toList ++
      "`retries = Retries(max_retries = N, ..)`, `schedule = Cron(\"..\")/Period(..)`, ".toList ++
      "`min_containers = <N>`, `max_containers = <N>`, `buffer_containers = <N>`, ".toList ++
      "`scaledown_window = <secs>`, `max_concurrent_inputs = <N>`, ".toList ++
      "`target_concurrent_inputs = <N>`, `secrets = [\"name\", ..]`, ".toList ++
      "`required_keys = [\"KEY\", ..]`, `env = \x7b\"K\" = \"V\", ..\x7d`, ".toList ++
      "`volumes = [\"/mount=name\", ..]`, ".toList ++
      "`image = Image(base = \"..\", apt = [..], pip = [..], run = [..])`".toList

/-- One argument. -/
def decoratorArg (std : Std) (kind : HandlerKind) (cfg : DecoratorConfig) (arg : MetaArg) :
    Except Text DecoratorConfig :=
  match arg.key with
  | none => .error (unsupportedArgumentMessage kind)
  | some key => (readSetting std kind key arg.value).map (Setting.apply cfg)

/-- `parse_decorator_config`. -/
def parseDecoratorConfig (std : Std) (kind : HandlerKind) (args : List MetaArg) :
    Except Text DecoratorConfig := do
  let cfg ← args.foldlM (decoratorArg std kind) .default
  if kind = .endpoint ∧ cfg.webhookMethod = none then
    .error (kind.display ++ " requires `method = ...` (the HTTP verb; no silent ".toList ++
      "default): ".toList ++ endpointExpectedSyntax)
  else if kind = .webServer ∧ cfg.webServerPort = none then
    .error (kind.display ++ " requires `port = ...` (the TCP port the server binds; no ".toList ++
      "silent default): ".toList ++ webServerExpectedSyntax)
  else return cfg

/-- `merge_over`: a method's config on top of that of its class. -/
def DecoratorConfig.mergeOver (base method : DecoratorConfig) : DecoratorConfig where
  explicitName := method.explicitName.or base.explicitName
  gpu := method.gpu.or base.gpu
  timeoutSecs := method.timeoutSecs.or base.timeoutSecs
  cache := method.cache.or base.cache
  milliCpu := method.milliCpu.or base.milliCpu
  memoryMb := method.memoryMb.or base.memoryMb
  retries := method.retries.or base.retries
  retriesSpec := method.retriesSpec.or base.retriesSpec
  schedule := method.schedule.or base.schedule
  minContainers := method.minContainers.or base.minContainers
  maxContainers := method.maxContainers.or base.maxContainers
  bufferContainers := method.bufferContainers.or base.bufferContainers
  scaledownWindow := method.scaledownWindow.or base.scaledownWindow
  secrets := method.secrets.or base.secrets
  requiredKeys := method.requiredKeys.or base.requiredKeys
  env := method.env.or base.env
  volumes := method.volumes.or base.volumes
  image := method.image.or base.image
  enableMemorySnapshot := method.enableMemorySnapshot.or base.enableMemorySnapshot
  webhookMethod := method.webhookMethod.or base.webhookMethod
  webhookRequiresProxyAuth := method.webhookRequiresProxyAuth || base.webhookRequiresProxyAuth
  webServerPort := method.webServerPort.or base.webServerPort
  webServerStartupTimeout := method.webServerStartupTimeout.or base.webServerStartupTimeout
  maxConcurrentInputs := method.maxConcurrentInputs.or base.maxConcurrentInputs
  targetConcurrentInputs := method.targetConcurrentInputs.or base.targetConcurrentInputs

/-- `function_config_tokens`: the config that is registered. The timeout becomes a `u32`, and a
list or flag that is not set becomes an empty list or `false`. -/
def functionConfigTokens (cfg : DecoratorConfig) : FunctionOptions where
  gpu := cfg.gpu
  timeoutSecs := cfg.timeoutSecs.map fun n => n % 2 ^ 32
  cache := cfg.cache
  milliCpu := cfg.milliCpu
  memoryMb := cfg.memoryMb
  secrets := cfg.secrets.getD []
  requiredKeys := cfg.requiredKeys.getD []
  env := cfg.env.getD []
  volumes := cfg.volumes.getD []
  retries := cfg.retries
  retriesSpec := cfg.retriesSpec
  schedule := cfg.schedule
  minContainers := cfg.minContainers
  maxContainers := cfg.maxContainers
  bufferContainers := cfg.bufferContainers
  scaledownWindow := cfg.scaledownWindow
  image := cfg.image
  enableMemorySnapshot := cfg.enableMemorySnapshot.getD false
  webhookMethod := cfg.webhookMethod
  webhookRequiresProxyAuth := cfg.webhookRequiresProxyAuth
  webServerPort := cfg.webServerPort
  webServerStartupTimeout := cfg.webServerStartupTimeout
  maxConcurrentInputs := cfg.maxConcurrentInputs
  targetConcurrentInputs := cfg.targetConcurrentInputs

end ModalRust.Macros
