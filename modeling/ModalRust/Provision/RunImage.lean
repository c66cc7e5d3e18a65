import ModalRust.JsonValue
import ModalRust.Provision.Base64
import ModalRust.Provision.Planned
import ModalRust.Provision.WebAttributes
import ModalRust.Shell

/-!
# What a container of a run image starts with

A run bakes the source of its wrapper and the wrapper's configuration into the image, both as
base64. Building the image from its Dockerfile lines, and starting the wrapper in a container of
it, restores them: whatever the package is called, and whatever the user's image steps do that
leaves a Python to restore them with.
-/

namespace ModalRust.Provision

open ModalRust.Sdk ModalRust.Shell

/-- An image: its environment, its files, and its entrypoint. -/
structure ImageState where
  /-- The environment variables. -/
  env : Text → Option Text
  /-- The contents of the files, by path. -/
  files : Text → Option Bytes
  /-- The entrypoint. -/
  entrypoint : Text

/-- What a registry, the commands of the image and the build contexts contribute. -/
structure Builder where
  /-- The image of a tag. -/
  base : Text → ImageState
  /-- The files after a command. -/
  shell : Text → ImageState → Text → Option Bytes
  /-- Whether `python3` in an image runs a program as Python does. -/
  python3 : ImageState → Bool
  /-- The files after a copy from the build context. -/
  copy : Text → ImageState → Text → Option Bytes

/-- The path and the contents that a Python program of `bake_command` writes. -/
def readBake (program : Text) : Option (Text × Bytes) := do
  let t ← program.dropPrefix? "import base64,pathlib; pathlib.Path('".toList
  let (path, t) ← splitOnce '\x27' t
  let t ← t.dropPrefix? ").write_bytes(base64.b64decode('".toList
  let (encoded, t) ← splitOnce '\x27' t
  let bytes ← base64Decode encoded
  if t = "))".toList ∧ '\\' ∉ path then some (path, bytes) else none

/-- The file that a command writes with Python, if it is such a command. -/
def bakedFile (command : Text) : Option (Text × Bytes) :=
  match tokens command with
  | some [.word name false, .word flag false, .word program _] =>
    if name = "python3".toList ∧ flag = "-c".toList then readBake program else none
  | _ => none

/-- Whether a character of a value would have to be quoted. -/
def needsQuoting (c : Char) : Bool := Shell.isBlank c || isQuote c || c == '$'

/-- An assignment of an `ENV` line whose value needs no quoting. -/
def readEnv (assignment : Text) : Option (Text × Text) :=
  (splitOnce '=' assignment).filter fun entry =>
    entry.2.all fun c => !needsQuoting c

/-- One line of a Dockerfile. -/
def ImageState.step (b : Builder) (s : ImageState) (line : Text) : ImageState :=
  match splitOnce ' ' line with
  | none => s
  | some (instruction, rest) =>
    if instruction = "FROM".toList then b.base rest
    else if instruction = "RUN".toList then
      match (bakedFile rest).filter fun _ => b.python3 s with
      | some (path, bytes) =>
        { s with files := fun p => if p = path then some bytes else s.files p }
      | none => { s with files := b.shell rest s }
    else if instruction = "ENV".toList then
      match readEnv rest with
      | some (key, value) => { s with env := fun k => if k = key then some value else s.env k }
      | none => s
    else if instruction = "COPY".toList then { s with files := b.copy rest s }
    else if instruction = "ENTRYPOINT".toList then { s with entrypoint := rest }
    else s

/-- The image before its first line. -/
def ImageState.scratch : ImageState := ⟨fun _ => none, fun _ => none, []⟩

/-- The image that the lines build. -/
def runLines (b : Builder) (lines : List Text) : ImageState :=
  lines.foldl (ImageState.step b) .scratch

/-- `_CONFIG`, what the wrapper reads at its start. -/
structure RunWrapperConfig where
  /-- The cargo package. -/
  package : Text
  /-- Whether the build cache is on. -/
  cache : Bool
  /-- Where the source is mounted. -/
  remoteSrc : Text
  /-- Where the cache is mounted. -/
  cacheMount : Text
  /-- The name of the archive of the cache. -/
  cacheArchiveName : Text
  deriving DecidableEq

/-- The variable that carries the configuration, `_CONFIG_ENV`. -/
def configEnv : Text := "MODAL_RUST_RUN_CONFIG_JSON_B64".toList

/-- The error of a field that holds no text. -/
def fieldError (key : Text) : Text :=
  "run wrapper config field '".toList ++ key ++ "' must be a non-empty string".toList

/-- `_require_str`. -/
def requireStr (config : List (Text × JsonTree Literal)) (key : Text) (default : JsonTree Literal) :
    Except Text Text :=
  match (config.lookup key).getD default with
  | .string value => if value = [] then .error (fieldError key) else .ok value
  | _ => .error (fieldError key)

/-- `_load_config`. The text of a failure to decode ends with Python's description of it. -/
def loadConfig (failure : Text → Text) (env : Text → Option Text) :
    Except Text RunWrapperConfig := do
  let raw := (env configEnv).getD []
  if raw = [] then
    .error ("missing required run wrapper config env ".toList ++ configEnv)
  match ((base64Decode raw).bind fromUtf8).bind fun t => parseJson some t with
  | none => .error ("failed to decode run wrapper config env ".toList ++ configEnv ++
      ": ".toList ++ failure raw)
  | some (.object config) =>
    match (config.lookup "cache".toList).getD (.bool false) with
    | .bool cache =>
      let package ← requireStr config "package".toList .null
      let remoteSrc ← requireStr config "remote_src".toList (.string "/src".toList)
      let cacheMount ← requireStr config "cache_mount".toList (.string "/cache".toList)
      let cacheArchiveName ← requireStr config "cache_archive_name".toList
        (.string "cache.tar.zst".toList)
      return ⟨package, cache, remoteSrc, cacheMount, cacheArchiveName⟩
    | _ => .error "run wrapper config field 'cache' must be a bool".toList
  | some _ => .error "run wrapper config must decode to a JSON object".toList

/-- `_cache_target_on`. -/
def cacheTargetOn (env : Text → Option Text) : Bool :=
  let value := (env "MODAL_RUST_CACHE_TARGET".toList).getD "1".toList
  let off := ["0".toList, "false".toList, "no".toList, "off".toList]
  !off.contains ((strip value).map Char.toLower)

/-- Where the run wrapper is baked to. -/
def runWrapperPath : Text := "/root/modal_rust_run_wrapper.py".toList

/-! ### One line -/

/-- The characters of an encoding mean nothing to a shell. -/
theorem isVerbatim_of_isBase64 {c : Char} (hc : isBase64 c = true) :
    isVerbatim c = true ∧ c ≠ '\x27' ∧ needsQuoting c = false := by
  have hne : ∀ d : Char, isBase64 d = false → c ≠ d := fun d hd heq => by
    rw [heq, hd] at hc
    cases hc
  have hdouble := hne '\x22' (by decide)
  have hescape := hne '\\' (by decide)
  have hdollar := hne '$' (by decide)
  have htick := hne '\x60' (by decide)
  have hnul := hne '\x00' (by decide)
  have hsingle := hne '\x27' (by decide)
  have hspace := hne ' ' (by decide)
  have htab := hne '\t' (by decide)
  refine ⟨?_, hsingle, ?_⟩
  · simp [isVerbatim, hdouble, hescape, hdollar, htick, hnul]
  · simp [needsQuoting, Shell.isBlank, isQuote, hdouble, hescape, hdollar, hsingle, hspace, htab]

/-- The program of a bake command, within the quotes of the shell. -/
def bakeProgram (moduleName source : Text) : Text :=
  "import base64,pathlib; pathlib.Path('".toList ++ ("/root/".toList ++ moduleName ++
    ".py".toList ++ '\x27' :: (").write_bytes(base64.b64decode('".toList ++
      (base64 (toUtf8 source) ++ '\x27' :: "))".toList)))

/-- A bake command hands its program to Python. -/
theorem bakeCommand_eq (moduleName source : Text) :
    bakeCommand moduleName source = "RUN".toList ++ ' ' ::
      [' '].intercalate ["python3".toList, "-c".toList,
        '\x22' :: (bakeProgram moduleName source ++ ['\x22'])] := by
  unfold bakeCommand bakeProgram
  rw [List.intercalate_cons_cons, List.intercalate_cons_cons, List.intercalate_singleton]
  simp only [List.append_assoc, List.cons_append]
  rfl

/-- Python reads the path and the source from the program. -/
theorem readBake_bakeProgram {moduleName : Text} (hname : ∀ c ∈ moduleName, c ≠ '\x27' ∧ c ≠ '\\')
    (source : Text) : readBake (bakeProgram moduleName source) =
      some ("/root/".toList ++ moduleName ++ ".py".toList, toUtf8 source) := by
  have hpath : '\x27' ∉ "/root/".toList ++ moduleName ++ ".py".toList := by
    simp only [List.mem_append, not_or]
    exact ⟨⟨by decide, fun hmem => (hname _ hmem).1 rfl⟩, by decide⟩
  have hescape : '\\' ∉ "/root/".toList ++ moduleName ++ ".py".toList := by
    simp only [List.mem_append, not_or]
    exact ⟨⟨by decide, fun hmem => (hname _ hmem).2 rfl⟩, by decide⟩
  have hencoded : '\x27' ∉ base64 (toUtf8 source) := fun hmem =>
    (isVerbatim_of_isBase64 (isBase64_of_mem hmem)).2.1 rfl
  unfold readBake bakeProgram
  simp only [dropPrefix?_append, splitOnce_append hpath, splitOnce_append hencoded,
    base64Decode_base64, Option.bind_eq_bind, Option.bind_some]
  rw [if_pos ⟨trivial, hescape⟩]

/-- **A bake command writes the module's source**, whatever characters it consists of. -/
theorem bakedFile_bakeCommand {moduleName : Text}
    (hname : ∀ c ∈ moduleName, isVerbatim c = true ∧ c ≠ '\x27') (source : Text) :
    bakedFile ([' '].intercalate ["python3".toList, "-c".toList,
        '\x22' :: (bakeProgram moduleName source ++ ['\x22'])]) =
      some ("/root/".toList ++ moduleName ++ ".py".toList, toUtf8 source) := by
  have hverbatim : ∀ c ∈ bakeProgram moduleName source, isVerbatim c = true := by
    intro c hc
    unfold bakeProgram at hc
    simp only [List.mem_append, List.mem_cons] at hc
    have hconst : ∀ t : Text, t.all isVerbatim = true → c ∈ t → isVerbatim c = true :=
      fun t ht hmem => List.all_eq_true.mp ht c hmem
    rcases hc with hc | ((hc | hc) | hc) | rfl | hc | hc | rfl | hc
    · exact hconst _ (by decide) hc
    · exact hconst _ (by decide) hc
    · exact (hname c hc).1
    · exact hconst _ (by decide) hc
    · decide
    · exact hconst _ (by decide) hc
    · exact (isVerbatim_of_isBase64 (isBase64_of_mem hc)).1
    · decide
    · exact hconst _ (by decide) hc
  have htokens : tokens ([' '].intercalate ["python3".toList, "-c".toList,
      '\x22' :: (bakeProgram moduleName source ++ ['\x22'])]) =
        some [.word "python3".toList false, .word "-c".toList false,
          .word (bakeProgram moduleName source) false] := by
    have hplain : ∀ w ∈ ["python3".toList, "-c".toList],
        w ≠ [] ∧ w.all isOrdinary = true ∧ w.head?.all (fun c => !startsOther c) = true ∧
          isPattern (unquoted w) = false := by decide
    have hword : ∀ w ∈ ["python3".toList, "-c".toList], LexesTo w (.word w false) :=
      fun w hw => lexesTo_literal (plain_of_all (hplain w hw))
    exact tokens_intercalate (.cons (hword _ (by decide)) (.cons (hword _ (by decide))
      (.cons (lexesTo_quoted hverbatim) .nil)))
  have hescape : ∀ c ∈ moduleName, c ≠ '\x27' ∧ c ≠ '\\' := fun c hc =>
    ⟨(hname c hc).2, fun heq => by
      have hverbatim := (hname c hc).1
      rw [heq] at hverbatim
      exact absurd hverbatim (by decide)⟩
  unfold bakedFile
  rw [htokens]
  simp only [if_true, readBake_bakeProgram hescape, and_self]

/-- A bake command adds its file to an image whose Python works. -/
theorem step_bakeCommand (b : Builder) {s : ImageState} (hpython : b.python3 s = true)
    {moduleName : Text}
    (hname : ∀ c ∈ moduleName, isVerbatim c = true ∧ c ≠ '\x27') (source : Text) :
    s.step b (bakeCommand moduleName source) = { s with
      files := fun p => if p = "/root/".toList ++ moduleName ++ ".py".toList
        then some (toUtf8 source) else s.files p } := by
  have hrun : ' ' ∉ "RUN".toList := by decide
  have hfrom : "RUN".toList ≠ "FROM".toList := by decide
  unfold ImageState.step
  rw [bakeCommand_eq, splitOnce_append hrun]
  simp only [hfrom, if_false, if_true, bakedFile_bakeCommand hname, hpython, Option.filter_some]

/-- An `ENV` line sets a variable to a value that needs no quoting. -/
theorem step_env (b : Builder) (s : ImageState) {key value : Text} (hkey : '=' ∉ key)
    (hvalue : value.all (fun c => !needsQuoting c) = true) :
    s.step b ("ENV".toList ++ ' ' :: (key ++ '=' :: value)) =
      { s with env := fun k => if k = key then some value else s.env k } := by
  have henv : ' ' ∉ "ENV".toList := by decide
  have hother : "ENV".toList ≠ "FROM".toList ∧ "ENV".toList ≠ "RUN".toList := by decide
  have hread : readEnv (key ++ '=' :: value) = some (key, value) := by
    unfold readEnv
    rw [splitOnce_append hkey, Option.filter_some, if_pos hvalue]
  unfold ImageState.step
  rw [splitOnce_append henv]
  simp only [hother.1, hother.2, if_false, if_true, hread]

/-! ### The lines of a run image -/

/-- The command that installs the archiver of the cache. -/
def zstdCommand : Text :=
  "apt-get update && apt-get install -y --no-install-recommends zstd && ".toList ++
    "rm -rf /var/lib/apt/lists/*".toList

/-- The lines after the wrapper is baked. -/
def laterLines (host : Host) (inputs : ProvisionInputs) : List Text :=
  (if inputs.cache then ["RUN ".toList ++ zstdCommand] else []) ++
    [runWrapperConfigEnv inputs.source.package inputs.cache inputs.source.remoteSrc,
      "ENV RUST_BACKTRACE=1".toList] ++
    (if inputs.cache && !host.cacheTarget then ["ENV MODAL_RUST_CACHE_TARGET=0".toList] else []) ++
    ["ENTRYPOINT []".toList]

/-- The lines before the wrapper is baked, among them the user's steps. -/
def earlierLines (inputs : ProvisionInputs) : List Text :=
  ("FROM".toList ++ ' ' :: inputs.baseImage) :: (addPythonLines pythonSeries ++
    ((if inputs.installRust then rustLines else []) ++ stepLines inputs.imageSteps))

/-- The lines of a run image. -/
theorem dockerfileCommands_run (host : Host) (inputs : ProvisionInputs) (pyMountId : Text) :
    dockerfileCommands (buildImageSpec host runBoundary inputs pyMountId) = earlierLines inputs ++
      bakeCommand wrapperModule host.runWrapperSrc :: laterLines host inputs := by
  have hspec : buildImageSpec host runBoundary inputs pyMountId =
      { baseImage := inputs.baseImage
        wrapperModules := [(wrapperModule, host.runWrapperSrc)]
        builderSteps := stepLines inputs.imageSteps
        extraCommands := laterLines host inputs
        contextMountId := none
        addPython := some pythonSeries
        pythonStandaloneMountId := some pyMountId
        baseImageId := none
        installRust := inputs.installRust } := by
    unfold buildImageSpec runBoundary laterLines
    simp only [applyImageSteps_eq]
    cases inputs.cache <;> cases inputs.installRust <;> cases host.cacheTarget <;> rfl
  have hfrom : "FROM ".toList ++ inputs.baseImage = "FROM".toList ++ ' ' :: inputs.baseImage := rfl
  rw [hspec, dockerfileCommands, earlierLines, ← hfrom]
  simp [fromLine]

/-- The configuration that a run bakes. -/
def bakedConfig (package : Text) (cache : Bool) (remoteSrc : Text) : Json :=
  .object [("package".toList, .string package), ("cache".toList, .bool cache),
    ("remote_src".toList, .string remoteSrc), ("cache_mount".toList, .string cacheMount),
    ("cache_archive_name".toList, .string "cache.tar.zst".toList)]

/-- The encoded configuration. -/
def encodedConfig (package : Text) (cache : Bool) (remoteSrc : Text) : Text :=
  base64 (toUtf8 (bakedConfig package cache remoteSrc).print)

/-- The configuration is the value of its variable. -/
theorem step_runWrapperConfigEnv (b : Builder) (s : ImageState) (package : Text) (cache : Bool)
    (remoteSrc : Text) :
    s.step b (runWrapperConfigEnv package cache remoteSrc) = { s with
      env := fun k => if k = configEnv then some (encodedConfig package cache remoteSrc)
        else s.env k } := by
  have hline : runWrapperConfigEnv package cache remoteSrc =
      "ENV".toList ++ ' ' :: (configEnv ++ '=' :: encodedConfig package cache remoteSrc) := rfl
  rw [hline]
  refine step_env b s (by decide) (List.all_eq_true.mpr fun c hc => ?_)
  rw [(isVerbatim_of_isBase64 (isBase64_of_mem hc)).2.2]
  rfl

/-- The entries of the configuration, as Python stores them. -/
theorem parse_bakedConfig (package : Text) (cache : Bool) (remoteSrc : Text) :
    ∃ config : List (Text × JsonTree Literal),
      parseJson some (bakedConfig package cache remoteSrc).print =
        some (.object config) ∧
      config.lookup "package".toList = some (.string package) ∧
      config.lookup "cache".toList = some (.bool cache) ∧
      config.lookup "remote_src".toList = some (.string remoteSrc) ∧
      config.lookup "cache_mount".toList = some (.string cacheMount) ∧
      config.lookup "cache_archive_name".toList = some (.string "cache.tar.zst".toList) := by
  let entries : List (Text × JsonTree Literal) :=
    [("package".toList, .string package), ("cache".toList, .bool cache),
      ("remote_src".toList, .string remoteSrc), ("cache_mount".toList, .string cacheMount),
      ("cache_archive_name".toList, .string "cache.tar.zst".toList)]
  have hkeys : (entries.map Prod.fst).Nodup := by
    change ["package".toList, "cache".toList, "remote_src".toList, "cache_mount".toList,
      "cache_archive_name".toList].Nodup
    decide
  have hparse := JsonTree.parseJson_print (some : Literal → Option Literal)
    (bakedConfig package cache remoteSrc) (by decide : ([] : Text).all isJsonSpace = true)
  have hdepth : (bakedConfig package cache remoteSrc).depth ≤ 127 := by
    simp [bakedConfig, JsonTree.depth, JsonTree.depthEntries]
  rw [List.append_nil, if_pos hdepth] at hparse
  refine ⟨storeEntries entries, hparse, ?_, ?_, ?_, ?_, ?_⟩ <;>
    exact lookup_storeEntries hkeys (by simp [entries])

/-- The wrapper reads the configuration that was baked, and refuses an empty package or source
directory. -/
theorem loadConfig_encodedConfig (failure : Text → Text) {env : Text → Option Text}
    {package : Text} {cache : Bool} {remoteSrc : Text}
    (henv : env configEnv = some (encodedConfig package cache remoteSrc)) :
    loadConfig failure env =
      if package = [] then .error (fieldError "package".toList)
      else if remoteSrc = [] then .error (fieldError "remote_src".toList)
      else .ok ⟨package, cache, remoteSrc, cacheMount, "cache.tar.zst".toList⟩ := by
  obtain ⟨config, hparse, hpackage, hcache, hremote, hmount, harchive⟩ :=
    parse_bakedConfig package cache remoteSrc
  have hdecode : ((base64Decode (encodedConfig package cache remoteSrc)).bind fromUtf8).bind
      (fun t => parseJson (some : Literal → Option Literal) t) = some (.object config) := by
    rw [encodedConfig, base64Decode_base64, Option.bind_some, fromUtf8_toUtf8, Option.bind_some,
      hparse]
  have hne : encodedConfig package cache remoteSrc ≠ [] := fun hnil => by
    rw [hnil] at hdecode
    cases hdecode
  unfold loadConfig
  simp only [henv, Option.getD_some, hne, if_false, hdecode, hcache, requireStr, hpackage, hremote,
    hmount, harchive]
  by_cases hp : package = []
  · rw [if_pos hp, if_pos hp]
    rfl
  · rw [if_neg hp, if_neg hp]
    by_cases hr : remoteSrc = []
    · rw [if_pos hr, if_pos hr]
      rfl
    · rw [if_neg hr, if_neg hr]
      rfl

/-! ### The image of a run -/

/-- Whether a line does not start like `FROM`, `ENV` and `ENTRYPOINT`. -/
def startsOtherwise (line : Text) : Bool := line.head?.all fun c => c != 'E' && c != 'F'

/-- Only the lines of three instructions change the environment or the entrypoint. -/
theorem step_of_head (b : Builder) (s : ImageState) {line : Text}
    (hline : startsOtherwise line = true) :
    (s.step b line).env = s.env ∧ (s.step b line).entrypoint = s.entrypoint := by
  unfold ImageState.step
  cases hsplit : splitOnce ' ' line with
  | none => exact ⟨rfl, rfl⟩
  | some parts =>
    have hhead : startsOtherwise parts.1 = true := by
      cases line with
      | nil => cases hsplit
      | cons d t =>
        rw [splitOnce] at hsplit
        split at hsplit
        · cases hsplit
          rfl
        · obtain ⟨rest, -, rfl⟩ := Option.map_eq_some_iff.mp hsplit
          exact hline
    have hother : ∀ {word : Text}, (word.head? = some 'E' ∨ word.head? = some 'F') →
        parts.1 ≠ word := by
      rintro word (hword | hword) rfl
      · rw [startsOtherwise, hword] at hhead
        exact absurd hhead (by decide)
      · rw [startsOtherwise, hword] at hhead
        exact absurd hhead (by decide)
    simp only [if_neg (hother (by decide) : parts.1 ≠ "FROM".toList),
      if_neg (hother (by decide) : parts.1 ≠ "ENV".toList),
      if_neg (hother (by decide) : parts.1 ≠ "ENTRYPOINT".toList)]
    by_cases hrun : parts.1 = "RUN".toList
    · rw [if_pos hrun]
      cases (bakedFile parts.2).filter fun _ => b.python3 s with
      | none => exact ⟨rfl, rfl⟩
      | some file => exact ⟨rfl, rfl⟩
    · rw [if_neg hrun]
      split <;> exact ⟨rfl, rfl⟩

/-- Lines of steps leave the environment alone. -/
theorem env_foldl_step (b : Builder) {lines : List Text}
    (hlines : ∀ line ∈ lines, startsOtherwise line = true) (s : ImageState) :
    (lines.foldl (ImageState.step b) s).env = s.env := by
  induction lines generalizing s with
  | nil => rfl
  | cons line lines ih =>
    rw [List.foldl_cons, ih fun other hother => hlines other (List.mem_cons_of_mem _ hother)]
    exact (step_of_head b s (hlines line List.mem_cons_self)).1

/-- An `ENV` line for another variable. -/
theorem env_step_env (b : Builder) (s : ImageState) {line k : Text} (key value : Text)
    (hline : line = "ENV".toList ++ ' ' :: (key ++ '=' :: value))
    (hassign : key.contains '=' = false ∧ value.all (fun c => !needsQuoting c) = true)
    (hk : k ≠ key) : (s.step b line).env k = s.env k := by
  have hkey : '=' ∉ key := by simpa using hassign.1
  rw [hline, step_env b s hkey hassign.2]
  exact if_neg hk

/-- The variables that the lines of a run image set. -/
def runVariables (host : Host) (inputs : ProvisionInputs) : List Text :=
  ["TERMINFO_DIRS".toList] ++
    (if inputs.installRust then ["PATH".toList, "CUDA_PATH".toList] else []) ++
    [configEnv, "RUST_BACKTRACE".toList] ++
    (if inputs.cache && !host.cacheTarget then ["MODAL_RUST_CACHE_TARGET".toList] else [])

/-- The lines before the wrapper set variables of their own only, whatever the user's steps do. -/
theorem env_earlierLines (b : Builder) (inputs : ProvisionInputs) {k : Text}
    (hterm : k ≠ "TERMINFO_DIRS".toList)
    (hrust : inputs.installRust = true → k ≠ "PATH".toList ∧ k ≠ "CUDA_PATH".toList) :
    (runLines b (earlierLines inputs)).env k = (b.base inputs.baseImage).env k := by
  have hfrom : ImageState.scratch.step b ("FROM".toList ++ ' ' :: inputs.baseImage) =
      b.base inputs.baseImage := rfl
  have hpython : ∀ s : ImageState,
      ((addPythonLines pythonSeries).foldl (ImageState.step b) s).env k = s.env k := fun s => by
    have hlines : addPythonLines pythonSeries = ["COPY /python/. /usr/local".toList,
        "RUN ln -s /usr/local/bin/python3 /usr/local/bin/python".toList] ++
        ["ENV TERMINFO_DIRS=/etc/terminfo:/lib/terminfo:/usr/share/terminfo:".toList ++
          "/usr/lib/terminfo".toList] := by decide +kernel
    rw [hlines, List.foldl_append, List.foldl_cons, List.foldl_nil,
      env_step_env b _ "TERMINFO_DIRS".toList
        ("/etc/terminfo:/lib/terminfo:/usr/share/terminfo:".toList ++ "/usr/lib/terminfo".toList)
        (by decide +kernel) (by decide +kernel) hterm,
      env_foldl_step b (by decide +kernel)]
  have hinstall : ∀ s : ImageState, inputs.installRust = true →
      (rustLines.foldl (ImageState.step b) s).env k = s.env k := fun s h => by
    obtain ⟨hpath, hcuda⟩ := hrust h
    rw [rustLines, List.foldl_cons, List.foldl_cons, List.foldl_cons, List.foldl_nil,
      env_step_env b _ "CUDA_PATH".toList "/usr/local/cuda".toList (by decide +kernel)
        (by decide +kernel) hcuda,
      env_step_env b _ "PATH".toList
        ("/root/.cargo/bin:/usr/local/cuda/bin:/usr/local/sbin:".toList ++
          "/usr/local/bin:/usr/sbin:/usr/bin:/sbin:/bin".toList)
        (by decide +kernel) (by decide +kernel) hpath]
    exact congrFun (step_of_head b s (by decide +kernel)).1 k
  unfold runLines earlierLines
  rw [List.foldl_cons, hfrom, List.foldl_append, List.foldl_append,
    env_foldl_step b fun line hline => by
      rw [startsOtherwise, head?_of_mem_stepLines hline]
      decide]
  cases hrust : inputs.installRust with
  | true => rw [if_pos rfl, hinstall _ hrust, hpython]
  | false => rw [if_neg Bool.false_ne_true, List.foldl_nil, hpython]

/-- What a container of a run image starts with. -/
structure StartsWrapper (b : Builder) (failure : Text → Text) (host : Host)
    (inputs : ProvisionInputs) (s : ImageState) : Prop where
  /-- The file of the wrapper module is its source. -/
  wrapper : s.files runWrapperPath = some (toUtf8 host.runWrapperSrc)
  /-- The wrapper reads the configuration of this run, and refuses an empty name. -/
  config : loadConfig failure s.env =
    if inputs.source.package = [] then .error (fieldError "package".toList)
    else if inputs.source.remoteSrc = [] then .error (fieldError "remote_src".toList)
    else .ok ⟨inputs.source.package, inputs.cache, inputs.source.remoteSrc, cacheMount,
      "cache.tar.zst".toList⟩
  /-- The build target is not archived if the host turned that off for a cached run, and otherwise
  as the base image says. -/
  cacheTarget : cacheTargetOn s.env = if inputs.cache && !host.cacheTarget then false
    else cacheTargetOn (b.base inputs.baseImage).env
  /-- The variables that no line sets are those of the base image. -/
  environment : ∀ k ∉ runVariables host inputs, s.env k = (b.base inputs.baseImage).env k
  /-- No entrypoint of the base image runs. -/
  entrypoint : s.entrypoint = "[]".toList

/-- The image after the archiver is installed, where it is. -/
def withArchiver (b : Builder) (inputs : ProvisionInputs) (s : ImageState) : ImageState :=
  if inputs.cache then { s with files := b.shell zstdCommand s } else s

/-- The lines after the wrapper was baked. -/
theorem foldl_laterLines (b : Builder) (host : Host) (inputs : ProvisionInputs) (s : ImageState) :
    (laterLines host inputs).foldl (ImageState.step b) s = { withArchiver b inputs s with
      env := fun k =>
        if k = "MODAL_RUST_CACHE_TARGET".toList ∧ (inputs.cache && !host.cacheTarget) = true
          then some "0".toList
        else if k = "RUST_BACKTRACE".toList then some "1".toList
        else if k = configEnv then some (encodedConfig inputs.source.package inputs.cache
          inputs.source.remoteSrc)
        else s.env k
      entrypoint := "[]".toList } := by
  have hzstd : ∀ s : ImageState, s.step b ("RUN ".toList ++ zstdCommand) =
      { s with files := b.shell zstdCommand s } := fun s => by
    have hrun : ' ' ∉ "RUN".toList := by decide
    have hfrom : "RUN".toList ≠ "FROM".toList := by decide
    have hbaked : bakedFile zstdCommand = none := by decide +kernel
    have hline : "RUN ".toList ++ zstdCommand = "RUN".toList ++ ' ' :: zstdCommand := rfl
    unfold ImageState.step
    rw [hline, splitOnce_append hrun]
    simp only [hfrom, if_false, if_true, hbaked, Option.filter_none]
  have harchiver : ((if inputs.cache then ["RUN ".toList ++ zstdCommand] else []).foldl
      (ImageState.step b) s) = withArchiver b inputs s := by
    unfold withArchiver
    cases inputs.cache with
    | true => rw [if_pos rfl, if_pos rfl, List.foldl_cons, List.foldl_nil, hzstd]
    | false =>
      rw [if_neg Bool.false_ne_true, if_neg Bool.false_ne_true, List.foldl_nil]
  have hbacktrace : ∀ s : ImageState, s.step b "ENV RUST_BACKTRACE=1".toList =
      { s with env := fun k => if k = "RUST_BACKTRACE".toList then some "1".toList
        else s.env k } := fun s =>
    step_env b s (by decide : '=' ∉ "RUST_BACKTRACE".toList)
      (by decide : "1".toList.all (fun c => !needsQuoting c) = true)
  have htarget : ∀ s : ImageState, ((if inputs.cache && !host.cacheTarget then
      ["ENV MODAL_RUST_CACHE_TARGET=0".toList] else []).foldl (ImageState.step b) s) =
        { s with env := fun k => if k = "MODAL_RUST_CACHE_TARGET".toList ∧
          (inputs.cache && !host.cacheTarget) = true then some "0".toList else s.env k } := by
    intro s
    cases inputs.cache && !host.cacheTarget with
    | true =>
      simp only [if_true, and_true]
      exact step_env b s (by decide : '=' ∉ "MODAL_RUST_CACHE_TARGET".toList)
        (by decide : "0".toList.all (fun c => !needsQuoting c) = true)
    | false =>
      simp only [Bool.false_eq_true, if_false, and_false]
      rfl
  have hentry : ∀ s : ImageState, s.step b "ENTRYPOINT []".toList =
      { s with entrypoint := "[]".toList } := fun s => rfl
  have henv : (withArchiver b inputs s).env = s.env := by
    unfold withArchiver
    split <;> rfl
  rw [laterLines, List.foldl_append, List.foldl_append, List.foldl_append, harchiver, htarget]
  simp only [List.foldl_cons, List.foldl_nil, step_runWrapperConfigEnv, hbacktrace, hentry, henv]

/-- **A container of a run image starts with the wrapper and its configuration**, whatever the
names and the user's steps are, if `python3` works after these steps and installing the archiver
leaves the wrapper alone. -/
theorem run_image_starts_wrapper (b : Builder) (failure : Text → Text) (host : Host)
    (inputs : ProvisionInputs) (pyMountId : Text)
    (hpython : b.python3 (runLines b (earlierLines inputs)) = true)
    (harchiver : ∀ s, b.shell zstdCommand s runWrapperPath = s.files runWrapperPath) :
    StartsWrapper b failure host inputs
      (runLines b (dockerfileCommands (buildImageSpec host runBoundary inputs pyMountId))) := by
  have hall : wrapperModule.all (fun c => isVerbatim c && c != '\x27') = true := by decide
  have hname : ∀ c ∈ wrapperModule, isVerbatim c = true ∧ c ≠ '\x27' := fun c hc => by
    simpa using List.all_eq_true.mp hall c hc
  have hpath : "/root/".toList ++ wrapperModule ++ ".py".toList = runWrapperPath := by decide
  have hlines : runLines b (dockerfileCommands (buildImageSpec host runBoundary inputs pyMountId)) =
      (laterLines host inputs).foldl (ImageState.step b) ((runLines b (earlierLines inputs)).step b
        (bakeCommand wrapperModule host.runWrapperSrc)) := by
    rw [dockerfileCommands_run, runLines, List.foldl_append, List.foldl_cons, runLines]
  have hfinal := foldl_laterLines b host inputs ((runLines b (earlierLines inputs)).step b
    (bakeCommand wrapperModule host.runWrapperSrc))
  rw [← hlines, step_bakeCommand b hpython hname, hpath] at hfinal
  have henv := fun k => congrFun (congrArg ImageState.env hfinal) k
  have hfiles := congrFun (congrArg ImageState.files hfinal) runWrapperPath
  have hbase := fun k => env_earlierLines b inputs (k := k)
  dsimp only at henv hfiles
  refine ⟨?_, loadConfig_encodedConfig failure ?_, ?_, fun k hk => ?_,
    congrArg ImageState.entrypoint hfinal⟩
  · rw [hfiles]
    unfold withArchiver
    cases inputs.cache with
    | true =>
      rw [if_pos rfl]
      refine (harchiver _).trans ?_
      simp only [if_true]
    | false =>
      rw [if_neg Bool.false_ne_true]
      simp only [if_true]
  · have hother : configEnv ≠ "MODAL_RUST_CACHE_TARGET".toList ∧
        configEnv ≠ "RUST_BACKTRACE".toList := by decide
    rw [henv, if_neg fun h => hother.1 h.1, if_neg hother.2, if_pos rfl]
  · have hother : "MODAL_RUST_CACHE_TARGET".toList ≠ "RUST_BACKTRACE".toList ∧
        "MODAL_RUST_CACHE_TARGET".toList ≠ configEnv := by decide
    have htarget := henv "MODAL_RUST_CACHE_TARGET".toList
    unfold cacheTargetOn
    rw [htarget]
    cases inputs.cache && !host.cacheTarget with
    | true =>
      rw [if_pos ⟨rfl, rfl⟩, if_pos rfl]
      decide
    | false =>
      rw [if_neg fun h => Bool.false_ne_true h.2, if_neg hother.1, if_neg hother.2,
        hbase _ (by decide) fun _ => by decide, if_neg Bool.false_ne_true]
  · unfold runVariables at hk
    simp only [List.mem_append, List.mem_cons, List.not_mem_nil, or_false, not_or] at hk
    obtain ⟨⟨⟨hterm, hrust⟩, hconfig, hbacktrace⟩, htarget⟩ := hk
    rw [henv, if_neg fun h => ?_, if_neg hbacktrace, if_neg hconfig, hbase k hterm fun h => ?_]
    · rw [if_pos h, List.mem_cons, List.mem_singleton, not_or] at hrust
      exact hrust
    · rw [if_pos h.2, List.mem_singleton] at htarget
      exact htarget h.1

/-- A registry with one image, and commands that leave all files and Python as they are. -/
def plainBuilder : Builder where
  base _ := ⟨fun k => if k = "LANG".toList then some "C.UTF-8".toList else none, fun _ => none, []⟩
  shell _ s := s.files
  python3 _ := true
  copy _ s := s.files

/-- A run with the build cache, of a package with a quote in its name. -/
def quotedInputs : ProvisionInputs :=
  { plainInputs [] with
    source := { (plainInputs []).source with package := "he\"llo".toList }
    imageSteps := [.run ["export MODAL_RUST_CACHE_TARGET=1".toList]]
    cache := true }

/-- The wrapper reads the name with its quote. -/
theorem run_image_starts_wrapper_quoted :
    loadConfig id (runLines plainBuilder (dockerfileCommands
        (buildImageSpec plainHost runBoundary quotedInputs []))).env =
      .ok ⟨"he\"llo".toList, true, "/src".toList, "/cache".toList, "cache.tar.zst".toList⟩ ∧
    StartsWrapper plainBuilder id plainHost quotedInputs (runLines plainBuilder
      (dockerfileCommands (buildImageSpec plainHost runBoundary quotedInputs []))) := by
  have hstarts := run_image_starts_wrapper plainBuilder id plainHost quotedInputs [] rfl
    fun _ => rfl
  exact ⟨hstarts.config.trans (by decide), hstarts⟩

end ModalRust.Provision
