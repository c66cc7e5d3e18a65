import ModalRust.Fallible
import ModalRust.Scope.Closure
import ModalRust.Scope.Manifest
import ModalRust.StableSort
import ModalRust.Str
import ModalRust.Sdk.Error

/-!
# Credentials from the config file

`read_modal_config`: the profiles of the config file, the choice of one, and the environment
variables that override its fields. The file is parsed into a map that is ordered by key, so the
first profile of the map need not be the first of the file. The choice follows the file exactly if
the first profile that is eligible there has the least name of those that are.
-/

namespace ModalRust.Sdk.Config

open Scope (Toml Table textKey)

/-! ### The source -/

/-- A profile of the config file. -/
structure ModalProfile where
  /-- Token id. -/
  tokenId : Option Text
  /-- Token secret. -/
  tokenSecret : Option Text
  /-- Server URL. -/
  serverUrl : Option Text
  /-- Default environment. -/
  environment : Option Text
  /-- Image builder version. -/
  imageBuilderVersion : Option Text
  /-- Whether the profile is marked active. -/
  active : Option Bool
  deriving DecidableEq

/-- `ModalProfile::default`. -/
def ModalProfile.default : ModalProfile := ⟨none, none, none, none, none, none⟩

/-- The resolved configuration. -/
structure ModalConfig where
  /-- The name of the profile. -/
  profile : Text
  /-- The server. -/
  serverUrl : Text
  /-- Token id. -/
  tokenId : Text
  /-- Token secret. -/
  tokenSecret : Text
  /-- Default environment. -/
  environment : Option Text
  /-- Image builder version. -/
  imageBuilderVersion : Option Text
  /-- Whether the client runs in a container. -/
  isContainer : Bool
  deriving DecidableEq

/-- What the configuration is read from: the environment, the disk, and the TOML crate. -/
structure Host where
  /-- `std::env::var`, without its errors. -/
  var : Text → Option Text
  /-- `std::fs::read_to_string`. -/
  readToString : Text → Except Text Text
  /-- `toml::from_str`: the entries of the top-level table, in the order of the file. -/
  fromStr : Text → Except Text Table
  /-- What is said of a value that is no profile. -/
  describe : Toml → Text

/-- `DEFAULT_SERVER_URL`. -/
def defaultServerUrl : Text := "https://api.modal.com".toList

/-- `trimmed`: a value without the whitespace around it, if that leaves anything. -/
def trimmed (value : Option Text) : Option Text :=
  value.bind fun v => if trim v = [] then none else some (trim v)

/-- `trimmed_or`. -/
def trimmedOr (value : Option Text) (fallback : Text) : Text := (trimmed value).getD fallback

variable (host : Host)

/-- `env_string`: a variable that is empty or only whitespace counts as unset. -/
def envString (key : Text) : Option Text := trimmed (host.var key)

/-- One field of a profile, under any of its names. A field may be given once. -/
def profileField {α : Type} (names : List Text) (read : Toml → Option α) (entries : Table) :
    Option (Option α) :=
  match entries.filter fun entry => entry.1 ∈ names with
  | [] => some none
  | [entry] => (read entry.2).map some
  | _ => none

/-- A boolean. -/
def asBool : Toml → Option Bool
  | .boolean b => some b
  | _ => none

/-- `try_into` a profile, of a table by its keys, or of an array by its positions. -/
def tryInto : Toml → Option ModalProfile
  | .table entries => do
    let tokenId ← profileField ["token_id".toList, "tokenId".toList] Toml.asStr entries
    let tokenSecret ← profileField ["token_secret".toList, "tokenSecret".toList] Toml.asStr entries
    let serverUrl ← profileField ["server_url".toList, "serverUrl".toList] Toml.asStr entries
    let environment ← profileField ["environment".toList] Toml.asStr entries
    let imageBuilderVersion ←
      profileField ["image_builder_version".toList, "imageBuilderVersion".toList] Toml.asStr entries
    let active ← profileField ["active".toList] asBool entries
    return ⟨tokenId, tokenSecret, serverUrl, environment, imageBuilderVersion, active⟩
  | .array [tokenId, tokenSecret, serverUrl, environment, imageBuilderVersion, active] => do
    return ⟨← tokenId.asStr, ← tokenSecret.asStr, ← serverUrl.asStr, ← environment.asStr,
      ← imageBuilderVersion.asStr, ← asBool active⟩
  | _ => none

/-- A profile with its name. -/
def readProfile (entry : Text × Toml) : Except Error (Text × ModalProfile) :=
  match tryInto entry.2 with
  | some profile => .ok (entry.1, profile)
  | none => .error (.config ("failed to parse profile '".toList ++ entry.1 ++ "': ".toList ++
      host.describe entry.2))

/-- `table.iter()`: the map is ordered by key. -/
def tableIter (table : Table) : Table := sortByKey (fun entry => textKey entry.1) table

/-- `parse_profiles`. -/
def parseProfiles (content : Text) : Except Error (List (Text × ModalProfile)) :=
  match host.fromStr content with
  | .error e => .error (.config ("TOML parse error: ".toList ++ e))
  | .ok table => (tableIter table).mapM (readProfile host)

/-- `p.active.unwrap_or(false)`. -/
def isActive (entry : Text × ModalProfile) : Bool := entry.2.active.getD false

/-- `select_profile_name`. -/
def selectProfileName (profiles : List (Text × ModalProfile)) (requested : Option Text) :
    Except Error Text :=
  match requested with
  | some name =>
    if profiles.any fun entry => entry.1 = name then .ok name
    else .error (.config ("MODAL_PROFILE '".toList ++ name ++ "' not found in config".toList))
  | none =>
    match profiles.find? isActive with
    | some entry => .ok entry.1
    | none => .ok ((profiles.head?.map Prod.fst).getD "default".toList)

/-- `apply_env_overrides`. -/
def applyEnvOverrides (config : ModalConfig) : ModalConfig :=
  { config with
    serverUrl := (envString host "MODAL_SERVER_URL".toList).getD config.serverUrl
    tokenId := (envString host "MODAL_TOKEN_ID".toList).getD config.tokenId
    tokenSecret := (envString host "MODAL_TOKEN_SECRET".toList).getD config.tokenSecret
    environment := (envString host "MODAL_ENVIRONMENT".toList).or config.environment
    imageBuilderVersion :=
      (envString host "MODAL_IMAGE_BUILDER_VERSION".toList).or config.imageBuilderVersion }

/-- `validate`. -/
def validate (config : ModalConfig) : Except Error Unit :=
  if trim config.tokenId = [] then
    .error (.config "Missing token_id (Modal credentials)".toList)
  else if trim config.tokenSecret = [] then
    .error (.config "Missing token_secret (Modal credentials)".toList)
  else .ok ()

/-- `Path::join` with `.modal.toml`. -/
def joinModalToml (home : Text) : Text :=
  if home = [] ∨ home.getLast? = some '/' then home ++ ".modal.toml".toList
  else home ++ "/.modal.toml".toList

/-- `resolve_config_path`. -/
def resolveConfigPath : Text :=
  (envString host "MODAL_CONFIG_PATH".toList).getD
    (joinModalToml ((host.var "HOME".toList).getD []))

/-- The profile that the file selects, with its name. -/
def selectedProfile (content : Text) : Except Error (Text × ModalProfile) := do
  let profiles ← parseProfiles host content
  if profiles = [] then
    .error (.config ("no profiles found in ".toList ++ resolveConfigPath host))
  else
    let selected ← selectProfileName profiles (envString host "MODAL_PROFILE".toList)
    -- the profile is looked up by the selected name
    return (selected, ((profiles.find? fun entry => entry.1 = selected).map Prod.snd).getD .default)

/-- The configuration of a profile, before the environment overrides it. -/
def configOf (selected : Text × ModalProfile) : ModalConfig where
  profile := selected.1
  serverUrl := trimmedOr selected.2.serverUrl defaultServerUrl
  tokenId := (trimmed selected.2.tokenId).getD []
  tokenSecret := (trimmed selected.2.tokenSecret).getD []
  environment := trimmed selected.2.environment
  imageBuilderVersion := trimmed selected.2.imageBuilderVersion
  isContainer := false

/-- The configuration in a container. -/
def containerConfig : Except Error ModalConfig :=
  match envString host "MODAL_SERVER_URL".toList with
  | none => .error (.config
      ("MODAL_IS_REMOTE=1 but MODAL_SERVER_URL is unset — cannot reach the ".toList ++
        "control plane from inside this container".toList))
  | some serverUrl => .ok ⟨"container".toList, serverUrl, [], [],
      envString host "MODAL_ENVIRONMENT".toList,
      envString host "MODAL_IMAGE_BUILDER_VERSION".toList, true⟩

/-- The profile from the file, or none of its fields, if the tokens are in the environment. -/
def profileFromFile : Except Error (Text × ModalProfile) :=
  match host.readToString (resolveConfigPath host) with
  | .ok content => selectedProfile host content
  | .error fileErr =>
    if (envString host "MODAL_TOKEN_ID".toList).isSome ∧
        (envString host "MODAL_TOKEN_SECRET".toList).isSome then
      .ok ("env".toList, .default)
    else .error (.config ("failed to read Modal config at ".toList ++ resolveConfigPath host ++
      " (".toList ++ fileErr ++ "); set MODAL_TOKEN_ID + ".toList ++
      "MODAL_TOKEN_SECRET to connect without a config file".toList))

/-- `read_modal_config`. -/
def readModalConfig : Except Error ModalConfig :=
  if envString host "MODAL_IS_REMOTE".toList = some "1".toList then containerConfig host
  else do
    let selected ← profileFromFile host
    let resolved := applyEnvOverrides host (configOf selected)
    validate resolved
    return resolved

/-! ### What the file says -/

/-- The profile that the order of the file selects. -/
def chosenInFile (profiles : List (Text × ModalProfile)) (requested : Option Text) :
    Option (Text × ModalProfile) :=
  match requested with
  | some name => profiles.find? fun entry => entry.1 = name
  | none => (profiles.find? isActive).or profiles.head?

/-- Every field of the configuration is the variable's, else the profile's, else the default. -/
structure TakenFrom (selected : Text × ModalProfile) (config : ModalConfig) : Prop where
  /-- The name. -/
  profile : config.profile = selected.1
  /-- The server. -/
  serverUrl : config.serverUrl = ((envString host "MODAL_SERVER_URL".toList).or
    (trimmed selected.2.serverUrl)).getD defaultServerUrl
  /-- Token id. -/
  tokenId : config.tokenId = ((envString host "MODAL_TOKEN_ID".toList).or
    (trimmed selected.2.tokenId)).getD []
  /-- Token secret. -/
  tokenSecret : config.tokenSecret = ((envString host "MODAL_TOKEN_SECRET".toList).or
    (trimmed selected.2.tokenSecret)).getD []
  /-- Environment. -/
  environment : config.environment = (envString host "MODAL_ENVIRONMENT".toList).or
    (trimmed selected.2.environment)
  /-- Image builder version. -/
  imageBuilderVersion : config.imageBuilderVersion =
    (envString host "MODAL_IMAGE_BUILDER_VERSION".toList).or
      (trimmed selected.2.imageBuilderVersion)

/-- The first eligible profile has the least name of the eligible ones: the active profiles are
eligible, or all, if none is active. -/
structure FirstIsLeast (profiles : List (Text × ModalProfile)) : Prop where
  /-- The first active profile. -/
  active : ∀ a b, profiles.find? isActive = some a → b ∈ profiles → isActive b = true →
    textKey a.1 ≤ textKey b.1
  /-- The first profile. -/
  first : profiles.find? isActive = none → ∀ a b, profiles.head? = some a → b ∈ profiles →
    textKey a.1 ≤ textKey b.1

variable {host}

/-- The configuration of a profile, with the environment on top. -/
theorem takenFrom_applyEnvOverrides (selected : Text × ModalProfile) :
    TakenFrom host selected (applyEnvOverrides host (configOf selected)) := by
  refine ⟨rfl, ?_, ?_, ?_, rfl, rfl⟩
  · change (envString host "MODAL_SERVER_URL".toList).getD _ = _
    cases envString host "MODAL_SERVER_URL".toList <;> rfl
  · change (envString host "MODAL_TOKEN_ID".toList).getD _ = _
    cases envString host "MODAL_TOKEN_ID".toList <;> rfl
  · change (envString host "MODAL_TOKEN_SECRET".toList).getD _ = _
    cases envString host "MODAL_TOKEN_SECRET".toList <;> rfl

/-- A profile keeps its name. -/
theorem fst_of_readProfile {entry : Text × Toml} {profile : Text × ModalProfile}
    (hread : readProfile host entry = .ok profile) : profile.1 = entry.1 := by
  unfold readProfile at hread
  cases hinto : tryInto entry.2 with
  | none =>
    rw [hinto] at hread
    cases hread
  | some p =>
    rw [hinto] at hread
    cases hread
    rfl

/-- With distinct names, a profile is found by its name. -/
theorem find?_name {profiles : List (Text × ModalProfile)}
    (hnames : (profiles.map Prod.fst).Nodup) {entry : Text × ModalProfile}
    (hmem : entry ∈ profiles) : profiles.find? (fun other => other.1 = entry.1) = some entry := by
  obtain ⟨found, hfound⟩ : ∃ found, profiles.find? (fun other => other.1 = entry.1) = some found :=
    Option.isSome_iff_exists.mp (List.find?_isSome.mpr ⟨entry, hmem, decide_eq_true rfl⟩)
  have hname : found.1 = entry.1 := by simpa using List.find?_some hfound
  rw [hfound, List.inj_on_of_nodup_map hnames (List.mem_of_find?_eq_some hfound) hmem hname]

/-- A chosen profile is one of the profiles. -/
theorem mem_of_chosenInFile {profiles : List (Text × ModalProfile)} {requested : Option Text}
    {entry : Text × ModalProfile} (hchosen : chosenInFile profiles requested = some entry) :
    entry ∈ profiles := by
  unfold chosenInFile at hchosen
  cases requested with
  | some name => exact List.mem_of_find?_eq_some hchosen
  | none =>
    rcases Option.or_eq_some_iff.mp hchosen with hactive | ⟨-, hfirst⟩
    · exact List.mem_of_find?_eq_some hactive
    · exact List.mem_of_mem_head? hfirst

/-- `select_profile_name` chooses in the order that it is given. -/
theorem exists_chosen_of_selectProfileName {profiles : List (Text × ModalProfile)}
    (hsome : profiles ≠ []) {requested : Option Text} {name : Text}
    (hselect : selectProfileName profiles requested = .ok name) :
    ∃ entry, chosenInFile profiles requested = some entry ∧ entry.1 = name := by
  unfold selectProfileName at hselect
  unfold chosenInFile
  cases requested with
  | some requested =>
    dsimp only at hselect ⊢
    by_cases hany : profiles.any (fun entry => entry.1 = requested) = true
    · rw [if_pos hany] at hselect
      cases hselect
      obtain ⟨found, hfound⟩ := Option.isSome_iff_exists.mp
        (List.find?_isSome.mpr (List.any_eq_true.mp hany))
      exact ⟨found, hfound, by simpa using List.find?_some hfound⟩
    · rw [if_neg hany] at hselect
      cases hselect
  | none =>
    dsimp only at hselect ⊢
    cases hactive : profiles.find? isActive with
    | some entry =>
      rw [hactive] at hselect
      cases hselect
      exact ⟨entry, rfl, rfl⟩
    | none =>
      rw [hactive] at hselect
      cases profiles with
      | nil => exact absurd rfl hsome
      | cons entry rest =>
        cases hselect
        exact ⟨entry, rfl, rfl⟩

/-- The choice in the order of names is the choice in the order of the file. -/
theorem chosenInFile_sorted_iff {profiles sorted : List (Text × ModalProfile)}
    (hperm : sorted.Perm profiles)
    (hsorted : sorted.Pairwise fun a b => textKey a.1 ≤ textKey b.1)
    (hkeys : (profiles.map fun entry => textKey entry.1).Nodup) (requested : Option Text) :
    chosenInFile sorted requested = chosenInFile profiles requested ↔
      (requested = none → FirstIsLeast profiles) := by
  have hfind := find?_sorted_iff (fun entry : Text × ModalProfile => textKey entry.1) hperm hsorted
    hkeys
  have hhead (l : List (Text × ModalProfile)) : l.head? = l.find? fun _ => true := by
    cases l <;> rfl
  unfold chosenInFile
  cases requested with
  | some name =>
    dsimp only
    rw [hfind]
    refine ⟨fun _ => nofun, ?_⟩
    intro _ a b ha _ hb
    have haname : a.1 = name := by simpa using List.find?_some ha
    have hbname : b.1 = name := by simpa using hb
    rw [haname, hbname]
  | none =>
    dsimp only
    rw [forall_prop_of_true rfl]
    cases hactive : profiles.find? isActive with
    | some a =>
      have hsome : (sorted.find? isActive).isSome = true := by
        rw [List.find?_isSome]
        exact ⟨a, hperm.mem_iff.mpr (List.mem_of_find?_eq_some hactive), List.find?_some hactive⟩
      obtain ⟨m, hm⟩ := Option.isSome_iff_exists.mp hsome
      have hiff := hfind isActive
      rw [hm, hactive] at hiff
      rw [hm, Option.some_or, Option.some_or, hiff]
      constructor
      · intro hleast
        refine ⟨?_, fun hnone => ?_⟩
        · intro a' b ha' hb hbactive
          exact hleast a' b (hactive ▸ ha') hb hbactive
        · rw [hactive] at hnone
          cases hnone
      · intro hfirst a' b ha' hb hbactive
        exact hfirst.active a' b (hactive.trans ha') hb hbactive
    | none =>
      have hnone : sorted.find? isActive = none := by
        rw [List.find?_eq_none] at hactive ⊢
        exact fun a ha => hactive a (hperm.mem_iff.mp ha)
      rw [hnone, Option.none_or, Option.none_or, hhead, hhead, hfind]
      constructor
      · intro hleast
        refine ⟨fun a b ha => ?_, ?_⟩
        · rw [hactive] at ha
          cases ha
        · intro _ a b ha hb
          exact hleast a b (hhead profiles ▸ ha) hb rfl
      · intro hfirst a b ha hb _
        exact hfirst.first hactive a b (hhead profiles ▸ ha) hb

/-- What a configuration from the file is made of. -/
theorem exists_selected_of_readModalConfig {content : Text} {table : Table} {config : ModalConfig}
    (hremote : envString host "MODAL_IS_REMOTE".toList ≠ some "1".toList)
    (hread : host.readToString (resolveConfigPath host) = .ok content)
    (hfile : host.fromStr content = .ok table) (hnames : (table.map Prod.fst).Nodup)
    (hconfig : readModalConfig host = .ok config) :
    ∃ profiles sorted entry, table.mapM (readProfile host) = .ok profiles ∧
      sorted.Perm profiles ∧ (sorted.Pairwise fun a b => textKey a.1 ≤ textKey b.1) ∧
      (profiles.map Prod.fst).Nodup ∧
      chosenInFile sorted (envString host "MODAL_PROFILE".toList) = some entry ∧
      TakenFrom host entry config := by
  unfold readModalConfig at hconfig
  rw [if_neg hremote] at hconfig
  obtain ⟨selected, hselected, hrest⟩ := exists_of_bind_ok hconfig
  obtain ⟨-, -, hresolved⟩ := exists_of_bind_ok hrest
  cases hresolved
  unfold profileFromFile at hselected
  rw [hread] at hselected
  dsimp only at hselected
  unfold selectedProfile at hselected
  obtain ⟨sorted, hsorted, hselect⟩ := exists_of_bind_ok hselected
  by_cases hnil : sorted = []
  · rw [if_pos hnil] at hselect
    cases hselect
  rw [if_neg hnil] at hselect
  obtain ⟨name, hname, hentry⟩ := exists_of_bind_ok hselect
  obtain ⟨entry, hchosen, rfl⟩ := exists_chosen_of_selectProfileName hnil hname
  unfold parseProfiles at hsorted
  rw [hfile] at hsorted
  dsimp only at hsorted
  have hkeep : ∀ (e : Text × Toml) (b : Text × ModalProfile), readProfile host e = .ok b →
      textKey b.1 = textKey e.1 := fun e b hok => congrArg textKey (fst_of_readProfile hok)
  have horder : sorted.Pairwise fun a b => textKey a.1 ≤ textKey b.1 := by
    have hkeys : sorted.map (fun b => textKey b.1) =
        (tableIter table).map fun e => textKey e.1 := map_eq_of_mapM_ok hkeep hsorted
    have htable : (tableIter table).Pairwise fun a b => textKey a.1 ≤ textKey b.1 :=
      pairwise_sortByKey _ table
    have hmap : (sorted.map fun b => textKey b.1).Pairwise (· ≤ ·) := by
      rw [hkeys]
      exact List.pairwise_map.mpr htable
    exact List.pairwise_map.mp hmap
  have hperm : (tableIter table).Perm table := perm_sortByKey _ table
  obtain ⟨profiles, hprofiles, hsame⟩ := exists_perm_of_mapM_ok hperm hsorted
  have hfst : profiles.map Prod.fst = table.map Prod.fst :=
    map_eq_of_mapM_ok (fun e b hok => fst_of_readProfile hok) hprofiles
  rw [← hfst] at hnames
  have hsortednames : (sorted.map Prod.fst).Nodup := (hsame.map Prod.fst).nodup_iff.mpr hnames
  refine ⟨profiles, sorted, entry, hprofiles, hsame, horder, hnames, hchosen, ?_⟩
  cases hentry
  rw [find?_name hsortednames (mem_of_chosenInFile hchosen)]
  exact takenFrom_applyEnvOverrides entry

/-- **The configuration follows the file exactly if the first eligible profile has the least name**:
it is taken from the profile that is asked for, else from the first active one of the file, else
from the first, unless the map, which is ordered by name, begins with another one of these. -/
theorem config_follows_file_iff (host : Host) {content : Text} {table : Table}
    {config : ModalConfig}
    (hremote : envString host "MODAL_IS_REMOTE".toList ≠ some "1".toList)
    (hread : host.readToString (resolveConfigPath host) = .ok content)
    (hfile : host.fromStr content = .ok table) (hnames : (table.map Prod.fst).Nodup)
    (hconfig : readModalConfig host = .ok config) :
    (∃ profiles entry, table.mapM (readProfile host) = .ok profiles ∧
      chosenInFile profiles (envString host "MODAL_PROFILE".toList) = some entry ∧
      TakenFrom host entry config) ↔
    (envString host "MODAL_PROFILE".toList = none →
      ∀ profiles, table.mapM (readProfile host) = .ok profiles → FirstIsLeast profiles) := by
  obtain ⟨profiles, sorted, entry, hprofiles, hperm, hsorted, hnodup, hchosen, htaken⟩ :=
    exists_selected_of_readModalConfig hremote hread hfile hnames hconfig
  have hkeys : (profiles.map fun entry => textKey entry.1).Nodup := by
    have hmap : profiles.map (fun entry => textKey entry.1) =
        (profiles.map Prod.fst).map textKey := List.map_map.symm
    rw [hmap]
    exact hnodup.map Scope.textKey_injective
  have hiff := chosenInFile_sorted_iff hperm hsorted hkeys
    (envString host "MODAL_PROFILE".toList)
  constructor
  · rintro ⟨profiles', entry', hprofiles', hchosen', htaken'⟩ hunset profiles'' hprofiles''
    rw [hprofiles] at hprofiles' hprofiles''
    cases hprofiles'
    cases hprofiles''
    have hsame : entry' = entry :=
      List.inj_on_of_nodup_map hnodup (mem_of_chosenInFile hchosen')
        (hperm.mem_iff.mp (mem_of_chosenInFile hchosen)) (htaken'.profile.symm.trans htaken.profile)
    rw [hsame] at hchosen'
    exact hiff.mp (hchosen.trans hchosen'.symm) hunset
  · intro hleast
    refine ⟨profiles, entry, hprofiles, ?_, htaken⟩
    rw [← hiff.mpr fun hunset => hleast hunset profiles hprofiles]
    exact hchosen

/-- An active profile with tokens. -/
def activeProfile (id : Text) : Toml :=
  .table [("token_id".toList, .string id), ("token_secret".toList, .string "s".toList),
    ("active".toList, .boolean true)]

/-- A config file with the profiles `work` and `home`, both active, in this order. -/
def workHome : Text :=
  ("[work]\ntoken_id = \"2\"\ntoken_secret = \"s\"\nactive = true\n".toList ++
    "[home]\ntoken_id = \"1\"\ntoken_secret = \"s\"\nactive = true\n".toList)

/-- The tables of the config file. -/
def workHomeTable : Table :=
  [("work".toList, activeProfile "2".toList), ("home".toList, activeProfile "1".toList)]

/-- A host with this config file, and one variable set. -/
def workHomeHost (key value : Text) : Host where
  var name := if name = key then some value else none
  readToString _ := .ok workHome
  fromStr content := if content = workHome then .ok workHomeTable else .error "unknown".toList
  describe _ := []

/-- The config file is read. -/
theorem fromStr_workHome (key value : Text) :
    (workHomeHost key value).fromStr workHome = .ok workHomeTable := by
  unfold workHomeHost
  dsimp only
  rw [if_pos rfl]

/-- The result when a profile is asked for. -/
theorem config_follows_file_requested :
    ∃ config, readModalConfig (workHomeHost "MODAL_PROFILE".toList "work".toList) = .ok config ∧
      ((∃ profiles entry,
          workHomeTable.mapM (readProfile (workHomeHost "MODAL_PROFILE".toList "work".toList)) =
            .ok profiles ∧
          chosenInFile profiles (envString (workHomeHost "MODAL_PROFILE".toList "work".toList)
            "MODAL_PROFILE".toList) = some entry ∧
          TakenFrom (workHomeHost "MODAL_PROFILE".toList "work".toList) entry config) ↔
        (envString (workHomeHost "MODAL_PROFILE".toList "work".toList)
            "MODAL_PROFILE".toList = none →
          ∀ profiles,
            workHomeTable.mapM (readProfile (workHomeHost "MODAL_PROFILE".toList "work".toList)) =
              .ok profiles → FirstIsLeast profiles)) :=
  ⟨_, rfl, config_follows_file_iff (workHomeHost "MODAL_PROFILE".toList "work".toList)
    (by decide +kernel) rfl (fromStr_workHome _ _) (by decide +kernel) rfl⟩

/-- With both profiles active, the file's first one is `work`, and the client connects with the
tokens of `home`. -/
theorem second_active_profile_is_used :
    (readModalConfig (workHomeHost [] [])).toOption.map (fun c => (c.profile, c.tokenId)) =
      some ("home".toList, "1".toList) ∧
    (workHomeTable.mapM (readProfile (workHomeHost [] []))).toOption.map
        (fun profiles => (chosenInFile profiles none).map Prod.fst) =
      some (some "work".toList) := by
  constructor
  · decide +kernel
  · decide +kernel

end ModalRust.Sdk.Config
