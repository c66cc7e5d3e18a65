import ModalRust.JsonValue
import ModalRust.Macros.Image
import ModalRust.Provision.Run

/-!
# Declared images

`parse_image_spec`, which reads the spec of an image: the object that serde's derived
`Deserialize` takes apart field by field. What it makes of the spec that the macro writes is what
the macro has kept. That is all the attribute declares, unless a component is written twice.
-/

namespace ModalRust.Provision

open ModalRust.Sdk ModalRust.Macros

/-- The fields of `ImageOptions` that were read so far. -/
structure ImageFields where
  /-- The base image. -/
  base : Option (Option Text)
  /-- Whether the Rust toolchain is installed. -/
  installRust : Option (Option Bool)
  /-- The system packages. -/
  apt : Option (List Text)
  /-- The Python packages. -/
  pip : Option (List Text)
  /-- The shell commands. -/
  run : Option (List Text)

/-- A `String`. -/
def readString : JsonTree Literal → Option Text
  | .string s => some s
  | _ => none

/-- A `Vec<String>`. -/
def readStrings : JsonTree Literal → Option (List Text)
  | .array items => items.mapM readString
  | _ => none

/-- A field that is read. It may not be there already. -/
def once {α : Type} (field : Option α) (value : Option α) : Option α :=
  if field.isSome then none else value

/-- One entry of the object. An unknown one is ignored. -/
def imageField (acc : ImageFields) (entry : Text × JsonTree Literal) : Option ImageFields :=
  if entry.1 = "base".toList then
    (once acc.base (match entry.2 with
      | .null => some none
      | value => (readString value).map some)).map fun base => { acc with base := some base }
  else if entry.1 = "install_rust".toList then
    (once acc.installRust (match entry.2 with
      | .null => some none
      | .bool b => some (some b)
      | _ => none)).map fun r => { acc with installRust := some r }
  else if entry.1 = "apt".toList then
    (once acc.apt (readStrings entry.2)).map fun items => { acc with apt := some items }
  else if entry.1 = "pip".toList then
    (once acc.pip (readStrings entry.2)).map fun items => { acc with pip := some items }
  else if entry.1 = "run".toList then
    (once acc.run (readStrings entry.2)).map fun items => { acc with run := some items }
  else some acc

/-- The fields, with the default of each that is missing. -/
def ImageFields.finish (acc : ImageFields) : ImageOptions :=
  ⟨acc.base.getD none, acc.installRust.getD none, acc.apt.getD [], acc.pip.getD [],
    acc.run.getD []⟩

/-- No field was read. -/
def ImageFields.none : ImageFields := ⟨.none, .none, .none, .none, .none⟩

/-- The entries of the object that a text is, in their order and before any is dropped. An array
stands for the fields in the order of their declaration. -/
def scanImage (t : Text) : Option (List (Text × JsonTree Literal) × Text) :=
  match skipSpace t with
  | '\x7b' :: rest =>
    if (skipSpace rest).head? = some '\x7d' then some ([], (skipSpace rest).tail)
    else parseEntries some (2 * t.length) t.length rest
  | '\x5b' :: rest =>
    (if (skipSpace rest).head? = some '\x5d' then some ([], (skipSpace rest).tail)
      else parseItems some (2 * t.length) t.length rest).bind fun (items, rest) =>
        if items.length ≤ 5 then
          some (["base".toList, "install_rust".toList, "apt".toList, "pip".toList,
            "run".toList].zip items, rest)
        else none
  | _ => none

/-- `serde_json::from_str::<ImageOptions>`, up to the text of its error. -/
def deserializeImageOptions (t : Text) : Option ImageOptions :=
  (scanImage t).bind fun (entries, rest) =>
    if skipSpace rest = [] then (entries.foldlM imageField .none).map ImageFields.finish
    else none

/-- The host reads image options as serde_json does. Only the texts of its errors are open. -/
def Host.ReadsImageOptions (host : Host) : Prop :=
  ∀ t, (host.readImageOptions t).toOption = deserializeImageOptions t

/-- `parse_image_spec`. -/
def parseImageSpec (host : Host) (spec : Text) : Except Error ImageOptions :=
  (host.readImageOptions spec).mapError fun e =>
    .config ("invalid `image = Image(..)` spec ".toList ++ host.std.debug spec ++
      ": ".toList ++ e)

/-- A spec that is read is folded into the config. -/
theorem applyFunctionImage_some (host : Host) (config : RemoteConfig) (spec : Text) :
    applyFunctionImage host config (some spec) = (parseImageSpec host spec).map fun image =>
      { config with
        imageSteps := image.steps ++ config.imageSteps
        baseImage := image.base.getD config.baseImage
        installRust := image.installRust.getD config.installRust } := by
  unfold applyFunctionImage parseImageSpec
  dsimp only
  cases host.readImageOptions spec with
  | error e => rfl
  | ok image => rfl

/-! ### Reading what the macro writes -/

/-- Strings are represented anew as themselves. -/
theorem toValueItems_strings {N M : Type} (read : N → Option M) (items : List Text) :
    JsonTree.toValueItems read (items.map JsonTree.string) =
      some (items.map JsonTree.string) := by
  induction items with
  | nil => rfl
  | cons item items ih =>
    rw [List.map_cons, JsonTree.toValueItems, JsonTree.toValue, Option.bind_some, ih,
      Option.map_some, List.map_cons]

/-- Entries without numbers are represented anew one by one. -/
theorem toValueEntries_append {N M : Type} (read : N → Option M)
    {left right : List (Text × JsonTree N)} {left' right' : List (Text × JsonTree M)}
    (hleft : JsonTree.toValueEntries read left = some left')
    (hright : JsonTree.toValueEntries read right = some right') :
    JsonTree.toValueEntries read (left ++ right) = some (left' ++ right') := by
  induction left generalizing left' with
  | nil =>
    obtain rfl := Option.some.inj hleft
    exact hright
  | cons entry left ih =>
    obtain ⟨key, value⟩ := entry
    rw [JsonTree.toValueEntries] at hleft
    obtain ⟨value', hvalue, hmap⟩ := Option.bind_eq_some_iff.mp hleft
    obtain ⟨rest, hrest, rfl⟩ := Option.map_eq_some_iff.mp hmap
    rw [List.cons_append, JsonTree.toValueEntries, hvalue, Option.bind_some]
    rw [ih hrest, Option.map_some, List.cons_append]

/-- The entries hold no number. -/
theorem toValueEntries_imageEntries {N M : Type} (read : N → Option M) (image : ImageOptions) :
    JsonTree.toValueEntries read (imageEntries image) = some (imageEntries image) := by
  have hlist : ∀ (key : Text) (items : List Text),
      JsonTree.toValueEntries read (listEntry key items) = some (listEntry key items) := by
    intro key items
    unfold listEntry
    cases items.isEmpty with
    | true => rfl
    | false =>
      simp [JsonTree.toValueEntries, stringArray, JsonTree.toValue, toValueItems_strings]
  have hbase : JsonTree.toValueEntries read
      (image.base.map fun b => ("base".toList, JsonTree.string b)).toList =
      some (image.base.map fun b => ("base".toList, JsonTree.string b)).toList := by
    cases image.base <;> rfl
  have hinstall : JsonTree.toValueEntries read
      (image.installRust.map fun r => ("install_rust".toList, JsonTree.bool r)).toList =
      some (image.installRust.map fun r => ("install_rust".toList, JsonTree.bool r)).toList := by
    cases image.installRust <;> rfl
  unfold imageEntries
  exact toValueEntries_append read (toValueEntries_append read (toValueEntries_append read
    (toValueEntries_append read hbase hinstall) (hlist _ _)) (hlist _ _)) (hlist _ _)

/-- No value of an entry is nested twice. -/
theorem depthEntries_imageEntries_le {N : Type} (image : ImageOptions) :
    JsonTree.depthEntries (imageEntries image : List (Text × JsonTree N)) ≤ 1 := by
  have hstrings : ∀ items : List Text, JsonTree.depthItems
      (items.map JsonTree.string : List (JsonTree N)) = 0 := by
    intro items
    induction items with
    | nil => rfl
    | cons item items ih =>
      rw [List.map_cons, JsonTree.depthItems, ih]
      rfl
  have hlist : ∀ (key : Text) (items : List Text), ∀ entry ∈
      (listEntry key items : List (Text × JsonTree N)), entry.2.depth ≤ 1 := by
    intro key items entry hentry
    unfold listEntry at hentry
    split at hentry
    · cases hentry
    · obtain rfl := List.mem_singleton.mp hentry
      rw [stringArray, JsonTree.depth, hstrings]
  refine JsonTree.depthEntries_le.mpr fun entry hentry => ?_
  unfold imageEntries at hentry
  simp only [List.mem_append, Option.mem_toList, Option.map_eq_some_iff] at hentry
  rcases hentry with (((⟨b, -, rfl⟩ | ⟨r, -, rfl⟩) | happ) | hpip) | hrun
  · exact Nat.zero_le 1
  · exact Nat.zero_le 1
  · exact hlist _ _ entry happ
  · exact hlist _ _ entry hpip
  · exact hlist _ _ entry hrun

/-- The strings of an array are read. -/
theorem readStrings_stringArray (items : List Text) :
    readStrings (stringArray items) = some items := by
  rw [stringArray, readStrings]
  induction items with
  | nil => rfl
  | cons item items ih => simp [readString, ih]

/-- A list of strings that is written when it has an element. -/
def present (items : List Text) : Option (List Text) :=
  if items.isEmpty then none else some items

/-- The default of a list that is not written is the empty list. -/
@[simp] theorem getD_present (items : List Text) : (present items).getD [] = items := by
  cases items <;> rfl

/-- The fields are read one after the other. -/
theorem foldlM_imageField (image : ImageOptions) :
    ((imageEntries image).foldlM imageField .none).map ImageFields.finish = some image := by
  have hbase : ((image.base.map fun b => ("base".toList, JsonTree.string b)).toList).foldlM
      imageField .none = some { ImageFields.none with base := image.base.map some } := by
    cases image.base <;> rfl
  have hinstall : ∀ base, ((image.installRust.map fun r =>
      ("install_rust".toList, JsonTree.bool r)).toList).foldlM imageField
        ⟨base, none, none, none, none⟩ =
      some ⟨base, image.installRust.map some, none, none, none⟩ := by
    intro base
    cases image.installRust <;> rfl
  have hlist : ∀ (key : Text) (items : List Text) (set : Option (List Text) → ImageFields),
      imageField (set none) (key, stringArray items) = some (set (some items)) →
        (listEntry key items).foldlM imageField (set none) = some (set (present items)) := by
    intro key items set hfield
    cases items with
    | nil => rfl
    | cons item items => simp [listEntry, present, hfield]
  have happ := fun b r => hlist "apt".toList image.apt (fun apt => ⟨b, r, apt, none, none⟩) (by
    simp [imageField, once, readStrings_stringArray])
  have hpip := fun b r apt => hlist "pip".toList image.pip (fun pip => ⟨b, r, apt, pip, none⟩)
    (by simp [imageField, once, readStrings_stringArray])
  have hrun := fun b r apt pip => hlist "run".toList image.run
    (fun run => ⟨b, r, apt, pip, run⟩) (by simp [imageField, once, readStrings_stringArray])
  unfold imageEntries
  simp only [List.foldlM_append, hbase, Option.bind_eq_bind, Option.bind_some]
  rw [ImageFields.none, hinstall, Option.bind_some, happ, Option.bind_some, hpip,
    Option.bind_some, hrun, Option.map_some]
  have hfinish : ImageFields.finish ⟨image.base.map some, image.installRust.map some,
      present image.apt, present image.pip, present image.run⟩ = image := by
    obtain ⟨base, installRust, apt, pip, run⟩ := image
    simp only [ImageFields.finish, getD_present]
    cases base <;> cases installRust <;> rfl
  rw [hfinish]

/-- The entries of the spec are scanned. -/
theorem scanImage_imageJson (image : ImageOptions) :
    scanImage (imageJson image) = some (imageEntries image, []) := by
  rw [imageJson_eq, JsonTree.print]
  have hvalues := toValueEntries_imageEntries (N := Number) (M := Literal)
    (JsonTree.reread some) image
  have hdepth := depthEntries_imageEntries_le (N := Number) image
  cases hentries : (imageEntries image : List (Text × Json)) with
  | nil =>
    rw [hentries] at hvalues
    obtain hvalues := Option.some.inj hvalues
    rw [← hvalues]
    rfl
  | cons entry entries =>
    rw [hentries] at hvalues hdepth
    generalize hbody : commaSeparated (JsonTree.printEntries (entry :: entries)) = body
    obtain ⟨t, ht⟩ := JsonTree.printEntries_head entry entries ['\x7d']
    rw [hbody] at ht
    have hparse := JsonTree.parseEntries_print some entry entries
      (2 * ('\x7b' :: body ++ ['\x7d']).length) ('\x7b' :: body ++ ['\x7d']).length [] (by
        rw [hbody]
        simp only [List.length_append, List.length_cons]
        omega)
    rw [hbody, if_pos (hdepth.trans (by simp)), hvalues, Option.map_some] at hparse
    have hskip : skipSpace ('\x7b' :: body ++ ['\x7d']) = '\x7b' :: (body ++ ['\x7d']) := rfl
    have hhead : (skipSpace (body ++ ['\x7d'])).head? ≠ some '\x7d' := by
      have hquote : skipSpace ('\x22' :: t) = '\x22' :: t := rfl
      rw [ht, hquote]
      simp
    unfold scanImage
    rw [hskip]
    simp only
    rw [if_neg hhead]
    exact hparse

/-- **A spec that the macro writes is read back.** -/
theorem deserializeImageOptions_imageJson (image : ImageOptions) :
    deserializeImageOptions (imageJson image) = some image := by
  rw [deserializeImageOptions, scanImage_imageJson, Option.bind_some]
  exact foldlM_imageField image

/-- A host that reads image options as serde_json does. -/
def readingHost : Host where
  __ := plainHost
  readImageOptions t :=
    match deserializeImageOptions t with
    | some image => .ok image
    | none => .error "expected value at line 1 column 1".toList

/-- It reads as it should. -/
theorem readsImageOptions_readingHost : readingHost.ReadsImageOptions := by
  intro t
  simp only [readingHost]
  cases deserializeImageOptions t <;> rfl

/-- What is read of an accepted attribute is what the macro has kept. -/
theorem parseImageSpec_kept {host : Host} (hhost : host.ReadsImageOptions) {std : Std}
    {call : ExprCall} {spec : Text} (hspec : parseImageToSpec std (some call) = .ok spec) :
    parseImageSpec host spec = .ok (keptImage call.args) := by
  obtain rfl := eq_of_parseImageToSpec hspec
  have hread := hhost (imageJson (keptImage call.args))
  rw [deserializeImageOptions_imageJson] at hread
  unfold parseImageSpec
  cases hresult : host.readImageOptions (imageJson (keptImage call.args)) with
  | error e =>
    rw [hresult] at hread
    cases hread
  | ok image =>
    rw [hresult] at hread
    rw [← Option.some.inj hread]
    rfl

/-! ### What the attribute declares -/

/-- The value of a component. -/
inductive ImageValue
  /-- The base image. -/
  | base (tag : Option Text)
  /-- Whether the Rust toolchain is installed. -/
  | installRust (flag : Option Bool)
  /-- Packages or commands. -/
  | steps (items : List Text)
  deriving DecidableEq

/-- The component of an image with a name. -/
def imageValue (image : ImageOptions) (name : Text) : ImageValue :=
  if name = "base".toList then .base image.base
  else if name = "install_rust".toList then .installRust image.installRust
  else if name = "apt".toList then .steps image.apt
  else if name = "pip".toList then .steps image.pip
  else if name = "run".toList then .steps image.run
  else .steps []

/-- The value that is written for the component with a name. -/
def writtenValue (name : Text) (right : Expr) : ImageValue :=
  if name = "base".toList then .base right.strValue
  else if name = "install_rust".toList then .installRust right.boolValue
  else if name = "apt".toList then .steps right.strValues
  else if name = "pip".toList then .steps right.strValues
  else if name = "run".toList then .steps right.strValues
  else .steps []

/-- An image is what the arguments declare. -/
structure CarriesImage (args : List Expr) (image : ImageOptions) : Prop where
  /-- It has every value that is written. -/
  written : ∀ name right, (name, right) ∈ args.filterMap assigned →
    imageValue image name = writtenValue name right
  /-- Nothing else is set. -/
  unwritten : ∀ name, (∀ right, (name, right) ∉ args.filterMap assigned) →
    imageValue image name = imageValue ⟨none, none, [], [], []⟩ name

/-- No component is written twice with different values. -/
def WrittenAlike (args : List Expr) : Prop :=
  ∀ name right right', (name, right) ∈ args.filterMap assigned →
    (name, right') ∈ args.filterMap assigned → writtenValue name right = writtenValue name right'

/-- What is kept of a component. -/
theorem imageValue_keptImage (args : List Expr) (name : Text) :
    imageValue (keptImage args) name =
      ((lastValue name args).map (writtenValue name)).getD
        (imageValue ⟨none, none, [], [], []⟩ name) := by
  unfold imageValue writtenValue keptImage
  split_ifs with hbase hrust happ hpip hrun
  · subst hbase
    cases lastValue "base".toList args <;> rfl
  · subst hrust
    cases lastValue "install_rust".toList args <;> rfl
  · subst happ
    cases lastValue "apt".toList args <;> rfl
  · subst hpip
    cases lastValue "pip".toList args <;> rfl
  · subst hrun
    cases lastValue "run".toList args <;> rfl
  · cases lastValue name args <;> rfl

/-- **An image survives the way from the attribute to the facade exactly if no component is
written twice with different values.** Of these, the macro keeps the last one only. -/
theorem image_spec_survives_iff {host : Host} (hhost : host.ReadsImageOptions) (std : Std)
    {call : ExprCall} {spec : Text} (hspec : parseImageToSpec std (some call) = .ok spec) :
    (∃ image, parseImageSpec host spec = .ok image ∧ CarriesImage call.args image) ↔
      WrittenAlike call.args := by
  rw [parseImageSpec_kept hhost hspec]
  constructor
  · rintro ⟨image, -, hcarries⟩ name right right' hright hright'
    rw [← hcarries.written name right hright, hcarries.written name right' hright']
  · refine fun halike => ⟨_, rfl, fun name right hright => ?_, fun name hnone => ?_⟩
    · obtain ⟨last, hlast⟩ := exists_lastValue hright
      rw [imageValue_keptImage, hlast, Option.map_some, Option.getD_some]
      exact halike name last right (mem_of_lastValue hlast) hright
    · cases hlast : lastValue name call.args with
      | none => rw [imageValue_keptImage, hlast, Option.map_none, Option.getD_none]
      | some last => exact absurd (mem_of_lastValue hlast) (hnone last)

/-- `Image(base = "a\"b", run = ["echo 'é'\n\u{1f}", "x\\y", ""])`. -/
def quotedCall : ExprCall where
  func := identPath "Image".toList
  args := [.assign (identPath "base".toList) (.lit (.str "a\"b".toList)),
    .assign (identPath "run".toList) (.array [.lit (.str "echo 'é'\n\x1f".toList),
      .lit (.str "x\\y".toList), .lit (.str [])])]

/-- Quotes, backslashes, control characters and an empty command survive. -/
theorem image_spec_survives_quotedCall :
    ∃ image, parseImageSpec readingHost
      "\x7b\"base\":\"a\\\"b\",\"run\":[\"echo 'é'\\n\\u001f\",\"x\\\\y\",\"\"]\x7d".toList =
        .ok image ∧ CarriesImage quotedCall.args image := by
  refine (image_spec_survives_iff readsImageOptions_readingHost plainHost.std
    (show parseImageToSpec plainHost.std (some quotedCall) = .ok _ by decide +kernel)).mpr ?_
  have hpairs : quotedCall.args.filterMap assigned = [
      ("base".toList, .lit (.str "a\"b".toList)),
      ("run".toList, .array [.lit (.str "echo 'é'\n\x1f".toList), .lit (.str "x\\y".toList),
        .lit (.str [])])] := rfl
  intro name right right' hright hright'
  simp only [hpairs, List.mem_cons, Prod.mk.injEq, List.not_mem_nil, or_false] at hright hright'
  obtain ⟨rfl, rfl⟩ | ⟨rfl, rfl⟩ := hright
  · obtain ⟨-, rfl⟩ | ⟨hname, -⟩ := hright'
    · rfl
    · exact absurd hname (by decide)
  · obtain ⟨hname, -⟩ | ⟨-, rfl⟩ := hright'
    · exact absurd hname (by decide)
    · rfl

/-- `Image(run = ["make deps"], run = ["make"])`. -/
def repeatedCall : ExprCall where
  func := identPath "Image".toList
  args := [.assign (identPath "run".toList) (.array [.lit (.str "make deps".toList)]),
    .assign (identPath "run".toList) (.array [.lit (.str "make".toList)])]

/-- The macro accepts a second list of commands and drops the first one. -/
theorem repeated_run_is_lost :
    parseImageToSpec plainHost.std (some repeatedCall) =
      .ok "\x7b\"run\":[\"make\"]\x7d".toList ∧
    parseImageSpec readingHost "\x7b\"run\":[\"make\"]\x7d".toList =
      .ok ⟨none, none, [], [], ["make".toList]⟩ ∧
    ¬ ∃ image, parseImageSpec readingHost "\x7b\"run\":[\"make\"]\x7d".toList = .ok image ∧
      CarriesImage repeatedCall.args image := by
  have hspec : parseImageToSpec plainHost.std (some repeatedCall) =
      .ok "\x7b\"run\":[\"make\"]\x7d".toList := by decide +kernel
  have hread := parseImageSpec_kept readsImageOptions_readingHost hspec
  refine ⟨hspec, hread, ?_⟩
  rintro ⟨image, hok, hcarries⟩
  rw [hread] at hok
  obtain rfl := Except.ok.inj hok
  have hfirst := hcarries.written "run".toList (.array [.lit (.str "make deps".toList)])
    List.mem_cons_self
  revert hfirst
  decide

end ModalRust.Provision
