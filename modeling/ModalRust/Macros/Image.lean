import ModalRust.Json
import ModalRust.Macros.Syntax
import ModalRust.Provision.Image

/-!
# The spec of an image

`parse_image_to_spec`, which turns `image = Image(..)` into compact JSON with an escaper of its
own. What it writes is the rendering of a JSON object with the components that were given last.
-/

namespace ModalRust.Macros

open ModalRust.Provision ModalRust.Sdk

/-- A number under `{:04x}`. -/
def hex4 (n : ℕ) : Text :=
  List.replicate (4 - (Nat.toDigits 16 n).length) '0' ++ Nat.toDigits 16 n

/-- `json_escape`. -/
def jsonEscape (s : Text) : Text :=
  s.flatMap fun c =>
    if c = '\x22' then "\\\"".toList
    else if c = '\x5c' then "\\\\".toList
    else if c = '\n' then "\\n".toList
    else if c = '\r' then "\\r".toList
    else if c = '\t' then "\\t".toList
    else if c = '\x08' then "\\b".toList
    else if c = '\x0c' then "\\f".toList
    else if c.toNat < 0x20 then "\\u".toList ++ hex4 c.toNat
    else [c]

/-- An entry of a list of strings. -/
def imageStrEntry : Expr → Except Text Text
  | .lit (.str s) => .ok s
  | _ => .error "image step entries must be string literals".toList

/-- `image_str_list`. -/
def imageStrList : Expr → Except Text (List Text)
  | .array elems => elems.mapM imageStrEntry
  | _ => .error
    "expected a bracketed list of string literals, e.g. `[\"libpng-dev\"]`".toList

/-- The component `name = right` of `Image(..)`. It replaces an earlier one. -/
def imageComponent (std : Std) (image : ImageOptions) (name : Text) (right : Expr) :
    Except Text ImageOptions :=
  if name = "base".toList then
    match right with
    | .lit (.str s) => .ok { image with base := some s }
    | _ => .error "`base` must be a string literal, e.g. `base = \"rust:1-slim\"`".toList
  else if name = "install_rust".toList then
    match right with
    | .lit (.bool b) => .ok { image with installRust := some b }
    | _ => .error "`install_rust` must be a bool literal, e.g. `install_rust = true`".toList
  else if name = "apt".toList then
    (imageStrList right).map fun items => { image with apt := items }
  else if name = "pip".toList then
    (imageStrList right).map fun items => { image with pip := items }
  else if name = "run".toList then
    (imageStrList right).map fun items => { image with run := items }
  else .error ("unknown Image component ".toList ++ std.debug name ++
    "; expected one of `base`, `install_rust`, `apt`, `pip`, `run`".toList)

/-- One argument of `Image(..)`. -/
def imageArg (std : Std) (image : ImageOptions) (arg : Expr) : Except Text ImageOptions :=
  (namedArg
    "Image components must be `name = value`, e.g. `base = \"rust:1-slim\"`".toList
    "Image component name must be a bare identifier (e.g. `base`, `apt`)".toList
    "Image component name must be an identifier".toList arg).bind fun a =>
      imageComponent std image a.1 a.2

/-- The JSON object of the components that are set. -/
def imageJson (image : ImageOptions) : Text :=
  let jsonArr (items : List Text) : Text :=
    '\x5b' :: commaSeparated (items.map fun s => '\x22' :: jsonEscape s ++ ['\x22']) ++ ['\x5d']
  let list (key : Text) (items : List Text) : List Text :=
    if items.isEmpty then [] else ['\x22' :: key ++ "\":".toList ++ jsonArr items]
  let parts :=
    (match image.base with
      | some b => ["\"base\":\"".toList ++ jsonEscape b ++ ['\x22']]
      | none => []) ++
    (match image.installRust with
      | some r => ["\"install_rust\":".toList ++
          if r then "true".toList else "false".toList]
      | none => []) ++
    list "apt".toList image.apt ++ list "pip".toList image.pip ++ list "run".toList image.run
  '\x7b' :: commaSeparated parts ++ ['\x7d']

/-- `parse_image_to_spec`, of a value that may not parse as a call. -/
def parseImageToSpec (std : Std) : Option ExprCall → Except Text Text
  | none => .error ("`image` must be the struct form `image = Image(base = \"..\"[, ".toList ++
      "install_rust = <bool>][, apt = [..]][, pip = [..]][, run = [..]])`".toList)
  | some call => do
    let kind ← match call.func with
      | .path p => .ok p.lastIdent
      | _ => .error "`image` struct form must call `Image(..)`".toList
    if kind ≠ "Image".toList then
      .error ("unknown image kind ".toList ++ std.debug kind ++
        "; expected the `Image(..)` struct form".toList)
    else
      let image ← call.args.foldlM (imageArg std) ⟨none, none, [], [], []⟩
      return imageJson image

/-! ### What is written is a rendered object -/

section Entries

variable {N : Type}

/-- An array of strings. -/
def stringArray (items : List Text) : JsonTree N := .array (items.map .string)

/-- The entry of a list of strings, if there are any. -/
def listEntry (key : Text) (items : List Text) : List (Text × JsonTree N) :=
  if items.isEmpty then [] else [(key, stringArray items)]

/-- The entries of the object. -/
def imageEntries (image : ImageOptions) : List (Text × JsonTree N) :=
  (image.base.map fun b => ("base".toList, JsonTree.string b)).toList ++
    (image.installRust.map fun r => ("install_rust".toList, JsonTree.bool r)).toList ++
    listEntry "apt".toList image.apt ++ listEntry "pip".toList image.pip ++
    listEntry "run".toList image.run

end Entries

/-- The escaper of the macro is that of the renderer. -/
theorem jsonEscape_eq (s : Text) : jsonEscape s = s.flatMap escapeChar := by
  have hhex : ∀ n < 32, "\\u".toList ++ hex4 n =
      "\\u00".toList ++ [Nat.digitChar (n / 16), Nat.digitChar (n % 16)] := by decide
  unfold jsonEscape
  congr 1
  funext c
  unfold escapeChar
  by_cases hcontrol : c.toNat < 32
  · -- the renderer tests for the same characters in another order
    have hc : isControl c = true := decide_eq_true hcontrol
    rw [hc, if_pos hcontrol, hhex _ hcontrol]
    by_cases hn : c = '\n'
    · subst hn
      decide
    by_cases hr : c = '\r'
    · subst hr
      decide
    by_cases ht : c = '\t'
    · subst ht
      decide
    simp only [if_neg hn, if_neg hr, if_neg ht, if_true]
  · have hne : c ≠ '\n' ∧ c ≠ '\r' ∧ c ≠ '\t' ∧ c ≠ '\x08' ∧ c ≠ '\x0c' := by
      refine ⟨?_, ?_, ?_, ?_, ?_⟩ <;> rintro rfl <;> exact hcontrol (by decide)
    have hc : isControl c = false := decide_eq_false hcontrol
    obtain ⟨hn, hr, ht, hb, hf⟩ := hne
    rw [hc, if_neg hcontrol]
    simp only [if_neg hn, if_neg hr, if_neg ht, if_neg hb, if_neg hf, Bool.false_eq_true,
      if_false]

/-- A rendered entry list is a list of rendered entries. -/
theorem printEntries_eq_map {N : Type} [Numeric N] (entries : List (Text × JsonTree N)) :
    JsonTree.printEntries entries = entries.map JsonTree.printEntry := by
  induction entries with
  | nil => rfl
  | cons entry entries ih => rw [JsonTree.printEntries, ih, List.map_cons]

/-- A rendered list of strings is a list of quoted strings. -/
theorem printItems_map_string (items : List Text) :
    JsonTree.printItems (items.map JsonTree.string : List Json) = items.map quote := by
  induction items with
  | nil => rfl
  | cons item items ih =>
    rw [List.map_cons, JsonTree.printItems, ih, List.map_cons, JsonTree.print]

/-- **The spec is the rendering of the object of the components that are set.** -/
theorem imageJson_eq (image : ImageOptions) :
    imageJson image = (JsonTree.object (imageEntries image) : Json).print := by
  have hquote : ∀ s : Text, '\x22' :: jsonEscape s ++ ['\x22'] = quote s := by
    intro s
    rw [jsonEscape_eq, quote]
  have harray : ∀ items : List Text,
      '\x5b' :: commaSeparated (items.map fun s => '\x22' :: jsonEscape s ++ ['\x22']) ++
        ['\x5d'] = (stringArray items : Json).print := by
    intro items
    rw [stringArray, JsonTree.print, printItems_map_string]
    simp only [hquote]
  have hlist : ∀ (key : Text) (items : List Text), quote key = '\x22' :: key ++ ['\x22'] →
      (if items.isEmpty then [] else ['\x22' :: key ++ "\":".toList ++
        ('\x5b' :: commaSeparated (items.map fun s => '\x22' :: jsonEscape s ++ ['\x22']) ++
          ['\x5d'])]) =
        (listEntry key items : List (Text × Json)).map JsonTree.printEntry := by
    intro key items hkey
    rw [harray, listEntry]
    cases items.isEmpty with
    | true => rfl
    | false => simp [JsonTree.printEntry, hkey]
  have hbase : (match image.base with
      | some b => ["\"base\":\"".toList ++ jsonEscape b ++ ['\x22']]
      | none => []) =
      ((image.base.map fun b => ("base".toList, (.string b : Json))).toList).map
        JsonTree.printEntry := by
    cases image.base with
    | none => rfl
    | some b => simp [JsonTree.printEntry, JsonTree.print, jsonEscape_eq, quote, escapeChar,
        isControl]
  have hinstall : (match image.installRust with
      | some r => ["\"install_rust\":".toList ++ if r then "true".toList else "false".toList]
      | none => []) =
      ((image.installRust.map fun r => ("install_rust".toList, (.bool r : Json))).toList).map
        JsonTree.printEntry := by
    cases image.installRust with
    | none => rfl
    | some r => cases r <;> rfl
  unfold imageJson imageEntries
  rw [JsonTree.print, printEntries_eq_map]
  simp only [List.map_append, hbase, hinstall]
  rw [hlist _ _ rfl, hlist _ _ rfl, hlist _ _ rfl]

/-! ### What is kept of the attribute -/

/-- The image that is kept of the arguments: for each component the value that was last given. -/
def keptImage (args : List Expr) : ImageOptions where
  base := (lastValue "base".toList args).bind Expr.strValue
  installRust := (lastValue "install_rust".toList args).bind Expr.boolValue
  apt := ((lastValue "apt".toList args).map Expr.strValues).getD []
  pip := ((lastValue "pip".toList args).map Expr.strValues).getD []
  run := ((lastValue "run".toList args).map Expr.strValues).getD []

/-- A list that is accepted holds its strings and nothing else. -/
theorem strValues_of_imageStrList {e : Expr} {items : List Text}
    (he : imageStrList e = .ok items) : e.strValues = items := by
  unfold imageStrList at he
  split at he
  · next elems =>
    rw [Expr.strValues]
    induction elems generalizing items with
    | nil =>
      cases he
      rfl
    | cons elem elems ih =>
      rw [List.mapM_cons] at he
      cases hentry : imageStrEntry elem with
      | error e =>
        rw [hentry] at he
        cases he
      | ok s =>
        rw [hentry] at he
        cases hrest : elems.mapM imageStrEntry with
        | error e =>
          rw [hrest] at he
          cases he
        | ok rest =>
          rw [hrest] at he
          cases he
          have hvalue : elem.strValue = some s := by
            unfold imageStrEntry at hentry
            split at hentry <;> cases hentry
            rfl
          rw [List.filterMap_cons, hvalue, ih hrest]
  · cases he

/-- A list component that is accepted. -/
theorem map_imageStrList {e : Expr} {set : List Text → ImageOptions} {image : ImageOptions}
    (he : (imageStrList e).map set = .ok image) : image = set e.strValues := by
  cases hlist : imageStrList e with
  | error m =>
    rw [hlist] at he
    cases he
  | ok items =>
    rw [hlist] at he
    cases he
    rw [strValues_of_imageStrList hlist]

/-- One component replaces its own part of what is kept. -/
theorem imageComponent_kept {std : Std} {args : List Expr} {arg right : Expr} {name : Text}
    {image : ImageOptions} (hassigned : assigned arg = some (name, right))
    (hcomponent : imageComponent std (keptImage args) name right = .ok image) :
    image = keptImage (args ++ [arg]) := by
  have hlast := fun other => lastValue_append hassigned other args
  unfold imageComponent at hcomponent
  split at hcomponent
  · next hname =>
    split at hcomponent
    · cases hcomponent
      subst hname
      simp (disch := decide) only [keptImage, hlast, if_neg, if_true]
      rfl
    · cases hcomponent
  split at hcomponent
  · next hname =>
    split at hcomponent
    · cases hcomponent
      subst hname
      simp (disch := decide) only [keptImage, hlast, if_neg, if_true]
      rfl
    · cases hcomponent
  split at hcomponent
  · next hname =>
    rw [map_imageStrList hcomponent]
    subst hname
    simp (disch := decide) only [keptImage, hlast, if_neg, if_true]
    rfl
  split at hcomponent
  · next hname =>
    rw [map_imageStrList hcomponent]
    subst hname
    simp (disch := decide) only [keptImage, hlast, if_neg, if_true]
    rfl
  split at hcomponent
  · next hname =>
    rw [map_imageStrList hcomponent]
    subst hname
    simp (disch := decide) only [keptImage, hlast, if_neg, if_true]
    rfl
  · cases hcomponent

/-- One argument replaces its own part of what is kept. -/
theorem imageArg_kept {std : Std} {args : List Expr} {arg : Expr} {image : ImageOptions}
    (harg : imageArg std (keptImage args) arg = .ok image) : image = keptImage (args ++ [arg]) := by
  unfold imageArg at harg
  cases hnamed : namedArg _ _ _ arg with
  | error e =>
    rw [hnamed] at harg
    cases harg
  | ok a =>
    rw [hnamed] at harg
    exact imageComponent_kept (assigned_of_namedArg hnamed) harg

/-- The components are kept one after the other. -/
theorem foldlM_imageArg {std : Std} {args : List Expr} {image : ImageOptions}
    (hargs : args.foldlM (imageArg std) ⟨none, none, [], [], []⟩ = .ok image) :
    image = keptImage args := by
  induction args using List.reverseRecOn generalizing image with
  | nil =>
    cases hargs
    rfl
  | append_singleton args arg ih =>
    rw [List.foldlM_append] at hargs
    cases hfirst : args.foldlM (imageArg std) ⟨none, none, [], [], []⟩ with
    | error e =>
      rw [hfirst] at hargs
      cases hargs
    | ok first =>
      obtain rfl := ih hfirst
      rw [hfirst] at hargs
      have hlast : (imageArg std (keptImage args) arg).bind pure = .ok image := hargs
      cases himage : imageArg std (keptImage args) arg with
      | error e =>
        rw [himage] at hlast
        cases hlast
      | ok last =>
        rw [himage] at hlast
        cases hlast
        exact imageArg_kept himage

/-- An accepted attribute's spec is that of the image that is kept. -/
theorem eq_of_parseImageToSpec {std : Std} {call : ExprCall} {spec : Text}
    (hspec : parseImageToSpec std (some call) = .ok spec) :
    spec = imageJson (keptImage call.args) := by
  unfold parseImageToSpec at hspec
  dsimp only at hspec
  split at hspec
  · next p hfunc =>
    change (if p.lastIdent ≠ "Image".toList then _ else _) = _ at hspec
    split at hspec
    · cases hspec
    · cases hfold : call.args.foldlM (imageArg std) ⟨none, none, [], [], []⟩ with
      | error e =>
        rw [hfold] at hspec
        cases hspec
      | ok image =>
        rw [hfold] at hspec
        cases hspec
        rw [foldlM_imageArg hfold]
  · cases hspec

end ModalRust.Macros
