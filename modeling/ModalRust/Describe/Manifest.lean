import ModalRust.JsonNumber
import ModalRust.Provision.Options

/-!
# Describe manifests

The manifest that a runner prints, the check of its schema, and the JSON text of an
entrypoint's options, which holds every field and so determines the options.
-/

namespace ModalRust.Describe

open Provision (FunctionOptions)

/-- `ManifestEntry`. -/
structure ManifestEntry where
  /-- The name. -/
  name : Text
  /-- The options. -/
  config : FunctionOptions
  deriving DecidableEq

/-- `Manifest`. -/
structure Manifest where
  /-- The schema tag. -/
  schema : Text
  /-- The entrypoints. -/
  entrypoints : List ManifestEntry
  deriving DecidableEq

/-- A difference between two manifests. -/
inductive Divergence
  /-- The entrypoint is not in the remote manifest. -/
  | absentRemotely (name : Text)
  /-- The entrypoint has other options in the remote manifest. -/
  | differs (name localConfig remoteConfig : Text)
  /-- The entrypoint is not in the local manifest. -/
  | absentLocally (name : Text)
  deriving DecidableEq

/-- Why there is no manifest. -/
inductive DescribeError
  /-- The crate has no runner. -/
  | unrunnable (package : Text)
  /-- The runner could not be built. -/
  | buildFailed (package : Text)
  /-- The runner could not be executed, or failed. -/
  | describeFailed (package : Text)
  /-- The description on Modal failed. -/
  | remoteDescribeFailed
  /-- The output is not a manifest. -/
  | badJson
  /-- The schema is of another family. -/
  | unrecognizedSchema (schema : Text)
  /-- The schema has no version. -/
  | unparseableSchema (schema : Text)
  /-- The schema has another major version. -/
  | incompatibleSchema (major : ℕ)
  /-- The manifest is empty. -/
  | noEntrypoints (package : Text)
  /-- The local and the remote manifest differ. -/
  | diverge (diffs : List Divergence)
  deriving DecidableEq

/-- `DESCRIBE_SCHEMA_FAMILY`. -/
def describeSchemaFamily : Text := "modal-rust/describe@".toList

/-- `DESCRIBE_SCHEMA_MAJOR`. -/
def describeSchemaMajor : ℕ := 1

/-- `check_schema`. -/
def checkSchema (schema : Text) : Except DescribeError Unit :=
  match describeSchemaFamily.isPrefixOf? schema with
  | none => .error (.unrecognizedSchema schema)
  | some version =>
    match parseU32 (((splitOnce '.' version).map Prod.fst).getD version) with
    | none => .error (.unparseableSchema schema)
    | some major =>
      if major = describeSchemaMajor then .ok () else .error (.incompatibleSchema major)

/-- `parse_and_check`, with `serde_json::from_slice` as a parameter. -/
def parseAndCheck (fromSlice : Bytes → Option Manifest) (bytes : Bytes) :
    Except DescribeError Manifest :=
  match fromSlice bytes with
  | none => .error .badJson
  | some manifest => (checkSchema manifest.schema).map fun _ => manifest

/-- An optional value. -/
def optional {α : Type} (encode : α → Doc) : Option α → Doc
  | none => .null
  | some a => encode a

/-- A number. -/
def natural (n : ℕ) : Doc := .number (.int n)

/-- A list of texts. -/
def texts (l : List Text) : Doc := .array (l.map .string)

/-- A list of pairs of texts. -/
def textPairs (l : List (Text × Text)) : Doc :=
  .array (l.map fun p => .array [.string p.1, .string p.2])

/-- The fields of the options as they are serialized. -/
def configFields (o : FunctionOptions) : List (Text × Doc) :=
  [("gpu".toList, optional .string o.gpu),
    ("timeout_secs".toList, optional natural o.timeoutSecs),
    ("cache".toList, optional .bool o.cache),
    ("milli_cpu".toList, optional natural o.milliCpu),
    ("memory_mb".toList, optional natural o.memoryMb),
    ("secrets".toList, texts o.secrets),
    ("required_keys".toList, texts o.requiredKeys),
    ("env".toList, textPairs o.env),
    ("volumes".toList, textPairs o.volumes),
    ("retries".toList, optional natural o.retries),
    ("retries_spec".toList, optional .string o.retriesSpec),
    ("schedule".toList, optional .string o.schedule),
    ("min_containers".toList, optional natural o.minContainers),
    ("max_containers".toList, optional natural o.maxContainers),
    ("buffer_containers".toList, optional natural o.bufferContainers),
    ("scaledown_window".toList, optional natural o.scaledownWindow),
    ("image".toList, optional .string o.image),
    ("enable_memory_snapshot".toList, .bool o.enableMemorySnapshot),
    ("webhook_method".toList, optional .string o.webhookMethod),
    ("webhook_requires_proxy_auth".toList, .bool o.webhookRequiresProxyAuth),
    ("web_server_port".toList, optional natural o.webServerPort),
    ("web_server_startup_timeout".toList, optional natural o.webServerStartupTimeout),
    ("max_concurrent_inputs".toList, optional natural o.maxConcurrentInputs),
    ("target_concurrent_inputs".toList, optional natural o.targetConcurrentInputs)]

/-- `serde_json::to_string` of the options. -/
def configText (o : FunctionOptions) : Text := (JsonTree.object (configFields o)).print

/-- `no_entrypoints_error`, if there are none. -/
def checkEntrypoints (package : Text) (manifest : Manifest) : Except DescribeError Unit :=
  if manifest.entrypoints.isEmpty then .error (.noEntrypoints package) else .ok ()

/-- The manifest that a runner printed, if it can be used. -/
def readManifest (fromSlice : Bytes → Option Manifest) (package : Text) (bytes : Bytes) :
    Except DescribeError Manifest := do
  let manifest ← parseAndCheck fromSlice bytes
  checkEntrypoints package manifest
  return manifest

/-- The values that a reader which keeps literals makes of a tree. -/
def literals (d : Doc) : Option (JsonTree Literal) := d.toValue (JsonTree.reread some)

/-- Reading is injective on an encoding. -/
def Readable {α : Type} (encode : α → Doc) : Prop :=
  ∀ a, ∃ v, literals (encode a) = some v ∧ ∀ b, literals (encode b) = some v → a = b

/-- Texts can be read. -/
theorem readable_string : Readable (.string : Text → Doc) :=
  fun a => ⟨.string a, rfl, fun b hb => by cases hb; rfl⟩

/-- Booleans can be read. -/
theorem readable_bool : Readable (.bool : Bool → Doc) :=
  fun a => ⟨.bool a, rfl, fun b hb => by cases hb; rfl⟩

/-- Numbers can be read. -/
theorem readable_natural : Readable natural := by
  refine fun a => ⟨.number (Numeric.literal (WideNumber.int a)), rfl, fun b hb => ?_⟩
  have hliteral : intLiteral ((b : ℤ) < 0) (b : ℤ).natAbs =
      intLiteral ((a : ℤ) < 0) (a : ℤ).natAbs := JsonTree.number.inj (Option.some.inj hb)
  have hinteger := integer_intLiteral (b : ℤ)
  rw [hliteral, integer_intLiteral] at hinteger
  have hcast := Option.some.inj hinteger
  omega

/-- An optional value can be read if `null` is no value. -/
theorem Readable.optional {α : Type} {encode : α → Doc} (hread : Readable encode)
    (hnull : ∀ a, literals (encode a) ≠ some .null) : Readable (optional encode) := by
  rintro (_ | a)
  · refine ⟨.null, rfl, fun b hb => ?_⟩
    cases b with
    | none => rfl
    | some b => exact absurd hb (hnull b)
  · obtain ⟨v, hv, hinj⟩ := hread a
    refine ⟨v, hv, fun b hb => ?_⟩
    cases b with
    | none =>
      have hnone : some JsonTree.null = some v := hb
      exact absurd (hv.trans hnone.symm) (hnull a)
    | some b => rw [hinj b hb]

/-- Lists can be read. -/
theorem Readable.array {α : Type} {encode : α → Doc} (hread : Readable encode) :
    Readable fun l : List α => .array (l.map encode) := by
  have hitems (l : List α) : ∃ vs, JsonTree.toValueItems (JsonTree.reread some) (l.map encode) =
      some vs ∧ ∀ m : List α, JsonTree.toValueItems (JsonTree.reread some) (m.map encode) =
        some vs → l = m := by
    induction l with
    | nil =>
      refine ⟨[], rfl, fun m hm => ?_⟩
      have hforall := JsonTree.toValueItems_eq_some.mp hm
      rw [List.forall₂_nil_right_iff, List.map_eq_nil_iff] at hforall
      exact hforall.symm
    | cons a l ih =>
      obtain ⟨v, hv, hinj⟩ := hread a
      obtain ⟨vs, hvs, hinjs⟩ := ih
      refine ⟨v :: vs, ?_, fun m hm => ?_⟩
      · have hhead : JsonTree.toValue (JsonTree.reread some) (encode a) = some v := hv
        rw [List.map_cons, JsonTree.toValueItems, hhead, Option.bind_some, hvs]
        rfl
      · have hforall := JsonTree.toValueItems_eq_some.mp hm
        cases m with
        | nil => cases hforall
        | cons b m =>
          obtain ⟨hb, hrest⟩ := List.forall₂_cons.mp hforall
          rw [hinj b hb, hinjs m (JsonTree.toValueItems_eq_some.mpr hrest)]
  intro l
  obtain ⟨vs, hvs, hinj⟩ := hitems l
  refine ⟨.array vs, ?_, fun m hm => hinj m ?_⟩
  · change (JsonTree.toValueItems _ _).map _ = _
    rw [hvs]
    rfl
  · obtain ⟨ws, hws, harray⟩ := Option.map_eq_some_iff.mp hm
    rw [hws, JsonTree.array.inj harray]

/-- Pairs of texts can be read. -/
theorem readable_pair : Readable fun p : Text × Text => .array [.string p.1, .string p.2] := by
  refine fun p => ⟨.array [.string p.1, .string p.2], rfl, fun q hq => ?_⟩
  have hitems : ([.string q.1, .string q.2] : List (JsonTree Literal)) =
      [.string p.1, .string p.2] := JsonTree.array.inj (Option.some.inj hq)
  simp only [List.cons.injEq, JsonTree.string.injEq, and_true] at hitems
  exact Prod.ext hitems.1.symm hitems.2.symm

/-- What is read alike is the same. -/
theorem Readable.eq {α : Type} {encode : α → Doc} (hread : Readable encode) {a b : α}
    (hsame : literals (encode a) = literals (encode b)) : a = b := by
  obtain ⟨v, hv, hinj⟩ := hread a
  exact hinj b (hsame.symm.trans hv)

/-- Every tree of the serializer has literals. -/
theorem exists_literals (d : Doc) : ∃ v, literals d = some v := by
  have hread : ∀ n ∈ d.numbers, ∃ m, JsonTree.reread some n = some m ∧
      JsonTree.reread some n = some m := fun n _ => ⟨_, rfl, rfl⟩
  obtain ⟨v, hv, -⟩ := JsonTree.exists_toValue hread
  exact ⟨v, hv⟩

/-- Related lists one after the other. -/
theorem forall₂_comp {α β γ : Type} {R : α → β → Prop} {S : β → γ → Prop} {as : List α}
    {bs : List β} {cs : List γ} (hleft : List.Forall₂ R as bs) (hright : List.Forall₂ S bs cs) :
    List.Forall₂ (fun a c => ∃ b, R a b ∧ S b c) as cs := by
  induction hleft generalizing cs with
  | nil =>
    cases hright
    exact .nil
  | cons hhead _ ih =>
    obtain ⟨c, cs, hc, hcs, rfl⟩ := List.forall₂_cons_left_iff.mp hright
    exact .cons ⟨_, hhead, hc⟩ (ih hcs)

/-- Trees that are not nested deeply, with one text, have the same literals. -/
theorem literals_of_print {d d' : Doc} (hprint : d.print = d'.print) (hdepth : d.depth ≤ 127)
    (hdepth' : d'.depth ≤ 127) : literals d = literals d' := by
  have hspace : ([] : Text).all isJsonSpace = true := rfl
  have hread := JsonTree.parseJson_print (some : Literal → Option Literal) d hspace
  have hread' := JsonTree.parseJson_print (some : Literal → Option Literal) d' hspace
  rw [if_pos hdepth] at hread
  rw [if_pos hdepth', ← hprint, hread] at hread'
  exact hread'

/-- Objects with the same keys and the same literals have entries with the same literals. -/
theorem forall₂_of_literals {entries entries' : List (Text × Doc)}
    (hsame : literals (.object entries) = literals (.object entries'))
    (hkeys : entries.map Prod.fst = entries'.map Prod.fst)
    (hnodup : (entries.map Prod.fst).Nodup) :
    List.Forall₂ (fun e e' => literals e.2 = literals e'.2) entries entries' := by
  obtain ⟨v, hv⟩ := exists_literals (.object entries)
  obtain ⟨values, hvalues, hobject⟩ := Option.map_eq_some_iff.mp hv
  obtain ⟨values', hvalues', hobject'⟩ := Option.map_eq_some_iff.mp (hsame.symm.trans hv)
  have hfst := JsonTree.map_fst_of_toValueEntries hvalues
  have hfst' := JsonTree.map_fst_of_toValueEntries hvalues'
  have hstored : values = values' := by
    refine storeEntries_injective ?_ (hfst ▸ hnodup) ?_
    · rw [← hfst, hkeys, hfst']
    · exact JsonTree.object.inj (hobject.trans hobject'.symm)
  have hleft := JsonTree.toValueEntries_eq_some.mp hvalues
  have hright := (JsonTree.toValueEntries_eq_some.mp hvalues').flip
  rw [← hstored] at hright
  refine (forall₂_comp hleft hright).imp fun e e' hvalue => ?_
  obtain ⟨value, ⟨-, he⟩, -, he'⟩ := hvalue
  exact he.trans he'.symm

/-- An encoding whose literals are different can be read. -/
theorem Readable.of_injective {α : Type} {encode : α → Doc}
    (hinj : ∀ a b, literals (encode a) = literals (encode b) → a = b) : Readable encode := by
  intro a
  obtain ⟨v, hv⟩ := exists_literals (encode a)
  exact ⟨v, hv, fun b hb => hinj a b (hv.trans hb.symm)⟩

/-- The keys of the options, which do not depend on them. -/
theorem map_fst_configFields (o o' : FunctionOptions) :
    (configFields o).map Prod.fst = (configFields o').map Prod.fst := rfl

/-- No key of the options is written twice. -/
theorem nodup_configFields (o : FunctionOptions) : ((configFields o).map Prod.fst).Nodup := by
  rw [map_fst_configFields o FunctionOptions.default]
  decide +kernel

/-- The depth of an optional value. -/
theorem depth_optional {α : Type} {encode : α → Doc} {n : ℕ} (hencode : ∀ a, (encode a).depth ≤ n)
    (a : Option α) : (optional encode a).depth ≤ n := by
  cases a with
  | none => exact Nat.zero_le n
  | some a => exact hencode a

/-- The depth of a list. -/
theorem depth_array {α : Type} {encode : α → Doc} {n : ℕ} (hencode : ∀ a, (encode a).depth ≤ n)
    (l : List α) : (JsonTree.array (l.map encode)).depth ≤ n + 1 := by
  refine Nat.succ_le_succ (JsonTree.depthItems_le.mpr fun item hitem => ?_)
  obtain ⟨a, -, rfl⟩ := List.mem_map.mp hitem
  exact hencode a

/-- The options are not nested deeply. -/
theorem depth_configFields (o : FunctionOptions) :
    (JsonTree.object (configFields o)).depth ≤ 3 := by
  have hstring (a : Option Text) : (optional .string a).depth ≤ 2 :=
    depth_optional (fun _ => Nat.zero_le _) a
  have hbool (a : Option Bool) : (optional .bool a).depth ≤ 2 :=
    depth_optional (fun _ => Nat.zero_le _) a
  have hnatural (a : Option ℕ) : (optional natural a).depth ≤ 2 :=
    depth_optional (fun _ => Nat.zero_le _) a
  have htexts (l : List Text) : (texts l).depth ≤ 2 :=
    depth_array (n := 1) (fun _ => Nat.zero_le _) l
  have hpairs (l : List (Text × Text)) : (textPairs l).depth ≤ 2 :=
    depth_array (n := 1) (fun p => by simp [JsonTree.depth, JsonTree.depthItems]) l
  refine Nat.succ_le_succ (JsonTree.depthEntries_le.mpr ?_)
  simp only [configFields, List.forall_mem_cons, hstring, hbool, hnatural, htexts, hpairs,
    JsonTree.depth, Nat.zero_le, List.not_mem_nil, false_implies, implies_true, and_self]

/-- **The options can be read.** -/
theorem readable_configFields : Readable fun o => .object (configFields o) := by
  refine .of_injective fun o o' hsame => ?_
  have hfields := forall₂_of_literals hsame (map_fst_configFields o o') (nodup_configFields o)
  have hstring {a b : Option Text} :
      literals (optional .string a) = literals (optional .string b) → a = b :=
    Readable.eq (readable_string.optional nofun)
  have hbool {a b : Option Bool} :
      literals (optional .bool a) = literals (optional .bool b) → a = b :=
    Readable.eq (readable_bool.optional nofun)
  have hnatural {a b : Option ℕ} :
      literals (optional natural a) = literals (optional natural b) → a = b :=
    Readable.eq (readable_natural.optional nofun)
  have htexts {l m : List Text} : literals (texts l) = literals (texts m) → l = m :=
    Readable.eq readable_string.array
  have hpairs {l m : List (Text × Text)} :
      literals (textPairs l) = literals (textPairs m) → l = m :=
    Readable.eq readable_pair.array
  have hflag {a b : Bool} : literals (.bool a) = literals (.bool b) → a = b :=
    Readable.eq readable_bool
  simp only [configFields, List.forall₂_cons] at hfields
  obtain ⟨hgpu, htimeout, hcache, hcpu, hmemory, hsecrets, hkeys, henv, hvolumes, hretries, hspec,
    hschedule, hmin, hmax, hbuffer, hscaledown, himage, hsnapshot, hmethod, hauth, hport, hstartup,
    hinputs, htarget, -⟩ := hfields
  cases o
  cases o'
  simp only [FunctionOptions.mk.injEq]
  exact ⟨hstring hgpu, hnatural htimeout, hbool hcache, hnatural hcpu, hnatural hmemory,
    htexts hsecrets, htexts hkeys, hpairs henv, hpairs hvolumes, hnatural hretries, hstring hspec,
    hstring hschedule, hnatural hmin, hnatural hmax, hnatural hbuffer, hnatural hscaledown,
    hstring himage, hflag hsnapshot, hstring hmethod, hflag hauth, hnatural hport,
    hnatural hstartup, hnatural hinputs, hnatural htarget⟩

/-- The text of the options determines them. -/
theorem configText_injective : Function.Injective configText := fun o o' hprint =>
  readable_configFields.eq (literals_of_print hprint
    ((depth_configFields o).trans (by omega)) ((depth_configFields o').trans (by omega)))

end ModalRust.Describe
