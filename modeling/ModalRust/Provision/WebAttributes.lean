import ModalRust.Decimal
import ModalRust.Provision.Run

/-!
# The attributes of the deploy wrapper

A deploy appends a line to its wrapper for every endpoint and every web server. Each line binds
an attribute of the module to the adapter of that entrypoint, and the function that is created for
the entrypoint is called through this attribute. Python runs the lines in order, so the last
binding of an attribute is the one that a call finds.
-/

namespace ModalRust.Provision

/-- What an attribute of the wrapper module is bound to. -/
inductive Adapter
  /-- The shared dispatch, `handler`. -/
  | dispatch
  /-- `_make_web_handler(entrypoint)`. -/
  | web (entrypoint : Text)
  /-- `_make_web_server_handler(port, entrypoint)`. -/
  | webServer (port : ℕ) (entrypoint : Text)
  deriving DecidableEq

/-- The characters that stand for themselves in a string literal between double quotes. -/
def isPlain (c : Char) : Bool :=
  !(c == '"' || c == '\\' || c == '\n' || c == '\r' || c == '\x00')

/-- A string literal without escapes, after its opening quote, and the text after it. -/
def readQuoted (t : Text) : Option (Text × Text) :=
  match t.dropWhile isPlain with
  | '"' :: rest => some (t.takeWhile isPlain, rest)
  | _ => none

/-- The call that makes an adapter. -/
def readAdapterCall (t : Text) : Option Adapter :=
  match t.dropPrefix? "_make_web_handler(\"".toList with
  | some t => do
    let (entrypoint, rest) ← readQuoted t
    if rest = [')'] then some (.web entrypoint) else none
  | none => do
    let t ← t.dropPrefix? "_make_web_server_handler(".toList
    let (port, t) ← splitOnce ',' t
    let port ← digitsValue port
    let t ← t.dropPrefix? " \"".toList
    let (entrypoint, rest) ← readQuoted t
    if rest = [')'] then some (.webServer port entrypoint) else none

/-- Whether a text is an identifier of ASCII characters. -/
def isIdentifier (t : Text) : Bool :=
  t.all (fun c => c.isAlphanum || c == '_') && t.head?.any fun c => !c.isDigit

/-- A line that binds an attribute. -/
def readLine (line : Text) : Option (Text × Adapter) := do
  let (attr, t) ← splitOnce ' ' line
  let t ← t.dropPrefix? "= ".toList
  let adapter ← readAdapterCall t
  if isIdentifier attr then some (attr, adapter) else none

/-- The bindings of a text, in order. -/
def readModule (t : Text) : Option (List (Text × Adapter)) :=
  ((t.splitOn '\n').filter fun line => line ≠ []).mapM readLine

/-- What an attribute of the wrapper is bound to when the module is loaded: by the last of the
generated lines that binds it, else by the static source, which defines `handler`. -/
def resolve (host : Host) (wrapper attr : Text) : Option Adapter := do
  let bindings ← readModule (wrapper.drop host.deployWrapperSrc.length)
  match bindings.reverse.lookup attr with
  | some adapter => some adapter
  | none => if attr = deployWrapperCallable then some .dispatch else none

/-- The wrapper that a deploy of the entrypoints bakes. -/
def deployedWrapper (host : Host) (entrypoints : List Entrypoint) : Text :=
  let gates := deployGates entrypoints
  bakedDeployWrapperSrc host gates.endpointEntrypoints gates.webServerEntrypoints

/-- The adapter of an entrypoint. -/
def adapterOf (ep : Entrypoint) : Adapter :=
  match ep.options.webServerPort, ep.options.webhookMethod with
  | some port, _ => .webServer port ep.name
  | none, some _ => .web ep.name
  | none, none => .dispatch

/-- The web entrypoints have attributes of their own. -/
structure Apart (gates : DeployGates) : Prop where
  /-- No two endpoints have one sanitized name. -/
  endpoints : ∀ n ∈ gates.endpointEntrypoints, ∀ n' ∈ gates.endpointEntrypoints,
    sanitized n = sanitized n' → n = n'
  /-- No two web servers have one sanitized name. -/
  webServers : ∀ s ∈ gates.webServerEntrypoints, ∀ s' ∈ gates.webServerEntrypoints,
    sanitized s.1 = sanitized s'.1 → s = s'
  /-- No endpoint is named like a web server after `server_`. -/
  kinds : ∀ n ∈ gates.endpointEntrypoints, ∀ s ∈ gates.webServerEntrypoints,
    sanitized n ≠ "server_".toList ++ sanitized s.1

/-- An endpoint takes the place of a web server when the names overlap. -/
example : webEndpointAttr "server_app".toList = webServerAttr "app".toList := by decide

/-- What follows a prefix. -/
theorem dropPrefix?_append (start t : Text) : (start ++ t).dropPrefix? start = some t :=
  List.dropPrefix?_eq_some_iff.mpr ⟨start, rfl, beq_self_eq_true _⟩

/-- A name without special characters is read back from its literal. -/
theorem readQuoted_append {name : Text} (hname : ∀ c ∈ name, isPlain c = true) (t : Text) :
    readQuoted (name ++ '"' :: t) = some (name, t) := by
  have hquote : ¬ isPlain '"' = true := by decide
  have hrest : (name ++ '"' :: t).dropWhile isPlain = '"' :: t := by
    rw [List.dropWhile_append_of_pos hname, List.dropWhile_cons_of_neg hquote]
  have hbody : (name ++ '"' :: t).takeWhile isPlain = name := by
    rw [List.takeWhile_append_of_pos hname, List.takeWhile_cons_of_neg hquote, List.append_nil]
  simp only [readQuoted, hrest, hbody]

/-- The characters of a sanitized name. -/
theorem mem_sanitized {name : Text} {c : Char} (hc : c ∈ sanitized name) :
    (c.isAlphanum || c == '_') = true := by
  obtain ⟨d, -, rfl⟩ := List.mem_map.mp hc
  unfold attrChar
  split
  · assumption
  · decide

/-- An attribute is an identifier. -/
theorem isIdentifier_attr {start name : Text} (hne : start ≠ [])
    (hstart : isIdentifier start = true) : isIdentifier (start ++ sanitized name) = true := by
  unfold isIdentifier at hstart ⊢
  rw [Bool.and_eq_true, List.all_eq_true] at hstart ⊢
  refine ⟨fun c hc => ?_, ?_⟩
  · rcases List.mem_append.mp hc with hc | hc
    · exact hstart.1 c hc
    · exact mem_sanitized hc
  · obtain ⟨c, start, rfl⟩ := List.exists_cons_of_ne_nil hne
    exact hstart.2

/-- The characters of an identifier are no separators. -/
theorem not_mem_of_isIdentifier {t : Text} (ht : isIdentifier t = true) : ' ' ∉ t ∧ '\n' ∉ t := by
  unfold isIdentifier at ht
  rw [Bool.and_eq_true, List.all_eq_true] at ht
  exact ⟨fun hmem => absurd (ht.1 _ hmem) (by decide), fun hmem => absurd (ht.1 _ hmem) (by decide)⟩

/-- A line that binds an attribute to the call of an adapter. -/
theorem readLine_append {attr call : Text} {adapter : Adapter} (hattr : isIdentifier attr = true)
    (hcall : readAdapterCall call = some adapter) :
    readLine (attr ++ ' ' :: ("= ".toList ++ call)) = some (attr, adapter) := by
  unfold readLine
  rw [splitOnce_append (not_mem_of_isIdentifier hattr).1]
  simp only [Option.bind_eq_bind, Option.bind_some, dropPrefix?_append, hcall, hattr, if_true]

/-- The call of an endpoint's adapter. -/
theorem readAdapterCall_web {name : Text} (hname : ∀ c ∈ name, isPlain c = true) :
    readAdapterCall ("_make_web_handler(\"".toList ++ (name ++ '"' :: [')'])) =
      some (.web name) := by
  unfold readAdapterCall
  rw [dropPrefix?_append]
  simp only [Option.bind_eq_bind, readQuoted_append hname, Option.bind_some, if_true]

/-- The call of a web server's adapter. -/
theorem readAdapterCall_webServer {name : Text} (hname : ∀ c ∈ name, isPlain c = true) (port : ℕ) :
    readAdapterCall ("_make_web_server_handler(".toList ++ (Nat.toDigits 10 port ++
      ',' :: (" \"".toList ++ (name ++ '"' :: [')'])))) = some (.webServer port name) := by
  have hcomma : ',' ∉ Nat.toDigits 10 port := fun hmem =>
    absurd (isDigit_toDigits hmem) (by decide)
  have hother : ∀ t : Text, ("_make_web_server_handler(".toList ++ t).dropPrefix?
      "_make_web_handler(\"".toList = none := fun t => rfl
  unfold readAdapterCall
  rw [hother]
  simp only [Option.bind_eq_bind, dropPrefix?_append, Option.bind_some,
    splitOnce_append hcomma, digitsValue_toDigits, readQuoted_append hname, if_true]

/-- A line is read before the lines after it. -/
theorem readModule_line {line : Text} (hline : '\n' ∉ line) (hne : line ≠ []) (t : Text) :
    readModule (line ++ '\n' :: t) =
      (readLine line).bind fun binding => (readModule t).map fun rest => binding :: rest := by
  have hsplit : (line ++ '\n' :: t).splitOn '\n' = line :: t.splitOn '\n' :=
    List.splitOnP_append_cons_of_forall_mem (p := fun c => c == '\n')
      (fun c hc => beq_eq_false_iff_ne.mpr (ne_of_mem_of_not_mem hc hline)) '\n'
      (beq_self_eq_true _) t
  unfold readModule
  rw [hsplit, List.filter_cons_of_pos (by simpa using hne), List.mapM_cons]
  cases readLine line with
  | none => rfl
  | some binding =>
    cases ((t.splitOn '\n').filter fun line => line ≠ []).mapM readLine with
    | none => rfl
    | some rest => rfl

/-- An empty line binds nothing. -/
theorem readModule_blank (t : Text) : readModule ('\n' :: t) = readModule t := by
  have hsplit : ('\n' :: t).splitOn '\n' = [] :: t.splitOn '\n' :=
    List.splitOnP_append_cons_of_forall_mem (p := fun c => c == '\n')
      (fun _ hc => absurd hc List.not_mem_nil) '\n' (beq_self_eq_true _) t
  unfold readModule
  rw [hsplit, List.filter_cons_of_neg (by simp)]

/-- The lines of a list are read one after another. -/
theorem readModule_lines {α : Type} {line : α → Text} {binding : α → Text × Adapter} {l : List α}
    (hread : ∀ a ∈ l, ∃ statement, line a = statement ++ ['\n'] ∧ '\n' ∉ statement ∧
      statement ≠ [] ∧ readLine statement = some (binding a)) (t : Text) :
    readModule (l.flatMap line ++ t) =
      (readModule t).map fun rest => l.map binding ++ rest := by
  induction l with
  | nil => simp
  | cons a l ih =>
    obtain ⟨statement, hstatement, hline, hne, ha⟩ := hread a List.mem_cons_self
    rw [List.flatMap_cons, hstatement, List.append_assoc, List.append_assoc,
      List.singleton_append, readModule_line hline hne, ha, Option.bind_some,
      ih fun b hb => hread b (List.mem_cons_of_mem _ hb), Option.map_map]
    rfl

/-- What an endpoint's line binds. -/
def endpointBinding (name : Text) : Text × Adapter := (webEndpointAttr name, .web name)

/-- What a web server's line binds. -/
def serverBinding (server : Text × ℕ) : Text × Adapter :=
  (webServerAttr server.1, .webServer server.2 server.1)

/-- The bindings of the web entrypoints. -/
def DeployGates.bindings (gates : DeployGates) : List (Text × Adapter) :=
  gates.endpointEntrypoints.map endpointBinding ++ gates.webServerEntrypoints.map serverBinding

/-- The line of an endpoint is read as its binding. -/
theorem exists_endpoint_statement {name : Text} (hname : ∀ c ∈ name, isPlain c = true) :
    ∃ statement, webAdapterLine name = statement ++ ['\n'] ∧ '\n' ∉ statement ∧
      statement ≠ [] ∧ readLine statement = some (endpointBinding name) := by
  have hattr : isIdentifier (webEndpointAttr name) = true :=
    isIdentifier_attr (by decide) (by decide)
  refine ⟨_, ?_, ?_, ?_, readLine_append hattr (readAdapterCall_web hname)⟩
  · unfold webAdapterLine
    simp only [List.append_assoc, List.cons_append]
    rfl
  · simp only [List.mem_append, List.mem_cons, not_or]
    refine ⟨(not_mem_of_isIdentifier hattr).2, by decide, by decide, by decide, ?_, by decide⟩
    exact fun hmem => absurd (hname _ hmem) (by decide)
  · exact List.append_ne_nil_of_right_ne_nil _ (List.cons_ne_nil _ _)

/-- The line of a web server is read as its binding. -/
theorem exists_server_statement {server : Text × ℕ} (hname : ∀ c ∈ server.1, isPlain c = true) :
    ∃ statement, webServerAdapterLine server = statement ++ ['\n'] ∧ '\n' ∉ statement ∧
      statement ≠ [] ∧ readLine statement = some (serverBinding server) := by
  have hattr : isIdentifier (webServerAttr server.1) = true :=
    isIdentifier_attr (by decide) (by decide)
  refine ⟨_, ?_, ?_, ?_, readLine_append hattr (readAdapterCall_webServer hname server.2)⟩
  · unfold webServerAdapterLine
    simp only [List.append_assoc, List.cons_append]
    rfl
  · simp only [List.mem_append, List.mem_cons, not_or]
    refine ⟨(not_mem_of_isIdentifier hattr).2, by decide, by decide, by decide,
      fun hmem => absurd (isDigit_toDigits hmem) (by decide), by decide, by decide, ?_, by decide⟩
    exact fun hmem => absurd (hname _ hmem) (by decide)
  · exact List.append_ne_nil_of_right_ne_nil _ (List.cons_ne_nil _ _)

/-- The attribute and the adapter of an entrypoint, by its kind. -/
theorem callable_cases (ep : Entrypoint) :
    (adapterOf ep = .dispatch ∧ callableFor deployBoundary ep = deployWrapperCallable) ∨
      (callableFor deployBoundary ep, adapterOf ep) = endpointBinding ep.name ∨
      ∃ port, (callableFor deployBoundary ep, adapterOf ep) = serverBinding (ep.name, port) := by
  unfold adapterOf callableFor webhookFor
  cases hport : ep.options.webServerPort with
  | some port => exact .inr (.inr ⟨port, rfl⟩)
  | none =>
    cases hmethod : ep.options.webhookMethod with
    | some method => exact .inr (.inl rfl)
    | none => exact .inl ⟨rfl, rfl⟩

/-- A function is created with the attribute of its entrypoint. -/
theorem functionName_of_buildFunctionSpec {std : Sdk.Std} {boundary : Boundary} {ep : Entrypoint}
    {imageId : Text} {res : AttachedResources} {spec : Sdk.FunctionSpec}
    (hspec : buildFunctionSpec std boundary ep imageId res = .ok spec) :
    spec.functionName = callableFor boundary ep := by
  rw [buildFunctionSpec_eq] at hspec
  cases hchecked : checkOptions std boundary ep with
  | error e =>
    rw [hchecked] at hspec
    cases hspec
  | ok checked =>
    rw [hchecked] at hspec
    cases hspec
    rfl

/-- The endpoints of the gates. -/
theorem mem_endpointEntrypoints_iff {entrypoints : List Entrypoint} {name : Text} :
    name ∈ (deployGates entrypoints).endpointEntrypoints ↔
      ∃ ep ∈ entrypoints, ep.name = name ∧ adapterOf ep = .web name := by
  unfold deployGates adapterOf
  simp only [List.mem_map, List.mem_filter, Bool.and_eq_true]
  constructor
  · rintro ⟨ep, ⟨hep, hmethod, hport⟩, rfl⟩
    obtain ⟨method, hmethod⟩ := Option.isSome_iff_exists.mp hmethod
    have hport := Option.isNone_iff_eq_none.mp hport
    exact ⟨ep, hep, rfl, by rw [hport, hmethod]⟩
  · rintro ⟨ep, hep, rfl, hadapter⟩
    cases hport : ep.options.webServerPort with
    | some port => simp [hport] at hadapter
    | none =>
      cases hmethod : ep.options.webhookMethod with
      | none => simp [hport, hmethod] at hadapter
      | some method => exact ⟨ep, ⟨hep, by rw [hmethod]; rfl, by rw [hport]; rfl⟩, rfl⟩

/-- The web servers of the gates. -/
theorem mem_webServerEntrypoints_iff {entrypoints : List Entrypoint} {server : Text × ℕ} :
    server ∈ (deployGates entrypoints).webServerEntrypoints ↔
      ∃ ep ∈ entrypoints, ep.name = server.1 ∧ adapterOf ep = .webServer server.2 server.1 := by
  unfold deployGates adapterOf
  simp only [List.mem_filterMap, Option.map_eq_some_iff]
  constructor
  · rintro ⟨ep, hep, port, hport, rfl⟩
    exact ⟨ep, hep, rfl, by rw [hport]⟩
  · rintro ⟨ep, hep, hname, hadapter⟩
    cases hport : ep.options.webServerPort with
    | none =>
      cases hmethod : ep.options.webhookMethod with
      | none => simp [hport, hmethod] at hadapter
      | some method => simp [hport, hmethod] at hadapter
    | some port =>
      simp only [hport, Adapter.webServer.injEq] at hadapter
      exact ⟨ep, hep, port, hport, Prod.ext hname hadapter.1⟩

/-- What the generated lines bind: the attributes of the web entrypoints to their adapters. -/
theorem mem_bindings_iff {entrypoints : List Entrypoint} {binding : Text × Adapter} :
    binding ∈ (deployGates entrypoints).bindings ↔
      ∃ ep ∈ entrypoints, adapterOf ep ≠ .dispatch ∧
        (callableFor deployBoundary ep, adapterOf ep) = binding := by
  unfold DeployGates.bindings
  rw [List.mem_append, List.mem_map, List.mem_map]
  constructor
  · rintro (⟨name, hname, rfl⟩ | ⟨server, hserver, rfl⟩)
    · obtain ⟨ep, hep, rfl, hadapter⟩ := mem_endpointEntrypoints_iff.mp hname
      refine ⟨ep, hep, by rw [hadapter]; nofun, ?_⟩
      rcases callable_cases ep with ⟨hdispatch, -⟩ | hcallable | ⟨port, hcallable⟩
      · rw [hadapter] at hdispatch
        cases hdispatch
      · exact hcallable
      · have hserver := congrArg Prod.snd hcallable
        rw [hadapter] at hserver
        cases hserver
    · obtain ⟨ep, hep, hname, hadapter⟩ := mem_webServerEntrypoints_iff.mp hserver
      refine ⟨ep, hep, by rw [hadapter]; nofun, ?_⟩
      rcases callable_cases ep with ⟨hdispatch, -⟩ | hcallable | ⟨port, hcallable⟩
      · rw [hadapter] at hdispatch
        cases hdispatch
      · have hendpoint := congrArg Prod.snd hcallable
        rw [hadapter] at hendpoint
        cases hendpoint
      · have hport := congrArg Prod.snd hcallable
        rw [hadapter] at hport
        obtain ⟨n, p⟩ := server
        cases hport
        exact hcallable
  · rintro ⟨ep, hep, hweb, rfl⟩
    rcases callable_cases ep with ⟨hdispatch, -⟩ | hcallable | ⟨port, hcallable⟩
    · exact absurd hdispatch hweb
    · exact .inl ⟨ep.name, mem_endpointEntrypoints_iff.mpr ⟨ep, hep, rfl,
        congrArg Prod.snd hcallable⟩, hcallable.symm⟩
    · exact .inr ⟨(ep.name, port), mem_webServerEntrypoints_iff.mpr ⟨ep, hep, rfl,
        congrArg Prod.snd hcallable⟩, hcallable.symm⟩

/-- What is appended to the static wrapper. -/
theorem drop_bakedDeployWrapperSrc (host : Host) (endpoints : List Text)
    (servers : List (Text × ℕ)) :
    (bakedDeployWrapperSrc host endpoints servers).drop host.deployWrapperSrc.length =
      if endpoints.isEmpty && servers.isEmpty then []
      else '\n' :: (webAdapterSuffix endpoints ++ webServerAdapterSuffix servers) := by
  unfold bakedDeployWrapperSrc
  cases endpoints.isEmpty && servers.isEmpty with
  | true => exact List.drop_length
  | false =>
    simp only [Bool.false_eq_true, if_false, List.append_assoc]
    exact List.drop_left

/-- The generated lines are read as the bindings of the web entrypoints. -/
theorem readModule_deployedWrapper (host : Host) {entrypoints : List Entrypoint}
    (hplain : ∀ ep ∈ entrypoints, adapterOf ep ≠ .dispatch → ∀ c ∈ ep.name, isPlain c = true) :
    readModule ((deployedWrapper host entrypoints).drop host.deployWrapperSrc.length) =
      some (deployGates entrypoints).bindings := by
  have hendpoints : ∀ name ∈ (deployGates entrypoints).endpointEntrypoints,
      ∀ c ∈ name, isPlain c = true := fun name hname => by
    obtain ⟨ep, hep, rfl, hadapter⟩ := mem_endpointEntrypoints_iff.mp hname
    exact hplain ep hep (by rw [hadapter]; nofun)
  have hservers : ∀ server ∈ (deployGates entrypoints).webServerEntrypoints,
      ∀ c ∈ server.1, isPlain c = true := fun server hserver => by
    obtain ⟨ep, hep, hname, hadapter⟩ := mem_webServerEntrypoints_iff.mp hserver
    rw [← hname]
    exact hplain ep hep (by rw [hadapter]; nofun)
  have hsuffix : readModule (webAdapterSuffix (deployGates entrypoints).endpointEntrypoints ++
      webServerAdapterSuffix (deployGates entrypoints).webServerEntrypoints) =
        some (deployGates entrypoints).bindings := by
    have hlast := readModule_lines
      (fun server hserver => exists_server_statement (hservers server hserver)) []
    rw [List.append_nil] at hlast
    unfold webAdapterSuffix webServerAdapterSuffix
    rw [readModule_lines (fun name hname => exists_endpoint_statement (hendpoints name hname)),
      hlast]
    simp [DeployGates.bindings, readModule]
  unfold deployedWrapper
  dsimp only
  rw [drop_bakedDeployWrapperSrc]
  cases hempty : (deployGates entrypoints).endpointEntrypoints.isEmpty &&
      (deployGates entrypoints).webServerEntrypoints.isEmpty with
  | false =>
    simp only [Bool.false_eq_true, if_false]
    rw [readModule_blank, hsuffix]
  | true =>
    obtain ⟨hendpoints, hservers⟩ := (Bool.and_eq_true _ _).mp hempty
    simp [DeployGates.bindings, List.isEmpty_iff.mp hendpoints, List.isEmpty_iff.mp hservers,
      readModule]

/-- Every binding of a list is the last one of its key just if no key has two values. -/
theorem lookup_reverse_iff {κ ν : Type} [BEq κ] [LawfulBEq κ] {l : List (κ × ν)} :
    (∀ p ∈ l, l.reverse.lookup p.1 = some p.2) ↔
      ∀ p ∈ l, ∀ q ∈ l, p.1 = q.1 → p.2 = q.2 := by
  constructor
  · intro hlast p hp q hq hkey
    have hvalue := hlast p hp
    rw [hkey, hlast q hq] at hvalue
    exact (Option.some.inj hvalue).symm
  · intro hvalues p hp
    have hsome : (l.reverse.lookup p.1).isSome = true :=
      List.lookup_isSome_iff.mpr ⟨p, List.mem_reverse.mpr hp, beq_self_eq_true _⟩
    obtain ⟨v, hv⟩ := Option.isSome_iff_exists.mp hsome
    obtain ⟨before, after, hl, -⟩ := List.lookup_eq_some_iff.mp hv
    have hq : (p.1, v) ∈ l := List.mem_reverse.mp (by rw [hl]; simp)
    rw [hv, hvalues p hp _ hq rfl]

/-- `handler` is not an attribute of a web entrypoint. -/
theorem ne_deployWrapperCallable {entrypoints : List Entrypoint} {binding : Text × Adapter}
    (hbinding : binding ∈ (deployGates entrypoints).bindings) :
    binding.1 ≠ deployWrapperCallable := by
  have hhead : binding.1.head? = some 'w' := by
    rcases List.mem_append.mp hbinding with hmem | hmem
    · obtain ⟨name, -, rfl⟩ := List.mem_map.mp hmem
      rfl
    · obtain ⟨server, -, rfl⟩ := List.mem_map.mp hmem
      rfl
  intro heq
  rw [heq] at hhead
  exact absurd hhead (by decide)

/-- A generated line binds the attribute. -/
theorem resolve_of_lookup {host : Host} {wrapper attr : Text} {bindings : List (Text × Adapter)}
    (hmodule : readModule (wrapper.drop host.deployWrapperSrc.length) = some bindings)
    {adapter : Adapter} (hlookup : bindings.reverse.lookup attr = some adapter) :
    resolve host wrapper attr = some adapter := by
  unfold resolve
  rw [hmodule]
  simp only [Option.bind_eq_bind, Option.bind_some, hlookup]

/-- No generated line binds the attribute. -/
theorem resolve_of_lookup_none {host : Host} {wrapper attr : Text}
    {bindings : List (Text × Adapter)}
    (hmodule : readModule (wrapper.drop host.deployWrapperSrc.length) = some bindings)
    (hlookup : bindings.reverse.lookup attr = none) :
    resolve host wrapper attr = if attr = deployWrapperCallable then some .dispatch else none := by
  unfold resolve
  rw [hmodule]
  simp only [Option.bind_eq_bind, Option.bind_some, hlookup]

/-- The web entrypoints have attributes of their own just if no attribute is bound to two
adapters. -/
theorem apart_iff {gates : DeployGates} :
    Apart gates ↔ ∀ p ∈ gates.bindings, ∀ q ∈ gates.bindings, p.1 = q.1 → p.2 = q.2 := by
  have hkinds : ∀ {name : Text} {server : Text × ℕ}, webEndpointAttr name = webServerAttr server.1 →
      sanitized name = "server_".toList ++ sanitized server.1 := fun heq =>
    (List.append_right_inj "web_".toList).mp heq
  have hendpoint : ∀ {name : Text}, name ∈ gates.endpointEntrypoints →
      endpointBinding name ∈ gates.bindings := fun hname =>
    List.mem_append_left _ (List.mem_map_of_mem hname)
  have hserver : ∀ {server : Text × ℕ}, server ∈ gates.webServerEntrypoints →
      serverBinding server ∈ gates.bindings := fun hserver =>
    List.mem_append_right _ (List.mem_map_of_mem hserver)
  constructor
  · intro hapart p hp q hq hkey
    rcases List.mem_append.mp hp with hp | hp <;> rcases List.mem_append.mp hq with hq | hq <;>
      obtain ⟨a, ha, rfl⟩ := List.mem_map.mp hp <;> obtain ⟨b, hb, rfl⟩ := List.mem_map.mp hq
    · rw [hapart.endpoints a ha b hb ((List.append_right_inj _).mp hkey)]
    · exact absurd (hkinds hkey) (hapart.kinds a ha b hb)
    · exact absurd (hkinds hkey.symm) (hapart.kinds b hb a ha)
    · rw [hapart.webServers a ha b hb ((List.append_right_inj _).mp hkey)]
  · intro hvalues
    refine ⟨fun n hn n' hn' heq => ?_, fun s hs s' hs' heq => ?_, fun n hn s hs heq => ?_⟩
    · have hvalue := hvalues _ (hendpoint hn) _ (hendpoint hn') (congrArg ("web_".toList ++ ·) heq)
      exact Adapter.web.inj hvalue
    · have hvalue := hvalues _ (hserver hs) _ (hserver hs')
        (congrArg ("web_server_".toList ++ ·) heq)
      obtain ⟨hport, hname⟩ := Adapter.webServer.inj hvalue
      exact Prod.ext hname hport
    · have hvalue := hvalues _ (hendpoint hn) _ (hserver hs) (congrArg ("web_".toList ++ ·) heq)
      cases hvalue

/-- Among names of identifier characters, only the overlap of the two prefixes is left. -/
theorem apart_iff_of_identifiers {entrypoints : List Entrypoint}
    (hnames : (entrypoints.map Entrypoint.name).Nodup)
    (hchars : ∀ ep ∈ entrypoints, ∀ c ∈ ep.name, attrChar c = c) :
    Apart (deployGates entrypoints) ↔
      ∀ name ∈ (deployGates entrypoints).endpointEntrypoints,
        ∀ server ∈ (deployGates entrypoints).webServerEntrypoints,
          name ≠ "server_".toList ++ server.1 := by
  have hself : ∀ ep ∈ entrypoints, sanitized ep.name = ep.name := fun ep hep =>
    (List.map_congr_left (hchars ep hep)).trans (List.map_id' _)
  have hendpoint : ∀ name ∈ (deployGates entrypoints).endpointEntrypoints,
      sanitized name = name := fun name hname => by
    obtain ⟨ep, hep, rfl, -⟩ := mem_endpointEntrypoints_iff.mp hname
    exact hself ep hep
  have hserver : ∀ server ∈ (deployGates entrypoints).webServerEntrypoints,
      sanitized server.1 = server.1 := fun server hserver => by
    obtain ⟨ep, hep, hname, -⟩ := mem_webServerEntrypoints_iff.mp hserver
    rw [← hname]
    exact hself ep hep
  constructor
  · intro hapart name hname server hmem heq
    have hkinds := hapart.kinds name hname server hmem
    rw [hendpoint name hname, hserver server hmem] at hkinds
    exact hkinds heq
  · intro hkinds
    refine ⟨fun n hn n' hn' heq => ?_, fun s hs s' hs' heq => ?_, fun n hn s hs heq => ?_⟩
    · rwa [hendpoint n hn, hendpoint n' hn'] at heq
    · rw [hserver s hs, hserver s' hs'] at heq
      obtain ⟨ep, hep, hname, hadapter⟩ := mem_webServerEntrypoints_iff.mp hs
      obtain ⟨ep', hep', hname', hadapter'⟩ := mem_webServerEntrypoints_iff.mp hs'
      -- one name is one entrypoint, which has one port
      obtain rfl := List.inj_on_of_nodup_map hnames hep hep' (by rw [hname, hname', heq])
      rw [hadapter] at hadapter'
      obtain ⟨hport, hname⟩ := Adapter.webServer.inj hadapter'
      exact Prod.ext hname hport
    · rw [hendpoint n hn, hserver s hs] at heq
      exact hkinds n hn s hs heq

/-- **A deployed function calls the adapter of its own entrypoint**, and a plain one the shared
dispatch, just if the sanitized names of the web entrypoints are apart. The lines that are added to
the wrapper bind the web entrypoints' attributes to their adapters, and nothing else. Where the
names are identifiers this fails in one case only: an endpoint `server_x` beside a web server
`x`. -/
theorem callables_reach_adapters_iff (host : Host) {entrypoints : List Entrypoint}
    (hplain : ∀ ep ∈ entrypoints, adapterOf ep ≠ .dispatch → ∀ c ∈ ep.name, isPlain c = true) :
    readModule ((deployedWrapper host entrypoints).drop host.deployWrapperSrc.length) =
      some (deployGates entrypoints).bindings ∧
    ((∀ ep ∈ entrypoints, resolve host (deployedWrapper host entrypoints)
        (callableFor deployBoundary ep) = some (adapterOf ep)) ↔
      Apart (deployGates entrypoints)) ∧
    ((entrypoints.map Entrypoint.name).Nodup →
      (∀ ep ∈ entrypoints, ∀ c ∈ ep.name, attrChar c = c) →
      (Apart (deployGates entrypoints) ↔
        ∀ name ∈ (deployGates entrypoints).endpointEntrypoints,
          ∀ server ∈ (deployGates entrypoints).webServerEntrypoints,
            name ≠ "server_".toList ++ server.1)) := by
  have hmodule := readModule_deployedWrapper host hplain
  refine ⟨hmodule, ?_, apart_iff_of_identifiers⟩
  rw [apart_iff, ← lookup_reverse_iff]
  constructor
  · intro hreach binding hbinding
    obtain ⟨ep, hep, -, rfl⟩ := mem_bindings_iff.mp hbinding
    have hadapter := hreach ep hep
    cases hlookup : (deployGates entrypoints).bindings.reverse.lookup
        (callableFor deployBoundary ep) with
    | some adapter =>
      rw [resolve_of_lookup hmodule hlookup] at hadapter
      exact hadapter
    | none =>
      rw [resolve_of_lookup_none hmodule hlookup,
        if_neg (ne_deployWrapperCallable hbinding)] at hadapter
      cases hadapter
  · intro hlast ep hep
    by_cases hdispatch : adapterOf ep = .dispatch
    · have hcallable : callableFor deployBoundary ep = deployWrapperCallable := by
        rcases callable_cases ep with ⟨-, hcallable⟩ | hcallable | ⟨port, hcallable⟩
        · exact hcallable
        · have hweb := congrArg Prod.snd hcallable
          rw [hdispatch] at hweb
          cases hweb
        · have hweb := congrArg Prod.snd hcallable
          rw [hdispatch] at hweb
          cases hweb
      have hnone : (deployGates entrypoints).bindings.reverse.lookup
          deployWrapperCallable = none := by
        refine List.lookup_eq_none_iff.mpr fun binding hbinding => ?_
        have hne := ne_deployWrapperCallable (List.mem_reverse.mp hbinding)
        exact bne_iff_ne.mpr (Ne.symm hne)
      rw [hcallable, resolve_of_lookup_none hmodule hnone, if_pos rfl, hdispatch]
    · exact resolve_of_lookup hmodule (hlast _ (mem_bindings_iff.mpr ⟨ep, hep, hdispatch, rfl⟩))

/-- An endpoint, a web server and a plain function. -/
def mixedEntrypoints : List Entrypoint :=
  [⟨"hello".toList, { FunctionOptions.default with webhookMethod := some "GET".toList }, 600⟩,
    ⟨"app".toList, { FunctionOptions.default with webServerPort := some 8000 }, 600⟩,
    plainEntrypoint "add".toList]

/-- Each of the three functions calls its own adapter. -/
theorem callables_reach_adapters_iff_mixed :
    (∀ ep ∈ mixedEntrypoints, resolve plainHost (deployedWrapper plainHost mixedEntrypoints)
        (callableFor deployBoundary ep) = some (adapterOf ep)) ∧
      mixedEntrypoints.map adapterOf =
        [.web "hello".toList, .webServer 8000 "app".toList, .dispatch] := by
  have hplain : ∀ ep ∈ mixedEntrypoints, ep.name.all isPlain = true := by decide
  have hchars : ∀ ep ∈ mixedEntrypoints, ep.name.all (fun c => attrChar c == c) = true := by decide
  have hreach := callables_reach_adapters_iff plainHost
    fun ep hep _ c hc => List.all_eq_true.mp (hplain ep hep) c hc
  have hapart := (hreach.2.2 (by decide) fun ep hep c hc =>
    eq_of_beq (List.all_eq_true.mp (hchars ep hep) c hc)).mpr (by decide)
  exact ⟨hreach.2.1.mpr hapart, by decide⟩

end ModalRust.Provision
