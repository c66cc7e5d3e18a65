import Mathlib.Data.List.Nodup
import ModalRust.Describe.Manifest
import ModalRust.Runtime.Registry

/-!
# The inventory and the describe manifest

The facade's registrations pair a handler or a web-server launcher with the config of its
entrypoint. The registry, the describe manifest and the lookup of options each walk them with a
rule of their own: handlers and web servers are kept apart, the manifest takes the first config of
a name, and the lookup the last. They agree unless a web server has the name of a handler.
-/

namespace ModalRust.Facade

open ModalRust.Runtime ModalRust.Provision

universe u

variable {σ : Type*}

/-- `Registration`, of a function, a class method or an endpoint. The static config is taken
through `From<&FunctionConfig>`, which copies it field by field. -/
structure Registration (σ : Type*) extends Runtime.Registration σ where
  /-- The config. -/
  config : FunctionOptions
  /-- The cargo package. -/
  package : Text

/-- `WebServerRegistration`. -/
structure WebServerRegistration (σ : Type*) where
  /-- The entrypoint name. -/
  name : Text
  /-- The launcher. -/
  launcher : WebServerFn σ
  /-- The config. -/
  config : FunctionOptions
  /-- The cargo package. -/
  package : Text

/-- The submissions of a program, each kind in link order. -/
structure Inventory (σ : Type*) where
  /-- `inventory::iter::<Registration>`. -/
  registrations : List (Registration σ)
  /-- `inventory::iter::<WebServerRegistration>`. -/
  webServers : List (WebServerRegistration σ)

/-- `register_one`. -/
def registerOne (registry : Registry σ) (registration : Registration σ) : Option (Registry σ) :=
  registry.register registration.toRegistration

/-- `from_inventory_with_configs`. The result is `none` when a name is taken, which is a startup
panic. -/
def fromInventoryWithConfigs (inventory : Inventory σ) :
    Option (Registry σ × List (Text × FunctionOptions)) := do
  let built ← inventory.registrations.foldlM (fun acc registration => do
    let registry ← registerOne acc.1 registration
    return (registry, acc.2 ++ [(registration.name, registration.config)])) (Registry.new, [])
  inventory.webServers.foldlM (fun acc ws => do
    let registry ← acc.1.webServer ws.name ws.launcher
    return (registry, acc.2 ++ [(ws.name, ws.config)])) built

/-- `FunctionOptions::by_name`: the pairs collected into a map. -/
def byName (configs : List (Text × FunctionOptions)) : Std.TreeMap Text FunctionOptions :=
  .ofList configs

/-- `DescribeEntry`. -/
structure DescribeEntry where
  /-- The entrypoint name. -/
  name : Text
  /-- Its config. -/
  config : FunctionOptions
  deriving DecidableEq

/-- The entries of the manifest: the handlers, then the web servers. -/
def describeEntries (registry : Registry σ) (configs : List (Text × FunctionOptions)) :
    List DescribeEntry :=
  (registry.names ++ registry.webServerNames).map fun name =>
    ⟨name, ((configs.find? fun c => c.1 = name).map Prod.snd).getD .default⟩

/-- The derived `Serialize` of `DescribeEntry`. -/
def entryJson (entry : DescribeEntry) : Doc :=
  .object [("name".toList, .string entry.name),
    ("config".toList, .object (Describe.configFields entry.config))]

/-- `DescribeManifest`. -/
def manifestJson (entries : List DescribeEntry) : Doc :=
  .object [("schema".toList, .string "modal-rust/describe@1".toList),
    ("entrypoints".toList, .array (entries.map entryJson))]

/-- `emit_describe`: what is written and the exit code. A manifest always serializes; the
writer may fail. -/
def emitDescribe (registry : Registry σ) (configs : List (Text × FunctionOptions))
    (writable : Bool) : Option Text × ℕ :=
  if writable then (some ((manifestJson (describeEntries registry configs)).print ++ ['\n']), 0)
  else (none, 1)

/-! ### Names that are taken once -/

section Distinct

variable {S E : Type*} (step : S → E → Option S) (name : E → Text) (taken : S → Text → Prop)

/-- A step takes the name of its element, and fails when it is taken. -/
structure TakesNames : Prop where
  /-- The step fails on a name that is taken. -/
  none_iff : ∀ s e, step s e = none ↔ taken s (name e)
  /-- The step takes the name and no other. -/
  taken_iff : ∀ s e s', step s e = some s' → ∀ n, taken s' n ↔ n = name e ∨ taken s n

variable {step name taken}

/-- After a run the names of its elements are taken. -/
theorem TakesNames.taken_foldlM (hstep : TakesNames step name taken) {es : List E} {s s' : S}
    (hrun : es.foldlM step s = some s') (n : Text) :
    taken s' n ↔ n ∈ es.map name ∨ taken s n := by
  induction es generalizing s with
  | nil =>
    obtain rfl := Option.some.inj hrun
    simp
  | cons e es ih =>
    rw [List.foldlM_cons] at hrun
    obtain ⟨next, hnext, hrest⟩ := Option.bind_eq_some_iff.mp hrun
    rw [ih hrest, hstep.taken_iff s e next hnext, List.map_cons, List.mem_cons, ← or_assoc,
      or_comm (a := n ∈ _)]

/-- A run succeeds exactly when the names are distinct and none is taken before. -/
theorem TakesNames.foldlM_eq_none_iff (hstep : TakesNames step name taken) {es : List E} {s : S} :
    es.foldlM step s = none ↔ ¬ ((es.map name).Nodup ∧ ∀ n ∈ es.map name, ¬ taken s n) := by
  induction es generalizing s with
  | nil => simp
  | cons e es ih =>
    rw [List.foldlM_cons]
    cases hnext : step s e with
    | none =>
      have htaken := (hstep.none_iff s e).mp hnext
      refine iff_of_true rfl fun h => ?_
      exact h.2 (name e) (by simp) htaken
    | some next =>
      have hfree : ¬ taken s (name e) := fun h => by
        rw [(hstep.none_iff s e).mpr h] at hnext
        cases hnext
      have htaken := hstep.taken_iff s e next hnext
      rw [Option.bind_eq_bind, Option.bind_some, ih, List.map_cons, List.nodup_cons]
      refine not_congr ⟨?_, ?_⟩
      · rintro ⟨hnodup, hall⟩
        refine ⟨⟨fun hmem => hall _ hmem ((htaken _).mpr (.inl rfl)), hnodup⟩, fun n hn => ?_⟩
        rcases List.mem_cons.mp hn with rfl | hn
        · exact hfree
        · exact fun h => hall n hn ((htaken n).mpr (.inr h))
      · rintro ⟨⟨hnot, hnodup⟩, hall⟩
        refine ⟨hnodup, fun n hn h => ?_⟩
        rcases (htaken n).mp h with rfl | h
        · exact hnot hn
        · exact hall n (by simp [hn]) h

end Distinct

/-- A run that collects configs is a run without them. -/
theorem foldlM_collect {S : Type u} {E : Type*} {C : Type} (step : S → E → Option S)
    (entry : E → C) (es : List E) (s : S) (collected : List C) :
    es.foldlM (fun (acc : S × List C) e => do
        let next ← step acc.1 e
        return (next, acc.2 ++ [entry e])) (s, collected) =
      (es.foldlM step s).map fun final => (final, collected ++ es.map entry) := by
  induction es generalizing s collected with
  | nil => simp
  | cons e es ih =>
    rw [List.foldlM_cons, List.foldlM_cons]
    cases step s e with
    | none => rfl
    | some next =>
      change es.foldlM _ (next, collected ++ [entry e]) = _
      rw [ih]
      simp

/-- A registered handler is inserted; the web servers are left as they are. -/
theorem eq_of_registerOne {registry next : Registry σ} {r : Registration σ}
    (hnext : registerOne registry r = some next) :
    next.handlers = registry.handlers.insert r.name r.handler ∧
      next.webServers = registry.webServers := by
  unfold registerOne Registry.register at hnext
  obtain ⟨inserted, hinserted, rfl⟩ := Option.map_eq_some_iff.mp hnext
  have hfacts : inserted.handlers = registry.handlers.insert r.name r.handler ∧
      inserted.webServers = registry.webServers := by
    unfold Registry.functionChecked Registry.function at hinserted
    split at hinserted <;> split_ifs at hinserted <;> cases hinserted <;> exact ⟨rfl, rfl⟩
  cases r.snapshotPrime <;> exact hfacts

/-- A registered web server is inserted; the handlers are left as they are. -/
theorem eq_of_webServer {registry next : Registry σ} {name : Text} {launcher : WebServerFn σ}
    (hnext : registry.webServer name launcher = some next) :
    next.webServers = registry.webServers.insert name launcher ∧
      next.handlers = registry.handlers := by
  unfold Registry.webServer at hnext
  split_ifs at hnext
  cases hnext
  exact ⟨rfl, rfl⟩

/-- The names of a map after an insertion. -/
theorem mem_insert_iff {α : Type*} {names : Std.TreeMap Text α} {k n : Text} {v : α} :
    n ∈ names.insert k v ↔ n = k ∨ n ∈ names := by
  rw [Std.TreeMap.mem_insert, Std.LawfulEqCmp.compare_eq_iff_eq, eq_comm]

/-- The names of handlers are taken one by one. -/
theorem takesNames_registerOne : TakesNames (registerOne (σ := σ)) (fun r => r.name)
    fun registry n => n ∈ registry.handlers where
  none_iff registry r := by
    unfold registerOne Registry.register Registry.functionChecked Registry.function
    rw [← Std.TreeMap.contains_iff_mem]
    cases r.check <;> by_cases htaken : registry.handlers.contains r.name <;> simp [htaken]
  taken_iff registry r next hnext n := by
    rw [(eq_of_registerOne hnext).1]
    exact mem_insert_iff

/-- The names of web servers are taken one by one. -/
theorem takesNames_webServer : TakesNames
    (fun (registry : Registry σ) (ws : WebServerRegistration σ) =>
      registry.webServer ws.name ws.launcher) (fun ws => ws.name)
    fun registry n => n ∈ registry.webServers where
  none_iff registry ws := by
    unfold Registry.webServer
    rw [← Std.TreeMap.contains_iff_mem]
    by_cases htaken : registry.webServers.contains ws.name <;> simp [htaken]
  taken_iff registry ws next hnext n := by
    rw [(eq_of_webServer hnext).1]
    exact mem_insert_iff

/-- What is left as it is by each step is left as it is by a run. -/
theorem foldlM_keeps {S E C : Type*} {step : S → E → Option S} {view : S → C}
    (hstep : ∀ s e s', step s e = some s' → view s' = view s) {es : List E} {s s' : S}
    (hrun : es.foldlM step s = some s') : view s' = view s := by
  induction es generalizing s with
  | nil => rw [Option.some.inj hrun]
  | cons e es ih =>
    rw [List.foldlM_cons] at hrun
    obtain ⟨next, hnext, hrest⟩ := Option.bind_eq_some_iff.mp hrun
    rw [ih hrest, hstep s e next hnext]

/-! ### The inventory -/

/-- The names of the functions, class methods and endpoints. -/
def Inventory.handlerNames (inventory : Inventory σ) : List Text :=
  inventory.registrations.map fun r => r.name

/-- The names of the web servers. -/
def Inventory.webServerNames (inventory : Inventory σ) : List Text :=
  inventory.webServers.map fun ws => ws.name

/-- The configs of all submissions. -/
def Inventory.configs (inventory : Inventory σ) : List (Text × FunctionOptions) :=
  inventory.registrations.map (fun r => (r.name, r.config)) ++
    inventory.webServers.map fun ws => (ws.name, ws.config)

/-- What the inventory becomes, without the loop that collects the configs. -/
theorem fromInventoryWithConfigs_eq (inventory : Inventory σ) :
    fromInventoryWithConfigs inventory =
      ((inventory.registrations.foldlM registerOne Registry.new).bind fun registry =>
        inventory.webServers.foldlM (fun registry ws => registry.webServer ws.name ws.launcher)
          registry).map fun registry => (registry, inventory.configs) := by
  unfold fromInventoryWithConfigs
  rw [foldlM_collect registerOne fun r => (r.name, r.config)]
  cases hfirst : inventory.registrations.foldlM registerOne Registry.new with
  | none => rfl
  | some registry =>
    have hsecond := foldlM_collect (fun (registry : Registry σ) (ws : WebServerRegistration σ) =>
      registry.webServer ws.name ws.launcher) (fun ws => (ws.name, ws.config))
      inventory.webServers registry (inventory.registrations.map fun r => (r.name, r.config))
    exact hsecond

/-- Building fails exactly when a name is taken twice within its kind. -/
theorem fromInventoryWithConfigs_eq_none_iff (inventory : Inventory σ) :
    fromInventoryWithConfigs inventory = none ↔
      ¬ (inventory.handlerNames.Nodup ∧ inventory.webServerNames.Nodup) := by
  have hfirst : inventory.registrations.foldlM registerOne Registry.new = none ↔ _ :=
    takesNames_registerOne.foldlM_eq_none_iff
  have hnew : ∀ n : Text, n ∉ (Registry.new : Registry σ).handlers ∧
      n ∉ (Registry.new : Registry σ).webServers := fun n => by simp [Registry.new]
  rw [fromInventoryWithConfigs_eq, Option.map_eq_none_iff]
  cases hrun : inventory.registrations.foldlM registerOne Registry.new with
  | none =>
    rw [hrun] at hfirst
    refine iff_of_true rfl fun h => hfirst.mp rfl ⟨h.1, fun n _ => (hnew n).1⟩
  | some registry =>
    rw [hrun] at hfirst
    have hnodup : inventory.handlerNames.Nodup := by
      by_contra hnot
      exact Option.some_ne_none _ (hfirst.mpr fun h => hnot h.1)
    have hservers : registry.webServers = (Registry.new : Registry σ).webServers :=
      foldlM_keeps (fun _ _ _ hnext => (eq_of_registerOne hnext).2) hrun
    rw [Option.bind_some, takesNames_webServer.foldlM_eq_none_iff, hservers]
    refine not_congr ⟨fun h => ⟨hnodup, h.1⟩, fun h => ⟨h.2, fun n _ => (hnew n).2⟩⟩

/-- What the inventory becomes when it is built. -/
theorem fromInventoryWithConfigs_spec {inventory : Inventory σ} {registry : Registry σ}
    {configs : List (Text × FunctionOptions)}
    (hbuilt : fromInventoryWithConfigs inventory = some (registry, configs)) :
    configs = inventory.configs ∧ (∀ n, n ∈ registry.names ↔ n ∈ inventory.handlerNames) ∧
      ∀ n, n ∈ registry.webServerNames ↔ n ∈ inventory.webServerNames := by
  rw [fromInventoryWithConfigs_eq] at hbuilt
  obtain ⟨final, hfinal, heq⟩ := Option.map_eq_some_iff.mp hbuilt
  cases heq
  obtain ⟨middle, hmiddle, hservers⟩ := Option.bind_eq_some_iff.mp hfinal
  have hhandlers : registry.handlers = middle.handlers :=
    foldlM_keeps (fun _ _ _ hnext => (eq_of_webServer hnext).2) hservers
  have hempty : middle.webServers = (Registry.new : Registry σ).webServers :=
    foldlM_keeps (fun _ _ _ hnext => (eq_of_registerOne hnext).2) hmiddle
  refine ⟨rfl, fun n => ?_, fun n => ?_⟩
  · rw [Registry.names, Std.TreeMap.mem_keys, hhandlers,
      takesNames_registerOne.taken_foldlM hmiddle]
    simp [Registry.new, Inventory.handlerNames]
  · rw [Registry.webServerNames, Std.TreeMap.mem_keys, takesNames_webServer.taken_foldlM hservers,
      hempty]
    simp [Registry.new, Inventory.webServerNames]

/-! ### The manifest -/

/-- The registry is not built, or the manifest lists each entrypoint once, with the options that
are looked up for its name. -/
def Inventory.DescribeAgrees (inventory : Inventory σ) : Prop :=
  fromInventoryWithConfigs inventory = none ∨
    ∃ registry configs, fromInventoryWithConfigs inventory = some (registry, configs) ∧
      (∀ n, ((describeEntries registry configs).map DescribeEntry.name).count n =
        if n ∈ inventory.handlerNames ++ inventory.webServerNames then 1 else 0) ∧
      ∀ entry ∈ describeEntries registry configs,
        (byName configs)[entry.name]? = some entry.config

/-- The first config of a name is the one that is looked up when names are distinct. -/
theorem find?_eq_byName {configs : List (Text × FunctionOptions)}
    (hconfigs : (configs.map Prod.fst).Nodup) {name : Text} (hname : name ∈ configs.map Prod.fst) :
    (byName configs)[name]? =
      some (((configs.find? fun c => c.1 = name).map Prod.snd).getD .default) := by
  obtain ⟨⟨k, options⟩, hmem, rfl⟩ := List.mem_map.mp hname
  have hdistinct : configs.Pairwise fun a b => ¬ compare a.1 b.1 = .eq := by
    refine (List.pairwise_map.mp hconfigs).imp fun hne heq => hne ?_
    exact Std.LawfulEqCmp.compare_eq_iff_eq.mp heq
  have hlookup : (byName configs)[k]? = some options :=
    Std.TreeMap.getElem?_ofList_of_mem (Std.ReflCmp.compare_self) hdistinct hmem
  have hfind : configs.find? (fun c => c.1 = k) = some (k, options) := by
    cases hfound : configs.find? fun c => c.1 = k with
    | none => exact absurd (decide_eq_true rfl) (List.find?_eq_none.mp hfound _ hmem)
    | some c =>
      have hc : c.1 = k := by simpa using List.find?_some hfound
      rw [List.inj_on_of_nodup_map hconfigs (List.mem_of_find?_eq_some hfound) hmem hc]
  rw [hlookup, hfind]
  rfl

/-- How often the manifest lists a name. -/
theorem count_describeEntries {inventory : Inventory σ} {registry : Registry σ}
    {configs : List (Text × FunctionOptions)}
    (hbuilt : fromInventoryWithConfigs inventory = some (registry, configs)) (n : Text) :
    ((describeEntries registry configs).map DescribeEntry.name).count n =
      (if n ∈ inventory.handlerNames then 1 else 0) +
        if n ∈ inventory.webServerNames then 1 else 0 := by
  obtain ⟨-, hnames, hservers⟩ := fromInventoryWithConfigs_spec hbuilt
  have hmap : (describeEntries registry configs).map DescribeEntry.name =
      registry.names ++ registry.webServerNames := by
    simp [describeEntries, Function.comp_def]
  have hhandlers : registry.names.Nodup := Std.TreeMap.nodup_keys
  have hlaunchers : registry.webServerNames.Nodup := Std.TreeMap.nodup_keys
  rw [hmap, List.count_append, hhandlers.count, hlaunchers.count]
  simp only [hnames, hservers]

/-- The manifest is unambiguous and agrees with the lookup of options exactly when no name is of
both kinds, unless the registry is not built. -/
theorem Inventory.describeAgrees_iff (inventory : Inventory σ) :
    inventory.DescribeAgrees ↔
      ¬ inventory.handlerNames.Nodup ∨ ¬ inventory.webServerNames.Nodup ∨
        ∀ n ∈ inventory.handlerNames, n ∉ inventory.webServerNames := by
  have hnone := fromInventoryWithConfigs_eq_none_iff inventory
  unfold Inventory.DescribeAgrees
  cases hbuilt : fromInventoryWithConfigs inventory with
  | none =>
    rw [hbuilt] at hnone
    refine iff_of_true (.inl rfl) ?_
    have hnot := hnone.mp rfl
    by_cases hnodup : inventory.handlerNames.Nodup
    · exact .inr (.inl fun h => hnot ⟨hnodup, h⟩)
    · exact .inl hnodup
  | some built =>
    obtain ⟨registry, configs⟩ := built
    rw [hbuilt] at hnone
    have hnodup : inventory.handlerNames.Nodup ∧ inventory.webServerNames.Nodup := by
      by_contra hnot
      exact Option.some_ne_none _ (hnone.mpr hnot)
    have hcount := count_describeEntries hbuilt
    obtain ⟨hconfigs, hnames, hservers⟩ := fromInventoryWithConfigs_spec hbuilt
    constructor
    · rintro (h | ⟨registry', configs', heq, hlisted, -⟩)
      · cases h
      · cases heq
        refine .inr (.inr fun n hhandler hserver => ?_)
        -- a name of both kinds is listed twice
        have hlisted := hlisted n
        rw [hcount, if_pos hhandler, if_pos hserver, if_pos (by simp [hhandler])] at hlisted
        omega
    · intro hcondition
      have hdisjoint : ∀ n ∈ inventory.handlerNames, n ∉ inventory.webServerNames := by
        rcases hcondition with h | h | h
        · exact absurd hnodup.1 h
        · exact absurd hnodup.2 h
        · exact h
      have hkeys : configs.map Prod.fst = inventory.handlerNames ++ inventory.webServerNames := by
        rw [hconfigs, Inventory.configs, List.map_append, List.map_map, List.map_map]
        rfl
      have hdistinct : (configs.map Prod.fst).Nodup := by
        rw [hkeys, List.nodup_append]
        refine ⟨hnodup.1, hnodup.2, fun a ha b hb hab => ?_⟩
        exact hdisjoint a ha (hab ▸ hb)
      refine .inr ⟨registry, configs, rfl, fun n => ?_, fun entry hentry => ?_⟩
      · rw [hcount]
        by_cases hhandler : n ∈ inventory.handlerNames
        · rw [if_pos hhandler, if_neg (hdisjoint n hhandler), if_pos (by simp [hhandler])]
        · rw [if_neg hhandler, Nat.zero_add]
          simp [hhandler]
      · obtain ⟨name, hname, rfl⟩ := List.mem_map.mp hentry
        refine find?_eq_byName hdistinct ?_
        rw [hkeys]
        rcases List.mem_append.mp hname with hname | hname
        · exact List.mem_append_left _ ((hnames name).mp hname)
        · exact List.mem_append_right _ ((hservers name).mp hname)

/-- An entry can be read. -/
theorem readable_entryJson : Describe.Readable entryJson := by
  refine .of_injective fun entry entry' hsame => ?_
  have hfields := Describe.forall₂_of_literals hsame rfl (by simp)
  simp only [List.forall₂_cons] at hfields
  obtain ⟨hname, hconfig, -⟩ := hfields
  cases entry
  cases entry'
  rw [DescribeEntry.mk.injEq]
  exact ⟨Describe.readable_string.eq hname, Describe.readable_configFields.eq hconfig⟩

/-- A manifest is not nested deeply. -/
theorem depth_manifestJson (entries : List DescribeEntry) : (manifestJson entries).depth ≤ 127 := by
  have hentry (entry : DescribeEntry) : (entryJson entry).depth ≤ 4 := by
    refine Nat.succ_le_succ (JsonTree.depthEntries_le.mpr ?_)
    rw [List.forall_mem_cons, List.forall_mem_singleton]
    exact ⟨Nat.zero_le _, Describe.depth_configFields entry.config⟩
  have hentries := Describe.depth_array hentry entries
  have hmanifest : (manifestJson entries).depth ≤ 6 := by
    refine Nat.succ_le_succ (JsonTree.depthEntries_le.mpr ?_)
    rw [List.forall_mem_cons, List.forall_mem_singleton]
    exact ⟨Nat.zero_le _, hentries⟩
  omega

/-- What is written determines the entries. -/
theorem manifestJson_print_injective :
    Function.Injective fun entries => (manifestJson entries).print := by
  intro entries entries' hprint
  have hsame := Describe.literals_of_print hprint (depth_manifestJson entries)
    (depth_manifestJson entries')
  have hfields := Describe.forall₂_of_literals hsame rfl (by simp)
  simp only [List.forall₂_cons] at hfields
  exact readable_entryJson.array.eq hfields.2.1

/-- Entries list the entrypoints of an inventory once each, with the options that are looked up
for their names. -/
structure Inventory.ListedBy (inventory : Inventory σ) (configs : List (Text × FunctionOptions))
    (entries : List DescribeEntry) : Prop where
  /-- Each name is there once. -/
  once : ∀ n, (entries.map DescribeEntry.name).count n =
    if n ∈ inventory.handlerNames ++ inventory.webServerNames then 1 else 0
  /-- Each entry has the options of its name. -/
  options : ∀ entry ∈ entries, (byName configs)[entry.name]? = some entry.config

/-- The agreement is about what a describe run writes. -/
theorem Inventory.describeAgrees_iff_written {inventory : Inventory σ} {registry : Registry σ}
    {configs : List (Text × FunctionOptions)}
    (hbuilt : fromInventoryWithConfigs inventory = some (registry, configs)) :
    inventory.DescribeAgrees ↔ ∃ entries, inventory.ListedBy configs entries ∧
      emitDescribe registry configs true = (some ((manifestJson entries).print ++ ['\n']), 0) := by
  unfold Inventory.DescribeAgrees
  constructor
  · rintro (hnone | ⟨registry', configs', hbuilt', honce, hoptions⟩)
    · rw [hbuilt] at hnone
      cases hnone
    · rw [hbuilt] at hbuilt'
      cases hbuilt'
      exact ⟨_, ⟨honce, hoptions⟩, rfl⟩
  · rintro ⟨entries, hlisted, hwritten⟩
    have htext : (manifestJson (describeEntries registry configs)).print =
        (manifestJson entries).print :=
      List.append_cancel_right (Option.some.inj (Prod.ext_iff.mp hwritten).1)
    obtain rfl := manifestJson_print_injective htext
    exact .inr ⟨registry, configs, hbuilt, hlisted.once, hlisted.options⟩

/-- **The describe manifest lists every entrypoint once, with the options that are looked up for
it, exactly when no web server shares its name with a function or an endpoint** (or a name is
taken twice within its kind, and the program does not start). -/
theorem describe_agrees_iff (inventory : Inventory σ) :
    inventory.DescribeAgrees ↔
      ¬ (inventory.registrations.map fun r => r.name).Nodup ∨
      ¬ (inventory.webServers.map fun ws => ws.name).Nodup ∨
        ∀ r ∈ inventory.registrations, ∀ ws ∈ inventory.webServers, r.name ≠ ws.name := by
  rw [inventory.describeAgrees_iff]
  refine or_congr Iff.rfl (or_congr Iff.rfl ⟨fun h r hr ws hws heq => ?_, fun h n hn hws => ?_⟩)
  · refine h r.name (List.mem_map_of_mem hr) ?_
    rw [heq]
    exact List.mem_map_of_mem hws
  · obtain ⟨r, hr, rfl⟩ := List.mem_map.mp hn
    obtain ⟨ws, hws, heq⟩ := List.mem_map.mp hws
    exact h r hr ws hws heq.symm

/-- A function and a web server, both with the name `serve`. -/
def clashingInventory : Inventory Unit where
  registrations := [{
    name := "serve".toList
    handler := fun _ => Run.pure (.ok [])
    check := none
    snapshotPrime := none
    config := { FunctionOptions.default with gpu := some "T4".toList }
    package := "app".toList }]
  webServers := [⟨"serve".toList, fun _ => Run.pure (.ok ()),
    { FunctionOptions.default with webServerPort := some 3000 }, "app".toList⟩]

/-- Both are listed, with the config of the function; the lookup finds that of the web server. -/
theorem describe_lists_twice :
    ((fromInventoryWithConfigs clashingInventory).map fun built =>
      ((describeEntries built.1 built.2).map fun entry =>
          (entry.name, entry.config.gpu, entry.config.webServerPort),
        ((byName built.2)["serve".toList]?).map fun options =>
          (options.gpu, options.webServerPort))) =
      some ([("serve".toList, some "T4".toList, none), ("serve".toList, some "T4".toList, none)],
        some (none, some 3000)) ∧
    ¬ clashingInventory.DescribeAgrees := by
  refine ⟨by rfl, fun h => ?_⟩
  rcases (Inventory.describeAgrees_iff clashingInventory).mp h with hnot | hnot | hdisjoint
  · exact hnot (by decide)
  · exact hnot (by decide)
  · exact hdisjoint "serve".toList (by decide) (by decide)

end ModalRust.Facade
