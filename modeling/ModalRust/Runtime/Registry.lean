import ModalRust.Runtime.Error

/-!
# Handlers and the registry

User code is a parameter of the runner. A call into it is described by what the runner
can observe: the panics its hook was called for, the returned value unless the call
unwound, and the process-global state that user code keeps between calls, such as an
entered singleton. `typed` and `typedCheck` are the two wrappers that the macros
generate around one handler; the registry maps entrypoint names to them.
-/

namespace ModalRust.Runtime

/-- One invocation of the panic hook. -/
structure PanicInfo where
  /-- `info.to_string()`. -/
  message : Text
  /-- The stack frames of user code, innermost first. -/
  frames : List Text
  deriving DecidableEq

/-- What a call into user code amounts to. -/
structure Run (σ α : Type*) where
  /-- The invocations of the panic hook, also for panics that user code caught. -/
  hooks : List PanicInfo
  /-- The returned value, or `none` if the call unwound. -/
  result : Option α
  /-- The user state afterwards. -/
  user : σ

variable {σ α β : Type*}

/-- A call that returns at once. -/
def Run.pure (value : α) (user : σ) : Run σ α := ⟨[], some value, user⟩

/-- Continue with the returned value; an unwinding call is not continued. -/
def Run.bind (run : Run σ α) (next : α → σ → Run σ β) : Run σ β :=
  match run.result with
  | none => ⟨run.hooks, none, run.user⟩
  | some value =>
    let rest := next value run.user
    ⟨run.hooks ++ rest.hooks, rest.result, rest.user⟩

/-- A handler: bytes in, bytes out. -/
abbrev HandlerFn (σ : Type*) := Bytes → σ → Run σ (Except RunnerError Bytes)

/-- A decode-only checker. It decodes the input and touches nothing else. -/
abbrev CheckFn := Bytes → Except RunnerError Unit

/-- A snapshot prime. -/
abbrev PrimeFn (σ : Type*) := σ → Run σ (Except RunnerError Unit)

/-- A web-server launcher, called with the port. -/
abbrev WebServerFn (σ : Type*) := UInt16 → σ → Run σ (Except RunnerError Unit)

/-- A handler `f` as the macros see it, with the serde implementations of its types. -/
structure TypedFn (σ : Type) where
  /-- The parameter type of `f`. -/
  In : Type
  /-- The output type of `f`. -/
  Out : Type
  /-- The error type of `f`. -/
  Err : Type
  /-- `serde_json::from_slice` at the parameter type, with the text of its error. -/
  fromSlice : Bytes → Except Text In
  /-- The body of `f`. -/
  body : In → σ → Run σ (Except Err Out)
  /-- `serde_json::to_vec` at the output type, with the text of its error. -/
  toVec : Out → σ → Run σ (Except Text Bytes)
  /-- The message of a user error and, if its type is serializable, its serialized form. -/
  describe : Err → σ → Run σ (Text × Option Json)

/-- `codec::decode` at the parameter type. -/
def TypedFn.decode {σ : Type} (f : TypedFn σ) (input : Bytes) : Except RunnerError f.In :=
  (f.fromSlice input).mapError .decode

/-- `codec::encode` at the output type. -/
def TypedFn.encode {σ : Type} (f : TypedFn σ) (value : f.Out) (user : σ) :
    Run σ (Except RunnerError Bytes) :=
  (f.toVec value user).bind fun result => Run.pure (result.mapError .encode)

/-- `Wrap(e).to_runner_error()`. -/
def TypedFn.toRunnerError {σ : Type} (f : TypedFn σ) (e : f.Err) (user : σ) :
    Run σ RunnerError :=
  (f.describe e user).bind fun described => Run.pure (.function described.1 described.2)

/-- The wrapper that `typed!(f)` generates. -/
def typed {σ : Type} (f : TypedFn σ) : HandlerFn σ := fun input user =>
  match f.decode input with
  | .error err => Run.pure (.error err) user
  | .ok arg =>
    (f.body arg user).bind fun
      | .ok out => f.encode out
      | .error e => fun user => (f.toRunnerError e user).bind fun err => Run.pure (.error err)

/-- The checker that `typed_check!(f)` generates. -/
def typedCheck {σ : Type} (f : TypedFn σ) : CheckFn := fun input =>
  (f.decode input).map fun _ => ()

/-- The handler registry. -/
structure Registry (σ : Type*) where
  /-- The handlers, by entrypoint name. -/
  handlers : Std.TreeMap Text (HandlerFn σ)
  /-- The checkers of the entrypoints that were registered with one. -/
  checks : Std.TreeMap Text CheckFn
  /-- The snapshot primes, in the order of registration. -/
  primes : List (PrimeFn σ)
  /-- The web-server launchers, by entrypoint name. -/
  webServers : Std.TreeMap Text (WebServerFn σ)

/-- One submission to the inventory. -/
structure Registration (σ : Type*) where
  /-- The entrypoint name. -/
  name : Text
  /-- The handler. -/
  handler : HandlerFn σ
  /-- The decode-only companion, if there is one. -/
  check : Option CheckFn
  /-- The snapshot prime, if the entrypoint has one. -/
  snapshotPrime : Option (PrimeFn σ)

namespace Registry

/-- The empty registry. -/
def new : Registry σ := ⟨∅, ∅, [], ∅⟩

/-- Register a handler. The result is `none` when the name is taken, which is a
startup panic. -/
def function (registry : Registry σ) (name : Text) (handler : HandlerFn σ) :
    Option (Registry σ) :=
  if registry.handlers.contains name then none
  else some { registry with handlers := registry.handlers.insert name handler }

/-- Register a handler together with its checker. -/
def functionChecked (registry : Registry σ) (name : Text) (handler : HandlerFn σ)
    (check : CheckFn) : Option (Registry σ) :=
  if registry.handlers.contains name then none
  else some { registry with
    handlers := registry.handlers.insert name handler
    checks := registry.checks.insert name check }

/-- Record a snapshot prime. -/
def snapshotPrime (registry : Registry σ) (prime : PrimeFn σ) : Registry σ :=
  { registry with primes := registry.primes ++ [prime] }

/-- Register a web-server launcher. -/
def webServer (registry : Registry σ) (name : Text) (launcher : WebServerFn σ) :
    Option (Registry σ) :=
  if registry.webServers.contains name then none
  else some { registry with webServers := registry.webServers.insert name launcher }

/-- Look up a web-server launcher. -/
def getWebServer (registry : Registry σ) (name : Text) : Option (WebServerFn σ) :=
  registry.webServers[name]?

/-- The names of the web servers, sorted. -/
def webServerNames (registry : Registry σ) : List Text := registry.webServers.keys

/-- Look up a handler. -/
def get (registry : Registry σ) (name : Text) : Option (HandlerFn σ) := registry.handlers[name]?

/-- Look up a checker. -/
def getCheck (registry : Registry σ) (name : Text) : Option CheckFn := registry.checks[name]?

/-- The registered entrypoint names, sorted. -/
def names (registry : Registry σ) : List Text := registry.handlers.keys

/-- One round of `from_inventory`. -/
def register (registry : Registry σ) (registration : Registration σ) : Option (Registry σ) :=
  let registered := match registration.check with
    | some check => registry.functionChecked registration.name registration.handler check
    | none => registry.function registration.name registration.handler
  registered.map fun registry => match registration.snapshotPrime with
    | some prime => registry.snapshotPrime prime
    | none => registry

/-- `from_inventory`, over the submissions in link order. -/
def fromInventory (registrations : List (Registration σ)) : Option (Registry σ) :=
  registrations.foldlM register new

/-- A registry built with `function_checked` alone, each entrypoint from the two
wrappers of one handler. -/
def ofTyped {σ : Type} (fns : List (Text × TypedFn σ)) : Option (Registry σ) :=
  fns.foldlM (fun registry fn => registry.functionChecked fn.1 (typed fn.2) (typedCheck fn.2)) new

end Registry

/-- Every registered handler is the wrapper of a handler whose checker is registered
under the same name. -/
def Registry.Paired {σ : Type} (registry : Registry σ) : Prop :=
  ∀ name handler, registry.get name = some handler →
    ∃ f, handler = typed f ∧ registry.getCheck name = some (typedCheck f)

/-- A later lookup of the registered name, or of another one. -/
theorem Registry.get_functionChecked {registry registered : Registry σ} {name : Text}
    {handler : HandlerFn σ} {check : CheckFn}
    (hregistered : registry.functionChecked name handler check = some registered) (n : Text) :
    registered.get n = (if n = name then some handler else registry.get n) ∧
      registered.getCheck n = (if n = name then some check else registry.getCheck n) := by
  unfold functionChecked at hregistered
  split_ifs at hregistered with htaken
  obtain rfl := Option.some.inj hregistered
  constructor
  · simp only [get, Std.TreeMap.getElem?_insert, Std.LawfulEqCmp.compare_eq_iff_eq,
      eq_comm (a := n)]
  · simp only [getCheck, Std.TreeMap.getElem?_insert, Std.LawfulEqCmp.compare_eq_iff_eq,
      eq_comm (a := n)]

/-- Registering both wrappers of a handler keeps the registry paired. -/
theorem Registry.Paired.functionChecked {σ : Type} {registry registered : Registry σ}
    (hpaired : registry.Paired) {name : Text} {f : TypedFn σ}
    (hregistered : registry.functionChecked name (typed f) (typedCheck f) = some registered) :
    registered.Paired := by
  intro n handler hget
  obtain ⟨hn, hcheck⟩ := Registry.get_functionChecked hregistered n
  rw [hn] at hget
  rw [hcheck]
  by_cases hname : n = name
  · rw [if_pos hname] at hget ⊢
    exact ⟨f, (Option.some.inj hget).symm, rfl⟩
  · rw [if_neg hname] at hget ⊢
    exact hpaired n handler hget

/-- A registry built from typed handlers is paired. -/
theorem Registry.paired_of_ofTyped {σ : Type} {fns : List (Text × TypedFn σ)}
    {registry : Registry σ} (hbuilt : ofTyped fns = some registry) : registry.Paired := by
  have hgeneral : ∀ start : Registry σ, start.Paired →
      fns.foldlM (fun registry fn => registry.functionChecked fn.1 (typed fn.2) (typedCheck fn.2))
        start = some registry → registry.Paired := by
    clear hbuilt
    induction fns with
    | nil =>
      intro start hstart hbuilt
      obtain rfl := Option.some.inj hbuilt
      exact hstart
    | cons fn fns ih =>
      intro start hstart hbuilt
      rw [List.foldlM_cons] at hbuilt
      obtain ⟨next, hnext, hrest⟩ := Option.bind_eq_some_iff.mp hbuilt
      exact ih next (hstart.functionChecked hnext) hrest
  refine hgeneral new ?_ hbuilt
  intro name handler hget
  simp [get, new] at hget

end ModalRust.Runtime
