import Mathlib.Data.List.Pairwise
import ModalRust.Provision.Isolation
import ModalRust.Provision.Requests

/-!
# Inline secrets

The inline environment of an entrypoint is kept in a secret that is named after the app and
the entrypoint. The server creates a secret if its name is new; otherwise it returns the
existing secret and ignores the environment that was sent. So what a function is bound to
depends on everything that was provisioned before under the same name.
-/

namespace ModalRust.Provision

open ModalRust.Sdk ModalRust.Session

/-- An inline environment as a map: `env.iter().cloned().collect()`. -/
def envMap (env : List (Text × Text)) : Text → Option Text := fun key => env.reverse.lookup key

/-- A secret as the server keeps it. -/
structure StoredSecret where
  /-- The id. -/
  id : Text
  /-- The environment that it holds. -/
  env : Text → Option Text

/-- The secrets of one environment of the server, by name. -/
abbrev SecretStore := Text → Option StoredSecret

/-- `CREATE_IF_MISSING`: a secret whose name is taken stays as it is. -/
def SecretStore.createIfMissing (store : SecretStore) (name id : Text)
    (env : List (Text × Text)) : SecretStore :=
  if (store name).isSome then store else Function.update store name (some ⟨id, envMap env⟩)

/-- A control plane with the documented rule for inline secrets. All its other answers, its
failures, and the ids of new secrets are those of any other control plane. -/
def withSecrets {σ : Type} (cp : ControlPlane σ) : ControlPlane (σ × SecretStore) :=
  fun request w =>
    match request with
    | .ensureInlineSecret name env =>
      match cp (.ensureInlineSecret name env) w.1 with
      | (.error e, s) => (.error e, (s, w.2))
      | (.ok id, s) =>
        (.ok ((w.2 name).elim id StoredSecret.id), (s, w.2.createIfMissing name id env))
    | request => ((cp request w.1).1, ((cp request w.1).2, w.2))

/-- The secrets that are there stay as they are. -/
def SecretStore.Grows (store later : SecretStore) : Prop :=
  ∀ name stored, store name = some stored → later name = some stored

/-- Creating a secret leaves the others alone. -/
theorem SecretStore.grows_createIfMissing (store : SecretStore) (name id : Text)
    (env : List (Text × Text)) : store.Grows (store.createIfMissing name id env) := by
  intro other stored hstored
  unfold createIfMissing
  by_cases htaken : (store name).isSome = true
  · rwa [if_pos htaken]
  · rw [if_neg htaken]
    by_cases hsame : other = name
    · subst hsame
      rw [hstored] at htaken
      exact absurd rfl htaken
    · rwa [Function.update_of_ne hsame]

/-- The secret of that name, after creating it. -/
theorem SecretStore.createIfMissing_self (store : SecretStore) (name id : Text)
    (env : List (Text × Text)) : store.createIfMissing name id env name =
      some ((store name).getD ⟨id, envMap env⟩) := by
  unfold createIfMissing
  cases hname : store name with
  | none => simp
  | some stored => simp [hname]

/-- A secret was there before, or was created. -/
theorem SecretStore.of_createIfMissing {store : SecretStore} {name id other : Text}
    {env : List (Text × Text)} {stored : StoredSecret}
    (hstored : store.createIfMissing name id env other = some stored) :
    store other = some stored ∨ other = name ∧ stored.env = envMap env := by
  unfold createIfMissing at hstored
  by_cases htaken : (store name).isSome = true
  · rw [if_pos htaken] at hstored
    exact .inl hstored
  · rw [if_neg htaken] at hstored
    by_cases hsame : other = name
    · subst hsame
      rw [Function.update_self, Option.some.injEq] at hstored
      exact .inr ⟨rfl, by rw [← hstored]⟩
    · rw [Function.update_of_ne hsame] at hstored
      exact .inl hstored

/-- What a provisioning, from the secrets in `store`, keeps about them. -/
structure SecretsKept {σ : Type} (inputs : ProvisionInputs) (store : SecretStore)
    (w : PlaneWorld (σ × SecretStore)) : Prop where
  /-- No secret is changed. -/
  grows : store.Grows w.server.2
  /-- A new secret holds the inline environment of one of the entrypoints. -/
  origin : ∀ name stored, w.server.2 name = some stored → store name = some stored ∨
    ∃ ep ∈ inputs.entrypoints, ep.options.env ≠ [] ∧ name = secretNameOf inputs ep ∧
      stored.env = envMap ep.options.env
  /-- Every request for an inline secret was answered with the id of the stored one. -/
  answered : ∀ name env id, ⟨.ensureInlineSecret name env, .ok id⟩ ∈ w.log →
    ∃ stored, w.server.2 name = some stored ∧ stored.id = id

variable {σ : Type} {cp : ControlPlane σ} {host : Host} {inputs : ProvisionInputs}
  {boundary : Boundary} {store : SecretStore}

/-- One answered request. -/
theorem SecretsKept.answer {w : PlaneWorld (σ × SecretStore)} {r : Request}
    {reply : Except Error r.Reply} {s : σ × SecretStore} (hw : SecretsKept inputs store w)
    (hgrows : w.server.2.Grows s.2)
    (horigin : ∀ name stored, s.2 name = some stored → w.server.2 name = some stored ∨
      ∃ ep ∈ inputs.entrypoints, ep.options.env ≠ [] ∧ name = secretNameOf inputs ep ∧
        stored.env = envMap ep.options.env)
    (hanswer : ∀ name env id, (⟨r, reply⟩ : Call) = ⟨.ensureInlineSecret name env, .ok id⟩ →
      ∃ stored, s.2 name = some stored ∧ stored.id = id) :
    SecretsKept inputs store (w.answered s r reply) where
  grows := fun name stored hstored => hgrows name stored (hw.grows name stored hstored)
  origin := by
    intro name stored hstored
    rcases horigin name stored hstored with hold | hnew
    · exact hw.origin name stored hold
    · exact .inr hnew
  answered := by
    intro name env id hcall
    rw [World.log_answered, List.mem_append] at hcall
    rcases hcall with hcall | hcall
    · obtain ⟨stored, hstored, hid⟩ := hw.answered name env id hcall
      exact ⟨stored, hgrows name stored hstored, hid⟩
    · exact hanswer name env id (List.mem_singleton.mp hcall).symm

/-- Every request that a provisioning may send keeps the secrets. -/
theorem keeps_secrets_ask (r : Request) (hr : Asked inputs r) :
    Keeps (SecretsKept inputs store)
      (ask (withSecrets cp) r : Provisioning (σ × SecretStore) r.Reply) := by
  refine Keeps.ask fun w reply s hw hanswer => ?_
  cases r with
  | ensureInlineSecret name env =>
    obtain ⟨ep, hep, henv, rfl, rfl⟩ := hr
    unfold withSecrets at hanswer
    rcases hcp : cp (.ensureInlineSecret (secretNameOf inputs ep) ep.options.env) w.server.1 with
      ⟨answer, s'⟩
    simp only [hcp] at hanswer
    cases answer with
    | error e =>
      cases hanswer
      refine hw.answer (fun _ _ hstored => hstored) (fun _ _ hstored => .inl hstored) ?_
      rintro name env id ⟨⟩
    | ok id =>
      cases hanswer
      have hself := w.server.2.createIfMissing_self (secretNameOf inputs ep) id ep.options.env
      refine hw.answer (w.server.2.grows_createIfMissing _ _ _) ?_ ?_
      · intro name stored hstored
        rcases SecretStore.of_createIfMissing hstored with hold | ⟨rfl, hmap⟩
        · exact .inl hold
        · exact .inr ⟨ep, hep, henv, rfl, hmap⟩
      · rintro name env id' ⟨⟩
        refine ⟨_, hself, ?_⟩
        cases w.server.2 (secretNameOf inputs ep) with
        | none => rfl
        | some stored => rfl
  | _ =>
    cases hanswer
    exact hw.answer (fun _ _ hstored => hstored) (fun _ _ hstored => .inl hstored) (by simp)

/-- A whole provisioning keeps the secrets. -/
theorem keeps_secrets_provision : Keeps (SecretsKept inputs store)
    (provision (withSecrets cp) host inputs boundary) := by
  refine keeps_provision keeps_secrets_ask fun objectTag created => ?_
  exact Triple.update fun w hw => ⟨hw.grows, hw.origin, hw.answered⟩

/-- A provisioning: what it is given, and the functions that were published before. -/
structure ProvisionStep where
  /-- The inputs. -/
  inputs : ProvisionInputs
  /-- Run or deploy. -/
  boundary : Boundary
  /-- The functions published so far. -/
  published : Published

/-- How a session ended. -/
def worldOf {α : Type} : EStateM.Result Error (PlaneWorld σ) α → PlaneWorld σ
  | .ok _ w | .error _ w => w

/-- Some provisionings, one after another, each with the world that it ends in. -/
def provisionAll (cp : ControlPlane σ) (host : Host) (server : σ) :
    List ProvisionStep → List (ProvisionStep × PlaneWorld σ)
  | [] => []
  | step :: rest =>
    let w := worldOf (provision cp host step.inputs step.boundary ⟨server, step.published, []⟩)
    (step, w) :: provisionAll cp host w.server rest

/-- Every function that was created in a provisioning for an entrypoint with an inline
environment is bound to a secret that holds exactly this environment. -/
def BoundToOwnEnv (step : ProvisionStep) (w : PlaneWorld (σ × SecretStore)) : Prop :=
  ∀ before appId precreateId spec reply after,
    w.log = before ++ ⟨.create appId precreateId spec, reply⟩ :: after →
    ∀ ep, step.inputs.entrypoints[(before.filterMap createRequest).length]? = some ep →
      ep.options.env ≠ [] →
      ∃ stored, w.server.2 (secretNameOf step.inputs ep) = some stored ∧
        spec.secretIds.getLast? = some stored.id ∧ stored.env = envMap ep.options.env

/-- This holds after every provisioning of a history. -/
def AllBoundToOwnEnv (results : List (ProvisionStep × PlaneWorld (σ × SecretStore))) : Prop :=
  ∀ result ∈ results, BoundToOwnEnv result.1 result.2

/-- The entrypoints of some provisionings that have an inline environment, each with the
name of its app. -/
def inlineEntries (steps : List ProvisionStep) : List (Text × Entrypoint) :=
  steps.flatMap fun step =>
    (step.inputs.entrypoints.filter fun ep => ep.options.env ≠ []).map fun ep =>
      (step.inputs.appName, ep)

/-- The name of the secret of such an entrypoint. -/
def entrySecretName (entry : Text × Entrypoint) : Text :=
  inlineSecretName entry.1 (sanitizeObjectTag entry.2.name)

/-- Inline environments that are kept under one name are the same, also as one that is
stored already. -/
structure EnvsAgree (store : SecretStore) (entries : List (Text × Entrypoint)) : Prop where
  /-- The stored one. -/
  stored : ∀ entry ∈ entries, ∀ stored, store (entrySecretName entry) = some stored →
    stored.env = envMap entry.2.options.env
  /-- Any two of them. -/
  same : ∀ entry ∈ entries, ∀ other ∈ entries, entrySecretName entry = entrySecretName other →
    envMap entry.2.options.env = envMap other.2.options.env

/-- An entrypoint with an inline environment is one of the entries. -/
theorem mem_inlineEntries {steps : List ProvisionStep} {step : ProvisionStep}
    (hstep : step ∈ steps) {ep : Entrypoint} (hep : ep ∈ step.inputs.entrypoints)
    (henv : ep.options.env ≠ []) : (step.inputs.appName, ep) ∈ inlineEntries steps := by
  refine List.mem_flatMap.mpr ⟨step, hstep, List.mem_map.mpr ⟨ep, ?_, rfl⟩⟩
  exact List.mem_filter.mpr ⟨hep, by simpa using henv⟩

/-- The last secret of an entrypoint with an inline environment is its inline secret. -/
theorem inlineSecret_of_ownCalls (appName : Text) {ep : Entrypoint} {own : OwnIds}
    (hfits : own.Fits ep.options) (henv : ep.options.env ≠ []) :
    ∃ id, own.secretIds.getLast? = some id ∧
      ⟨.ensureInlineSecret (inlineSecretName appName (sanitizeObjectTag ep.name)) ep.options.env,
        .ok id⟩ ∈ ownCalls appName ep own := by
  have hnonempty : ¬ ep.options.env.isEmpty = true := by simpa using henv
  have hcount := hfits.secrets
  rw [secretCount, if_neg hnonempty] at hcount
  have hdrop : (own.secretIds.drop ep.options.secrets.length).length = 1 := by
    rw [List.length_drop]
    omega
  obtain ⟨id, hid⟩ := List.length_eq_one_iff.mp hdrop
  have hsplit := List.take_append_drop ep.options.secrets.length own.secretIds
  rw [hid] at hsplit
  refine ⟨id, by rw [← hsplit, List.getLast?_concat], List.mem_append_left _ ?_⟩
  rw [secretCalls, if_neg hnonempty, hid]
  exact List.mem_append_right _ (List.mem_singleton_self _)

/-- What the control plane returned for an entrypoint alone was logged before its create. -/
theorem OwnIds.FromCalls.subset {own : OwnIds} {ep : Entrypoint} {appId precreateId : Text}
    {calls : List Call} (hcalls : own.FromCalls inputs boundary ep appId precreateId calls) :
    ownCalls inputs.appName ep own ⊆ calls := by
  obtain ⟨state, delivery⟩ := boundary
  cases delivery with
  | runMount =>
    obtain ⟨before, rfl, hpart⟩ := hcalls
    exact fun call hcall => List.mem_append_left _ (hpart.subset hcall)
  | deployContext =>
    obtain ⟨before, rfl⟩ := hcalls
    exact fun call hcall => List.mem_append_right _ (List.mem_cons_of_mem _ hcall)

/-- One provisioning binds every function to its own environment. -/
theorem SecretsKept.boundToOwnEnv {step : ProvisionStep} {w : PlaneWorld (σ × SecretStore)}
    (hw : SecretsKept step.inputs store w)
    (hissued : EachIssued host step.inputs step.boundary w.log)
    {entries : List (Text × Entrypoint)} (hagree : EnvsAgree store entries)
    (hentries : inlineEntries [step] ⊆ entries) : BoundToOwnEnv step w := by
  intro before appId precreateId spec reply after hsplit ep hep henv
  obtain ⟨ep', shared, own, hep', hissue⟩ :=
    hissued before _ after hsplit appId precreateId spec reply rfl
  obtain rfl := Option.some.inj (hep.symm.trans hep')
  have hmem {other : Entrypoint} (hother : other ∈ step.inputs.entrypoints)
      (hne : other.options.env ≠ []) : (step.inputs.appName, other) ∈ entries :=
    hentries (mem_inlineEntries (List.mem_singleton_self step) hother hne)
  have hown := hmem (List.mem_of_getElem? hep) henv
  obtain ⟨id, hlast, hcall⟩ :=
    inlineSecret_of_ownCalls step.inputs.appName hissue.fits henv
  have hlogged := hissue.own_calls.subset hcall
  obtain ⟨stored, hstored, rfl⟩ := hw.answered _ _ id
    (by rw [hsplit]; exact List.mem_append_left _ hlogged)
  obtain ⟨checked, _, hspec⟩ := hissue.carriesOwn.fields
  refine ⟨stored, hstored, by rw [hspec]; exact hlast, ?_⟩
  rcases hw.origin _ stored hstored with hold | ⟨other, hother, hne, hname, hmap⟩
  · exact hagree.stored _ hown stored hold
  · rw [hmap]
    exact (hagree.same _ hown _ (hmem hother hne) hname).symm

/-- What holds however a session ends. -/
theorem worldOf_of_triple {α : Type} {m : Provisioning σ α} {P E : PlaneWorld σ → Prop}
    (hm : Triple P m (fun _ => E) E) {w : PlaneWorld σ} (hw : P w) : E (worldOf (m w)) := by
  have hresult := hm.apply hw
  cases hrun : m w with
  | ok a w' =>
    rw [hrun] at hresult
    exact hresult
  | error e w' =>
    rw [hrun] at hresult
    exact hresult

/-- The world that one provisioning ends in. -/
theorem secretsKept_provision (cp : ControlPlane σ) (host : Host) (server : σ × SecretStore)
    (step : ProvisionStep) (hadmits : step.boundary.Admits step.inputs.entrypoints) :
    let w := worldOf (provision (withSecrets cp) host step.inputs step.boundary
      ⟨server, step.published, []⟩)
    SecretsKept step.inputs server.2 w ∧ EachIssued host step.inputs step.boundary w.log := by
  have hkeeps : Keeps (SecretsKept step.inputs server.2)
      (provision (withSecrets cp) host step.inputs step.boundary) := keeps_secrets_provision
  have hsound : Triple (fun w => w.own = step.published ∧ w.log = [])
      (provision (withSecrets cp) host step.inputs step.boundary)
      (fun _ => Sound host step.inputs step.boundary step.published)
      (Sound host step.inputs step.boundary step.published) := triple_provision hadmits
  refine ⟨worldOf_of_triple hkeeps ⟨?_, ?_, by simp⟩,
    (worldOf_of_triple hsound ⟨rfl, rfl⟩).issued⟩
  · exact fun name stored hstored => hstored
  · exact fun name stored hstored => .inl hstored

/-- Environments that agree before a provisioning agree with what it leaves behind. -/
theorem EnvsAgree.rest {step : ProvisionStep} {rest : List ProvisionStep}
    {w : PlaneWorld (σ × SecretStore)} (hw : SecretsKept step.inputs store w)
    (hagree : EnvsAgree store (inlineEntries (step :: rest))) :
    EnvsAgree w.server.2 (inlineEntries rest) := by
  have hsubset : inlineEntries rest ⊆ inlineEntries (step :: rest) :=
    fun entry hentry => List.mem_append_right _ hentry
  refine ⟨fun entry hentry stored hstored => ?_, fun entry hentry other hother hname => ?_⟩
  · rcases hw.origin _ stored hstored with hold | ⟨ep, hep, hne, hname, hmap⟩
    · exact hagree.stored entry (hsubset hentry) stored hold
    · rw [hmap]
      exact (hagree.same entry (hsubset hentry) _
        (mem_inlineEntries List.mem_cons_self hep hne) hname).symm
  · exact hagree.same entry (hsubset hentry) other (hsubset hother) hname

/-- **An inline environment takes effect if it is the first one under its name, or the same.**
After every provisioning of a history, whatever the control plane answers and however the
provisionings end, every created function is bound to a secret with its own environment. -/
theorem inline_env_bound (cp : ControlPlane σ) (host : Host) (server : σ × SecretStore)
    (steps : List ProvisionStep)
    (hadmits : ∀ step ∈ steps, step.boundary.Admits step.inputs.entrypoints)
    (hagree : EnvsAgree server.2 (inlineEntries steps)) :
    AllBoundToOwnEnv (provisionAll (withSecrets cp) host server steps) := by
  induction steps generalizing server with
  | nil => rintro result ⟨⟩
  | cons step rest ih =>
    obtain ⟨hkept, hissued⟩ :=
      secretsKept_provision cp host server step (hadmits step List.mem_cons_self)
    intro result hresult
    rw [provisionAll, List.mem_cons] at hresult
    have hentries : inlineEntries [step] ⊆ inlineEntries (step :: rest) := by
      intro entry hentry
      rw [inlineEntries, List.flatMap_singleton] at hentry
      exact List.mem_append_left _ hentry
    have hbound := hkept.boundToOwnEnv hissued hagree hentries
    rcases hresult with rfl | hlater
    · exact hbound
    · exact ih _ (fun s hs => hadmits s (List.mem_cons_of_mem _ hs)) (hagree.rest hkept) result
        hlater

/-- A deploy of one entrypoint with a given inline environment. -/
def envDeploy (appName name : Text) (env : List (Text × Text)) : ProvisionStep where
  inputs := { plainInputs [⟨name, { FunctionOptions.default with env := env }, 600⟩] with
    appName := appName }
  boundary := deployBoundary
  published := .default

/-- The same environment, deployed twice. -/
theorem inline_env_bound_twice :
    AllBoundToOwnEnv (provisionAll (withSecrets (numberedPlane [])) plainHost (0, fun _ => none)
      [envDeploy "app".toList "a".toList [("K".toList, "1".toList)],
        envDeploy "app".toList "a".toList [("K".toList, "1".toList)]]) := by
  have hentries : inlineEntries [envDeploy "app".toList "a".toList [("K".toList, "1".toList)],
      envDeploy "app".toList "a".toList [("K".toList, "1".toList)]] =
      List.replicate 2 ("app".toList,
        ⟨"a".toList, { FunctionOptions.default with env := [("K".toList, "1".toList)] }, 600⟩) := by
    decide
  have hadmits : ∀ step ∈ [envDeploy "app".toList "a".toList [("K".toList, "1".toList)],
      envDeploy "app".toList "a".toList [("K".toList, "1".toList)]],
      step.boundary.Admits step.inputs.entrypoints := by
    intro step hstep
    rcases List.mem_cons.mp hstep with rfl | hstep
    · rintro ⟨⟩
    · obtain rfl := List.mem_singleton.mp hstep
      rintro ⟨⟩
  have hagree : EnvsAgree (fun _ => none) (inlineEntries
      [envDeploy "app".toList "a".toList [("K".toList, "1".toList)],
        envDeploy "app".toList "a".toList [("K".toList, "1".toList)]]) := by
    rw [hentries]
    refine ⟨by rintro entry _ stored ⟨⟩, fun entry hentry other hother _ => ?_⟩
    rw [List.eq_of_mem_replicate hentry, List.eq_of_mem_replicate hother]
  have hbound := inline_env_bound (numberedPlane []) plainHost (0, fun _ => none)
    [envDeploy "app".toList "a".toList [("K".toList, "1".toList)],
      envDeploy "app".toList "a".toList [("K".toList, "1".toList)]] hadmits hagree
  exact hbound

/-- A changed environment has no effect: the function is bound to the secret that holds the
first one. -/
theorem changed_inline_env_ignored :
    ¬ AllBoundToOwnEnv (provisionAll (withSecrets (numberedPlane [])) plainHost
      (0, fun _ => none) [envDeploy "app".toList "a".toList [("K".toList, "1".toList)],
        envDeploy "app".toList "a".toList [("K".toList, "2".toList)]]) := by
  intro hbound
  have hsecond : (provisionAll (withSecrets (numberedPlane [])) plainHost (0, fun _ => none)
      [envDeploy "app".toList "a".toList [("K".toList, "1".toList)],
        envDeploy "app".toList "a".toList [("K".toList, "2".toList)]])[1]?.any (fun result =>
      (result.1.inputs.entrypoints[0]?.any fun ep =>
        envMap ep.options.env "K".toList == some "2".toList && ep.options.env != [] &&
          (result.2.server.2 (secretNameOf result.1.inputs ep)).any fun stored =>
            stored.env "K".toList == some "1".toList) &&
      ((result.2.log.take 8).filterMap createRequest).length == 0 &&
      result.2.log[8]?.any fun call => (createRequest call).isSome) = true := by
    decide +kernel
  obtain ⟨result, hresult, hchecks⟩ := (Option.any_eq_true _ _).mp hsecond
  rw [Bool.and_eq_true, Bool.and_eq_true, beq_iff_eq] at hchecks
  obtain ⟨⟨hep, hcount⟩, hcall⟩ := hchecks
  obtain ⟨ep, hep, hstored⟩ := (Option.any_eq_true _ _).mp hep
  rw [Bool.and_eq_true, Bool.and_eq_true, beq_iff_eq, bne_iff_ne] at hstored
  obtain ⟨⟨hmap, henv⟩, hold⟩ := hstored
  obtain ⟨stored, hname, hold⟩ := (Option.any_eq_true _ _).mp hold
  obtain ⟨⟨request, reply⟩, hlogged, hcreate⟩ := (Option.any_eq_true _ _).mp hcall
  obtain ⟨hlength, hget⟩ := List.getElem?_eq_some_iff.mp hlogged
  have hsplit : result.2.log =
      result.2.log.take 8 ++ ⟨request, reply⟩ :: result.2.log.drop 9 := by
    rw [← hget]
    simp
  cases request with
  | create appId precreateId spec =>
    obtain ⟨stored', hname', _, hown⟩ := hbound result (List.mem_of_getElem? hresult) _ appId
      precreateId spec reply _ hsplit ep (by rw [hcount]; exact hep) henv
    obtain rfl := Option.some.inj (hname.symm.trans hname')
    rw [hown, hmap] at hold
    exact absurd hold (by decide)
  | _ => cases hcreate

/-- Two apps and tags whose inline secrets have one name. -/
def NamesClash (appName objectTag appName' objectTag' : Text) : Prop :=
  appName = appName' ∧ objectTag = objectTag' ∨
    (∃ s, appName = appName' ++ '-' :: s ∧ objectTag' = s ++ '-' :: objectTag) ∨
    ∃ s, appName' = appName ++ '-' :: s ∧ objectTag = s ++ '-' :: objectTag'

/-- Inline secrets have one name exactly if the apps and tags clash. -/
theorem inlineSecretName_eq_iff (appName objectTag appName' objectTag' : Text) :
    inlineSecretName appName objectTag = inlineSecretName appName' objectTag' ↔
      NamesClash appName objectTag appName' objectTag' := by
  have hdash : "-".toList = ['-'] := rfl
  unfold inlineSecretName NamesClash
  generalize "modal-rust-inline-env-".toList = front
  simp only [hdash, List.append_assoc, List.singleton_append, List.append_cancel_left_eq,
    List.append_eq_append_iff]
  constructor
  · rintro (⟨s, happ, htag⟩ | ⟨s, happ, htag⟩)
    · cases s with
      | nil =>
        obtain ⟨_, rfl⟩ := List.cons.inj htag
        exact .inl ⟨by simpa using happ.symm, rfl⟩
      | cons c s =>
        obtain ⟨rfl, rfl⟩ := List.cons.inj htag
        exact .inr (.inr ⟨s, happ, rfl⟩)
    · cases s with
      | nil =>
        obtain ⟨_, rfl⟩ := List.cons.inj htag
        exact .inl ⟨by simpa using happ, rfl⟩
      | cons c s =>
        obtain ⟨rfl, rfl⟩ := List.cons.inj htag
        exact .inr (.inl ⟨s, happ, rfl⟩)
  · rintro (⟨rfl, rfl⟩ | ⟨s, rfl, rfl⟩ | ⟨s, rfl, rfl⟩)
    · exact .inl ⟨[], by simp⟩
    · exact .inr ⟨'-' :: s, by simp⟩
    · exact .inl ⟨'-' :: s, by simp⟩

/-- Two entries whose inline secrets have one name. -/
def EntriesClash (entry other : Text × Entrypoint) : Prop :=
  NamesClash entry.1 (sanitizeObjectTag entry.2.name) other.1 (sanitizeObjectTag other.2.name)

/-- **Inline secrets of different entrypoints have different names exactly if their apps and
tags do not clash.** In a set of provisionings without a clash, in a fresh environment, every
function is bound to a secret with its own inline environment. -/
theorem inline_secrets_distinct {σ : Type} (cp : ControlPlane σ) (host : Host) (server : σ)
    (steps : List ProvisionStep) :
    (∀ appName entrypoint appName' entrypoint' : Text,
      inlineSecretName appName (sanitizeObjectTag entrypoint) ≠
          inlineSecretName appName' (sanitizeObjectTag entrypoint') ↔
        ¬ NamesClash appName (sanitizeObjectTag entrypoint) appName'
          (sanitizeObjectTag entrypoint')) ∧
    ((∀ step ∈ steps, step.boundary.Admits step.inputs.entrypoints) →
      (inlineEntries steps).Pairwise (fun entry other => ¬ EntriesClash entry other) →
      AllBoundToOwnEnv (provisionAll (withSecrets cp) host (server, fun _ => none) steps)) := by
  refine ⟨fun appName entrypoint appName' entrypoint' =>
    not_congr (inlineSecretName_eq_iff appName _ appName' _), ?_⟩
  intro hadmits hpairwise
  refine inline_env_bound cp host (server, fun _ => none) steps hadmits ⟨?_, ?_⟩
  · rintro entry _ stored ⟨⟩
  · intro entry hentry other hother hname
    have hsymm : Std.Symm fun entry other : Text × Entrypoint => ¬ EntriesClash entry other := by
      refine ⟨fun entry other hclash hclash' => hclash ?_⟩
      exact (inlineSecretName_eq_iff _ _ _ _).mp
        ((inlineSecretName_eq_iff _ _ _ _).mpr hclash').symm
    by_cases hsame : entry = other
    · rw [hsame]
    · exact absurd ((inlineSecretName_eq_iff _ _ _ _).mp hname)
        (hpairwise.forall hentry hother hsame)

/-- Two entrypoints of one app whose environments differ, and so do the names of their secrets. -/
theorem inline_secrets_distinct_two :
    inlineSecretName "app".toList (sanitizeObjectTag "a".toList) ≠
        inlineSecretName "app".toList (sanitizeObjectTag "b".toList) ∧
      AllBoundToOwnEnv (provisionAll (withSecrets (numberedPlane [])) plainHost (0, fun _ => none)
        [envDeploy "app".toList "a".toList [("K".toList, "1".toList)],
          envDeploy "app".toList "b".toList [("K".toList, "2".toList)]]) := by
  obtain ⟨hnames, hbound⟩ := inline_secrets_distinct (numberedPlane []) plainHost 0
    [envDeploy "app".toList "a".toList [("K".toList, "1".toList)],
      envDeploy "app".toList "b".toList [("K".toList, "2".toList)]]
  have hclash : ¬ NamesClash "app".toList (sanitizeObjectTag "a".toList) "app".toList
      (sanitizeObjectTag "b".toList) := by
    rw [← inlineSecretName_eq_iff]
    decide
  refine ⟨(hnames _ _ _ _).mpr hclash, hbound (fun step hstep => ?_) ?_⟩
  · rcases List.mem_cons.mp hstep with rfl | hstep
    · rintro ⟨⟩
    · obtain rfl := List.mem_singleton.mp hstep
      rintro ⟨⟩
  · have hentries : inlineEntries [envDeploy "app".toList "a".toList [("K".toList, "1".toList)],
        envDeploy "app".toList "b".toList [("K".toList, "2".toList)]] =
          [("app".toList, ⟨"a".toList, { FunctionOptions.default with
              env := [("K".toList, "1".toList)] }, 600⟩),
            ("app".toList, ⟨"b".toList, { FunctionOptions.default with
              env := [("K".toList, "2".toList)] }, 600⟩)] := by
      decide
    rw [hentries, List.pairwise_pair]
    exact hclash

/-- Two different apps and entrypoints whose inline secrets have one name. -/
theorem inlineSecretName_clash :
    ("a".toList, "b-c".toList) ≠ ("a-b".toList, "c".toList) ∧
      inlineSecretName "a".toList (sanitizeObjectTag "b-c".toList) =
        inlineSecretName "a-b".toList (sanitizeObjectTag "c".toList) := by
  decide

end ModalRust.Provision
