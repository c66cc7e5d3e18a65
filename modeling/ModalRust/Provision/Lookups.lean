import ModalRust.Provision.Union

/-!
# Lookups

What the parts of a provisioning request before they create a function: the secrets and
volumes of an entrypoint, the app, the mounts and the image. None of them creates or
publishes anything, and each one's calls are told exactly as far as a create depends on
them.
-/

namespace ModalRust.Provision

open ModalRust.Sdk ModalRust.Session

/-- What the control plane returned for an entrypoint's own secrets and volumes. -/
structure OwnIds where
  /-- The secrets: the named ones, then the inline one. -/
  secretIds : List Text
  /-- The volumes. -/
  volumeIds : List Text
  deriving DecidableEq

/-- How many secrets an entrypoint has: the named ones, and one for an inline environment
that is not empty. -/
def secretCount (options : FunctionOptions) : ℕ :=
  options.secrets.length + if options.env.isEmpty then 0 else 1

/-- The ids answer the entrypoint's own requests, one by one. -/
structure OwnIds.Fits (own : OwnIds) (options : FunctionOptions) : Prop where
  /-- One id for each secret. -/
  secrets : own.secretIds.length = secretCount options
  /-- One id for each volume. -/
  volumes : own.volumeIds.length = options.volumes.length

/-- The volumes with their mount paths. -/
def OwnIds.mounts (own : OwnIds) (options : FunctionOptions) : List (Text × Text) :=
  List.zipWith (fun volume id => (id, volume.1)) options.volumes own.volumeIds

/-- The lookup of a named secret. -/
def secretCall (options : FunctionOptions) (name id : Text) : Call :=
  ⟨.ensureSecret name options.requiredKeys, .ok id⟩

/-- The calls for an entrypoint's secrets: a lookup of each named secret in declaration
order, then the creation of its inline secret. -/
def secretCalls (appName objectTag : Text) (options : FunctionOptions) (ids : List Text) :
    List Call :=
  List.zipWith (secretCall options) options.secrets ids ++
    if options.env.isEmpty then []
    else (ids.drop options.secrets.length).map fun id =>
      ⟨.ensureInlineSecret (inlineSecretName appName objectTag) options.env, .ok id⟩

/-- The lookup of a volume, given with its mount path. -/
def volumeCall (volume : Text × Text) (id : Text) : Call := ⟨.ensureVolume volume.2 false, .ok id⟩

/-- The calls for an entrypoint's volumes. -/
def volumeCalls (options : FunctionOptions) (ids : List Text) : List Call :=
  List.zipWith volumeCall options.volumes ids

/-- The calls for what an entrypoint alone uses. -/
def ownCalls (appName : Text) (ep : Entrypoint) (own : OwnIds) : List Call :=
  secretCalls appName (sanitizeObjectTag ep.name) ep.options own.secretIds ++
    volumeCalls ep.options own.volumeIds

variable {σ : Type} {cp : ControlPlane σ} {host : Host} {inputs : ProvisionInputs}
  {boundary : Boundary}

/-- Sending a request that neither creates nor publishes. -/
theorem emits_ask {r : Request} (hr : ∀ reply, IsLookup ⟨r, reply⟩) :
    Emits IsLookup (ask cp r : Provisioning σ r.Reply)
      fun reply calls => calls = [⟨r, .ok reply⟩] :=
  Emits.ask hr fun _ => rfl

/-- The secrets of an entrypoint. -/
theorem emits_resolveEntrypointSecrets (appName objectTag : Text) (options : FunctionOptions) :
    Emits IsLookup (resolveEntrypointSecrets cp appName objectTag options)
      fun ids calls => ids.length = secretCount options ∧
        calls = secretCalls appName objectTag options ids := by
  have hnamed : Emits IsLookup
      (options.secrets.mapM' fun name =>
        (ask cp (.ensureSecret name options.requiredKeys) : Provisioning σ Text))
      fun ids calls => List.Forall₂ (fun _ _ => True) options.secrets ids ∧
        calls = List.zipWith (secretCall options) options.secrets ids :=
    Emits.mapM' (fun name => (emits_ask (r := .ensureSecret name options.requiredKeys)
      fun _ => ⟨rfl, rfl⟩).mono fun id calls h => ⟨trivial, h⟩) options.secrets
  refine Emits.bind hnamed fun named calls hcalls => ?_
  obtain ⟨hrelated, rfl⟩ := hcalls
  have hlength := hrelated.length_eq
  by_cases henv : options.env.isEmpty = true
  · rw [if_pos henv]
    refine Emits.pure ⟨?_, ?_⟩
    · rw [secretCount, if_pos henv, hlength, Nat.add_zero]
    · rw [secretCalls, if_pos henv]
  · rw [if_neg henv]
    refine Emits.bind (emits_ask fun _ => ⟨rfl, rfl⟩) fun inlineId later hlater => ?_
    subst hlater
    refine Emits.pure ⟨?_, ?_⟩
    · rw [secretCount, if_neg henv, List.length_append, hlength]
      rfl
    · have hdrop : (named ++ [inlineId]).drop options.secrets.length = [inlineId] := by
        rw [hlength, List.drop_left]
      have hzip : List.zipWith (secretCall options) (options.secrets ++ []) (named ++ [inlineId]) =
          List.zipWith (secretCall options) options.secrets named :=
        (List.zipWith_append hlength).trans (List.append_nil _)
      rw [List.append_nil] at hzip
      rw [secretCalls, if_neg henv, hdrop, hzip]
      rfl

/-- Mounts that have the declared paths are their ids, mounted at those paths. -/
theorem zipWith_of_paths {volumes mounts : List (Text × Text)}
    (hpaths : List.Forall₂ (fun volume mount => mount.2 = volume.1) volumes mounts) :
    mounts = List.zipWith (fun volume id => (id, volume.1)) volumes (mounts.map Prod.fst) := by
  induction hpaths with
  | nil => rfl
  | cons hpath _ ih => rw [List.map_cons, List.zipWith_cons_cons, ← ih, ← hpath]

/-- The volumes of an entrypoint. -/
theorem emits_resolveVolumes (check : Text → Except Error Unit) (options : FunctionOptions) :
    Emits IsLookup (resolveVolumes cp check options.volumes)
      fun mounts calls => ∃ ids : List Text, ids.length = options.volumes.length ∧
        mounts = List.zipWith (fun volume id => (id, volume.1)) options.volumes ids ∧
        calls = volumeCalls options ids := by
  have hone (volume : Text × Text) : Emits IsLookup
      (do
        offline (check volume.1)
        let id : Text ← ask cp (.ensureVolume volume.2 false)
        return (id, volume.1) : Provisioning σ (Text × Text))
      fun mount calls => mount.2 = volume.1 ∧ calls = [volumeCall volume mount.1] := by
    refine Emits.bind (Emits.offline (S := fun _ calls => calls = []) fun _ _ => rfl)
      fun _ calls hcalls => ?_
    subst hcalls
    refine Emits.bind (emits_ask fun _ => ⟨rfl, rfl⟩) fun id calls hcalls => ?_
    subst hcalls
    exact Emits.pure ⟨rfl, rfl⟩
  refine (Emits.mapM' hone options.volumes).mono fun mounts calls hcalls => ?_
  obtain ⟨hpaths, rfl⟩ := hcalls
  refine ⟨mounts.map Prod.fst, ?_, ?_, ?_⟩
  · rw [List.length_map, hpaths.length_eq]
  · exact zipWith_of_paths hpaths
  · rw [volumeCalls, List.zipWith_map_right]

/-- What a run resolves first. -/
structure RunCalls (inputs : ProvisionInputs) (ep : Entrypoint) (own : OwnIds)
    (run : RunResources) (calls : List Call) : Prop where
  /-- The ids answer the entrypoint's own requests. -/
  fits : own.Fits ep.options
  /-- The secrets. -/
  secretIds_eq : run.secretIds = own.secretIds
  /-- The volumes. -/
  userVolumeMounts_eq : run.userVolumeMounts = own.mounts ep.options
  /-- The entrypoint's own calls. -/
  own_calls : ownCalls inputs.appName ep own <:+: calls
  /-- The cargo cache is used if it is on. -/
  cache_isSome : run.cacheVolId.isSome = inputs.cache
  /-- The volume of the cargo cache. -/
  cache_call : ∀ volume ∈ run.cacheVolId, ⟨.ensureVolume cacheVolumeName true, .ok volume⟩ ∈ calls

/-- The cargo cache. -/
theorem emits_resolveCache :
    Emits IsLookup (resolveCache cp inputs)
      fun volume calls => volume.isSome = inputs.cache ∧
        ∀ id ∈ volume, ⟨.ensureVolume cacheVolumeName true, .ok id⟩ ∈ calls := by
  unfold resolveCache
  cases inputs.cache with
  | false => exact Emits.pure ⟨rfl, by simp⟩
  | true =>
    refine Emits.bind (emits_ask fun _ => ⟨rfl, rfl⟩) fun id calls hcalls => ?_
    subst hcalls
    exact Emits.pure ⟨rfl, by simp⟩

/-- The first part of a run. -/
theorem emits_resolveRun (ep : Entrypoint) :
    Emits IsLookup (resolveRun cp inputs boundary ep)
      fun run calls => ∃ own, RunCalls inputs ep own run calls := by
  refine Emits.bind (emits_ask fun _ => ⟨rfl, rfl⟩) fun appId appCalls happ => ?_
  refine Emits.bind emits_resolveCache fun cacheVolId cacheCalls hcacheCalls => ?_
  refine Emits.bind (emits_resolveEntrypointSecrets _ _ _) fun secretIds calls hsecrets => ?_
  refine Emits.bind (emits_resolveVolumes _ _) fun mounts volumeCalls hvolumes => ?_
  obtain ⟨hcount, rfl⟩ := hsecrets
  obtain ⟨volumeIds, hlength, rfl, rfl⟩ := hvolumes
  refine Emits.pure ⟨⟨secretIds, volumeIds⟩, ⟨hcount, hlength⟩, rfl, rfl, ?_, hcacheCalls.1, ?_⟩
  · exact ⟨appCalls ++ cacheCalls, [], by simp [ownCalls]⟩
  · intro volume hvolume
    simp [hcacheCalls.2 volume hvolume]

/-- The mounts. -/
theorem emits_resolveMounts :
    Emits IsLookup (resolveMounts cp inputs boundary)
      fun mounts calls => ⟨.ensureClientMount, .ok mounts.client⟩ ∈ calls ∧
        ⟨.ensureSourceMount inputs.source (sourceRemote inputs boundary), .ok mounts.source⟩ ∈
          calls := by
  refine Emits.bind (emits_ask fun _ => ⟨rfl, rfl⟩) fun client clientCalls hclient => ?_
  refine Emits.bind (emits_ask fun _ => ⟨rfl, rfl⟩) fun source sourceCalls hsource => ?_
  refine Emits.bind (emits_ask fun _ => ⟨rfl, rfl⟩) fun python pythonCalls hpython => ?_
  subst hclient hsource
  exact Emits.pure ⟨by simp, by simp⟩

/-- The app. -/
theorem emits_resolveApp (run : Option RunResources) :
    Emits IsLookup (resolveApp cp inputs boundary run) fun _ _ => True := by
  cases run with
  | some run => exact Emits.pure trivial
  | none => exact (emits_ask fun _ => ⟨rfl, rfl⟩).mono fun _ _ _ => trivial

/-- The image below the top layer. -/
theorem emits_topBase (appId baseImageId : Text) :
    Emits IsLookup (topBase cp inputs boundary appId baseImageId) fun _ _ => True := by
  unfold topBase
  cases inputs.depPrebuild with
  | false => exact Emits.pure trivial
  | true =>
    refine Emits.bind (emits_ask fun _ => ⟨rfl, rfl⟩) fun stub calls _ => ?_
    cases stub with
    | none => exact Emits.pure trivial
    | some stub => exact (emits_ask fun _ => ⟨rfl, rfl⟩).mono fun _ _ _ => trivial

/-- The image. -/
theorem emits_buildImage (appId : Text) (mounts : Mounts) :
    Emits IsLookup (buildImage cp host inputs boundary appId mounts)
      fun imageId calls => ∃ spec layer, ⟨.ensureImage appId spec layer, .ok imageId⟩ ∈ calls := by
  refine Emits.bind (emits_ask fun _ => ⟨rfl, rfl⟩) fun baseImageId calls hbase => ?_
  subst hbase
  cases boundary.sourceDelivery with
  | runMount => exact Emits.pure ⟨_, _, List.mem_append_left _ (List.mem_singleton_self _)⟩
  | deployContext =>
    refine Emits.bind (emits_topBase _ _) fun top topCalls _ => ?_
    refine (emits_ask fun _ => ⟨rfl, rfl⟩).mono fun imageId imageCalls himage => ?_
    subst himage
    exact ⟨_, _, List.mem_append_right _ (List.mem_append_right _ (List.mem_singleton_self _))⟩

end ModalRust.Provision
