import ModalRust.Provision.Sequence

/-!
# Invariants of a provisioning

Whatever every request of a provisioning keeps, and every recording of a created function,
is kept by the whole provisioning, however it ends. The only requests that need to be told
apart are those for inline secrets: each is for the inline environment of one of the
entrypoints.
-/

namespace ModalRust.Provision

open ModalRust.Sdk ModalRust.Session

/-- The name of an entrypoint's inline secret. -/
def secretNameOf (inputs : ProvisionInputs) (ep : Entrypoint) : Text :=
  inlineSecretName inputs.appName (sanitizeObjectTag ep.name)

/-- A request that a provisioning may send: an inline secret is requested for one of its
entrypoints only. -/
def Asked (inputs : ProvisionInputs) : Request → Prop
  | .ensureInlineSecret name env => ∃ ep ∈ inputs.entrypoints,
      ep.options.env ≠ [] ∧ name = secretNameOf inputs ep ∧ env = ep.options.env
  | _ => True

variable {σ : Type} {cp : ControlPlane σ} {host : Host} {inputs : ProvisionInputs}
  {boundary : Boundary} {I : PlaneWorld σ → Prop}

section

variable (hask : ∀ r, Asked inputs r → Keeps I (ask cp r : Provisioning σ r.Reply))
include hask

/-- The secrets of an entrypoint. -/
theorem keeps_resolveEntrypointSecrets {ep : Entrypoint} (hep : ep ∈ inputs.entrypoints) :
    Keeps I (resolveEntrypointSecrets cp inputs.appName (sanitizeObjectTag ep.name)
      ep.options) := by
  refine Keeps.bind (Keeps.mapM' (fun name => hask (.ensureSecret name ep.options.requiredKeys)
    trivial) ep.options.secrets) fun named => ?_
  by_cases henv : ep.options.env.isEmpty = true
  · rw [if_pos henv]
    exact Keeps.pure named
  · rw [if_neg henv]
    have hne : ep.options.env ≠ [] := by simpa using henv
    exact Keeps.bind (hask (.ensureInlineSecret _ _) ⟨ep, hep, hne, rfl, rfl⟩)
      fun inlineId => Keeps.pure _

/-- The volumes of an entrypoint. -/
theorem keeps_resolveVolumes (check : Text → Except Error Unit) (volumes : List (Text × Text)) :
    Keeps I (resolveVolumes cp check volumes) := by
  refine Keeps.mapM' (fun volume => ?_) volumes
  refine Keeps.bind (Keeps.offline (check volume.1)) fun _ => ?_
  exact Keeps.bind (hask (.ensureVolume volume.2 false) trivial) fun id => Keeps.pure _

/-- The cargo cache. -/
theorem keeps_resolveCache : Keeps I (resolveCache cp inputs) := by
  unfold resolveCache
  cases inputs.cache with
  | false => exact Keeps.pure none
  | true => exact Keeps.bind (hask (.ensureVolume _ _) trivial) fun id => Keeps.pure _

/-- The first part of a run. -/
theorem keeps_resolveRun {ep : Entrypoint} (hep : ep ∈ inputs.entrypoints) :
    Keeps I (resolveRun cp inputs boundary ep) := by
  refine Keeps.bind (hask (.ensureApp _ _ _) trivial) fun appId => ?_
  refine Keeps.bind (keeps_resolveCache hask) fun cacheVolId => ?_
  refine Keeps.bind (keeps_resolveEntrypointSecrets hask hep) fun secretIds => ?_
  exact Keeps.bind (keeps_resolveVolumes hask _ _) fun mounts => Keeps.pure _

/-- The part before the mounts. -/
theorem keeps_resolvePlan {plan : ProvisionPlan}
    (hplan : boundary.plan inputs.entrypoints = .ok plan) :
    Keeps I (resolvePlan cp inputs boundary plan) := by
  cases plan with
  | many => exact Keeps.pure none
  | single ep =>
    have hep : ep ∈ inputs.entrypoints := by
      obtain ⟨state, delivery⟩ := boundary
      cases delivery with
      | deployContext => cases hplan
      | runMount =>
        cases hentrypoints : inputs.entrypoints with
        | nil =>
          rw [hentrypoints] at hplan
          cases hplan
        | cons first rest =>
          rw [hentrypoints] at hplan
          cases hplan
          exact List.mem_cons_self
    exact Keeps.bind (keeps_resolveRun hask hep) fun run => Keeps.pure _

/-- The mounts. -/
theorem keeps_resolveMounts : Keeps I (resolveMounts cp inputs boundary) := by
  refine Keeps.bind (hask .ensureClientMount trivial) fun client => ?_
  refine Keeps.bind (hask (.ensureSourceMount _ _) trivial) fun source => ?_
  exact Keeps.bind (hask (.ensurePythonMount _) trivial) fun python => Keeps.pure _

/-- The app. -/
theorem keeps_resolveApp (run : Option RunResources) :
    Keeps I (resolveApp cp inputs boundary run) := by
  cases run with
  | some run => exact Keeps.pure run.appId
  | none => exact hask (.ensureApp _ _ _) trivial

/-- The image below the top layer. -/
theorem keeps_topBase (appId baseImageId : Text) :
    Keeps I (topBase cp inputs boundary appId baseImageId) := by
  unfold topBase
  cases inputs.depPrebuild with
  | false => exact Keeps.pure baseImageId
  | true =>
    refine Keeps.bind (hask (.ensurePrebuildMount _ _) trivial) fun stub => ?_
    cases stub with
    | none => exact Keeps.pure baseImageId
    | some stub => exact hask (.ensureImage _ _ _) trivial

/-- The image. -/
theorem keeps_buildImage (appId : Text) (mounts : Mounts) :
    Keeps I (buildImage cp host inputs boundary appId mounts) := by
  refine Keeps.bind (hask (.ensureImage _ _ _) trivial) fun baseImageId => ?_
  cases boundary.sourceDelivery with
  | runMount => exact Keeps.pure _
  | deployContext =>
    refine Keeps.bind (keeps_topBase hask _ _) fun top => ?_
    exact hask (.ensureImage _ _ _) trivial

/-- Everything before the create loop. -/
theorem keeps_resolveAll : Keeps I (resolveAll cp host inputs boundary) := by
  refine Triple.bind (Q := fun plan w => boundary.plan inputs.entrypoints = .ok plan ∧ I w)
    (Triple.offline (fun plan w hplan hw => ⟨hplan, hw⟩) fun w hw => hw) fun plan => ?_
  refine Triple.intro ?_
  rintro w ⟨hplan, hw⟩
  have hrest : Keeps I (do
      let run ← resolvePlan cp inputs boundary plan
      let mounts ← resolveMounts cp inputs boundary
      let appId ← resolveApp cp inputs boundary run
      let imageId ← buildImage cp host inputs boundary appId mounts
      return (⟨run, mounts, appId, imageId⟩ : Resolved)) := by
    refine Keeps.bind (keeps_resolvePlan hask hplan) fun run => ?_
    refine Keeps.bind (keeps_resolveMounts hask) fun mounts => ?_
    refine Keeps.bind (keeps_resolveApp hask run) fun appId => ?_
    exact Keeps.bind (keeps_buildImage hask appId mounts) fun imageId => Keeps.pure _
  exact Triple.apply hrest hw

/-- Publishing. -/
theorem keeps_publishIf (now : Bool) (appId publishUrl : Text) :
    Keeps I (publishIf cp inputs boundary now appId publishUrl) := by
  cases now with
  | false => exact Keeps.pure publishUrl
  | true =>
    refine Triple.bind (Q := fun _ => I) (Triple.own fun w hw => hw) fun published => ?_
    exact hask (.publish _ _ _ _ _) trivial

variable (hrecord : ∀ objectTag created,
  Keeps I (update (Published.record objectTag created) : Provisioning σ Unit))
include hrecord

/-- The function of one entrypoint. -/
theorem keeps_createFunction (run : Option RunResources) (mounts : Mounts)
    (appId imageId : Text) {ep : Entrypoint} (hep : ep ∈ inputs.entrypoints) :
    Keeps I (createFunction cp host inputs boundary run mounts appId imageId ep) := by
  refine Keeps.bind (hask (.precreate _ _) trivial) fun precreateId => ?_
  refine Keeps.bind ?_ fun res => ?_
  · cases run with
    | some run => exact Keeps.pure _
    | none =>
      refine Keeps.bind (keeps_resolveEntrypointSecrets hask hep) fun secretIds => ?_
      exact Keeps.bind (keeps_resolveVolumes hask _ _) fun mounts => Keeps.pure _
  · refine Keeps.bind (Keeps.offline _) fun spec => ?_
    exact Keeps.bind (hask (.create _ _ _) trivial) fun created => hrecord _ created

/-- The create loop. -/
theorem keeps_createEach (run : Option RunResources) (mounts : Mounts) (appId imageId : Text)
    (entrypoints : List Entrypoint) (hentrypoints : entrypoints ⊆ inputs.entrypoints)
    (publishUrl : Text) :
    Keeps I (createEach cp host inputs boundary run mounts appId imageId entrypoints
      publishUrl) := by
  induction entrypoints generalizing publishUrl with
  | nil => exact Keeps.pure publishUrl
  | cons ep rest ih =>
    obtain ⟨hep, hrest⟩ := List.cons_subset.mp hentrypoints
    refine Keeps.bind (keeps_createFunction hask hrecord run mounts appId imageId hep) fun _ => ?_
    exact Keeps.bind (keeps_publishIf hask _ appId publishUrl) fun url => ih hrest url

/-- **What every request and every recording keeps is kept by a whole provisioning.** -/
theorem keeps_provision : Keeps I (provision cp host inputs boundary) := by
  refine Keeps.bind (keeps_resolveAll hask) fun resolved => ?_
  obtain ⟨run, mounts, appId, imageId⟩ := resolved
  refine Keeps.bind (keeps_createEach hask hrecord run mounts appId imageId inputs.entrypoints
    (List.Subset.refl _) []) fun publishUrl => ?_
  exact Keeps.bind (keeps_publishIf hask _ appId publishUrl) fun publishUrl => Keeps.pure _

end

end ModalRust.Provision
