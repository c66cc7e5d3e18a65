import ModalRust.Provision.Secrets

/-!
# Mount paths of volumes

Every function is created with the volumes that its entrypoint declares, at the declared
paths, and in a run with the cache also with the volume of the cargo cache. Paths are
compared as texts, and only with the path of the cache; so the mount points of a function
are distinct if the declared paths are, as paths.
-/

namespace ModalRust.Provision

open ModalRust.Sdk ModalRust.Session

/-- A path of a POSIX system, up to its spelling. -/
structure PosixPath where
  /-- Whether it starts at the root. -/
  absolute : Bool
  /-- Its components. -/
  components : List Text
  deriving DecidableEq

/-- The path that a text spells: repeated slashes, a trailing slash and the component `.` do
not count. -/
def posixPath (path : Text) : PosixPath where
  absolute := path.head? = some '/'
  components := (path.splitOn '/').filter fun part => part ≠ [] ∧ part ≠ ['.']

example : (["/cache/", "//cache", "/./cache", "/cache/."].map fun s => posixPath s.toList) =
    List.replicate 4 ⟨true, ["cache".toList]⟩ := by decide

/-- The mount points of a function are distinct. -/
def MountsDistinct (spec : FunctionSpec) : Prop :=
  (spec.volumeMounts.map fun mount => posixPath mount.mountPath).Nodup

instance : DecidablePred MountsDistinct := fun _ => inferInstanceAs (Decidable (List.Nodup _))

/-- The paths at which an entrypoint's function gets volumes. -/
def mountPaths (inputs : ProvisionInputs) (boundary : Boundary) (ep : Entrypoint) : List Text :=
  (if inputs.cache && boundary.sourceDelivery == .runMount then [cacheMount] else []) ++
    ep.options.volumes.map Prod.fst

/-- These paths are distinct as paths. -/
def PathsDistinct (inputs : ProvisionInputs) (boundary : Boundary) (ep : Entrypoint) : Prop :=
  ((mountPaths inputs boundary ep).map posixPath).Nodup

/-- A run with the cache whose entrypoint declares a volume at exactly the path of the cache. -/
def CacheRefused (inputs : ProvisionInputs) (boundary : Boundary) : Prop :=
  boundary.sourceDelivery = .runMount ∧ inputs.cache = true ∧
    ∃ ep, inputs.entrypoints.head? = some ep ∧ ∃ volume ∈ ep.options.volumes, volume.1 = cacheMount

/-- The kept element at an index, with what comes before it. -/
theorem exists_split_of_filterMap {α β : Type*} {f : α → Option β} {l : List α} {k : ℕ} {b : β}
    (h : (l.filterMap f)[k]? = some b) :
    ∃ before a after, l = before ++ a :: after ∧ f a = some b ∧
      (before.filterMap f).length = k := by
  induction l generalizing k with
  | nil => cases h
  | cons x l ih =>
    cases hx : f x with
    | none =>
      rw [List.filterMap_cons_none hx] at h
      obtain ⟨before, a, after, rfl, ha, hk⟩ := ih h
      exact ⟨x :: before, a, after, rfl, ha, by rwa [List.filterMap_cons_none hx]⟩
    | some y =>
      rw [List.filterMap_cons_some hx] at h
      cases k with
      | zero => exact ⟨[], x, l, rfl, hx.trans h, rfl⟩
      | succ k =>
        obtain ⟨before, a, after, rfl, ha, hk⟩ := ih h
        refine ⟨x :: before, a, after, rfl, ha, ?_⟩
        rw [List.filterMap_cons_some hx, List.length_cons, hk]

/-- Volumes are mounted at their declared paths. -/
theorem OwnIds.map_mounts {own : OwnIds} {options : FunctionOptions}
    (hfits : own.Fits options) :
    (own.mounts options).map Prod.snd = options.volumes.map Prod.fst := by
  have hlength := hfits.volumes
  unfold OwnIds.mounts
  generalize own.volumeIds = volumeIds, options.volumes = volumes at hlength ⊢
  clear hfits
  induction volumes generalizing volumeIds with
  | nil => rfl
  | cons volume volumes ih =>
    cases volumeIds with
    | nil => cases hlength
    | cons id volumeIds =>
      rw [List.zipWith_cons_cons, List.map_cons, List.map_cons,
        ih volumeIds (Nat.succ.inj hlength)]

variable {σ : Type} {cp : ControlPlane σ} {host : Host} {inputs : ProvisionInputs}
  {boundary : Boundary}

/-- The paths of a create are those of its entrypoint. -/
theorem IssuedFor.mountPaths_eq {ep : Entrypoint} {calls : List Call}
    {appId precreateId : Text} {spec : FunctionSpec} {shared : SharedIds} {own : OwnIds}
    (hissued : IssuedFor host inputs boundary ep calls appId precreateId spec shared own) :
    spec.volumeMounts.map FunctionVolumeMount.mountPath = mountPaths inputs boundary ep := by
  obtain ⟨checked, -, rfl⟩ := hissued.carriesOwn.fields
  have hown : ((own.mounts ep.options).map fun mount => FunctionVolumeMount.new mount.1 mount.2).map
      FunctionVolumeMount.mountPath = ep.options.volumes.map Prod.fst := by
    rw [List.map_map, ← OwnIds.map_mounts hissued.fits]
    rfl
  have hcache := hissued.shared_calls.cache_isSome
  unfold mountPaths functionSpecOf resourcesOf
  rw [List.map_append, hown, ← hcache]
  cases shared.cacheVolId <;> rfl

/-- Volumes are resolved only if all paths pass the check. -/
theorem emits_checked (check : Text → Except Error Unit) (volumes : List (Text × Text)) :
    Emits IsLookup (resolveVolumes cp check volumes) fun _ _ =>
      ∀ volume ∈ volumes, check volume.1 = .ok () := by
  have hone (volume : Text × Text) : Emits IsLookup
      (do
        offline (check volume.1)
        let id : Text ← ask cp (.ensureVolume volume.2 false)
        return (id, volume.1) : Provisioning σ (Text × Text))
      fun mount calls => check volume.1 = .ok () ∧ calls = [volumeCall volume mount.1] := by
    refine Emits.bind (Emits.offline (S := fun _ calls => check volume.1 = .ok () ∧ calls = [])
      fun _ h => ⟨h, rfl⟩) fun _ calls hcalls => ?_
    obtain ⟨hcheck, rfl⟩ := hcalls
    refine Emits.bind (emits_ask fun _ => ⟨rfl, rfl⟩) fun id calls hcalls => ?_
    subst hcalls
    exact Emits.pure ⟨hcheck, rfl⟩
  refine (Emits.mapM' hone volumes).mono fun mounts calls hcalls volume hvolume => ?_
  obtain ⟨i, hi, rfl⟩ := List.getElem_of_mem hvolume
  have hlength := hcalls.1.length_eq
  exact List.forall₂_iff_get.mp hcalls.1 |>.2 i hi (hlength ▸ hi)

/-- A refused run resolves nothing before its create loop. -/
theorem emits_resolveAll_refused (hrefused : CacheRefused inputs boundary) :
    Emits IsLookup (resolveAll cp host inputs boundary) fun _ _ => False := by
  obtain ⟨hrun, hcache, ep, hep, volume, hvolume, hpath⟩ := hrefused
  have hplan : boundary.plan inputs.entrypoints = .ok (.single ep) := by
    obtain ⟨state, delivery⟩ := boundary
    obtain rfl : delivery = .runMount := hrun
    cases hlist : inputs.entrypoints with
    | nil =>
      rw [hlist] at hep
      cases hep
    | cons first rest =>
      rw [hlist] at hep
      cases hep
      rfl
  have hresolve :
      Emits IsLookup (resolvePlan cp inputs boundary (.single ep)) fun _ _ => False := by
    refine Emits.bind (S := fun _ _ => False) ?_ fun _ _ h => h.elim
    refine Emits.bind (emits_ask fun _ => ⟨rfl, rfl⟩) fun appId _ _ => ?_
    refine Emits.bind emits_resolveCache fun cacheVolId _ _ => ?_
    refine Emits.bind (emits_resolveEntrypointSecrets _ _ _) fun secretIds _ _ => ?_
    refine Emits.bind (emits_checked _ _) fun mounts _ hchecked => ?_
    have hrejected := hchecked volume hvolume
    rw [hpath, hcache] at hrejected
    cases hrejected
  refine Emits.bind (Emits.offline (S := fun plan _ => plan = .single ep) fun plan h => ?_)
    fun plan _ hsingle => ?_
  · exact Except.ok.inj (h.symm.trans hplan)
  · subst hsingle
    exact Emits.bind hresolve fun _ _ h => h.elim

/-- The created specs are in the log. -/
theorem createdSpecs_eq {α : Type} (result : EStateM.Result Error (PlaneWorld σ) α) :
    createdSpecs result = (worldOf result).log.filterMap createRequest := by
  cases result <;> rfl

/-- A refused run creates no function. -/
theorem createdSpecs_of_refused (hrefused : CacheRefused inputs boundary) (server : σ)
    (published : Published) :
    createdSpecs (provision cp host inputs boundary ⟨server, published, []⟩) = [] := by
  have htriple : Triple (fun w : PlaneWorld σ => w.own = published ∧ w.log = [])
      (provision cp host inputs boundary)
      (fun _ w => w.log.filterMap createRequest = [])
      fun w => w.log.filterMap createRequest = [] := by
    have hnever : Emits IsLookup (resolveAll cp host inputs boundary) fun _ _ => False :=
      emits_resolveAll_refused hrefused
    refine Triple.bind (Q := fun _ _ => False) ((hnever.triple published []).mono (fun w hw => hw)
      (fun _ _ hw => hw.2.choose_spec.2.2.elim) fun w hw => ?_)
      fun _ => Triple.intro fun _ h => h.elim
    obtain ⟨-, calls, hlog, hcalls⟩ := hw
    rw [hlog, filterMap_createRequest_append hcalls]
    rfl
  rw [createdSpecs_eq]
  exact worldOf_of_triple htriple ⟨rfl, rfl⟩

/-- **When the mount points of a function are distinct.** However a provisioning ends, its
`k`-th create has distinct mount points iff the paths that the `k`-th entrypoint declares, with
the path of the cache in a run with the cache, are distinct as paths; and a run with the
cache that declares a volume at exactly the path of the cache creates no function. -/
theorem mountsDistinct_iff (cp : ControlPlane σ) (host : Host) (inputs : ProvisionInputs)
    (boundary : Boundary) (server : σ) (published : Published)
    (hadmits : boundary.Admits inputs.entrypoints) :
    (CacheRefused inputs boundary →
      createdSpecs (provision cp host inputs boundary ⟨server, published, []⟩) = []) ∧
    ∀ (k : ℕ) (spec : FunctionSpec),
      (createdSpecs (provision cp host inputs boundary ⟨server, published, []⟩))[k]? = some spec →
      ∃ ep, inputs.entrypoints[k]? = some ep ∧
        (MountsDistinct spec ↔ PathsDistinct inputs boundary ep) := by
  refine ⟨fun hrefused => createdSpecs_of_refused hrefused server published,
    fun k spec hspec => ?_⟩
  rw [createdSpecs_eq] at hspec
  have hsound : Triple (fun w => w.own = published ∧ w.log = [])
      (provision cp host inputs boundary)
      (fun _ => Sound host inputs boundary published) (Sound host inputs boundary published) :=
    triple_provision hadmits
  have hissued := (worldOf_of_triple hsound (w := ⟨server, published, []⟩) ⟨rfl, rfl⟩).issued
  obtain ⟨before, ⟨request, reply⟩, after, hlog, hcreate, rfl⟩ := exists_split_of_filterMap hspec
  cases request with
  | create appId precreateId created =>
    obtain rfl : created = spec := Option.some.inj hcreate
    obtain ⟨ep, shared, own, hep, hissued⟩ := hissued before _ after hlog _ _ _ _ rfl
    refine ⟨ep, hep, ?_⟩
    unfold MountsDistinct PathsDistinct
    rw [← hissued.mountPaths_eq, List.map_map]
    rfl
  | _ => cases hcreate

/-- An entrypoint that declares volumes at these paths. -/
def volumesEntrypoint (paths : List String) : Entrypoint where
  name := "a".toList
  options := { FunctionOptions.default with
    volumes := paths.map fun path => (path.toList, "v".toList) }
  timeoutSecs := 600

/-- A provisioning with the cache for such an entrypoint. -/
def cachedInputs (paths : List String) : ProvisionInputs :=
  { plainInputs [volumesEntrypoint paths] with cache := true }

/-- The creates of a run with two volumes and the cache. -/
theorem mountsDistinct_iff_data :
    PathsDistinct (cachedInputs ["/data", "/cached"]) runBoundary
        (volumesEntrypoint ["/data", "/cached"]) ∧
      ∀ (k : ℕ) (spec : FunctionSpec),
        (createdSpecs (provision (numberedPlane []) plainHost (cachedInputs ["/data", "/cached"])
          runBoundary ⟨0, .default, []⟩))[k]? = some spec →
        ∃ ep, (cachedInputs ["/data", "/cached"]).entrypoints[k]? = some ep ∧
          (MountsDistinct spec ↔
            PathsDistinct (cachedInputs ["/data", "/cached"]) runBoundary ep) :=
  ⟨by unfold PathsDistinct; decide, (mountsDistinct_iff (numberedPlane []) plainHost
    (cachedInputs ["/data", "/cached"]) runBoundary 0 .default fun _ => ⟨_, rfl⟩).2⟩

/-- A run that mounts a volume over the cache, and a deploy that mounts two volumes at one
path. -/
theorem mounts_clash :
    (∃ spec ∈ createdSpecs (provision (numberedPlane []) plainHost (cachedInputs ["/cache/"])
      runBoundary ⟨0, .default, []⟩), ¬ MountsDistinct spec) ∧
    ∃ spec ∈ createdSpecs (provision (numberedPlane []) plainHost
      (cachedInputs ["/data", "/data"]) deployBoundary ⟨0, .default, []⟩),
      ¬ MountsDistinct spec := by
  decide +kernel

end ModalRust.Provision
