import Mathlib.Data.Fintype.Basic
import Mathlib.Logic.Function.Basic
import ModalRust.Describe.Inputs
import ModalRust.Machine

/-!
# Describing packages concurrently

Runs of `build_and_describe` that share a target directory. A run computes its key, copies
the sources, builds, pins the runner that was built under a name of the package, executes
the pin, and stores the manifest under its key. Between these steps the sources can be
edited, another build can replace the runner before it is pinned, and another run of the
package can replace the pin. And sources in different states can have one key. As long as none
of this happens, all manifests are right.
-/

namespace ModalRust.Describe

/-- A runner: the package it was built from, whether it was generated, and the state of the
sources. -/
structure RunnerBin (π σ : Type) where
  /-- The package. -/
  package : π
  /-- Whether the runner was generated in a shadow of the sources. -/
  generated : Bool
  /-- The sources. -/
  state : σ
  deriving DecidableEq

/-- What the state of the sources decides. -/
structure Toolchain (π σ μ κ : Type) where
  /-- Whether the runner of a package is generated. -/
  generates : π → σ → Bool
  /-- `describe_cache::key` of a package, unless it cannot be computed. -/
  key : π → σ → Option κ
  /-- The manifest that a runner prints, unless it fails. -/
  describe : RunnerBin π σ → Option μ

/-- How far a run has come, with the state of the sources that its key is computed from. -/
inductive DescribePhase (σ μ : Type)
  /-- Not started. -/
  | idle
  /-- The key is computed and not in the cache. -/
  | keyed (state : σ)
  /-- The shadow is materialized; it holds the sources of a state of its own. -/
  | shadowed (state shadow : σ)
  /-- Cargo has returned. -/
  | built (state : σ)
  /-- The runner is pinned, or linking failed and the path of the build is used. -/
  | pinned (state : σ) (linked : Bool)
  /-- The runner has printed a manifest. -/
  | described (state : σ) (manifest : μ)
  /-- The manifest is returned. -/
  | returned (state : σ) (manifest : μ)
  /-- An error is returned. -/
  | failed
  deriving DecidableEq

/-- The sources, the shared target directory, and the runs. -/
structure SharedTarget (ι π σ μ κ : Type) where
  /-- The sources. -/
  source : σ
  /-- `debug/modal_runner`. -/
  uplift : Option (RunnerBin π σ)
  /-- `.modal-rust/runner-<package>`. -/
  pin : π → Option (RunnerBin π σ)
  /-- `.modal-rust/describe-<key>.json`. -/
  cache : κ → Option μ
  /-- The runs. -/
  phase : ι → DescribePhase σ μ

/-- A step of a run, or an edit. -/
inductive DescribeAction (ι σ : Type)
  /-- The sources are edited. -/
  | edit (state : σ)
  /-- Compute the key and consult the cache. -/
  | key (i : ι)
  /-- Materialize the shadow. -/
  | shadow (i : ι)
  /-- Build the runner. -/
  | build (i : ι)
  /-- Pin the runner. -/
  | pin (i : ι) (linked : Bool)
  /-- Execute it. -/
  | exec (i : ι)
  /-- Store the manifest, which can fail, and return it. -/
  | store (i : ι) (written : Bool)
  /-- Return an error. -/
  | fail (i : ι)

variable {ι π σ μ κ : Type}

/-- The manifest that a package describes in a state of the sources. -/
def Toolchain.manifest (tc : Toolchain π σ μ κ) (p : π) (state : σ) : Option μ :=
  tc.describe ⟨p, tc.generates p state, state⟩

/-- Before the first run. -/
def SharedTarget.start (source : σ) : SharedTarget ι π σ μ κ :=
  ⟨source, none, fun _ => none, fun _ => none, fun _ => .idle⟩

section Steps

variable [DecidableEq ι] [DecidableEq π] [DecidableEq κ]

/-- A run comes to another phase. -/
def SharedTarget.goto (s : SharedTarget ι π σ μ κ) (i : ι) (phase : DescribePhase σ μ) :
    SharedTarget ι π σ μ κ :=
  { s with phase := Function.update s.phase i phase }

/-- One step, where run `i` is about `package i`. -/
def describeStep (tc : Toolchain π σ μ κ) (package : ι → π) (s : SharedTarget ι π σ μ κ) :
    DescribeAction ι σ → Option (SharedTarget ι π σ μ κ)
  | .edit state => some { s with source := state }
  | .key i =>
    match s.phase i with
    | .idle =>
      match (tc.key (package i) s.source).bind s.cache with
      | some manifest => some (s.goto i (.returned s.source manifest))
      | none => some (s.goto i (.keyed s.source))
    | _ => none
  | .shadow i =>
    match s.phase i with
    | .keyed state =>
      if tc.generates (package i) state then some (s.goto i (.shadowed state s.source)) else none
    | _ => none
  | .build i =>
    match s.phase i with
    | .shadowed state shadow =>
      some ({ s with uplift := some ⟨package i, true, shadow⟩ }.goto i (.built state))
    | .keyed state =>
      if tc.generates (package i) state then none
      else some ({ s with uplift := some ⟨package i, false, s.source⟩ }.goto i (.built state))
    | _ => none
  | .pin i linked =>
    match s.phase i with
    | .built state =>
      let pin := Function.update s.pin (package i) (if linked then s.uplift else none)
      some ({ s with pin := pin }.goto i (.pinned state linked))
    | _ => none
  | .exec i =>
    match s.phase i with
    | .pinned state linked =>
      ((if linked then s.pin (package i) else s.uplift).bind tc.describe).map fun manifest =>
        s.goto i (.described state manifest)
    | _ => none
  | .store i written =>
    match s.phase i with
    | .described state manifest =>
      let cache := match tc.key (package i) state with
        | some key => if written then Function.update s.cache key (some manifest) else s.cache
        | none => s.cache
      some ({ s with cache := cache }.goto i (.returned state manifest))
    | _ => none
  | .fail i =>
    match s.phase i with
    | .idle | .returned _ _ | .failed => none
    | _ => some (s.goto i .failed)

/-- The sources are still to be copied. -/
def DescribePhase.isKeyed : DescribePhase σ μ → Bool
  | .keyed _ => true
  | _ => false

/-- The path of the build is still to be used. -/
def DescribePhase.usesBuild : DescribePhase σ μ → Bool
  | .built _ => true
  | .pinned _ linked => !linked
  | _ => false

/-- The pin is still to be used. -/
def DescribePhase.usesPin : DescribePhase σ μ → Bool
  | .pinned _ linked => linked
  | _ => false

/-- No edit comes between a key and the copy of the sources, no build comes between another
build and its pin, and no pin comes between another pin of the package and its execution. -/
def Undisturbed (package : ι → π) (s : SharedTarget ι π σ μ κ) : DescribeAction ι σ → Prop
  | .edit _ => ∀ j, (s.phase j).isKeyed = false
  | .build i => ∀ j, j ≠ i → (s.phase j).usesBuild = false
  | .pin i _ => ∀ j, j ≠ i → package j = package i → (s.phase j).usesPin = false
  | _ => True

instance [Fintype ι] (package : ι → π) (s : SharedTarget ι π σ μ κ) :
    (action : DescribeAction ι σ) → Decidable (Undisturbed package s action)
  | .edit _ => inferInstanceAs (Decidable (∀ _, _))
  | .build _ => inferInstanceAs (Decidable (∀ _, _ → _))
  | .pin _ _ => inferInstanceAs (Decidable (∀ _, _ → _ → _))
  | .key _ | .shadow _ | .exec _ | .store _ _ | .fail _ => inferInstanceAs (Decidable True)

/-- The key of a package in a state of the sources is no key of a package or a state that
describes something else. -/
def Toolchain.Covers (tc : Toolchain π σ μ κ) (p : π) (state : σ) : Prop :=
  ∀ key, tc.key p state = some key → ∀ p' state', tc.key p' state' = some key →
    tc.manifest p' state' = tc.manifest p state

/-- No manifest is stored under a key that does not cover the state that it is computed from. -/
def StoresCovered (tc : Toolchain π σ μ κ) (package : ι → π) (s : SharedTarget ι π σ μ κ) :
    DescribeAction ι σ → Prop
  | .store i written => written = true → ∀ state manifest, s.phase i = .described state manifest →
      tc.Covers (package i) state
  | _ => True

end Steps

/-- The runner of a package in the state that a key was computed from. -/
def ownRunner (tc : Toolchain π σ μ κ) (p : π) (state : σ) : RunnerBin π σ :=
  ⟨p, tc.generates p state, state⟩

/-- What a phase of a run about a package says about the shared files. -/
def DescribePhase.InStep (tc : Toolchain π σ μ κ) (p : π) (s : SharedTarget ι π σ μ κ) :
    DescribePhase σ μ → Prop
  | .idle => True
  | .keyed state => s.source = state
  | .shadowed state shadow => shadow = state ∧ tc.generates p state = true
  | .built state => s.uplift = some (ownRunner tc p state)
  | .pinned state true => s.pin p = some (ownRunner tc p state)
  | .pinned state false => s.uplift = some (ownRunner tc p state)
  | .described state manifest => tc.manifest p state = some manifest
  | .returned state manifest => tc.manifest p state = some manifest
  | .failed => True

/-- What holds between undisturbed steps. -/
structure SharedTarget.Sound (tc : Toolchain π σ μ κ) (package : ι → π)
    (s : SharedTarget ι π σ μ κ) : Prop where
  /-- Each run finds the runner of its key. -/
  phase : ∀ i, (s.phase i).InStep tc (package i) s
  /-- The cache holds right manifests. -/
  cache : ∀ key manifest, s.cache key = some manifest → ∀ p state, tc.key p state = some key →
    tc.manifest p state = some manifest

/-- Every returned and every stored manifest is the one that the package describes in the
state of the key. -/
structure RightManifests (tc : Toolchain π σ μ κ) (package : ι → π) (s : SharedTarget ι π σ μ κ) :
    Prop where
  /-- The returned manifests. -/
  returned : ∀ i state manifest, s.phase i = .returned state manifest →
    tc.manifest (package i) state = some manifest
  /-- The stored manifests. -/
  stored : ∀ p state key manifest, tc.key p state = some key → s.cache key = some manifest →
    tc.manifest p state = some manifest

namespace SharedTarget

variable {tc : Toolchain π σ μ κ} {package : ι → π} {s t : SharedTarget ι π σ μ κ}

/-- Before the first run. -/
theorem Sound.start (source : σ) : (start source : SharedTarget ι π σ μ κ).Sound tc package :=
  ⟨fun _ => trivial, nofun⟩

/-- What holds between steps contains that the manifests are right. -/
theorem Sound.rightManifests (hs : s.Sound tc package) : RightManifests tc package s := by
  refine ⟨fun i state manifest hphase => ?_, fun p state key manifest hkey hstored =>
    hs.cache key manifest hstored p state hkey⟩
  have hi := hs.phase i
  rw [hphase] at hi
  exact hi

/-- A phase stays in step where the files that it uses stay as they are. -/
theorem inStep_congr {phase : DescribePhase σ μ} {p : π} (hphase : phase.InStep tc p s)
    (hsource : phase.isKeyed = true → t.source = s.source)
    (huplift : phase.usesBuild = true → t.uplift = s.uplift)
    (hpin : phase.usesPin = true → t.pin p = s.pin p) : phase.InStep tc p t := by
  cases phase with
  | keyed state => exact (hsource rfl).trans hphase
  | built state => exact (huplift rfl).trans hphase
  | pinned state linked =>
    cases linked with
    | true => exact (hpin rfl).trans hphase
    | false => exact (huplift rfl).trans hphase
  | _ => exact hphase

/-- An edit while no run has only its key. -/
theorem Sound.edit (hs : s.Sound tc package) (hquiet : ∀ j, (s.phase j).isKeyed = false)
    (state : σ) : ({ s with source := state } : SharedTarget ι π σ μ κ).Sound tc package := by
  refine ⟨fun j => inStep_congr (hs.phase j) (fun hkeyed => ?_) (fun _ => rfl) fun _ => rfl,
    hs.cache⟩
  rw [hquiet j] at hkeyed
  cases hkeyed

/-- What is in the cache after a right manifest was stored under a key that covers it. -/
theorem Sound.cache_store [DecidableEq κ] (hs : s.Sound tc package) {p : π} {state : σ} {own : κ}
    {manifest : μ} (hown : tc.key p state = some own) (hcovers : tc.Covers p state)
    (hright : tc.manifest p state = some manifest) {key : κ} {found : μ}
    (hfound : Function.update s.cache own (some manifest) key = some found) {p' : π} {state' : σ}
    (hkey : tc.key p' state' = some key) : tc.manifest p' state' = some found := by
  by_cases hsame : key = own
  · subst hsame
    rw [Function.update_self] at hfound
    exact (hcovers key hown p' state' hkey).trans (hright.trans hfound)
  · rw [Function.update_of_ne hsame] at hfound
    exact hs.cache key found hfound p' state' hkey

section Steps

variable [DecidableEq ι]

/-- The phases say nothing about the phases. -/
theorem inStep_goto {i : ι} {phase : DescribePhase σ μ} {p : π} (other : DescribePhase σ μ) :
    other.InStep tc p (s.goto i phase) ↔ other.InStep tc p s := by
  cases other with
  | pinned state linked => cases linked <;> rfl
  | _ => rfl

/-- A run comes to a phase that is in step, and the others stay in step. -/
theorem Sound.goto {i : ι} {phase : DescribePhase σ μ}
    (hothers : ∀ j, j ≠ i → (t.phase j).InStep tc (package j) t)
    (hcache : ∀ key manifest, t.cache key = some manifest → ∀ p state,
      tc.key p state = some key → tc.manifest p state = some manifest)
    (hphase : phase.InStep tc (package i) t) : (t.goto i phase).Sound tc package := by
  refine ⟨fun j => ?_, hcache⟩
  rw [inStep_goto]
  by_cases hji : j = i
  · subst hji
    simpa [SharedTarget.goto] using hphase
  · simpa [SharedTarget.goto, Function.update_of_ne hji] using hothers j hji

/-- A run comes to a phase that is in step, and nothing else changes. -/
theorem Sound.next (hs : s.Sound tc package) {i : ι} {phase : DescribePhase σ μ}
    (hphase : phase.InStep tc (package i) s) : (s.goto i phase).Sound tc package :=
  Sound.goto (fun j _ => hs.phase j) hs.cache hphase

/-- A build that nobody disturbs. -/
theorem Sound.build (hs : s.Sound tc package) {i : ι} {state : σ} {runner : RunnerBin π σ}
    (halone : ∀ j, j ≠ i → (s.phase j).usesBuild = false)
    (hrunner : runner = ownRunner tc (package i) state) :
    ({ s with uplift := some runner }.goto i (.built state)).Sound tc package := by
  refine Sound.goto (fun j hji => ?_) hs.cache (congrArg some hrunner)
  refine inStep_congr (hs.phase j) (fun _ => rfl) (fun hbuild => ?_) fun _ => rfl
  rw [halone j hji] at hbuild
  cases hbuild

variable [DecidableEq π]

/-- A pin that nobody disturbs: the runner at the path of the build is linked, or the link
failed. -/
theorem Sound.pin (hs : s.Sound tc package) {i : ι} {state : σ}
    (halone : ∀ j, j ≠ i → package j = package i → (s.phase j).usesPin = false)
    (hbuilt : s.uplift = some (ownRunner tc (package i) state)) (linked : Bool) :
    ({ s with pin := Function.update s.pin (package i) (if linked then s.uplift else none) }.goto i
      (.pinned state linked)).Sound tc package := by
  refine Sound.goto (fun j hji => ?_) hs.cache ?_
  · refine inStep_congr (hs.phase j) (fun _ => rfl) (fun _ => rfl) fun hpin => ?_
    refine Function.update_of_ne (fun heq => ?_) _ _
    rw [halone j hji heq] at hpin
    cases hpin
  · cases linked with
    | true => exact (Function.update_self _ _ _).trans hbuilt
    | false => exact hbuilt

variable [DecidableEq κ]

/-- **One undisturbed step.** -/
theorem describeStep_sound {action : DescribeAction ι σ} (hs : s.Sound tc package)
    (hquiet : Undisturbed package s action) (hcovered : StoresCovered tc package s action)
    (hstep : describeStep tc package s action = some t) :
    t.Sound tc package := by
  cases action with
  | edit state =>
    obtain rfl := Option.some.inj hstep
    exact hs.edit hquiet state
  | key i =>
    simp only [describeStep] at hstep
    split at hstep
    · split at hstep
      · rename_i manifest hhit
        obtain rfl := Option.some.inj hstep
        obtain ⟨key, hkey, hcached⟩ := Option.bind_eq_some_iff.mp hhit
        exact hs.next (hs.cache key manifest hcached _ _ hkey)
      · obtain rfl := Option.some.inj hstep
        exact hs.next rfl
    · cases hstep
  | shadow i =>
    simp only [describeStep] at hstep
    split at hstep
    · rename_i state hphase
      split at hstep
      · rename_i hgenerates
        obtain rfl := Option.some.inj hstep
        have hi := hs.phase i
        rw [hphase] at hi
        exact hs.next ⟨hi, hgenerates⟩
      · cases hstep
    · cases hstep
  | build i =>
    simp only [describeStep] at hstep
    split at hstep
    · rename_i state shadow hphase
      obtain rfl := Option.some.inj hstep
      have hi := hs.phase i
      rw [hphase] at hi
      refine hs.build hquiet ?_
      rw [ownRunner, hi.1, hi.2]
    · rename_i state hphase
      split at hstep
      · cases hstep
      · rename_i hown
        obtain rfl := Option.some.inj hstep
        have hi := hs.phase i
        rw [hphase] at hi
        refine hs.build hquiet ?_
        rw [ownRunner, Bool.eq_false_iff.mpr hown, show s.source = state from hi]
    · cases hstep
  | pin i linked =>
    simp only [describeStep] at hstep
    split at hstep
    · rename_i state hphase
      obtain rfl := Option.some.inj hstep
      have hi := hs.phase i
      rw [hphase] at hi
      exact hs.pin hquiet hi linked
    · cases hstep
  | exec i =>
    simp only [describeStep] at hstep
    split at hstep
    · rename_i state linked hphase
      obtain ⟨manifest, hmanifest, rfl⟩ := Option.map_eq_some_iff.mp hstep
      have hi := hs.phase i
      rw [hphase] at hi
      have hrunner : (if linked then s.pin (package i) else s.uplift) =
          some (ownRunner tc (package i) state) := by
        cases linked <;> exact hi
      rw [hrunner] at hmanifest
      exact hs.next hmanifest
    · cases hstep
  | store i written =>
    simp only [describeStep] at hstep
    split at hstep
    · rename_i state manifest hphase
      obtain rfl := Option.some.inj hstep
      have hi := hs.phase i
      rw [hphase] at hi
      refine Sound.goto (fun j _ => inStep_congr (hs.phase j) (fun _ => rfl) (fun _ => rfl)
        fun _ => rfl) (fun key found hfound p other hkey => ?_) hi
      cases hown : tc.key (package i) state with
      | none =>
        simp only [hown] at hfound
        exact hs.cache key found hfound p other hkey
      | some own =>
        cases written with
        | false =>
          simp only [hown, Bool.false_eq_true, if_false] at hfound
          exact hs.cache key found hfound p other hkey
        | true =>
          simp only [hown, if_true] at hfound
          exact hs.cache_store hown (hcovered rfl state manifest hphase) hi hfound hkey
    · cases hstep
  | fail i =>
    simp only [describeStep] at hstep
    split at hstep
    · cases hstep
    · cases hstep
    · cases hstep
    · obtain rfl := Option.some.inj hstep
      exact hs.next trivial

end Steps

end SharedTarget

/-- Runners that print what they were built from, and keys that hold all of it. -/
def echoToolchain : Toolchain ℕ ℕ (RunnerBin ℕ ℕ) (ℕ × ℕ) :=
  ⟨fun _ _ => true, fun p state => some (p, state), some⟩

/-- Such keys cover all states. -/
theorem echoToolchain_covers (p state : ℕ) : echoToolchain.Covers p state := by
  rintro key rfl' p' state' hkey
  obtain ⟨rfl, rfl⟩ := Prod.mk.inj ((Option.some.inj hkey).trans (Option.some.inj rfl').symm)
  rfl

/-- Runners that print what they were built from, and keys that hold nothing of the sources. -/
def blindToolchain : Toolchain ℕ ℕ (RunnerBin ℕ ℕ) ℕ :=
  ⟨fun _ _ => true, fun p _ => some p, some⟩

section Workspaces

variable (locate : π → σ → Workspace) (hash : Bytes → κ) (describe : RunnerBin π σ → Option μ)

/-- The toolchain of packages that are in a workspace in each state of the sources. -/
def workspaceToolchain : Toolchain π σ μ κ where
  generates p state := (locate p state).isGeneratable
  key p state := (locate p state).key.map hash
  describe := describe

/-- The key of a workspace is that of its package and its kind of runner. -/
theorem Workspace.package_of_key {w w' : Workspace} (hfits : w.Fits) (hfits' : w'.Fits)
    {stream : Bytes} (hkey : w.key = some stream) (hkey' : w'.key = some stream) :
    w.package = w'.package ∧ w.isGeneratable = w'.isGeneratable := by
  rw [Workspace.key_eq] at hkey hkey'
  obtain ⟨input, hinput, hstream⟩ := Option.map_eq_some_iff.mp hkey
  obtain ⟨input', hinput', hstream'⟩ := Option.map_eq_some_iff.mp hkey'
  obtain rfl : input = input' := KeyInput.stream_inj (hfits input hinput) (hfits' input' hinput')
    (hstream.trans hstream'.symm)
  unfold Workspace.keyInput Describe.keyInput at hinput hinput'
  obtain ⟨_, _, hmap⟩ := Option.bind_eq_some_iff.mp hinput
  obtain ⟨_, _, hmap'⟩ := Option.bind_eq_some_iff.mp hinput'
  obtain ⟨_, _, rfl⟩ := Option.map_eq_some_iff.mp hmap
  obtain ⟨_, _, hsame⟩ := Option.map_eq_some_iff.mp hmap'
  exact ⟨(congrArg KeyInput.package hsame).symm, (congrArg KeyInput.isGeneratable hsame).symm⟩

/-- **Where the key covers what the build reads, it covers the states.** The manifest depends on
the package, its kind of runner and what the build reads. -/
theorem workspaceToolchain_covers (hinjective : Function.Injective hash)
    (hcovered : ∀ p state, (locate p state).Covered)
    (hroot : ∀ p state p' state', (locate p state).root = (locate p' state').root)
    (hapart : ∀ p state p' state', KeysApart (locate p state) (locate p' state'))
    (hfits : ∀ p state, (locate p state).Fits)
    (hreads : ∀ p state p' state', (locate p state).package = (locate p' state').package →
      (locate p state).isGeneratable = (locate p' state').isGeneratable →
      SameInputs (locate p state) (locate p' state') →
      (workspaceToolchain locate hash describe).manifest p state =
        (workspaceToolchain locate hash describe).manifest p' state')
    (p : π) (state : σ) : (workspaceToolchain locate hash describe).Covers p state := by
  intro key hkey p' state' hkey'
  obtain ⟨stream, hstream, rfl⟩ := Option.map_eq_some_iff.mp hkey
  obtain ⟨stream', hstream', hhash⟩ := Option.map_eq_some_iff.mp hkey'
  obtain rfl := hinjective hhash
  obtain ⟨hpackage, hgenerates⟩ :=
    Workspace.package_of_key (hfits p' state') (hfits p state) hstream' hstream
  exact hreads _ _ _ _ hpackage hgenerates <|
    (hcovered p' state').sameInputs (hcovered p state) (hroot _ _ _ _) (hapart _ _ _ _)
      (hfits p' state') (hfits p state) hstream' hstream

end Workspaces

end ModalRust.Describe
