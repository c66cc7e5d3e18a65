import Mathlib.Data.List.Nodup
import Mathlib.Data.Set.Function
import ModalRust.Provision.Run

/-!
# What a publish keeps

A publish replaces the set of published functions, so it has to carry the union of all
functions created so far. The union is kept by tag. As long as different entrypoints have
different tags, no function is lost, in a run and in a deploy. When two entrypoints share a
tag, the later one takes the place of the earlier one.
-/

namespace ModalRust.Provision

open ModalRust.Sdk ModalRust.Session

/-- A function was created in a visit. -/
def Visit.Created (visit : Visit) (functionId : Text) : Prop :=
  ∃ call ∈ visit.calls, ∃ created ∈ createdBy call, created.2.functionId = functionId

/-- Every publish of a run maps the tag of an entrypoint that was returned before to the
function that was returned for it, and maps no tag of an entrypoint to a function that was
created for another one. -/
def UnionKept (names : Set Text) : List Visit → Prop :=
  EachAfter fun before visit => ∀ call ∈ visit.calls, ∀ ids ∈ publishRequest call,
    (∀ earlier ∈ before, ∀ functionId, earlier.result = .ok functionId →
      ids.1 (sanitizeObjectTag earlier.entrypoint) = some functionId) ∧
    ∀ entrypoint ∈ names, ∀ functionId,
      ids.1 (sanitizeObjectTag entrypoint) = some functionId →
      ∃ v ∈ before ++ [visit], v.entrypoint = entrypoint ∧ v.Created functionId

/-- Every publish of a deploy maps the tag of each entrypoint to the function that was
created for it, and nothing else. -/
def DeployUnionKept (entrypoints : List Entrypoint) : List Call → Prop :=
  EachAfter fun before call => ∀ ids ∈ publishRequest call,
    List.Forall₂ (fun ep created => ids.1 (sanitizeObjectTag ep.name) =
      some created.2.functionId) entrypoints (before.filterMap createdBy) ∧
    ∀ tag functionId, ids.1 tag = some functionId →
      ∃ pair ∈ entrypoints.zip (before.filterMap createdBy),
        sanitizeObjectTag pair.1.name = tag ∧ pair.2.2.functionId = functionId

/-- Creates under other tags do not change what a tag is mapped to. -/
theorem Published.functionIds_afterAll {tag : Text} {calls : List Call}
    (hcalls : ∀ call ∈ calls, ∀ created ∈ createdBy call, created.1 ≠ tag)
    (published : Published) : (published.afterAll calls).functionIds tag =
      published.functionIds tag := by
  induction calls generalizing published with
  | nil => rfl
  | cons call calls ih =>
    have hrest := ih (fun c hc => hcalls c (by simp [hc])) (published.after call)
    refine hrest.trans ?_
    unfold Published.after
    cases hcreated : createdBy call with
    | none => rfl
    | some created =>
      have hne := hcalls call (by simp) created hcreated
      exact Function.update_of_ne hne.symm _ _

/-- What a tag is mapped to was mapped before or has been created. -/
theorem Published.of_functionIds_afterAll {tag functionId : Text} {calls : List Call}
    {published : Published}
    (htag : (published.afterAll calls).functionIds tag = some functionId) :
    published.functionIds tag = some functionId ∨
      ∃ call ∈ calls, ∃ created ∈ createdBy call, created.1 = tag ∧
        created.2.functionId = functionId := by
  induction calls generalizing published with
  | nil => exact .inl htag
  | cons call calls ih =>
    rcases ih htag with hold | ⟨c, hc, created, hcreated, heq⟩
    · unfold Published.after at hold
      cases hcall : createdBy call with
      | none =>
        rw [hcall] at hold
        exact .inl hold
      | some created =>
        simp only [hcall, Published.record] at hold
        by_cases heq : tag = created.1
        · rw [heq, Function.update_self, Option.some.injEq] at hold
          exact .inr ⟨call, by simp, created, hcall, heq.symm, hold⟩
        · rw [Function.update_of_ne heq] at hold
          exact .inl hold
    · exact .inr ⟨c, by simp [hc], created, hcreated, heq⟩

variable {σ : Type} (cp : ControlPlane σ) (host : Host) {app : RemoteApp}

/-- What a call of `resolve_function` does to the memory of functions. -/
inductive Remembered (app : RemoteApp) (h after : Handle σ) (visit : Visit) : Prop
  /-- The function was created before. -/
  | before (functionId : Text)
    (hmemo : h.functionIds (visit.entrypoint, effectiveOptions app visit.entrypoint) =
      some functionId)
    (hresult : visit.result = .ok functionId) (hcalls : visit.calls = [])
    (hafter : after.functionIds = h.functionIds)
  /-- The function is created now. -/
  | now (functionId : Text)
    (hmemo : h.functionIds (visit.entrypoint, effectiveOptions app visit.entrypoint) = none)
    (hresult : visit.result = .ok functionId)
    (hafter : after.functionIds = Function.update h.functionIds
      (visit.entrypoint, effectiveOptions app visit.entrypoint) (some functionId))
    (hpublished : after.published.functionIds (sanitizeObjectTag visit.entrypoint) =
      some functionId)
  /-- The call fails. -/
  | failed (e : Error)
    (hmemo : h.functionIds (visit.entrypoint, effectiveOptions app visit.entrypoint) = none)
    (hresult : visit.result = .error e) (hafter : after.functionIds = h.functionIds)

/-- One call of `resolve_function`. -/
theorem resolveFunction_spec (app : RemoteApp) (h : Handle σ) (entrypoint : Text) :
    ∃ visit, visit.entrypoint = entrypoint ∧
      (resolveFunction cp host app h entrypoint).visits = h.visits ++ [visit] ∧
      Visited h.published entrypoint visit.calls
        (resolveFunction cp host app h entrypoint).published ∧
      Remembered app h (resolveFunction cp host app h entrypoint) visit := by
  have hnothing : Visited h.published entrypoint [] h.published := ⟨rfl, .nil, by simp⟩
  cases hmemo : h.functionIds (entrypoint, effectiveOptions app entrypoint) with
  | some functionId =>
    have hstep : resolveFunction cp host app h entrypoint =
        { h with visits := h.visits ++ [⟨entrypoint, .ok functionId, []⟩] } := by
      unfold resolveFunction
      simp only [hmemo]
    rw [hstep]
    exact ⟨_, rfl, rfl, hnothing, .before functionId hmemo rfl rfl rfl⟩
  | none =>
    cases himage : applyFunctionImage host app.config
        (effectiveOptions app entrypoint).image with
    | error e =>
      have hstep : resolveFunction cp host app h entrypoint =
          { h with visits := h.visits ++ [⟨entrypoint, .error e, []⟩] } := by
        unfold resolveFunction
        simp only [hmemo, himage]
      rw [hstep]
      exact ⟨_, rfl, rfl, hnothing, .failed e hmemo rfl rfl⟩
    | ok config =>
      have htriple := triple_ensureFunction cp host h.published app.appId app.appName entrypoint
        config (effectiveOptions app entrypoint)
      have hensured := htriple.apply (w := ⟨h.server, h.published, []⟩) ⟨rfl, rfl⟩
      cases hrun : ensureFunction cp host app.appId app.appName entrypoint config
          (effectiveOptions app entrypoint) ⟨h.server, h.published, []⟩ with
      | ok functionId w =>
        rw [hrun] at hensured
        have hstep : resolveFunction cp host app h entrypoint =
            { functionIds := Function.update h.functionIds
                (entrypoint, effectiveOptions app entrypoint) (some functionId)
              published := w.own
              server := w.server
              visits := h.visits ++ [⟨entrypoint, .ok functionId, w.log⟩] } := by
          unfold resolveFunction
          simp only [hmemo, himage, hrun]
        rw [hstep]
        exact ⟨_, rfl, rfl, hensured.1, .now functionId hmemo rfl rfl hensured.2⟩
      | error e w =>
        rw [hrun] at hensured
        have hstep : resolveFunction cp host app h entrypoint =
            { functionIds := h.functionIds
              published := w.own
              server := w.server
              visits := h.visits ++ [⟨entrypoint, .error e, w.log⟩] } := by
          unfold resolveFunction
          simp only [hmemo, himage, hrun]
        rw [hstep]
        exact ⟨_, rfl, rfl, hensured, .failed e hmemo rfl rfl⟩

/-- What was remembered still is. -/
theorem Remembered.keeps {h after : Handle σ} {visit : Visit}
    (hvisit : Remembered app h after visit) {key : Text × FunctionOptions} {functionId : Text}
    (hkey : h.functionIds key = some functionId) : after.functionIds key = some functionId := by
  cases hvisit with
  | before _ _ _ _ hafter => rwa [hafter]
  | failed _ _ _ hafter => rwa [hafter]
  | now id hmemo _ hafter _ =>
    have hne : key ≠ (visit.entrypoint, effectiveOptions app visit.entrypoint) := by
      rintro rfl
      rw [hmemo] at hkey
      cases hkey
    rwa [hafter, Function.update_of_ne hne]

/-- What was returned is remembered. -/
theorem Remembered.returned {h after : Handle σ} {visit : Visit}
    (hvisit : Remembered app h after visit) {functionId : Text}
    (hresult : visit.result = .ok functionId) :
    after.functionIds (visit.entrypoint, effectiveOptions app visit.entrypoint) =
      some functionId := by
  cases hvisit with
  | before id hmemo hid _ hafter =>
    obtain rfl := Except.ok.inj (hid.symm.trans hresult)
    rwa [hafter]
  | failed e _ he _ => cases he.symm.trans hresult
  | now id hmemo hid hafter _ =>
    obtain rfl := Except.ok.inj (hid.symm.trans hresult)
    rw [hafter, Function.update_self]

/-- What is remembered was so before, or has just been published. -/
theorem Remembered.cases_of_eq_some {h after : Handle σ} {visit : Visit}
    (hvisit : Remembered app h after visit) {entrypoint functionId : Text}
    (hkey : after.functionIds (entrypoint, effectiveOptions app entrypoint) = some functionId) :
    h.functionIds (entrypoint, effectiveOptions app entrypoint) = some functionId ∨
      visit.entrypoint = entrypoint ∧
        after.published.functionIds (sanitizeObjectTag entrypoint) = some functionId := by
  cases hvisit with
  | before _ _ _ _ hafter => exact .inl (hafter ▸ hkey)
  | failed _ _ _ hafter => exact .inl (hafter ▸ hkey)
  | now id _ _ hafter hpublished =>
    by_cases hsame : entrypoint = visit.entrypoint
    · subst hsame
      rw [hafter, Function.update_self] at hkey
      exact .inr ⟨rfl, hpublished.trans hkey⟩
    · have hne : (entrypoint, effectiveOptions app entrypoint) ≠
          (visit.entrypoint, effectiveOptions app visit.entrypoint) :=
        fun heq => hsame (Prod.ext_iff.mp heq).1
      rw [hafter, Function.update_of_ne hne] at hkey
      exact .inl hkey

/-- A function that is remembered is not created again. -/
theorem Remembered.calls_eq_nil {h after : Handle σ} {visit : Visit}
    (hvisit : Remembered app h after visit) {functionId : Text}
    (hkey : h.functionIds (visit.entrypoint, effectiveOptions app visit.entrypoint) =
      some functionId) : visit.calls = [] := by
  cases hvisit with
  | before _ _ _ hcalls _ => exact hcalls
  | failed _ hmemo _ _ => cases hmemo.symm.trans hkey
  | now _ hmemo _ _ _ => cases hmemo.symm.trans hkey

/-- What a run keeps between its calls. -/
structure RunKept (app : RemoteApp) (names : Set Text) (h : Handle σ) : Prop where
  /-- Every called entrypoint is one of the names. -/
  called : ∀ v ∈ h.visits, v.entrypoint ∈ names
  /-- Every returned function is remembered. -/
  remembered : ∀ v ∈ h.visits, ∀ functionId, v.result = .ok functionId →
    h.functionIds (v.entrypoint, effectiveOptions app v.entrypoint) = some functionId
  /-- Every remembered function is published under its tag. -/
  published : ∀ entrypoint ∈ names, ∀ functionId,
    h.functionIds (entrypoint, effectiveOptions app entrypoint) = some functionId →
    h.published.functionIds (sanitizeObjectTag entrypoint) = some functionId
  /-- Every published function was created for the entrypoint of its tag. -/
  origin : ∀ entrypoint ∈ names, ∀ functionId,
    h.published.functionIds (sanitizeObjectTag entrypoint) = some functionId →
    ∃ v ∈ h.visits, v.entrypoint = entrypoint ∧ v.Created functionId
  /-- The publishes kept the union. -/
  kept : UnionKept names h.visits

/-- A freshly connected app. -/
theorem RunKept.connected (names : Set Text) (server : σ) :
    RunKept app names (Handle.connected server) where
  called := by rintro v ⟨⟩
  remembered := by rintro v ⟨⟩
  published := by rintro entrypoint _ functionId ⟨⟩
  origin := by rintro entrypoint _ functionId ⟨⟩
  kept := .nil

section Step

variable {names : Set Text} {h after : Handle σ} {visit : Visit}

/-- A function that was published under the tag of an entrypoint by the end of some calls of
a visit was there before, or the visit is of this entrypoint and created it. -/
theorem Visited.of_functionIds (htags : Set.InjOn sanitizeObjectTag names)
    (hvisited : Visited h.published visit.entrypoint visit.calls after.published)
    (hvisit : visit.entrypoint ∈ names) {calls : List Call} (hcalls : calls ⊆ visit.calls)
    {entrypoint functionId : Text} (hentry : entrypoint ∈ names)
    (hid : (h.published.afterAll calls).functionIds (sanitizeObjectTag entrypoint) =
      some functionId) :
    h.published.functionIds (sanitizeObjectTag entrypoint) = some functionId ∨
      visit.entrypoint = entrypoint ∧ visit.Created functionId := by
  rcases Published.of_functionIds_afterAll hid with hold | ⟨call, hcall, created, hcreated, hnew⟩
  · exact .inl hold
  · have hown := hvisited.own call (hcalls hcall) created hcreated
    have hsame : visit.entrypoint = entrypoint := htags hvisit hentry (hown.symm.trans hnew.1)
    exact .inr ⟨hsame, call, hcalls hcall, created, hcreated, hnew.2⟩

/-- A remembered function stays published in any visit. -/
theorem Visited.functionIds_of_remembered (htags : Set.InjOn sanitizeObjectTag names)
    (hvisited : Visited h.published visit.entrypoint visit.calls after.published)
    (hremembered : Remembered app h after visit) (hkept : RunKept app names h)
    (hvisit : visit.entrypoint ∈ names) {calls : List Call} (hcalls : calls ⊆ visit.calls)
    {entrypoint functionId : Text} (hentry : entrypoint ∈ names)
    (hmemo : h.functionIds (entrypoint, effectiveOptions app entrypoint) = some functionId) :
    (h.published.afterAll calls).functionIds (sanitizeObjectTag entrypoint) =
      some functionId := by
  have hpublished := hkept.published entrypoint hentry functionId hmemo
  by_cases hsame : entrypoint = visit.entrypoint
  · subst hsame
    rw [hremembered.calls_eq_nil hmemo] at hcalls
    rwa [List.subset_nil.mp hcalls]
  · refine (Published.functionIds_afterAll (fun call hcall created hcreated htag => ?_)
      h.published).trans hpublished
    have hown := hvisited.own call (hcalls hcall) created hcreated
    exact hsame (htags hentry hvisit (htag.symm.trans hown))

/-- One more visit keeps it. -/
theorem RunKept.step (hkept : RunKept app names h) (htags : Set.InjOn sanitizeObjectTag names)
    (hvisit : visit.entrypoint ∈ names) (hvisits : after.visits = h.visits ++ [visit])
    (hvisited : Visited h.published visit.entrypoint visit.calls after.published)
    (hremembered : Remembered app h after visit) : RunKept app names after where
  called := by
    rw [hvisits, List.forall_mem_append]
    exact ⟨hkept.called, by simpa using hvisit⟩
  remembered := by
    rw [hvisits, List.forall_mem_append]
    refine ⟨fun v hv functionId hresult => ?_, ?_⟩
    · exact hremembered.keeps (hkept.remembered v hv functionId hresult)
    · intro v hv functionId hresult
      obtain rfl := List.mem_singleton.mp hv
      exact hremembered.returned hresult
  published := by
    intro entrypoint hentry functionId hkey
    rcases hremembered.cases_of_eq_some hkey with hold | ⟨_, hnow⟩
    · rw [hvisited.after_eq]
      exact hvisited.functionIds_of_remembered htags hremembered hkept hvisit
        (List.Subset.refl _) hentry hold
    · exact hnow
  origin := by
    intro entrypoint hentry functionId hid
    rw [hvisited.after_eq] at hid
    rw [hvisits]
    rcases hvisited.of_functionIds htags hvisit (List.Subset.refl _) hentry hid with hold | hnow
    · obtain ⟨v, hv, hcreated⟩ := hkept.origin entrypoint hentry functionId hold
      exact ⟨v, List.mem_append_left _ hv, hcreated⟩
    · exact ⟨visit, by simp, hnow⟩
  kept := by
    rw [hvisits]
    refine hkept.kept.concat fun call hcall ids hids => ?_
    obtain ⟨calls, later, hsplit⟩ := List.append_of_mem hcall
    have hcalls : calls ⊆ visit.calls := by simp [hsplit]
    obtain rfl := hvisited.union calls call later hsplit ids hids
    refine ⟨fun v hv functionId hresult => ?_, fun entrypoint hentry functionId hid => ?_⟩
    · exact hvisited.functionIds_of_remembered htags hremembered hkept hvisit hcalls
        (hkept.called v hv) (hkept.remembered v hv functionId hresult)
    · rcases hvisited.of_functionIds htags hvisit hcalls hentry hid with hold | hnow
      · obtain ⟨v, hv, hcreated⟩ := hkept.origin entrypoint hentry functionId hold
        exact ⟨v, List.mem_append_left _ hv, hcreated⟩
      · exact ⟨visit, by simp, hnow⟩

end Step

/-- A run keeps it. -/
theorem RunKept.callAll {names : Set Text} (htags : Set.InjOn sanitizeObjectTag names)
    {entrypoints : List Text} (hnames : ∀ entrypoint ∈ entrypoints, entrypoint ∈ names)
    {h : Handle σ} (hkept : RunKept app names h) :
    RunKept app names (callAll cp host app h entrypoints) := by
  induction entrypoints generalizing h with
  | nil => exact hkept
  | cons entrypoint rest ih =>
    obtain ⟨visit, hentry, hvisits, hvisited, hremembered⟩ :=
      resolveFunction_spec cp host app h entrypoint
    subst hentry
    have hhead := hnames visit.entrypoint (by simp)
    exact ih (fun e he => hnames e (by simp [he]))
      (hkept.step htags hhead hvisits hvisited hremembered)

/-- Under different tags, every created function is mapped to. -/
theorem Published.functionIds_of_mem_created {calls : List Call} (published : Published)
    (hnodup : ((calls.filterMap createdBy).map Prod.fst).Nodup) {created : Text × Created}
    (hcreated : created ∈ calls.filterMap createdBy) :
    (published.afterAll calls).functionIds created.1 = some created.2.functionId := by
  induction calls generalizing published with
  | nil => cases hcreated
  | cons call calls ih =>
    cases hcall : createdBy call with
    | none =>
      rw [List.filterMap_cons_none hcall] at hnodup hcreated
      exact ih (published.after call) hnodup hcreated
    | some first =>
      rw [List.filterMap_cons_some hcall, List.map_cons, List.nodup_cons] at hnodup
      rw [List.filterMap_cons_some hcall, List.mem_cons] at hcreated
      rcases hcreated with rfl | hcreated
      · refine (Published.functionIds_afterAll (fun c hc later hlater htag => hnodup.1 ?_)
          (published.after call)).trans ?_
        · exact List.mem_map.mpr ⟨later, List.mem_filterMap.mpr ⟨c, hc, hlater⟩, htag⟩
        · simp only [Published.after, hcall, Published.record, Function.update_self]
      · exact ih (published.after call) hnodup.2 hcreated

/-- The created tags are those of the entrypoints. -/
theorem map_fst_of_forall₂ {entrypoints : List Entrypoint} {creates : List (Text × Created)}
    (hcreates : List.Forall₂ (fun ep created => created.1 = sanitizeObjectTag ep.name)
      entrypoints creates) :
    creates.map Prod.fst = entrypoints.map fun ep => sanitizeObjectTag ep.name := by
  induction hcreates with
  | nil => rfl
  | cons hhead _ ih => rw [List.map_cons, List.map_cons, hhead, ih]

/-- Every created function belongs to one of the entrypoints. -/
theorem exists_mem_zip_of_forall₂ {entrypoints : List Entrypoint}
    {creates : List (Text × Created)}
    (hcreates : List.Forall₂ (fun ep created => created.1 = sanitizeObjectTag ep.name)
      entrypoints creates) {created : Text × Created} (hcreated : created ∈ creates) :
    ∃ ep, (ep, created) ∈ entrypoints.zip creates ∧ created.1 = sanitizeObjectTag ep.name := by
  induction hcreates with
  | nil => cases hcreated
  | cons hhead _ ih =>
    rcases List.mem_cons.mp hcreated with rfl | hrest
    · exact ⟨_, List.mem_cons_self, hhead⟩
    · obtain ⟨ep, hep, htag⟩ := ih hrest
      exact ⟨ep, List.mem_cons_of_mem _ hep, htag⟩

/-- A deploy keeps the union at any time. -/
theorem Sound.deployUnionKept {host : Host} {inputs : ProvisionInputs} {boundary : Boundary}
    (htags : (inputs.entrypoints.map fun ep => sanitizeObjectTag ep.name).Nodup)
    {w : PlaneWorld σ} (hw : Sound host inputs boundary .default w) :
    DeployUnionKept inputs.entrypoints w.log := by
  intro before call later hsplit ids hids
  have hpublish : publishRequest call ≠ none := by
    rw [Option.mem_def.mp hids]
    exact Option.some_ne_none ids
  have hall := hw.complete before call later hsplit hpublish
  obtain rfl := hw.tracks.union before call later hsplit ids hids
  have hnodup : ((before.filterMap createdBy).map Prod.fst).Nodup := by
    rw [map_fst_of_forall₂ hall]
    exact htags
  refine ⟨List.forall₂_iff_zip.mpr ⟨hall.length_eq, fun hzip => ?_⟩, fun tag functionId hid => ?_⟩
  · have htag := (List.forall₂_iff_zip.mp hall).2 hzip
    rw [← htag]
    exact Published.default.functionIds_of_mem_created hnodup (List.of_mem_zip hzip).2
  · rcases Published.of_functionIds_afterAll hid with hold | ⟨c, hc, created, hcreated, hnew⟩
    · cases hold
    · have hmem : created ∈ before.filterMap createdBy :=
        List.mem_filterMap.mpr ⟨c, hc, hcreated⟩
      obtain ⟨ep, hzip, htag⟩ := exists_mem_zip_of_forall₂ hall hmem
      exact ⟨(ep, created), hzip, htag.symm.trans hnew.1, hnew.2⟩

/-- **Publishes keep the union.** As long as different names have different tags, no publish
of a run or of a deploy loses a function or maps a tag to the function of another
entrypoint, whatever the control plane answers. -/
theorem publish_union_kept {names : Set Text} (htags : Set.InjOn sanitizeObjectTag names) :
    (∀ (σ : Type) (cp : ControlPlane σ) (host : Host) (app : RemoteApp) (server : σ)
        (entrypoints : List Text), (∀ entrypoint ∈ entrypoints, entrypoint ∈ names) →
      UnionKept names (callAll cp host app (Handle.connected server) entrypoints).visits) ∧
    ∀ (σ : Type) (cp : ControlPlane σ) (host : Host) (inputs : ProvisionInputs),
      (inputs.entrypoints.map Entrypoint.name).Nodup →
      (∀ ep ∈ inputs.entrypoints, ep.name ∈ names) →
      Triple (fun w => w.own = .default ∧ w.log = []) (provision cp host inputs deployBoundary)
        (fun _ w => DeployUnionKept inputs.entrypoints w.log)
        (fun w => DeployUnionKept inputs.entrypoints w.log) := by
  refine ⟨fun σ cp host app server entrypoints hnames => ?_, ?_⟩
  · exact (RunKept.callAll cp host htags hnames (RunKept.connected names server)).kept
  · intro σ cp host inputs hnodup hnames
    have htagged : (inputs.entrypoints.map fun ep => sanitizeObjectTag ep.name).Nodup := by
      have hmapped := List.Nodup.map_on (f := sanitizeObjectTag) ?_ hnodup
      · rwa [List.map_map] at hmapped
      · intro name hname name' hname' heq
        obtain ⟨ep, hep, rfl⟩ := List.mem_map.mp hname
        obtain ⟨ep', hep', rfl⟩ := List.mem_map.mp hname'
        exact htags (hnames ep hep) (hnames ep' hep') heq
    have hadmits : deployBoundary.Admits inputs.entrypoints := by rintro ⟨⟩
    exact (triple_provision hadmits).mono (fun w hw => hw)
      (fun _ w hw => hw.deployUnionKept htagged) (fun w hw => hw.deployUnionKept htagged)

/-- A run of two functions, in which a request fails and the call is repeated. -/
theorem publish_union_kept_two_names :
    UnionKept {name | name ∈ ["a".toList, "b".toList]} (callAll (numberedPlane [9]) plainHost
      plainApp (Handle.connected 0) ["a".toList, "b".toList, "b".toList]).visits := by
  have htags : Set.InjOn sanitizeObjectTag {name | name ∈ ["a".toList, "b".toList]} := by
    intro x hx y hy
    have hpairs : ∀ x ∈ ["a".toList, "b".toList], ∀ y ∈ ["a".toList, "b".toList],
        sanitizeObjectTag x = sanitizeObjectTag y → x = y := by decide
    exact hpairs x hx y hy
  have hcalled : ∀ name ∈ ["a".toList, "b".toList, "b".toList],
      name ∈ ["a".toList, "b".toList] := by decide
  have hrun := (publish_union_kept htags).1 ℕ (numberedPlane [9]) plainHost plainApp 0
    ["a".toList, "b".toList, "b".toList] hcalled
  exact hrun

/-- Two names with one tag: the second function takes the place of the first, which was
returned before. -/
theorem publish_union_lost :
    ¬ UnionKept {name | name ∈ ["a b".toList, "a_b".toList]} (callAll (numberedPlane []) plainHost
      plainApp (Handle.connected 0) ["a b".toList, "a_b".toList]).visits := by
  intro hkept
  have hfirst : ((callAll (numberedPlane []) plainHost plainApp (Handle.connected 0)
      ["a b".toList, "a_b".toList]).visits.take 1).any (fun v =>
        v.entrypoint == "a b".toList && v.result.toOption == some "fu-6".toList) = true := by
    decide +kernel
  have hsecond : (callAll (numberedPlane []) plainHost plainApp (Handle.connected 0)
      ["a b".toList, "a_b".toList]).visits[1]?.any (fun v => v.calls.any fun call =>
        (publishRequest call).any fun ids =>
          ids.1 (sanitizeObjectTag "a b".toList) == some "fu-14".toList) = true := by
    decide +kernel
  obtain ⟨first, hfirst, hreturned⟩ := List.any_eq_true.mp hfirst
  obtain ⟨second, hsecond, hcalls⟩ := (Option.any_eq_true _ _).mp hsecond
  obtain ⟨call, hcall, hids⟩ := List.any_eq_true.mp hcalls
  obtain ⟨ids, hids, hpublished⟩ := (Option.any_eq_true _ _).mp hids
  rw [Bool.and_eq_true, beq_iff_eq, beq_iff_eq] at hreturned
  have hresult : first.result = .ok "fu-6".toList := by
    cases hresult : first.result with
    | ok id =>
      rw [hresult] at hreturned
      exact congrArg Except.ok (Option.some.inj hreturned.2)
    | error e =>
      rw [hresult] at hreturned
      cases hreturned.2
  have hmapped := (hkept.getElem? hsecond call hcall ids hids).1 first hfirst _ hresult
  rw [hreturned.1, beq_iff_eq.mp hpublished] at hmapped
  exact absurd hmapped (by decide)

end ModalRust.Provision
