import ModalRust.Provision.UnionKept

/-!
# Definitions of published functions

A publish carries two maps: functions by tag, and definitions by function. When the create
of a tag is repeated after a failed publish, the new function takes the place of the old
one in the first map only. The two maps stay in step as long as a repeated create returns
the function that was created before.
-/

namespace ModalRust.Provision

open ModalRust.Sdk ModalRust.Session

/-- What the last successful create of each tag returned, after one more call. -/
def createdAfter (latest : Text → Option Created) (call : Call) : Text → Option Created :=
  match createdBy call with
  | some (objectTag, created) => Function.update latest objectTag (some created)
  | none => latest

/-- What the last successful create of each tag returned. -/
def latestCreated (calls : List Call) : Text → Option Created :=
  calls.foldl createdAfter fun _ => none

/-- The definition of each function, from the last create that returned one for it, after one more
call. -/
def definedAfter (latest : Text → Option Text) (call : Call) : Text → Option Text :=
  match createdBy call with
  | some (_, created) =>
    if created.definitionId = [] then latest
    else Function.update latest created.functionId (some created.definitionId)
  | none => latest

/-- The definition of each function, from the last create that returned one for it. -/
def latestDefined (calls : List Call) : Text → Option Text := calls.foldl definedAfter fun _ => none

/-- The functions are those of the latest creates, exactly those that have a definition are keys of
the definitions, and the definition of a function is the one that was last returned for it. -/
structure DefinitionsInStep (calls : List Call) (functionIds definitionIds : Text → Option Text) :
    Prop where
  /-- The functions are those of the latest creates. -/
  functions : ∀ objectTag, functionIds objectTag =
    (latestCreated calls objectTag).map Created.functionId
  /-- Those that have a definition are keys. -/
  keys : ∀ functionId, definitionIds functionId ≠ none ↔
    ∃ objectTag created, functionIds objectTag = some functionId ∧
      latestCreated calls objectTag = some created ∧ created.definitionId ≠ []
  /-- A definition is the one that was returned last. -/
  definitions : ∀ functionId, definitionIds functionId = latestDefined calls functionId

/-- A create for a tag whose function has a definition returns this function again, with a
definition. -/
def SteadyCreates : List Call → Prop :=
  EachAfter fun before call => ∀ created ∈ createdBy call,
    ∀ old, latestCreated before created.1 = some old → old.definitionId ≠ [] →
      created.2.functionId = old.functionId ∧ created.2.definitionId ≠ []

/-- All calls of a run. -/
def Handle.log {σ : Type} (h : Handle σ) : List Call := h.visits.flatMap Visit.calls

/-- The latest creates after one more call. -/
theorem latestCreated_concat (calls : List Call) (call : Call) :
    latestCreated (calls ++ [call]) = createdAfter (latestCreated calls) call :=
  List.foldl_append

/-- The latest definitions after one more call. -/
theorem latestDefined_concat (calls : List Call) (call : Call) :
    latestDefined (calls ++ [call]) = definedAfter (latestDefined calls) call :=
  List.foldl_append

/-- Creates that are steady were so before the last one. -/
theorem SteadyCreates.of_append {calls later : List Call}
    (hsteady : SteadyCreates (calls ++ later)) : SteadyCreates calls := by
  intro before call after hsplit
  exact hsteady before call (after ++ later) (by simp [hsplit])

/-- Recording a function adds its definition, if it has one. -/
theorem Published.definitionIds_record (published : Published) (objectTag : Text)
    (created : Created) (functionId : Text) :
    (published.record objectTag created).definitionIds functionId ≠ none ↔
      functionId = created.functionId ∧ created.definitionId ≠ [] ∨
        published.definitionIds functionId ≠ none := by
  unfold Published.record
  by_cases hempty : created.definitionId = []
  · simp [hempty]
  · have hisEmpty : created.definitionId.isEmpty = false := by simpa using hempty
    simp only [hisEmpty, Bool.false_eq_true, if_false]
    by_cases hsame : functionId = created.functionId
    · subst hsame
      simp [hempty]
    · simp [hsame]

/-- One steady create keeps the maps in step. -/
theorem DefinitionsInStep.record {calls : List Call} {call : Call} {published : Published}
    (hstep : DefinitionsInStep calls published.functionIds published.definitionIds)
    {objectTag : Text} {created : Created} (hcall : createdBy call = some (objectTag, created))
    (hsteady : ∀ old, latestCreated calls objectTag = some old → old.definitionId ≠ [] →
      created.functionId = old.functionId ∧ created.definitionId ≠ []) :
    DefinitionsInStep (calls ++ [call]) (published.record objectTag created).functionIds
      (published.record objectTag created).definitionIds := by
  obtain ⟨hids, hkeys, hdefinitions⟩ := hstep
  have hlatest : latestCreated (calls ++ [call]) =
      Function.update (latestCreated calls) objectTag (some created) := by
    rw [latestCreated_concat, createdAfter, hcall]
  have hself : latestCreated (calls ++ [call]) objectTag = some created := by
    rw [hlatest, Function.update_self]
  have hother : ∀ tag, tag ≠ objectTag →
      latestCreated (calls ++ [call]) tag = latestCreated calls tag := by
    intro tag htag
    rw [hlatest, Function.update_of_ne htag]
  have hids' : ∀ tag, (published.record objectTag created).functionIds tag =
      (latestCreated (calls ++ [call]) tag).map Created.functionId := by
    intro tag
    by_cases htag : tag = objectTag
    · subst htag
      rw [hself]
      simp [Published.record]
    · rw [hother tag htag, ← hids]
      simp [Published.record, Function.update_of_ne htag]
  have hreturned : ∀ functionId, (published.record objectTag created).definitionIds functionId =
      latestDefined (calls ++ [call]) functionId := by
    intro functionId
    rw [latestDefined_concat, definedAfter, hcall, ← funext hdefinitions]
    unfold Published.record
    dsimp only
    by_cases hempty : created.definitionId = []
    · rw [if_pos hempty, if_pos (List.isEmpty_iff.mpr hempty)]
    · rw [if_neg hempty, if_neg (mt List.isEmpty_iff.mp hempty)]
  refine ⟨hids', fun functionId => (published.definitionIds_record objectTag created
    functionId).trans ⟨?_, ?_⟩, hreturned⟩
  · rintro (⟨rfl, hdefined⟩ | hold)
    · exact ⟨objectTag, created, by rw [hids', hself]; rfl, hself, hdefined⟩
    · obtain ⟨tag, old, hid, hlast, hdefined⟩ := (hkeys functionId).mp hold
      by_cases htag : tag = objectTag
      · -- the function was recreated, as the same one
        subst htag
        obtain ⟨hsame, hdefined'⟩ := hsteady old hlast hdefined
        rw [hids, hlast, Option.map_some, Option.some.injEq] at hid
        refine ⟨tag, created, ?_, hself, hdefined'⟩
        rw [hids', hself, Option.map_some, hsame, hid]
      · refine ⟨tag, old, ?_, by rw [hother tag htag, hlast], hdefined⟩
        rw [hids', hother tag htag, ← hids, hid]
  · rintro ⟨tag, now, hid, hlast, hdefined⟩
    rw [hids', hlast, Option.map_some, Option.some.injEq] at hid
    by_cases htag : tag = objectTag
    · subst htag
      obtain rfl := Option.some.inj (hself.symm.trans hlast)
      exact .inl ⟨hid.symm, hdefined⟩
    · rw [hother tag htag] at hlast
      refine .inr ((hkeys functionId).mpr ⟨tag, now, ?_, hlast, hdefined⟩)
      rw [hids, hlast, Option.map_some, hid]

/-- The accumulator of steady creates is in step. -/
theorem SteadyCreates.inStep {calls : List Call} (hsteady : SteadyCreates calls) :
    DefinitionsInStep calls (Published.default.afterAll calls).functionIds
      (Published.default.afterAll calls).definitionIds := by
  induction calls using List.reverseRecOn with
  | nil =>
    refine ⟨fun tag => rfl, fun functionId => ⟨fun h => absurd rfl h, ?_⟩, fun functionId => rfl⟩
    rintro ⟨tag, created, _, hlast, _⟩
    cases hlast
  | append_singleton calls call ih =>
    have hbefore := ih hsteady.of_append
    have hafter : Published.default.afterAll (calls ++ [call]) =
        (Published.default.afterAll calls).after call := List.foldl_append
    rw [hafter, Published.after]
    cases hcall : createdBy call with
    | none =>
      have hlatest : latestCreated (calls ++ [call]) = latestCreated calls := by
        rw [latestCreated_concat, createdAfter, hcall]
      have hdefined : latestDefined (calls ++ [call]) = latestDefined calls := by
        rw [latestDefined_concat, definedAfter, hcall]
      obtain ⟨hfunctions, hkeys, hdefinitions⟩ := hbefore
      constructor
      · rw [hlatest]
        exact hfunctions
      · rw [hlatest]
        exact hkeys
      · rw [hdefined]
        exact hdefinitions
    | some recorded =>
      exact hbefore.record hcall (hsteady calls call [] rfl recorded hcall)

variable {σ : Type} (cp : ControlPlane σ) (host : Host) (app : RemoteApp)

/-- The publishes of a whole run carry what was recorded in the whole run. -/
theorem publishesUnion_callAll (server : σ) (entrypoints : List Text) :
    let h := callAll cp host app (Handle.connected server) entrypoints
    h.published = Published.default.afterAll h.log ∧ PublishesUnion .default h.log := by
  have hkeeps : ∀ h : Handle σ,
      h.published = Published.default.afterAll h.log ∧ PublishesUnion .default h.log →
      (callAll cp host app h entrypoints).published =
          Published.default.afterAll (callAll cp host app h entrypoints).log ∧
        PublishesUnion .default (callAll cp host app h entrypoints).log := by
    induction entrypoints with
    | nil => exact fun h hh => hh
    | cons entrypoint rest ih =>
      rintro h ⟨hpublished, hunion⟩
      obtain ⟨visit, _, hvisits, hvisited, _⟩ := resolveFunction_spec cp host app h entrypoint
      have hlog : (resolveFunction cp host app h entrypoint).log = h.log ++ visit.calls := by
        rw [Handle.log, hvisits, List.flatMap_append, List.flatMap_singleton]
        rfl
      refine ih _ ⟨?_, ?_⟩
      · rw [hlog, Published.afterAll_append, ← hpublished, hvisited.after_eq]
      · rw [hlog]
        refine hunion.append fun before call after hsplit ids hids => ?_
        rw [Published.afterAll_append, ← hpublished]
        exact hvisited.union before call after hsplit ids hids
  exact hkeeps (Handle.connected server) ⟨rfl, .nil⟩

/-- **In every run with steady creates, every publish carries definitions for exactly the
published functions that have one**, whichever requests fail and are repeated, and each is the one
that the server returned last for its function. -/
theorem definitions_in_step (server : σ) (entrypoints : List Text)
    (hsteady : SteadyCreates (callAll cp host app (Handle.connected server) entrypoints).log) :
    EachAfter (fun before call => ∀ ids ∈ publishRequest call,
        DefinitionsInStep before ids.1 ids.2)
      (callAll cp host app (Handle.connected server) entrypoints).log := by
  intro before call after hsplit ids hids
  have hunion := (publishesUnion_callAll cp host app server entrypoints).2
  obtain rfl := hunion before call after hsplit ids hids
  rw [hsplit] at hsteady
  exact hsteady.of_append.inStep

/-- What was created last was created. -/
theorem mem_of_latestCreated {calls : List Call} {objectTag : Text} {created : Created}
    (hlast : latestCreated calls objectTag = some created) :
    (objectTag, created) ∈ calls.filterMap createdBy := by
  induction calls using List.reverseRecOn with
  | nil => cases hlast
  | append_singleton calls call ih =>
    rw [latestCreated_concat, createdAfter] at hlast
    rw [List.filterMap_append, List.mem_append]
    cases hcall : createdBy call with
    | none =>
      rw [hcall] at hlast
      exact .inl (ih hlast)
    | some recorded =>
      simp only [hcall] at hlast
      by_cases htag : objectTag = recorded.1
      · rw [htag, Function.update_self, Option.some.injEq] at hlast
        subst htag hlast
        exact .inr (by simp [hcall])
      · rw [Function.update_of_ne htag] at hlast
        exact .inl (ih hlast)

/-- Creates are steady if no tag is created twice. -/
theorem SteadyCreates.of_nodup {calls : List Call}
    (hnodup : ((calls.filterMap createdBy).map Prod.fst).Nodup) : SteadyCreates calls := by
  rintro before call after rfl created hcreated old hlast _
  have hmem : created.1 ∈ (before.filterMap createdBy).map Prod.fst :=
    List.mem_map.mpr ⟨_, mem_of_latestCreated hlast, rfl⟩
  rw [List.filterMap_append, List.filterMap_cons_some hcreated, List.map_append,
    List.map_cons] at hnodup
  exact ((List.nodup_append.mp hnodup).2.2 _ hmem _ List.mem_cons_self rfl).elim

/-- A run of two functions, in which the create of the second fails and is repeated. -/
theorem definitions_in_step_two_functions :
    EachAfter (fun before call => ∀ ids ∈ publishRequest call,
        DefinitionsInStep before ids.1 ids.2)
      (callAll (numberedPlane [14]) plainHost plainApp (Handle.connected 0)
        ["a".toList, "b".toList, "b".toList]).log := by
  have hnodup : (((callAll (numberedPlane [14]) plainHost plainApp (Handle.connected 0)
      ["a".toList, "b".toList, "b".toList]).log.filterMap createdBy).map Prod.fst).Nodup := by
    decide +kernel
  have hrun := definitions_in_step (numberedPlane [14]) plainHost plainApp 0
    ["a".toList, "b".toList, "b".toList] (.of_nodup hnodup)
  exact hrun

/-- A publish fails, and the call is repeated: the next publish still has the definition of
the function that was created first. -/
theorem definitions_out_of_step :
    ¬ EachAfter (fun before call => ∀ ids ∈ publishRequest call,
        DefinitionsInStep before ids.1 ids.2)
      (callAll (numberedPlane [7]) plainHost plainApp (Handle.connected 0)
        ["a".toList, "a".toList]).log := by
  intro hstep
  have hpublish : (callAll (numberedPlane [7]) plainHost plainApp (Handle.connected 0)
      ["a".toList, "a".toList]).log[15]?.any (fun call => (publishRequest call).any fun ids =>
        ids.2 "fu-6".toList == some "de-6".toList) = true := by
    decide +kernel
  have hcreates : (((callAll (numberedPlane [7]) plainHost plainApp (Handle.connected 0)
      ["a".toList, "a".toList]).log.take 15).filterMap createdBy) =
        [("a".toList, ⟨"fu-6".toList, "de-6".toList, []⟩),
          ("a".toList, ⟨"fu-14".toList, "de-14".toList, []⟩)] := by
    decide +kernel
  have hlatest : (latestCreated ((callAll (numberedPlane [7]) plainHost plainApp
      (Handle.connected 0) ["a".toList, "a".toList]).log.take 15) "a".toList) =
        some ⟨"fu-14".toList, "de-14".toList, []⟩ := by
    decide +kernel
  obtain ⟨call, hcall, hids⟩ := (Option.any_eq_true _ _).mp hpublish
  obtain ⟨ids, hids, hstale⟩ := (Option.any_eq_true _ _).mp hids
  have hkeys := (hstep.getElem? hcall ids hids).keys "fu-6".toList
  rw [beq_iff_eq.mp hstale] at hkeys
  obtain ⟨tag, created, hid, hlast, _⟩ := hkeys.mp (by simp)
  have hmem := mem_of_latestCreated hlast
  rw [hcreates] at hmem
  have htag : tag = "a".toList := by
    rcases List.mem_cons.mp hmem with heq | hmem
    · exact (Prod.ext_iff.mp heq).1
    · exact (Prod.ext_iff.mp (List.mem_singleton.mp hmem)).1
  have hfunction := (hstep.getElem? hcall ids hids).functions "a".toList
  rw [hlatest] at hfunction
  rw [htag, hfunction] at hid
  exact absurd hid (by decide)

end ModalRust.Provision
