import ModalRust.Provision.Sequence

/-!
# The published union

What the accumulator of published functions holds, told from the log alone: it is the
record of all creates so far, and every publish carries it as it is at that moment. This
is kept by every step of a provisioning, also by one that fails.
-/

namespace ModalRust.Provision

open ModalRust.Sdk ModalRust.Session

/-- The tag and the reply of a create that succeeded. -/
def createdBy : Call → Option (Text × Created)
  | ⟨.create _ _ spec, .ok created⟩ => some (spec.objectTag, created)
  | _ => none

/-- The spec of a create, whether or not it succeeded. -/
def createRequest : Call → Option FunctionSpec
  | ⟨.create _ _ spec, _⟩ => some spec
  | _ => none

/-- The function and definition ids that a publish carries. -/
def publishRequest : Call → Option ((Text → Option Text) × (Text → Option Text))
  | ⟨.publish _ _ functionIds definitionIds _, _⟩ => some (functionIds, definitionIds)
  | _ => none

/-- A call that neither creates nor publishes. -/
def IsLookup (call : Call) : Prop := createRequest call = none ∧ publishRequest call = none

/-- The accumulator after a call. -/
def Published.after (published : Published) (call : Call) : Published :=
  match createdBy call with
  | some (objectTag, created) => published.record objectTag created
  | none => published

/-- The accumulator after some calls. -/
def Published.afterAll (published : Published) (calls : List Call) : Published :=
  calls.foldl Published.after published

/-- Every publish carries the record of all creates before it. -/
def PublishesUnion (published : Published) : List Call → Prop :=
  EachAfter fun before call => ∀ ids ∈ publishRequest call,
    ids = ((published.afterAll before).functionIds, (published.afterAll before).definitionIds)

/-- The accumulator is the record of all creates in the log, and every publish carried it. -/
structure Tracks {σ : Type} (published : Published) (w : PlaneWorld σ) : Prop where
  /-- The accumulator. -/
  own_eq : w.own = published.afterAll w.log
  /-- The publishes. -/
  union : PublishesUnion published w.log

/-- A create that succeeded was requested. -/
theorem createdBy_of_createRequest {call : Call} (hcall : createRequest call = none) :
    createdBy call = none := by
  obtain ⟨request, reply⟩ := call
  cases request with
  | create appId precreateId spec => cases hcall
  | _ => rfl

/-- A lookup does not change the accumulator. -/
theorem Published.after_of_isLookup {call : Call} (hcall : IsLookup call)
    (published : Published) : published.after call = published := by
  unfold Published.after
  rw [createdBy_of_createRequest hcall.1]

/-- Lookups do not change the accumulator. -/
theorem Published.afterAll_of_isLookup {calls : List Call} (hcalls : ∀ call ∈ calls, IsLookup call)
    (published : Published) : published.afterAll calls = published := by
  induction calls with
  | nil => rfl
  | cons call calls ih =>
    have hcall := published.after_of_isLookup (hcalls call (by simp))
    rw [afterAll, List.foldl_cons, hcall]
    exact ih fun c hc => hcalls c (by simp [hc])

/-- The accumulator after calls in two parts. -/
theorem Published.afterAll_append (published : Published) (calls later : List Call) :
    published.afterAll (calls ++ later) = (published.afterAll calls).afterAll later :=
  List.foldl_append

variable {σ α : Type} {published : Published}

/-- Lookups keep the accumulator in step. -/
theorem Tracks.lookups {w w' : PlaneWorld σ} {calls : List Call} (hw : Tracks published w)
    (hown : w'.own = w.own) (hlog : w'.log = w.log ++ calls)
    (hcalls : ∀ call ∈ calls, IsLookup call) : Tracks published w' where
  own_eq := by
    rw [hown, hlog, Published.afterAll_append, Published.afterAll_of_isLookup hcalls, hw.own_eq]
  union := by
    rw [hlog]
    refine hw.union.append_of_forall fun call hcall before => ?_
    rw [(hcalls call hcall).2]
    simp

/-- Publishing keeps the accumulator in step. -/
theorem keeps_tracks_publishAll (cp : ControlPlane σ) (inputs : ProvisionInputs)
    (boundary : Boundary) (appId : Text) :
    Keeps (Tracks published) (publishAll cp inputs boundary appId) := by
  let request (p : Published) : Request :=
    .publish appId inputs.appName p.functionIds p.definitionIds boundary.appState
  have hpublish (p : Published) : Triple (fun w => Tracks published w ∧ w.own = p)
      (ask cp (request p)) (fun _ => Tracks published) (Tracks published) := by
    have hanswered (w : PlaneWorld σ) (reply : Except Error (request p).Reply) (s : σ)
        (hw : Tracks published w ∧ w.own = p) :
        Tracks published (w.answered s (request p) reply) := by
      obtain ⟨⟨hown, hunion⟩, rfl⟩ := hw
      refine ⟨?_, ?_⟩
      · rw [World.own_answered, World.log_answered, Published.afterAll_append, ← hown]
        rfl
      · refine hunion.concat ?_
        rw [← hown]
        rintro ids ⟨rfl⟩
        rfl
    exact Triple.ask (fun w a s hw _ => hanswered w (.ok a) s hw)
      (fun w e s hw _ => hanswered w (.error e) s hw)
  exact Triple.bind (Triple.own fun w hw => ⟨hw, rfl⟩) hpublish

/-- Creating and recording a function keeps the accumulator in step. -/
theorem keeps_tracks_create (cp : ControlPlane σ) {appId precreateId objectTag : Text}
    {spec : FunctionSpec} (hspec : spec.objectTag = objectTag) :
    Keeps (Tracks published) (do
      let created : Created ← ask cp (.create appId precreateId spec)
      update (Published.record objectTag created)) := by
  refine Triple.bind (Q := fun created w => PublishesUnion published w.log ∧
    Published.record objectTag created w.own = published.afterAll w.log) ?_ ?_
  · refine Triple.ask (fun w created s hw _ => ⟨?_, ?_⟩) (fun w e s hw _ => ⟨?_, ?_⟩)
    · exact hw.union.concat (by rintro ids ⟨⟩)
    · rw [World.own_answered, World.log_answered, Published.afterAll_append, ← hw.own_eq, ← hspec]
      rfl
    · rw [World.own_answered, World.log_answered, Published.afterAll_append, ← hw.own_eq]
      rfl
    · exact hw.union.concat (by rintro ids ⟨⟩)
  · intro created
    exact Triple.update fun w hw => ⟨hw.2, hw.1⟩

end ModalRust.Provision
