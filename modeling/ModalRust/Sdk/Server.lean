import Mathlib.Logic.Function.Basic
import ModalRust.Sdk.Error

/-!
# The object store and the input queue

The server side of the stateful RPCs, after the mock backend's object store: one map
for each dict id, one FIFO list for each queue id, and the queue of function inputs.
A request that names an unknown object fails and changes nothing.
-/

namespace ModalRust.Sdk

/-- One function input on the wire. -/
structure FunctionPutInputsItem where
  /-- The input ordinal, an `i32`. -/
  idx : ℤ
  /-- The encoded arguments. -/
  args : Bytes
  deriving DecidableEq

/-- The entries of one dict. -/
abbrev Dict := Bytes → Option Bytes

/-- The server's state. -/
structure Server where
  /-- The items of each queue, oldest first. -/
  queues : Text → Option (List Bytes)
  /-- The entries of each dict. -/
  dicts : Text → Option Dict
  /-- The function inputs enqueued so far, each with its function call. -/
  inputs : List (Text × FunctionPutInputsItem)

namespace Server

/-- The status for a request that names an unknown object. -/
def unknownId (kind id : Text) : Error :=
  .status .notFound (kind ++ " with id '".toList ++ id ++ "' not found".toList)

/-- Replace the items of one queue. -/
def setQueue (s : Server) (queueId : Text) (items : List Bytes) : Server :=
  { s with queues := Function.update s.queues queueId (some items) }

/-- Replace the entries of one dict. -/
def setDict (s : Server) (dictId : Text) (dict : Dict) : Server :=
  { s with dicts := Function.update s.dicts dictId (some dict) }

/-- Append function inputs to one call. -/
def enqueue (s : Server) (copies : List (Text × FunctionPutInputsItem)) : Server :=
  { s with inputs := s.inputs ++ copies }

/-- Change the items of a queue and answer, or fail because the id is unknown. -/
def onQueue {α : Type} (queueId : Text) (f : List Bytes → List Bytes × α) (s : Server) :
    Server × Except Error α :=
  match s.queues queueId with
  | none => (s, .error (unknownId "Queue".toList queueId))
  | some items => (s.setQueue queueId (f items).1, .ok (f items).2)

/-- Change the entries of a dict and answer, or fail because the id is unknown. -/
def onDict {α : Type} (dictId : Text) (f : Dict → Dict × α) (s : Server) :
    Server × Except Error α :=
  match s.dicts dictId with
  | none => (s, .error (unknownId "Dict".toList dictId))
  | some dict => (s.setDict dictId (f dict).1, .ok (f dict).2)

/-- `QueuePut`: append the items in order. -/
def queuePut (queueId : Text) (values : List Bytes) : Server → Server × Except Error Unit :=
  onQueue queueId fun items => (items ++ values, ())

/-- `QueueGet` once something is available or the window closed: pop up to `n_values`
items, and at least one if there is one. -/
def queueGet (queueId : Text) (nValues : ℕ) : Server → Server × Except Error (List Bytes) :=
  onQueue queueId fun items => (items.drop (max nValues 1), items.take (max nValues 1))

/-- The loop of `dict_update`: the new entries, and whether every entry inserted a new
key. -/
def updateEntries (ifNotExists : Bool) : Dict → List (Bytes × Bytes) → Dict × Bool
  | dict, [] => (dict, true)
  | dict, (key, value) :: entries =>
    if (dict key).isSome then
      let next := if ifNotExists then dict else Function.update dict key (some value)
      ((updateEntries ifNotExists next entries).1, false)
    else updateEntries ifNotExists (Function.update dict key (some value)) entries

/-- `DictUpdate`: write the entries in order and report the `created` flag. -/
def dictUpdate (dictId : Text) (entries : List (Bytes × Bytes)) (ifNotExists : Bool) :
    Server → Server × Except Error Bool :=
  onDict dictId fun dict => updateEntries ifNotExists dict entries

/-- `DictPop`: remove an entry and return its value, `none` if the key is absent. -/
def dictPop (dictId : Text) (key : Bytes) : Server → Server × Except Error (Option Bytes) :=
  onDict dictId fun dict => (Function.update dict key none, dict key)

/-- A queue request either changes its queue and succeeds, or changes nothing. -/
theorem onQueue_cases {α : Type} (queueId : Text) (f : List Bytes → List Bytes × α)
    (s : Server) :
    (∃ items, s.queues queueId = some items ∧
      onQueue queueId f s = (s.setQueue queueId (f items).1, .ok (f items).2)) ∨
    ∃ e, onQueue queueId f s = (s, .error e) := by
  unfold onQueue
  cases s.queues queueId with
  | none => exact .inr ⟨_, rfl⟩
  | some items => exact .inl ⟨items, rfl, rfl⟩

/-- A dict request either changes its dict and succeeds, or changes nothing. -/
theorem onDict_cases {α : Type} (dictId : Text) (f : Dict → Dict × α) (s : Server) :
    (∃ dict, s.dicts dictId = some dict ∧
      onDict dictId f s = (s.setDict dictId (f dict).1, .ok (f dict).2)) ∨
    ∃ e, onDict dictId f s = (s, .error e) := by
  unfold onDict
  cases s.dicts dictId with
  | none => exact .inr ⟨_, rfl⟩
  | some dict => exact .inl ⟨dict, rfl, rfl⟩

/-- With `if_not_exists`, the entries that were there stay, and the first entry for a
new key is inserted. -/
theorem updateEntries_apply (dict : Dict) (entries : List (Bytes × Bytes)) (k : Bytes) :
    (updateEntries true dict entries).1 k = (dict k).or (entries.lookup k) := by
  induction entries generalizing dict with
  | nil => simp [updateEntries]
  | cons entry entries ih =>
    obtain ⟨key, value⟩ := entry
    by_cases hk : k = key
    · subst hk
      cases hdict : dict k with
      | some v => simp [updateEntries, ih, hdict]
      | none => simp [updateEntries, ih, hdict]
    · have hlookup : ((key, value) :: entries).lookup k = entries.lookup k := by
        simp [List.lookup, beq_false_of_ne hk]
      rw [hlookup, updateEntries]
      split
      · exact ih dict
      · rw [ih, Function.update_of_ne hk]

/-- With `if_not_exists`, the `created` flag says that every entry was inserted: the
keys are distinct and none was there. -/
theorem updateEntries_created (dict : Dict) (entries : List (Bytes × Bytes)) :
    (updateEntries true dict entries).2 = true ↔
      (entries.map Prod.fst).Nodup ∧ ∀ key ∈ entries.map Prod.fst, dict key = none := by
  induction entries generalizing dict with
  | nil => simp [updateEntries]
  | cons entry entries ih =>
    obtain ⟨key, value⟩ := entry
    rw [updateEntries, List.map_cons, List.nodup_cons, List.forall_mem_cons]
    cases hdict : dict key with
    | some v => simp
    | none =>
      simp only [Option.isSome_none, Bool.false_eq_true, if_false, ih, true_and]
      have hupdate (k : Bytes) (hk : k ∈ entries.map Prod.fst)
          (hfresh : key ∉ entries.map Prod.fst) :
          Function.update dict key (some value) k = dict k := by
        refine Function.update_of_ne ?_ _ _
        rintro rfl
        exact hfresh hk
      constructor
      · rintro ⟨hnodup, hnone⟩
        have hfresh : key ∉ entries.map Prod.fst := by
          intro hmem
          have hself := hnone key hmem
          rw [Function.update_self] at hself
          cases hself
        exact ⟨⟨hfresh, hnodup⟩, fun k hk => hupdate k hk hfresh ▸ hnone k hk⟩
      · rintro ⟨⟨hfresh, hnodup⟩, hnone⟩
        exact ⟨hnodup, fun k hk => (hupdate k hk hfresh).trans (hnone k hk)⟩

end Server

end ModalRust.Sdk
