import Mathlib.Data.List.AList
import ModalRust.NamedObjects
import ModalRust.Sdk.Server

/-!
# The mock backend's dicts and queues

The in-process server that offline tests run against: the object store, which matches dict keys by
the equality of bytes and pops queues in order, and the RPC arms over it. Ids are drawn from one
counter that all kinds of objects share.
-/

namespace ModalRust.Testkit

open NamedObjects

/-- The entries of one dict, keyed by the serialized key. -/
abbrev Entries := AList fun _ : Bytes => Bytes

/-- `ObjectStore`. -/
structure ObjectStore where
  /-- `dict_ids` and `dicts`. -/
  dicts : Shelf Text Text Entries
  /-- `queue_ids` and `queues`. -/
  queues : Shelf Text Text (List Bytes)

namespace ObjectStore

/-- `ObjectStore::default`. -/
def default : ObjectStore := ⟨.empty, .empty⟩

/-- `resolve_dict`. -/
def resolveDict (s : ObjectStore) (name : Text) (create : Bool) (candidateId : Text) :
    ObjectStore × Option Text :=
  let r := s.dicts.resolve name create candidateId ∅
  ({ s with dicts := r.1 }, r.2)

/-- `resolve_queue`. -/
def resolveQueue (s : ObjectStore) (name : Text) (create : Bool) (candidateId : Text) :
    ObjectStore × Option Text :=
  let r := s.queues.resolve name create candidateId []
  ({ s with queues := r.1 }, r.2)

/-- `delete_dict`. -/
def deleteDict (s : ObjectStore) (dictId : Text) : ObjectStore × Bool :=
  let r := s.dicts.delete dictId
  ({ s with dicts := r.1 }, r.2)

/-- `delete_queue`. -/
def deleteQueue (s : ObjectStore) (queueId : Text) : ObjectStore × Bool :=
  let r := s.queues.delete queueId
  ({ s with queues := r.1 }, r.2)

/-- Work on one dict; `none` for an unknown id. -/
def onDict {β : Type} (dictId : Text) (f : Entries → Entries × β) (s : ObjectStore) :
    ObjectStore × Option β :=
  let r := s.dicts.apply dictId f
  ({ s with dicts := r.1 }, r.2)

/-- Work on one queue; `none` for an unknown id. -/
def onQueue {β : Type} (queueId : Text) (f : List Bytes → List Bytes × β) (s : ObjectStore) :
    ObjectStore × Option β :=
  let r := s.queues.apply queueId f
  ({ s with queues := r.1 }, r.2)

end ObjectStore

/-- `dict_get`, on the entries. -/
def Entries.get (key : Bytes) (dict : Entries) : Entries × Option Bytes := (dict, dict.lookup key)

/-- The loop of `dict_update`, on the entries: the flag says whether every entry was new. -/
def Entries.update (ifNotExists : Bool) : List (Bytes × Bytes) → Entries → Entries × Bool
  | [], dict => (dict, true)
  | (key, value) :: entries, dict =>
    if key ∈ dict then
      ((Entries.update ifNotExists entries (if ifNotExists then dict else dict.insert key value)).1,
        false)
    else Entries.update ifNotExists entries (dict.insert key value)

/-- `dict_pop`, on the entries. -/
def Entries.pop (key : Bytes) (dict : Entries) : Entries × Option Bytes :=
  (dict.erase key, dict.lookup key)

/-- `dict_contains`, on the entries. -/
def Entries.contains (key : Bytes) (dict : Entries) : Entries × Bool :=
  (dict, (dict.lookup key).isSome)

/-- `dict_len`, on the entries. -/
def Entries.len (dict : Entries) : Entries × ℕ := (dict, dict.keys.length)

/-- `dict_clear`, on the entries. -/
def Entries.clear (_ : Entries) : Entries × Unit := (∅, ())

/-- `queue_put`, on the items. -/
def Items.put (values items : List Bytes) : List Bytes × Unit := (items ++ values, ())

/-- `queue_pop`, on the items. -/
def Items.pop (n : ℕ) (items : List Bytes) : List Bytes × List Bytes :=
  let take := min n items.length
  (items.drop take, items.take take)

/-- `queue_len`, on the items. -/
def Items.len (items : List Bytes) : List Bytes × ℕ := (items, items.length)

/-- `queue_clear`, on the items. -/
def Items.clear (_ : List Bytes) : List Bytes × Unit := ([], ())

/-- `MockServicer`: the counter and the store. -/
structure MockServicer where
  /-- The last id ordinal that was drawn. -/
  counter : ℕ
  /-- The dicts and queues. -/
  store : ObjectStore

/-- `MockServicer::new`. -/
def MockServicer.new : MockServicer := ⟨0, .default⟩

/-- `next_id`. -/
def MockServicer.nextId (m : MockServicer) : MockServicer × ℕ :=
  ({ m with counter := m.counter + 1 }, m.counter + 1)

/-- What an RPC arm does to the server, and its response. -/
abbrev Arm (α : Type) := MockServicer → MockServicer × Except Sdk.Error α

/-- `ObjectCreationType`, of which the facade sends two. -/
inductive ObjectCreationType
  | unspecified | createIfMissing
  deriving DecidableEq

/-- An id that is made of a stem and an ordinal. -/
def ordinalId (stem : Text) (n : ℕ) : Text := stem ++ Nat.toDigits 10 n

/-- The body of the get-or-create arms: a candidate id is drawn in any case. -/
def getOrCreate (kind stem : Text)
    (resolve : ObjectStore → Text → Bool → Text → ObjectStore × Option Text)
    (deploymentName : Text) (objectCreationType : ObjectCreationType) : Arm Text := fun m =>
  let create := decide (objectCreationType ≠ .unspecified)
  let next := m.nextId
  let r := resolve next.1.store deploymentName create (ordinalId stem next.2)
  ({ next.1 with store := r.1 },
    match r.2 with
    | some id => .ok id
    | none =>
      .error (.status .notFound (kind ++ " '".toList ++ deploymentName ++ "' not found".toList)))

/-- The body of the arms that work on one object. -/
def onObject {α : Type} (kind id : Text) (work : ObjectStore → ObjectStore × Option α) : Arm α :=
  fun m =>
  let r := work m.store
  ({ m with store := r.1 },
    match r.2 with
    | some a => .ok a
    | none => .error (Sdk.Server.unknownId kind id))

/-- The body of the delete arms. -/
def deleteObject (kind id : Text) (delete : ObjectStore → ObjectStore × Bool) : Arm Unit :=
  onObject kind id fun s => ((delete s).1, if (delete s).2 then some () else none)

/-- `i32::try_from(len).unwrap_or(i32::MAX)`. -/
def wireLen (len : ℕ) : ℤ := if len < 2 ^ 31 then len else 2 ^ 31 - 1

/-- The arm `dict_get_or_create`. -/
def dictGetOrCreate : Text → ObjectCreationType → Arm Text :=
  getOrCreate "Dict".toList "di-".toList ObjectStore.resolveDict

/-- The arm `dict_get`: `found` and `value`. -/
def dictGet (dictId : Text) (key : Bytes) : Arm (Bool × Option Bytes) :=
  onObject "Dict".toList dictId (ObjectStore.onDict dictId fun dict =>
    ((Entries.get key dict).1, (Entries.get key dict).2.isSome, (Entries.get key dict).2))

/-- The arm `dict_update`. -/
def dictUpdate (dictId : Text) (updates : List (Bytes × Bytes)) (ifNotExists : Bool) : Arm Bool :=
  onObject "Dict".toList dictId (ObjectStore.onDict dictId (Entries.update ifNotExists updates))

/-- The arm `dict_pop`: `found` and `value`. -/
def dictPop (dictId : Text) (key : Bytes) : Arm (Bool × Option Bytes) :=
  onObject "Dict".toList dictId (ObjectStore.onDict dictId fun dict =>
    ((Entries.pop key dict).1, (Entries.pop key dict).2.isSome, (Entries.pop key dict).2))

/-- The arm `dict_contains`. -/
def dictContains (dictId : Text) (key : Bytes) : Arm Bool :=
  onObject "Dict".toList dictId (ObjectStore.onDict dictId (Entries.contains key))

/-- The arm `dict_len`. -/
def dictLen (dictId : Text) : Arm ℤ :=
  onObject "Dict".toList dictId (ObjectStore.onDict dictId fun dict =>
    ((Entries.len dict).1, wireLen (Entries.len dict).2))

/-- The arm `dict_clear`. -/
def dictClear (dictId : Text) : Arm Unit :=
  onObject "Dict".toList dictId (ObjectStore.onDict dictId Entries.clear)

/-- The arm `dict_delete`. -/
def dictDelete (dictId : Text) : Arm Unit :=
  deleteObject "Dict".toList dictId (·.deleteDict dictId)

/-- The arm `queue_get_or_create`. -/
def queueGetOrCreate : Text → ObjectCreationType → Arm Text :=
  getOrCreate "Queue".toList "qu-".toList ObjectStore.resolveQueue

/-- The arm `queue_put`. -/
def queuePut (queueId : Text) (values : List Bytes) : Arm Unit :=
  onObject "Queue".toList queueId (ObjectStore.onQueue queueId (Items.put values))

/-- The last look of the arm `queue_get` at the store: the looks before it found nothing. -/
def queueGet (queueId : Text) (nValues : ℤ) : Arm (List Bytes) :=
  onObject "Queue".toList queueId (ObjectStore.onQueue queueId (Items.pop (max nValues 1).toNat))

/-- The arm `queue_len`. -/
def queueLen (queueId : Text) : Arm ℤ :=
  onObject "Queue".toList queueId (ObjectStore.onQueue queueId fun items =>
    ((Items.len items).1, wireLen (Items.len items).2))

/-- The arm `queue_clear`. -/
def queueClear (queueId : Text) : Arm Unit :=
  onObject "Queue".toList queueId (ObjectStore.onQueue queueId Items.clear)

/-- The arm `queue_delete`. -/
def queueDelete (queueId : Text) : Arm Unit :=
  deleteObject "Queue".toList queueId (·.deleteQueue queueId)

/-- Different ordinals make different ids. -/
theorem ordinalId_inj {stem : Text} {m n : ℕ} (heq : ordinalId stem m = ordinalId stem n) :
    m = n := by
  have hdigits := congrArg (Nat.ofDigitChars 10 · 0) (List.append_cancel_left heq)
  simpa only [Nat.ofDigitChars_ten_toDigits] using hdigits

/-- An id is not empty. -/
theorem ordinalId_ne_nil (stem : Text) (n : ℕ) : ordinalId stem n ≠ [] := by
  intro hnil
  exact Nat.toDigits_ne_nil (List.append_eq_nil_iff.mp hnil).2

end ModalRust.Testkit
