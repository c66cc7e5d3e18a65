import ModalRust.Sdk.Retry
import ModalRust.Testkit.Servicer

/-!
# The client's dict and queue calls

Each call sends one request, through the retry loop. Against the mock backend an arm that fails
leaves the dicts and queues as they are, so that a call does what its last attempt does.
-/

namespace ModalRust.Sdk.Objects

open Testkit

variable {α β : Type}

/-- `retry_rpc`: the identical request in every attempt, under the default policy. -/
def retryRpc (elapsed : ℕ → ℕ) (arm : Arm α) : Arm α := fun m =>
  let o := retryTransient .default (fun _ => arm) elapsed m
  (o.state, o.result)

/-- Go on with the response. -/
def andThen (arm : Arm α) (f : α → Except Error β) : Arm β := fun m =>
  ((arm m).1, (arm m).2.bind f)

/-- An id that a get-or-create call returned is not empty. -/
def nonEmptyId (rpc name field id : Text) : Except Error Text :=
  if id.isEmpty then
    .error (.build (rpc ++ " for '".toList ++ name ++ "' returned an empty ".toList ++ field))
  else .ok id

/-- A response of `found` and `value`. -/
def foundValue (response : Bool × Option Bytes) : Except Error (Option Bytes) :=
  if response.1 then .ok (some (response.2.getD [])) else .ok none

/-- `dict_get_or_create`. -/
def dictGetOrCreate (elapsed : ℕ → ℕ) (name : Text) (creationType : ObjectCreationType) :
    Arm Text :=
  andThen (retryRpc elapsed (Testkit.dictGetOrCreate name creationType))
    (nonEmptyId "DictGetOrCreate".toList name "dict_id".toList)

/-- `dict_get`. -/
def dictGet (elapsed : ℕ → ℕ) (dictId : Text) (key : Bytes) : Arm (Option Bytes) :=
  andThen (retryRpc elapsed (Testkit.dictGet dictId key)) foundValue

/-- `dict_update`. -/
def dictUpdate (elapsed : ℕ → ℕ) (dictId : Text) (entries : List (Bytes × Bytes))
    (ifNotExists : Bool) : Arm Bool :=
  retryRpc elapsed (Testkit.dictUpdate dictId entries ifNotExists)

/-- `dict_pop`. -/
def dictPop (elapsed : ℕ → ℕ) (dictId : Text) (key : Bytes) : Arm (Option Bytes) :=
  andThen (retryRpc elapsed (Testkit.dictPop dictId key)) foundValue

/-- `dict_contains`. -/
def dictContains (elapsed : ℕ → ℕ) (dictId : Text) (key : Bytes) : Arm Bool :=
  retryRpc elapsed (Testkit.dictContains dictId key)

/-- `dict_len`: `u64::try_from(resp.len).unwrap_or(0)`. -/
def dictLen (elapsed : ℕ → ℕ) (dictId : Text) : Arm ℕ :=
  andThen (retryRpc elapsed (Testkit.dictLen dictId)) fun len => .ok len.toNat

/-- `dict_clear`. -/
def dictClear (elapsed : ℕ → ℕ) (dictId : Text) : Arm Unit :=
  retryRpc elapsed (Testkit.dictClear dictId)

/-- `dict_delete`. -/
def dictDelete (elapsed : ℕ → ℕ) (dictId : Text) : Arm Unit :=
  retryRpc elapsed (Testkit.dictDelete dictId)

/-- `queue_get_or_create`. -/
def queueGetOrCreate (elapsed : ℕ → ℕ) (name : Text) (creationType : ObjectCreationType) :
    Arm Text :=
  andThen (retryRpc elapsed (Testkit.queueGetOrCreate name creationType))
    (nonEmptyId "QueueGetOrCreate".toList name "queue_id".toList)

/-- `queue_put`. -/
def queuePut (elapsed : ℕ → ℕ) (queueId : Text) (values : List Bytes) : Arm Unit :=
  retryRpc elapsed (Testkit.queuePut queueId values)

/-- `queue_get`: the wire clamps the number of items to at least one and at most `i32::MAX`. -/
def queueGet (elapsed : ℕ → ℕ) (queueId : Text) (nValues : ℕ) : Arm (List Bytes) :=
  retryRpc elapsed (Testkit.queueGet queueId (min (max nValues 1) (2 ^ 31 - 1) : ℕ))

/-- `queue_len`. -/
def queueLen (elapsed : ℕ → ℕ) (queueId : Text) : Arm ℕ :=
  andThen (retryRpc elapsed (Testkit.queueLen queueId)) fun len => .ok len.toNat

/-- `queue_clear`. -/
def queueClear (elapsed : ℕ → ℕ) (queueId : Text) : Arm Unit :=
  retryRpc elapsed (Testkit.queueClear queueId)

/-- `queue_delete`. -/
def queueDelete (elapsed : ℕ → ℕ) (queueId : Text) : Arm Unit :=
  retryRpc elapsed (Testkit.queueDelete queueId)

/-- A retried arm that keeps `P` when it fails has been applied once to a server in `P`. -/
theorem exists_retryRpc (elapsed : ℕ → ℕ) (arm : Arm α) {P : MockServicer → Prop}
    {m : MockServicer} (hm : P m)
    (hfailed : ∀ t e, P t → (arm t).2 = .error e → P (arm t).1) :
    ∃ t, P t ∧ retryRpc elapsed arm m = arm t := by
  obtain ⟨k, t, -, ht, heq⟩ := retryTransient_rule .default (fun _ => arm) elapsed
    (P := fun _ => P) hm fun _ t e => hfailed t e
  refine ⟨t, ht, ?_⟩
  unfold retryRpc
  rw [heq]

/-- An arm that changes nothing when it fails is applied once. -/
theorem retryRpc_eq (elapsed : ℕ → ℕ) {arm : Arm α}
    (hfailed : ∀ t e, (arm t).2 = .error e → (arm t).1 = t) (m : MockServicer) :
    retryRpc elapsed arm m = arm m := by
  obtain ⟨t, ht, heq⟩ := exists_retryRpc elapsed arm (P := (· = m)) rfl
    fun t e ht herror => (hfailed t e herror).trans ht
  rw [heq, ht]

/-- The length as the client sees it. -/
theorem toNat_wireLen (len : ℕ) : (wireLen len).toNat = min len (2 ^ 31 - 1) := by
  unfold wireLen
  split <;> omega

end ModalRust.Sdk.Objects
