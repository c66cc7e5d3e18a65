import Mathlib.Data.Finset.Card
import Mathlib.Data.List.AList

/-!
# Reorder buffers

Values arrive in any order, each with a key, and are gathered in a finite map; a later value
replaces an earlier one with the same key. Afterwards they are taken out again in the order
of a sequence of keys. Nothing in this file refers to a particular program.
-/

namespace ModalRust.ReorderBuffer

variable {κ α : Type} [DecidableEq κ]

/-- A buffer of values by their keys. -/
abbrev Buffer (κ α : Type) := AList fun _ : κ => α

/-- Gather values with their keys, in the order in which they arrive. -/
def gather (buffer : Buffer κ α) (arrived : List (κ × α)) : Buffer κ α :=
  arrived.foldl (fun buffer entry => buffer.insert entry.1 entry.2) buffer

/-- Take the values of `count` keys out, from the key number `i` on, or name the number of the first
key that is missing. -/
def takeInOrder (key : ℕ → κ) : ℕ → ℕ → Buffer κ α → Except ℕ (List α)
  | 0, _, _ => .ok []
  | count + 1, i, buffer =>
    match buffer.lookup (key i) with
    | none => .error i
    | some value => (takeInOrder key count (i + 1) (buffer.erase (key i))).map (value :: ·)

/-- Gathering in two parts. -/
theorem gather_append (buffer : Buffer κ α) (arrived later : List (κ × α)) :
    gather buffer (arrived ++ later) = gather (gather buffer arrived) later :=
  List.foldl_append

/-- A key is in the buffer exactly if it was there or arrived. -/
theorem mem_gather {buffer : Buffer κ α} {arrived : List (κ × α)} {k : κ} :
    k ∈ gather buffer arrived ↔ k ∈ arrived.map Prod.fst ∨ k ∈ buffer := by
  induction arrived generalizing buffer with
  | nil => simp [gather]
  | cons entry arrived ih =>
    have hcons : gather buffer (entry :: arrived) =
        gather (buffer.insert entry.1 entry.2) arrived := rfl
    rw [hcons, ih, AList.mem_insert, List.map_cons, List.mem_cons]
    tauto

/-- A gathered value was there before, or it arrived with its key. -/
theorem mem_of_lookup_gather {buffer : Buffer κ α} {arrived : List (κ × α)} {k : κ} {value : α}
    (hvalue : (gather buffer arrived).lookup k = some value) :
    (k, value) ∈ arrived ∨ buffer.lookup k = some value := by
  induction arrived generalizing buffer with
  | nil => exact .inr hvalue
  | cons entry arrived ih =>
    rcases ih hvalue with hmem | hbefore
    · exact .inl (List.mem_cons_of_mem _ hmem)
    · by_cases hkey : k = entry.1
      · rw [hkey, AList.lookup_insert] at hbefore
        have hentry : entry = (k, value) := Prod.ext hkey.symm (Option.some.inj hbefore)
        exact .inl (hentry ▸ List.mem_cons_self)
      · rw [AList.lookup_insert_ne hkey] at hbefore
        exact .inr hbefore

/-- The buffer counts the distinct keys that arrived. -/
theorem length_keys_gather (arrived : List (κ × α)) :
    (gather ∅ arrived).keys.length = (arrived.map Prod.fst).toFinset.card := by
  have hkeys : (gather ∅ arrived : Buffer κ α).keys.toFinset = (arrived.map Prod.fst).toFinset := by
    ext k
    rw [List.mem_toFinset, List.mem_toFinset, ← AList.mem_keys, mem_gather]
    simp
  rw [← hkeys, List.toFinset_card_of_nodup (AList.keys_nodup _)]

/-- The values that are taken out are as many as asked for, each the value of its key. -/
theorem lookup_of_takeInOrder {key : ℕ → κ} {count i : ℕ} {buffer : Buffer κ α} {values : List α}
    (htake : takeInOrder key count i buffer = .ok values) :
    values.length = count ∧
      ∀ j value, values[j]? = some value → buffer.lookup (key (i + j)) = some value := by
  induction count generalizing i buffer values with
  | zero =>
    cases htake
    exact ⟨rfl, by simp⟩
  | succ count ih =>
    unfold takeInOrder at htake
    cases hlookup : buffer.lookup (key i) with
    | none =>
      rw [hlookup] at htake
      cases htake
    | some first =>
      rw [hlookup] at htake
      cases hrest : takeInOrder key count (i + 1) (buffer.erase (key i)) with
      | error missing =>
        simp only [hrest] at htake
        cases htake
      | ok rest =>
        simp only [hrest] at htake
        cases htake
        obtain ⟨hlength, hvalues⟩ := ih hrest
        refine ⟨by rw [List.length_cons, hlength], fun j value hj => ?_⟩
        cases j with
        | zero =>
          have hfirst : first = value := by simpa using hj
          rw [Nat.add_zero, hlookup, hfirst]
        | succ j =>
          have herased := hvalues j value (by simpa using hj)
          have hne : key (i + 1 + j) ≠ key i := by
            intro hkey
            rw [hkey, AList.lookup_erase] at herased
            cases herased
          rwa [AList.lookup_erase_ne hne, Nat.add_assoc, Nat.add_comm 1 j] at herased

/-- If the keys are distinct, the values of keys that are all there can be taken out. -/
theorem exists_takeInOrder (key : ℕ → κ) (count i : ℕ) (buffer : Buffer κ α)
    (hkeys : ∀ j < count, key (i + j) ∈ buffer)
    (hdistinct : ∀ j < count, ∀ j' < count, key (i + j) = key (i + j') → j = j') :
    ∃ values, takeInOrder key count i buffer = .ok values := by
  induction count generalizing i buffer with
  | zero => exact ⟨[], rfl⟩
  | succ count ih =>
    have hfirst : key i ∈ buffer := hkeys 0 (by omega)
    obtain ⟨first, hlookup⟩ := Option.isSome_iff_exists.mp (AList.lookup_isSome.mpr hfirst)
    have hshift (j : ℕ) : i + 1 + j = i + (j + 1) := by omega
    have hrest : ∃ values, takeInOrder key count (i + 1) (buffer.erase (key i)) = .ok values := by
      refine ih (i + 1) (buffer.erase (key i)) (fun j hj => ?_) fun j hj j' hj' hkey => ?_
      · rw [hshift, AList.mem_erase]
        refine ⟨fun hkey => ?_, hkeys (j + 1) (by omega)⟩
        have hzero := hdistinct (j + 1) (by omega) 0 (by omega) hkey
        omega
      · rw [hshift, hshift] at hkey
        have hsucc := hdistinct (j + 1) (by omega) (j' + 1) (by omega) hkey
        omega
    obtain ⟨rest, hrest⟩ := hrest
    refine ⟨first :: rest, ?_⟩
    rw [takeInOrder, hlookup]
    simp only [hrest]
    rfl

end ModalRust.ReorderBuffer
