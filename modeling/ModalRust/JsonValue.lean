import Mathlib.Data.List.Forall2
import Mathlib.Data.List.Nodup
import ModalRust.JsonRoundTrip

/-!
# Faithful values

When a tree survives being read into a value of serde_json. The value keeps the entries
of every object sorted by key, so a tree has to be free of duplicate keys, and it has
three representations of a number, so an integer has to fit one of them. A float is
represented by whatever the reader makes of its literal. Nothing in this file refers to a
particular program.
-/

namespace ModalRust

section Lists

variable {α β : Type} {R : α → β → Prop} {as : List α} {bs : List β}

/-- Every member of the second of two related lists has a partner. -/
theorem exists_left_of_forall₂ (hrelated : List.Forall₂ R as bs) :
    ∀ b ∈ bs, ∃ a ∈ as, R a b := by
  induction hrelated with
  | nil => exact fun _ hb => (List.not_mem_nil hb).elim
  | cons hab _ ih =>
    rw [List.forall_mem_cons]
    refine ⟨⟨_, List.mem_cons_self, hab⟩, fun b hb => ?_⟩
    obtain ⟨a, ha, hrelated⟩ := ih b hb
    exact ⟨a, List.mem_cons_of_mem _ ha, hrelated⟩

/-- Every member of the first of two related lists has a partner. -/
theorem exists_right_of_forall₂ (hrelated : List.Forall₂ R as bs) :
    ∀ a ∈ as, ∃ b ∈ bs, R a b :=
  exists_left_of_forall₂ hrelated.flip

/-- A list whose members have partners is related to a list of these. -/
theorem exists_forall₂ (has : ∀ a ∈ as, ∃ b, R a b) : ∃ bs, List.Forall₂ R as bs := by
  induction as with
  | nil => exact ⟨[], .nil⟩
  | cons a as ih =>
    rw [List.forall_mem_cons] at has
    obtain ⟨b, hb⟩ := has.1
    obtain ⟨bs, hbs⟩ := ih has.2
    exact ⟨b :: bs, .cons hb hbs⟩

end Lists

section Store

variable {α : Type} {entries : List (Text × α)}

/-- Only given entries are stored. -/
theorem mem_of_mem_storeEntries {entry : Text × α} (hentry : entry ∈ storeEntries entries) :
    entry ∈ entries := by
  obtain ⟨key, value⟩ := entry
  rw [storeEntries, Std.TreeMap.mem_toList_iff_getElem?_eq_some,
    Std.TreeMap.ofList_eq_insertMany_empty, Std.TreeMap.getElem?_insertMany_list,
    Std.TreeMap.getElem?_emptyc, Option.or_none, List.findSomeRev?_eq_findSome?_reverse] at hentry
  obtain ⟨⟨key', value'⟩, hmem, hfound⟩ := List.exists_of_findSome?_eq_some hentry
  simp only at hfound
  split_ifs at hfound with hkey
  obtain rfl := Std.LawfulEqCmp.compare_eq_iff_eq.mp hkey
  obtain rfl := Option.some.inj hfound
  exact List.mem_reverse.mp hmem

/-- The keys of stored entries are distinct. -/
theorem nodup_storeEntries (entries : List (Text × α)) :
    ((storeEntries entries).map Prod.fst).Nodup := by
  refine List.Pairwise.map _ ?_ (Std.TreeMap.distinct_keys_toList (t := Std.TreeMap.ofList entries))
  intro entry entry' hne hkey
  exact hne (Std.LawfulEqCmp.compare_eq_iff_eq.mpr hkey)

/-- Entries with distinct keys are all stored. -/
theorem mem_storeEntries (hentries : (entries.map Prod.fst).Nodup) {entry : Text × α} :
    entry ∈ storeEntries entries ↔ entry ∈ entries := by
  refine ⟨mem_of_mem_storeEntries, fun hentry => ?_⟩
  have hdistinct : entries.Pairwise fun a b => ¬ compare a.1 b.1 = .eq :=
    (List.pairwise_map.mp hentries).imp fun hne hkey =>
      hne (Std.LawfulEqCmp.compare_eq_iff_eq.mp hkey)
  rw [storeEntries, Std.TreeMap.mem_toList_iff_getElem?_eq_some]
  exact Std.TreeMap.getElem?_ofList_of_mem Std.ReflCmp.compare_self hdistinct hentry

/-- An entry with a key of its own is found by it. -/
theorem lookup_eq_some_of_mem (hentries : (entries.map Prod.fst).Nodup) {key : Text} {value : α}
    (hentry : (key, value) ∈ entries) : entries.lookup key = some value := by
  have hsome : (entries.lookup key).isSome = true :=
    List.lookup_isSome_iff.mpr ⟨_, hentry, beq_self_eq_true key⟩
  obtain ⟨other, hother⟩ := Option.isSome_iff_exists.mp hsome
  obtain ⟨before, after, hsplit, -⟩ := List.lookup_eq_some_iff.mp hother
  have hmem : (key, other) ∈ entries := by
    rw [hsplit]
    simp
  rw [hother, (Prod.mk.inj (List.inj_on_of_nodup_map hentries hmem hentry rfl)).2]

/-- What is stored under distinct keys is found by them. -/
theorem lookup_storeEntries (hentries : (entries.map Prod.fst).Nodup) {key : Text} {value : α}
    (hentry : (key, value) ∈ entries) : (storeEntries entries).lookup key = some value :=
  lookup_eq_some_of_mem (nodup_storeEntries entries) ((mem_storeEntries hentries).mpr hentry)

/-- Storing entries again changes nothing. -/
theorem storeEntries_storeEntries (entries : List (Text × α)) :
    storeEntries (storeEntries entries) = storeEntries entries := by
  refine Std.TreeMap.Equiv.toList_eq (Std.TreeMap.Equiv.of_forall_constGet?_eq fun key => ?_)
  refine Option.ext fun value => ?_
  have hstored : (key, value) ∈ storeEntries (storeEntries entries) ↔
      (key, value) ∈ storeEntries entries := mem_storeEntries (nodup_storeEntries entries)
  rw [storeEntries, Std.TreeMap.mem_toList_iff_getElem?_eq_some, storeEntries,
    Std.TreeMap.mem_toList_iff_getElem?_eq_some] at hstored
  exact hstored

/-- Storing keeps entries with given distinct keys apart. -/
theorem storeEntries_injective {entries' : List (Text × α)}
    (hkeys : entries.map Prod.fst = entries'.map Prod.fst) (hentries : (entries.map Prod.fst).Nodup)
    (hstored : storeEntries entries = storeEntries entries') : entries = entries' := by
  have hlength : entries.length = entries'.length := by
    simpa using congrArg List.length hkeys
  refine List.ext_getElem hlength fun i hi hi' => ?_
  have hmem : entries[i] ∈ entries' := by
    rw [← mem_storeEntries (hkeys ▸ hentries), ← hstored, mem_storeEntries hentries]
    exact List.getElem_mem hi
  have hkey : entries[i].1 = entries'[i].1 := by
    have hat := congrArg (fun keys => keys[i]?) hkeys
    simpa [hi, hi'] using hat
  exact List.inj_on_of_nodup_map (hkeys ▸ hentries) hmem (List.getElem_mem hi') hkey

end Store

namespace JsonTree

variable {N M : Type}

/-- Induction over a tree, with all children of an array or object at once. -/
@[elab_as_elim] theorem induction {P : JsonTree N → Prop} (d : JsonTree N) (null : P .null)
    (bool : ∀ b, P (.bool b)) (number : ∀ n, P (.number n)) (string : ∀ s, P (.string s))
    (array : ∀ items, (∀ item ∈ items, P item) → P (.array items))
    (object : ∀ entries, (∀ entry ∈ entries, P entry.2) → P (.object entries)) : P d :=
  @JsonTree.rec N P (fun items => ∀ item ∈ items, P item)
    (fun entries => ∀ entry ∈ entries, P entry.2) (fun entry => P entry.2)
    null bool number string array object
    (fun _ hitem => (List.not_mem_nil hitem).elim)
    (fun _ _ hitem hitems => List.forall_mem_cons.mpr ⟨hitem, hitems⟩)
    (fun _ hentry => (List.not_mem_nil hentry).elim)
    (fun _ _ hentry hentries => List.forall_mem_cons.mpr ⟨hentry, hentries⟩)
    (fun _ _ hvalue => hvalue) d

mutual

/-- The numbers in a tree. -/
def numbers : JsonTree N → List N
  | .number n => [n]
  | .array items => numbersItems items
  | .object entries => numbersEntries entries
  | _ => []

/-- The numbers in the items of an array. -/
def numbersItems : List (JsonTree N) → List N
  | [] => []
  | item :: items => item.numbers ++ numbersItems items

/-- The numbers in the values of an object. -/
def numbersEntries : List (Text × JsonTree N) → List N
  | [] => []
  | (_, value) :: entries => value.numbers ++ numbersEntries entries

end

section EveryObject

variable (p : List (Text × JsonTree N) → Prop)

mutual

/-- The entries of every object in a tree satisfy a predicate. -/
def EveryObject : JsonTree N → Prop
  | .array items => EveryItem items
  | .object entries => p entries ∧ EveryEntry entries
  | _ => True

/-- So do those in the items of an array. -/
def EveryItem : List (JsonTree N) → Prop
  | [] => True
  | item :: items => item.EveryObject ∧ EveryItem items

/-- So do those in the values of an object. -/
def EveryEntry : List (Text × JsonTree N) → Prop
  | [] => True
  | (_, value) :: entries => value.EveryObject ∧ EveryEntry entries

end

end EveryObject

/-- No object has two entries with one key. -/
def DuplicateFree (d : JsonTree N) : Prop :=
  d.EveryObject fun entries => (entries.map Prod.fst).Nodup

/-- Every object is stored as a `BTreeMap` stores it. -/
def Stored (d : JsonTree N) : Prop := d.EveryObject fun entries => storeEntries entries = entries

section Lists

variable {p : List (Text × JsonTree N) → Prop} {items : List (JsonTree N)}
  {entries : List (Text × JsonTree N)}

/-- A predicate on the objects in an array. -/
theorem everyItem_iff : EveryItem p items ↔ ∀ item ∈ items, item.EveryObject p := by
  induction items with
  | nil => exact ⟨fun _ _ hitem => (List.not_mem_nil hitem).elim, fun _ => trivial⟩
  | cons item items ih => rw [EveryItem, ih, List.forall_mem_cons]

/-- A predicate on the objects in an object. -/
theorem everyEntry_iff : EveryEntry p entries ↔ ∀ entry ∈ entries, entry.2.EveryObject p := by
  induction entries with
  | nil => exact ⟨fun _ _ hentry => (List.not_mem_nil hentry).elim, fun _ => trivial⟩
  | cons entry entries ih => rw [EveryEntry, ih, List.forall_mem_cons]

/-- The numbers in an array. -/
theorem mem_numbersItems {n : N} : n ∈ numbersItems items ↔ ∃ item ∈ items, n ∈ item.numbers := by
  induction items with
  | nil => simp [numbersItems]
  | cons item items ih => rw [numbersItems, List.mem_append, ih, List.exists_mem_cons_iff]

/-- The numbers in an object. -/
theorem mem_numbersEntries {n : N} :
    n ∈ numbersEntries entries ↔ ∃ entry ∈ entries, n ∈ entry.2.numbers := by
  induction entries with
  | nil => simp [numbersEntries]
  | cons entry entries ih => rw [numbersEntries, List.mem_append, ih, List.exists_mem_cons_iff]

/-- A bound on the depth of an array. -/
theorem depthItems_le {n : ℕ} : depthItems items ≤ n ↔ ∀ item ∈ items, item.depth ≤ n := by
  induction items with
  | nil => exact ⟨fun _ _ hitem => (List.not_mem_nil hitem).elim, fun _ => Nat.zero_le n⟩
  | cons item items ih => rw [depthItems, Nat.max_le, ih, List.forall_mem_cons]

/-- A bound on the depth of an object. -/
theorem depthEntries_le {n : ℕ} :
    depthEntries entries ≤ n ↔ ∀ entry ∈ entries, entry.2.depth ≤ n := by
  induction entries with
  | nil => exact ⟨fun _ _ hentry => (List.not_mem_nil hentry).elim, fun _ => Nat.zero_le n⟩
  | cons entry entries ih => rw [depthEntries, Nat.max_le, ih, List.forall_mem_cons]

/-- The items of an array are represented one by one. -/
theorem toValueItems_eq_some {read : N → Option M} {values : List (JsonTree M)} :
    toValueItems read items = some values ↔
      List.Forall₂ (fun item value => item.toValue read = some value) items values := by
  induction items generalizing values with
  | nil =>
    rw [toValueItems, List.forall₂_nil_left_iff, Option.some_inj]
    exact eq_comm
  | cons item items ih =>
    rw [toValueItems, List.forall₂_cons_left_iff, Option.bind_eq_some_iff]
    constructor
    · rintro ⟨value, hvalue, hrest⟩
      obtain ⟨rest, hitems, rfl⟩ := Option.map_eq_some_iff.mp hrest
      exact ⟨value, rest, hvalue, ih.mp hitems, rfl⟩
    · rintro ⟨value, rest, hvalue, hrest, rfl⟩
      exact ⟨value, hvalue, Option.map_eq_some_iff.mpr ⟨rest, ih.mpr hrest, rfl⟩⟩

/-- The entries of an object are represented one by one. -/
theorem toValueEntries_eq_some {read : N → Option M} {values : List (Text × JsonTree M)} :
    toValueEntries read entries = some values ↔
      List.Forall₂ (fun entry value => entry.1 = value.1 ∧ entry.2.toValue read = some value.2)
        entries values := by
  induction entries generalizing values with
  | nil =>
    rw [toValueEntries, List.forall₂_nil_left_iff, Option.some_inj]
    exact eq_comm
  | cons entry entries ih =>
    rw [toValueEntries, List.forall₂_cons_left_iff, Option.bind_eq_some_iff]
    constructor
    · rintro ⟨value, hvalue, hrest⟩
      obtain ⟨rest, hentries, rfl⟩ := Option.map_eq_some_iff.mp hrest
      exact ⟨(entry.1, value), rest, ⟨rfl, hvalue⟩, ih.mp hentries, rfl⟩
    · rintro ⟨⟨key, value⟩, rest, ⟨rfl, hvalue⟩, hrest, rfl⟩
      exact ⟨value, hvalue, Option.map_eq_some_iff.mpr ⟨rest, ih.mpr hrest, rfl⟩⟩

end Lists

section Reading

variable {read read' : N → Option M} {d : JsonTree N} {v : JsonTree M}

/-- Stored objects have no duplicate keys. -/
theorem Stored.duplicateFree (hd : d.Stored) : d.DuplicateFree := by
  induction d using induction with
  | array items ih =>
    exact everyItem_iff.mpr fun item hitem => ih item hitem (everyItem_iff.mp hd item hitem)
  | object entries ih =>
    refine ⟨?_, everyEntry_iff.mpr fun entry hentry =>
      ih entry hentry (everyEntry_iff.mp hd.2 entry hentry)⟩
    rw [← hd.1]
    exact nodup_storeEntries entries
  | _ => trivial

/-- A value is stored. -/
theorem stored_toValue (hv : d.toValue read = some v) : v.Stored := by
  induction d using induction generalizing v with
  | null =>
    obtain rfl := Option.some.inj hv
    trivial
  | bool b =>
    obtain rfl := Option.some.inj hv
    trivial
  | number n =>
    obtain ⟨m, -, rfl⟩ := Option.map_eq_some_iff.mp hv
    trivial
  | string s =>
    obtain rfl := Option.some.inj hv
    trivial
  | array items ih =>
    obtain ⟨values, hvalues, rfl⟩ := Option.map_eq_some_iff.mp hv
    refine everyItem_iff.mpr fun value hvalue => ?_
    obtain ⟨item, hitem, hread⟩ :=
      exists_left_of_forall₂ (toValueItems_eq_some.mp hvalues) value hvalue
    exact ih item hitem hread
  | object entries ih =>
    obtain ⟨values, hvalues, rfl⟩ := Option.map_eq_some_iff.mp hv
    refine ⟨storeEntries_storeEntries values, everyEntry_iff.mpr fun value hvalue => ?_⟩
    obtain ⟨entry, hentry, -, hread⟩ := exists_left_of_forall₂ (toValueEntries_eq_some.mp hvalues)
      value (mem_of_mem_storeEntries hvalue)
    exact ih entry hentry hread

/-- A stored tree whose numbers are represented as they are is read as it is. -/
theorem toValue_eq_self {read : M → Option M} (hv : v.Stored)
    (hread : ∀ n ∈ v.numbers, read n = some n) : v.toValue read = some v := by
  induction v using induction with
  | null => rfl
  | bool b => rfl
  | number n => rw [toValue, hread n List.mem_cons_self, Option.map_some]
  | string s => rfl
  | array items ih =>
    have hitems : toValueItems read items = some items := by
      refine toValueItems_eq_some.mpr (List.forall₂_same.mpr fun item hitem => ?_)
      exact ih item hitem (everyItem_iff.mp hv item hitem) fun n hn =>
        hread n (mem_numbersItems.mpr ⟨item, hitem, hn⟩)
    rw [toValue, hitems, Option.map_some]
  | object entries ih =>
    have hentries : toValueEntries read entries = some entries := by
      refine toValueEntries_eq_some.mpr (List.forall₂_same.mpr fun entry hentry => ⟨rfl, ?_⟩)
      exact ih entry hentry (everyEntry_iff.mp hv.2 entry hentry) fun n hn =>
        hread n (mem_numbersEntries.mpr ⟨entry, hentry, hn⟩)
    rw [toValue, hentries, Option.map_some, hv.1]

/-- Every number of a value represents one of the tree. -/
theorem mem_numbers_toValue (hv : d.toValue read = some v) {m : M} (hm : m ∈ v.numbers) :
    ∃ n ∈ d.numbers, read n = some m := by
  induction d using induction generalizing v with
  | null =>
    obtain rfl := Option.some.inj hv
    exact (List.not_mem_nil hm).elim
  | bool b =>
    obtain rfl := Option.some.inj hv
    exact (List.not_mem_nil hm).elim
  | number n =>
    obtain ⟨m', hread, rfl⟩ := Option.map_eq_some_iff.mp hv
    obtain rfl := List.mem_singleton.mp hm
    exact ⟨n, List.mem_cons_self, hread⟩
  | string s =>
    obtain rfl := Option.some.inj hv
    exact (List.not_mem_nil hm).elim
  | array items ih =>
    obtain ⟨values, hvalues, rfl⟩ := Option.map_eq_some_iff.mp hv
    obtain ⟨value, hvalue, hm⟩ := mem_numbersItems.mp hm
    obtain ⟨item, hitem, hread⟩ :=
      exists_left_of_forall₂ (toValueItems_eq_some.mp hvalues) value hvalue
    obtain ⟨n, hn, hnumber⟩ := ih item hitem hread hm
    exact ⟨n, mem_numbersItems.mpr ⟨item, hitem, hn⟩, hnumber⟩
  | object entries ih =>
    obtain ⟨values, hvalues, rfl⟩ := Option.map_eq_some_iff.mp hv
    obtain ⟨value, hvalue, hm⟩ := mem_numbersEntries.mp hm
    obtain ⟨entry, hentry, -, hread⟩ := exists_left_of_forall₂ (toValueEntries_eq_some.mp hvalues)
      value (mem_of_mem_storeEntries hvalue)
    obtain ⟨n, hn, hnumber⟩ := ih entry hentry hread hm
    exact ⟨n, mem_numbersEntries.mpr ⟨entry, hentry, hn⟩, hnumber⟩

/-- If two readings represent every number alike, they represent the tree alike. -/
theorem exists_toValue
    (hread : ∀ n ∈ d.numbers, ∃ m, read n = some m ∧ read' n = some m) :
    ∃ v, d.toValue read = some v ∧ d.toValue read' = some v := by
  induction d using induction with
  | null => exact ⟨_, rfl, rfl⟩
  | bool b => exact ⟨_, rfl, rfl⟩
  | number n =>
    obtain ⟨m, hm, hm'⟩ := hread n List.mem_cons_self
    exact ⟨.number m, by rw [toValue, hm, Option.map_some], by rw [toValue, hm', Option.map_some]⟩
  | string s => exact ⟨_, rfl, rfl⟩
  | array items ih =>
    obtain ⟨values, hvalues⟩ := exists_forall₂ fun item hitem => ih item hitem fun n hn =>
      hread n (mem_numbersItems.mpr ⟨item, hitem, hn⟩)
    have hitems := toValueItems_eq_some.mpr (hvalues.imp fun _ _ hboth => hboth.1)
    have hitems' := toValueItems_eq_some.mpr (hvalues.imp fun _ _ hboth => hboth.2)
    exact ⟨.array values, by rw [toValue, hitems, Option.map_some],
      by rw [toValue, hitems', Option.map_some]⟩
  | object entries ih =>
    have hpartner : ∀ entry ∈ entries, ∃ value : Text × JsonTree M, entry.1 = value.1 ∧
        entry.2.toValue read = some value.2 ∧ entry.2.toValue read' = some value.2 := by
      intro entry hentry
      obtain ⟨value, hvalue⟩ := ih entry hentry fun n hn =>
        hread n (mem_numbersEntries.mpr ⟨entry, hentry, hn⟩)
      exact ⟨(entry.1, value), rfl, hvalue⟩
    obtain ⟨values, hvalues⟩ := exists_forall₂ hpartner
    have hentries := toValueEntries_eq_some.mpr
      (hvalues.imp fun _ _ hboth => ⟨hboth.1, hboth.2.1⟩)
    have hentries' := toValueEntries_eq_some.mpr
      (hvalues.imp fun _ _ hboth => ⟨hboth.1, hboth.2.2⟩)
    exact ⟨.object (storeEntries values), by rw [toValue, hentries, Option.map_some],
      by rw [toValue, hentries', Option.map_some]⟩

/-- Represented entries keep their keys. -/
theorem map_fst_of_toValueEntries {entries : List (Text × JsonTree N)}
    {values : List (Text × JsonTree M)} (hvalues : toValueEntries read entries = some values) :
    entries.map Prod.fst = values.map Prod.fst := by
  have hkeys : List.Forall₂ (· = ·) (entries.map Prod.fst) (values.map Prod.fst) := by
    rw [List.forall₂_map_left_iff, List.forall₂_map_right_iff]
    exact (toValueEntries_eq_some.mp hvalues).imp fun _ _ hboth => hboth.1
  rwa [List.forall₂_eq_eq_eq] at hkeys

/-- Two readings that represent a tree alike represent every number of it alike. -/
theorem read_eq_of_toValue (hd : d.DuplicateFree) (hv : d.toValue read = some v)
    (hv' : d.toValue read' = some v) :
    ∀ n ∈ d.numbers, ∃ m, read n = some m ∧ read' n = some m := by
  induction d using induction generalizing v with
  | number n =>
    intro n' hn'
    obtain rfl := List.mem_singleton.mp hn'
    obtain ⟨m, hm, rfl⟩ := Option.map_eq_some_iff.mp hv
    obtain ⟨m', hm', hnumber⟩ := Option.map_eq_some_iff.mp hv'
    obtain rfl := JsonTree.number.inj hnumber
    exact ⟨m', hm, hm'⟩
  | array items ih =>
    intro n hn
    obtain ⟨values, hvalues, rfl⟩ := Option.map_eq_some_iff.mp hv
    obtain ⟨values', hvalues', harray⟩ := Option.map_eq_some_iff.mp hv'
    obtain rfl := JsonTree.array.inj harray
    obtain ⟨item, hitem, hn⟩ := mem_numbersItems.mp hn
    have hboth := (toValueItems_eq_some.mp hvalues).mp (fun _ _ h h' => And.intro h h')
      (toValueItems_eq_some.mp hvalues')
    obtain ⟨value, -, hread, hread'⟩ := exists_right_of_forall₂ hboth item hitem
    exact ih item hitem (everyItem_iff.mp hd item hitem) hread hread' n hn
  | object entries ih =>
    intro n hn
    obtain ⟨values, hvalues, rfl⟩ := Option.map_eq_some_iff.mp hv
    obtain ⟨values', hvalues', hobject⟩ := Option.map_eq_some_iff.mp hv'
    have hkeys := map_fst_of_toValueEntries hvalues
    have hkeys' := map_fst_of_toValueEntries hvalues'
    obtain rfl : values = values' := storeEntries_injective (hkeys ▸ hkeys') (hkeys ▸ hd.1)
      (JsonTree.object.inj hobject).symm
    obtain ⟨entry, hentry, hn⟩ := mem_numbersEntries.mp hn
    have hboth := (toValueEntries_eq_some.mp hvalues).mp (fun _ _ h h' => And.intro h.2 h'.2)
      (toValueEntries_eq_some.mp hvalues')
    obtain ⟨value, -, hread, hread'⟩ := exists_right_of_forall₂ hboth entry hentry
    exact ih entry hentry (everyEntry_iff.mp hd.2 entry hentry) hread hread' n hn
  | _ => exact fun _ hn => (List.not_mem_nil hn).elim

/-- A bound on items carries over to items that are at most as deep. -/
theorem depthItems_le_depthItems {items : List (JsonTree N)} {values : List (JsonTree M)}
    (hle : ∀ item ∈ items, ∃ value ∈ values, item.depth ≤ value.depth) :
    depthItems items ≤ depthItems values := by
  refine depthItems_le.mpr fun item hitem => ?_
  obtain ⟨value, hvalue, hle⟩ := hle item hitem
  exact hle.trans (depthItems_le.mp (Nat.le_refl _) value hvalue)

/-- A bound on entries carries over to entries that are at most as deep. -/
theorem depthEntries_le_depthEntries {entries : List (Text × JsonTree N)}
    {values : List (Text × JsonTree M)}
    (hle : ∀ entry ∈ entries, ∃ value ∈ values, entry.2.depth ≤ value.2.depth) :
    depthEntries entries ≤ depthEntries values := by
  refine depthEntries_le.mpr fun entry hentry => ?_
  obtain ⟨value, hvalue, hle⟩ := hle entry hentry
  exact hle.trans (depthEntries_le.mp (Nat.le_refl _) value hvalue)

/-- A value is as deep as the tree. -/
theorem depth_toValue (hd : d.DuplicateFree) (hv : d.toValue read = some v) :
    v.depth = d.depth := by
  induction d using induction generalizing v with
  | null =>
    obtain rfl := Option.some.inj hv
    rfl
  | bool b =>
    obtain rfl := Option.some.inj hv
    rfl
  | number n =>
    obtain ⟨m, -, rfl⟩ := Option.map_eq_some_iff.mp hv
    rfl
  | string s =>
    obtain rfl := Option.some.inj hv
    rfl
  | array items ih =>
    obtain ⟨values, hvalues, rfl⟩ := Option.map_eq_some_iff.mp hv
    have hrelated := toValueItems_eq_some.mp hvalues
    have hdepth : ∀ item ∈ items, ∀ value, item.toValue read = some value →
        value.depth = item.depth :=
      fun item hitem value hread => ih item hitem (everyItem_iff.mp hd item hitem) hread
    have hle : depthItems values ≤ depthItems items :=
      depthItems_le_depthItems fun value hvalue => by
        obtain ⟨item, hitem, hread⟩ := exists_left_of_forall₂ hrelated value hvalue
        exact ⟨item, hitem, (hdepth item hitem value hread).le⟩
    have hge : depthItems items ≤ depthItems values :=
      depthItems_le_depthItems fun item hitem => by
        obtain ⟨value, hvalue, hread⟩ := exists_right_of_forall₂ hrelated item hitem
        exact ⟨value, hvalue, (hdepth item hitem value hread).ge⟩
    rw [depth, depth, Nat.le_antisymm hle hge]
  | object entries ih =>
    obtain ⟨values, hvalues, rfl⟩ := Option.map_eq_some_iff.mp hv
    have hrelated := toValueEntries_eq_some.mp hvalues
    have hkeys : (values.map Prod.fst).Nodup := map_fst_of_toValueEntries hvalues ▸ hd.1
    have hdepth : ∀ entry ∈ entries, ∀ value, entry.2.toValue read = some value →
        value.depth = entry.2.depth :=
      fun entry hentry value hread => ih entry hentry (everyEntry_iff.mp hd.2 entry hentry) hread
    have hle : depthEntries (storeEntries values) ≤ depthEntries entries :=
      depthEntries_le_depthEntries fun value hvalue => by
        obtain ⟨entry, hentry, -, hread⟩ :=
          exists_left_of_forall₂ hrelated value (mem_of_mem_storeEntries hvalue)
        exact ⟨entry, hentry, (hdepth entry hentry value.2 hread).le⟩
    have hge : depthEntries entries ≤ depthEntries (storeEntries values) :=
      depthEntries_le_depthEntries fun entry hentry => by
        obtain ⟨value, hvalue, -, hread⟩ := exists_right_of_forall₂ hrelated entry hentry
        exact ⟨value, (mem_storeEntries hkeys).mpr hvalue, (hdepth entry hentry value.2 hread).ge⟩
    rw [depth, depth, Nat.le_antisymm hle hge]

end Reading

end JsonTree

end ModalRust
