import ModalRust.Facade.Objects

/-!
# The calls of handles do what they mean

The server's store represents the lives of all dicts and queues. Each call keeps this and gets the
answer that it means, so every run of calls does: a program cannot tell the mock backend from maps
and lists.
-/

namespace ModalRust.Facade.Objects

open NamedObjects Testkit
open Sdk (StrKey encodeStrKey)
open Sdk.Objects (andThen retryRpc retryRpc_eq exists_retryRpc)

variable {V α β γ : Type}

/-- The objects of one kind in the store. -/
structure Drawer (α : Type) where
  /-- The objects. -/
  get : ObjectStore → Shelf Text Text α
  /-- Replace the objects. -/
  set : ObjectStore → Shelf Text Text α → ObjectStore
  /-- What is put in is found. -/
  get_set : ∀ s shelf, get (set s shelf) = shelf
  /-- Putting back what is found changes nothing. -/
  set_get : ∀ s, set s (get s) = s

/-- The dicts. -/
def dictDrawer : Drawer Entries where
  get := (·.dicts)
  set := fun s dicts => { s with dicts }
  get_set := fun _ _ => rfl
  set_get := fun _ => rfl

/-- The queues. -/
def queueDrawer : Drawer (List Bytes) where
  get := (·.queues)
  set := fun s queues => { s with queues }
  get_set := fun _ _ => rfl
  set_get := fun _ => rfl

/-- The objects of one kind represent a history, and their ids were drawn from the counter. -/
structure Holds (d : Drawer α) (Rel : α → γ → Prop) (stem : Text) (ids : List Text)
    (m : MockServicer) (h : History Text γ) : Prop where
  /-- The store represents the lives. -/
  represents : Represents Rel ids (d.get m.store) h
  /-- Every id has an ordinal that was drawn. -/
  drawn : ∀ id ∈ ids, ∃ n ≤ m.counter, id = ordinalId stem n

variable {d : Drawer α} {Rel : α → γ → Prop} {stem : Text} {ids : List Text} {m m' : MockServicer}
  {h : History Text γ} {elapsed : ℕ → ℕ}

/-- Drawing further ids changes nothing, if the objects stay. -/
theorem Holds.mono (hs : Holds d Rel stem ids m h) (hcounter : m.counter ≤ m'.counter)
    (hget : d.get m'.store = d.get m.store) : Holds d Rel stem ids m' h where
  represents := by
    rw [hget]
    exact hs.represents
  drawn := fun id hid => by
    obtain ⟨n, hn, heq⟩ := hs.drawn id hid
    exact ⟨n, hn.trans hcounter, heq⟩

/-- The next ordinal makes an id that was not given. -/
theorem Holds.fresh (hs : Holds d Rel stem ids m h) : ordinalId stem (m.counter + 1) ∉ ids := by
  intro hid
  obtain ⟨n, hn, heq⟩ := hs.drawn _ hid
  have hsame := ordinalId_inj heq
  omega

/-- An arm that changed only objects of one kind, and perhaps drew ids. -/
structure Within (d : Drawer α) (m m' : MockServicer) : Prop where
  /-- The counter does not go back. -/
  counter : m.counter ≤ m'.counter
  /-- Other objects stay. -/
  store : ∃ shelf, m'.store = d.set m.store shelf

/-- Changing nothing is changing only objects of one kind. -/
theorem Within.refl (d : Drawer α) (m : MockServicer) : Within d m m :=
  ⟨le_rfl, d.get m.store, (d.set_get m.store).symm⟩

/-- An arm that works on one object changes nothing if it fails. -/
theorem onObject_failed {kind id : Text} {work : ObjectStore → ObjectStore × Option β}
    (hwork : ∀ s, (work s).2 = none → (work s).1 = s) (t : MockServicer) (e : Sdk.Error)
    (herror : (onObject kind id work t).2 = .error e) : (onObject kind id work t).1 = t := by
  unfold onObject at herror ⊢
  dsimp only at herror ⊢
  cases hresult : (work t.store).2 with
  | some b =>
    rw [hresult] at herror
    cases herror
  | none => rw [hwork t.store hresult]

/-- Work on one object through a handle: the server does what the meaning does to the life. -/
theorem Holds.onObject (hs : Holds d Rel stem ids m h) (elapsed : ℕ → ℕ) (kind : Text)
    {i : ℕ} {id : Text}
    (hid : ids[i]? = some id) {work : ObjectStore → ObjectStore × Option β} {f : α → α × β}
    (hwork : ∀ s, work s = (d.set s ((d.get s).apply id f).1, ((d.get s).apply id f).2))
    {finish : β → Except Sdk.Error (Reply V)} {g : γ → γ × Except Text (Reply V)}
    (hsim : ∀ a c, Rel a c → Rel (f a).1 (g c).1 ∧
      (Answer.of (finish (f a).2)).seen = .ofText (g c).2) :
    let arm := andThen (retryRpc elapsed (onObject kind id work)) finish
    Holds d Rel stem ids (arm m).1 (History.apply h i g).1 ∧
      (Answer.of (arm m).2).seen = (match (History.apply h i g).2 with
        | some answer => .ofText answer
        | none => .failed .absent) ∧
      Within d m (arm m).1 := by
  intro arm
  have hfailed : ∀ s, (work s).2 = none → (work s).1 = s := by
    intro s hnone
    rw [hwork] at hnone ⊢
    unfold Shelf.apply at hnone ⊢
    cases hobject : (d.get s).objects id with
    | none => exact d.set_get s
    | some object =>
      rw [hobject] at hnone
      cases hnone
  have harm : arm m = ((Testkit.onObject kind id work m).1,
      (Testkit.onObject kind id work m).2.bind finish) := by
    change ((retryRpc elapsed (Testkit.onObject kind id work) m).1,
      (retryRpc elapsed (Testkit.onObject kind id work) m).2.bind finish) = _
    rw [retryRpc_eq elapsed (onObject_failed hfailed)]
  obtain ⟨hrep, hvalue⟩ := hs.represents.apply hid
    (f := fun a => ((f a).1, (Answer.of (finish (f a).2)).seen))
    (g := fun c => ((g c).1, Answer.ofText (g c).2)) hsim
  rw [Shelf.apply_map (f := f) (k := fun b => (Answer.of (finish b)).seen),
    History.apply_map (f := g)] at hrep hvalue
  have hstore : (Testkit.onObject kind id work m).1.store =
      d.set m.store ((d.get m.store).apply id f).1 := congrArg Prod.fst (hwork m.store)
  have hanswer : (Testkit.onObject kind id work m).2 =
      ((d.get m.store).apply id f).2.elim (.error (Sdk.Server.unknownId kind id)) .ok := by
    have hsecond := congrArg Prod.snd (hwork m.store)
    dsimp only at hsecond
    unfold Testkit.onObject
    dsimp only
    rw [hsecond]
    cases ((d.get m.store).apply id f).2 with
    | none => rfl
    | some b => rfl
  rw [harm]
  refine ⟨⟨?_, hs.drawn⟩, ?_, le_rfl, _, hstore⟩
  · rw [hstore, d.get_set]
    exact hrep
  · change (Answer.of ((Testkit.onObject kind id work m).2.bind finish)).seen = _
    rw [hanswer]
    cases hresult : ((d.get m.store).apply id f).2 with
    | none =>
      rw [hresult] at hvalue
      rw [Option.map_eq_none_iff.mp hvalue.symm]
      rfl
    | some b =>
      rw [hresult] at hvalue
      obtain ⟨answer, hanswer', heq⟩ := Option.map_eq_some_iff.mp hvalue.symm
      rw [hanswer']
      exact heq.symm

/-- Deleting through a handle ends the life. -/
theorem Holds.delete (hs : Holds d Rel stem ids m h) {i : ℕ} {kind id : Text}
    (hid : ids[i]? = some id) {delete : ObjectStore → ObjectStore × Bool}
    (hdelete : ∀ s, delete s = (d.set s ((d.get s).delete id).1, ((d.get s).delete id).2)) :
    let arm : Arm (Reply V) :=
      andThen (retryRpc elapsed (deleteObject kind id delete)) fun _ => .ok .unit
    Holds d Rel stem ids (arm m).1 (History.delete h i).1 ∧
      (Answer.of (arm m).2).seen =
        (if (History.delete h i).2 then .reply .unit else .failed .absent) ∧
      Within d m (arm m).1 := by
  intro arm
  have hfailed : ∀ s, (if (delete s).2 then some () else none) = none → (delete s).1 = s := by
    intro s hnone
    rw [hdelete] at hnone ⊢
    unfold Shelf.delete at hnone ⊢
    cases hobject : (d.get s).objects id with
    | none => exact d.set_get s
    | some object =>
      rw [hobject] at hnone
      cases hnone
  have harm : arm m = ((deleteObject kind id delete m).1,
      (deleteObject kind id delete m).2.bind fun _ => .ok .unit) := by
    change ((retryRpc elapsed (deleteObject kind id delete) m).1,
      (retryRpc elapsed (deleteObject kind id delete) m).2.bind _) = _
    unfold deleteObject
    rw [retryRpc_eq elapsed (onObject_failed hfailed)]
  obtain ⟨hrep, hflag⟩ := hs.represents.delete hid
  have hstore : (deleteObject kind id delete m).1.store =
      d.set m.store ((d.get m.store).delete id).1 := congrArg Prod.fst (hdelete m.store)
  have hanswer : (deleteObject kind id delete m).2 =
      match (if ((d.get m.store).delete id).2 then some () else none) with
      | some b => .ok b
      | none => .error (Sdk.Server.unknownId kind id) := by
    unfold deleteObject Testkit.onObject
    dsimp only
    rw [hdelete]
    cases ((d.get m.store).delete id).2 <;> rfl
  rw [harm]
  refine ⟨⟨?_, hs.drawn⟩, ?_, le_rfl, _, hstore⟩
  · rw [hstore, d.get_set]
    exact hrep
  · change (Answer.of ((deleteObject kind id delete m).2.bind _)).seen = _
    rw [hanswer, ← hflag]
    cases ((d.get m.store).delete id).2 <;> rfl

/-- A resolution that fails draws an id and leaves the objects. -/
theorem getOrCreate_failed {kind name : Text} {new : α}
    {resolve : ObjectStore → Text → Bool → Text → ObjectStore × Option Text}
    (hresolve : ∀ s name create candidate, resolve s name create candidate =
      (d.set s ((d.get s).resolve name create candidate new).1,
        ((d.get s).resolve name create candidate new).2))
    {creationType : ObjectCreationType} {t : MockServicer} {e : Sdk.Error}
    (herror : (getOrCreate kind stem resolve name creationType t).2 = .error e) :
    (getOrCreate kind stem resolve name creationType t).1.store = t.store ∧
      (getOrCreate kind stem resolve name creationType t).1.counter = t.counter + 1 := by
  unfold getOrCreate at herror ⊢
  dsimp only [MockServicer.nextId] at herror ⊢
  rw [hresolve] at herror ⊢
  refine ⟨?_, rfl⟩
  unfold Shelf.resolve at herror ⊢
  cases hname : (d.get t.store).ids name with
  | some id =>
    rw [hname] at herror
    cases herror
  | none =>
    rw [hname] at herror
    by_cases hcreate : decide (creationType ≠ .unspecified) = true
    · dsimp only at herror
      rw [if_pos hcreate] at herror
      cases herror
    · dsimp only
      rw [if_neg hcreate]
      exact d.set_get t.store

/-- What is remembered after a resolution was drawn. -/
theorem Holds.drawn_remember (hs : Holds d Rel stem ids m h) (name : Text) (create : Bool)
    (new : α) : ∀ id ∈ remember ids ((d.get m.store).resolve name create
      (ordinalId stem (m.counter + 1)) new).2,
        ∃ n ≤ m.counter + 1, id = ordinalId stem n := by
  intro id hid
  have hold : ∀ id ∈ ids, ∃ n ≤ m.counter + 1, id = ordinalId stem n := fun id hid => by
    obtain ⟨n, hn, hid'⟩ := hs.drawn id hid
    exact ⟨n, by omega, hid'⟩
  unfold Shelf.resolve at hid
  cases hname : (d.get m.store).ids name with
  | some known =>
    rw [hname] at hid
    obtain ⟨i, object, hknown, -⟩ := (hs.represents.named name known).mp hname
    dsimp only [remember] at hid
    rw [if_pos (List.mem_of_getElem? hknown)] at hid
    exact hold id hid
  | none =>
    rw [hname] at hid
    dsimp only at hid
    split at hid
    · dsimp only [remember] at hid
      rw [if_neg hs.fresh, List.mem_append, List.mem_singleton] at hid
      rcases hid with hid | rfl
      · exact hold id hid
      · exact ⟨m.counter + 1, le_rfl, rfl⟩
    · exact hold id hid

/-- An id that was returned is remembered. -/
theorem mem_remember (ids : List Text) (id : Text) : id ∈ remember ids (some id) := by
  by_cases hknown : id ∈ ids
  · rwa [remember, if_pos hknown]
  · rw [remember, if_neg hknown]
    exact List.mem_append_right _ (List.mem_singleton.mpr rfl)

/-- An id that was drawn is not empty. -/
theorem nonEmptyId_ordinalId (rpc name field stem : Text) (n : ℕ) :
    Sdk.Objects.nonEmptyId rpc name field (ordinalId stem n) = .ok (ordinalId stem n) := by
  unfold Sdk.Objects.nonEmptyId
  rw [if_neg]
  rw [List.isEmpty_iff]
  exact ordinalId_ne_nil stem n

/-- Resolving a name returns the life under it, or begins one. -/
theorem Holds.resolve (hs : Holds d Rel stem ids m h) (elapsed : ℕ → ℕ)
    (kind name rpc field : Text) {new : α} {new' : γ} (hnew : Rel new new')
    {resolve : ObjectStore → Text → Bool → Text → ObjectStore × Option Text}
    (hresolve : ∀ s name create candidate, resolve s name create candidate =
      (d.set s ((d.get s).resolve name create candidate new).1,
        ((d.get s).resolve name create candidate new).2))
    (creationType : ObjectCreationType) :
    let arm := andThen (retryRpc elapsed (getOrCreate kind stem resolve name creationType))
      (Sdk.Objects.nonEmptyId rpc name field)
    let r : MockServicer × List Text × Answer Sdk.Error V := resolveWith arm ids m
    let a := History.resolve h name (decide (creationType ≠ .unspecified)) new'
    Holds d Rel stem r.2.1 r.1 a.1 ∧
      r.2.2.seen = (match a.2 with
        | some i => .handle i
        | none => .failed .absent) ∧
      Within d m r.1 := by
  intro arm r a
  -- All attempts but the last fail, so the last one finds the objects as they were.
  obtain ⟨t, ⟨hstore, hcounter⟩, heq⟩ := exists_retryRpc elapsed
    (getOrCreate kind stem resolve name creationType)
    (P := fun t => t.store = m.store ∧ m.counter ≤ t.counter) (m := m) ⟨rfl, le_rfl⟩ (by
      rintro t e ⟨hstore, hcounter⟩ herror
      obtain ⟨hkept, hdrawn⟩ := getOrCreate_failed hresolve herror
      exact ⟨hkept.trans hstore, by omega⟩)
  have ht : Holds d Rel stem ids t h := hs.mono hcounter (by rw [hstore])
  obtain ⟨hrep, hhandle⟩ := ht.represents.resolve name (decide (creationType ≠ .unspecified))
    ht.fresh hnew
  have hdrawn := ht.drawn_remember name (decide (creationType ≠ .unspecified)) new
  have hr : r = resolveWith (andThen (getOrCreate kind stem resolve name creationType)
      (Sdk.Objects.nonEmptyId rpc name field)) ids t := by
    change resolveWith (andThen (retryRpc elapsed _) _) ids m = _
    unfold resolveWith andThen
    rw [heq]
  rw [hr]
  unfold resolveWith andThen getOrCreate
  dsimp only [MockServicer.nextId]
  rw [hresolve]
  change Represents Rel _ _ a.1 at hrep
  change _ = a.2 at hhandle
  let next := ((d.get t.store).resolve name (decide (creationType ≠ .unspecified))
    (ordinalId stem (t.counter + 1)) new).1
  cases hresult : ((d.get t.store).resolve name (decide (creationType ≠ .unspecified))
      (ordinalId stem (t.counter + 1)) new).2 with
  | none =>
    rw [hresult] at hrep hhandle hdrawn
    rw [← hhandle]
    refine ⟨⟨?_, hdrawn⟩, rfl, by change m.counter ≤ t.counter + 1; omega, next, ?_⟩
    · change Represents Rel ids (d.get (d.set t.store _)) a.1
      rw [d.get_set]
      exact hrep
    · exact congrArg (d.set · next) hstore
  | some id =>
    rw [hresult] at hrep hhandle hdrawn
    obtain ⟨n, -, rfl⟩ := hdrawn id (mem_remember ids id)
    have hbind : (Except.ok (ordinalId stem n) : Except Sdk.Error Text).bind
        (Sdk.Objects.nonEmptyId rpc name field) = .ok (ordinalId stem n) :=
      nonEmptyId_ordinalId rpc name field stem n
    dsimp only
    rw [hbind, ← hhandle]
    refine ⟨⟨?_, hdrawn⟩, rfl, by change m.counter ≤ t.counter + 1; omega, next, ?_⟩
    · change Represents Rel _ (d.get (d.set t.store _)) a.1
      rw [d.get_set]
      exact hrep
    · exact congrArg (d.set · next) hstore

/-- Going on twice is going on once. -/
theorem andThen_andThen {δ : Type} (arm : Arm α) (f : α → Except Sdk.Error β)
    (g : β → Except Sdk.Error δ) :
    andThen (andThen arm f) g = andThen arm fun a => (f a).bind g := by
  funext m
  unfold andThen
  dsimp only
  cases (arm m).2 <;> rfl

/-- Different keys have different pickles. -/
theorem encodeStrKey_inj {a b : StrKey} (heq : encodeStrKey a = encodeStrKey b) : a = b := by
  have hloads := (Sdk.loads_encodeStrKey a).symm.trans (heq ▸ Sdk.loads_encodeStrKey b)
  exact StrKey.ext (congrArg Prod.fst (Option.some.inj hloads))

/-- The entries of a dict as a program sees them. -/
structure DictRel (entries : Entries) (dict : DictMeaning) : Prop where
  /-- The value of each key. -/
  lookup : ∀ key, entries.lookup (encodeStrKey key) = dict key
  /-- There are no other keys. -/
  keys : ∀ bytes ∈ entries, ∃ key, bytes = encodeStrKey key

/-- A new dict has no keys. -/
theorem dictRel_empty : DictRel ∅ fun _ => none where
  lookup := fun _ => AList.lookup_empty _
  keys := fun _ hmem => absurd hmem (AList.notMem_empty _)

section Entries

variable {entries : Entries} {dict : DictMeaning}

/-- Whether a key is there. -/
theorem DictRel.mem_iff (hrel : DictRel entries dict) (key : StrKey) :
    encodeStrKey key ∈ entries ↔ (dict key).isSome = true := by
  rw [← hrel.lookup, AList.lookup_isSome]

/-- Writing an entry. -/
theorem DictRel.insert (hrel : DictRel entries dict) (key : StrKey) (value : Bytes) :
    DictRel (entries.insert (encodeStrKey key) value) (Function.update dict key (some value)) where
  lookup := fun other => by
    by_cases hsame : other = key
    · rw [hsame, AList.lookup_insert, Function.update_self]
    · rw [AList.lookup_insert_ne fun heq => hsame (encodeStrKey_inj heq),
        Function.update_of_ne hsame, hrel.lookup]
  keys := fun bytes hmem => by
    rcases (AList.mem_insert entries).mp hmem with rfl | hold
    · exact ⟨key, rfl⟩
    · exact hrel.keys bytes hold

/-- Removing an entry. -/
theorem DictRel.erase (hrel : DictRel entries dict) (key : StrKey) :
    DictRel (entries.erase (encodeStrKey key)) (Function.update dict key none) where
  lookup := fun other => by
    by_cases hsame : other = key
    · rw [hsame, AList.lookup_erase, Function.update_self]
    · rw [AList.lookup_erase_ne fun heq => hsame (encodeStrKey_inj heq),
        Function.update_of_ne hsame, hrel.lookup]
  keys := fun bytes hmem => hrel.keys bytes (AList.mem_erase.mp hmem).2

/-- The number of entries is the number of keys. -/
theorem DictRel.length_keys (hrel : DictRel entries dict) :
    entries.keys.length = {key | (dict key).isSome = true}.ncard := by
  have himage : Set.image encodeStrKey {key | (dict key).isSome = true} =
      (entries.keys.toFinset : Set Bytes) := by
    ext bytes
    rw [Set.mem_image, Finset.mem_coe, List.mem_toFinset, ← AList.mem_keys]
    constructor
    · rintro ⟨key, hkey, rfl⟩
      exact (hrel.mem_iff key).mpr hkey
    · intro hmem
      obtain ⟨key, rfl⟩ := hrel.keys bytes hmem
      exact ⟨key, (hrel.mem_iff key).mp hmem, rfl⟩
  rw [← Set.ncard_image_of_injective _ fun _ _ => encodeStrKey_inj, himage, Set.ncard_coe_finset,
    List.toFinset_card_of_nodup entries.keys_nodup]

/-- A value that was found, decoded, is the value that the meaning gives. -/
theorem seen_found (decode : Bytes → Except Text V) (value : Option Bytes) :
    (Answer.of ((Sdk.Objects.foundValue (value.isSome, value)).bind fun bytes =>
      (decodeOpt decode bytes).map .value)).seen = .ofText (decodedValue decode value) := by
  cases value with
  | none => rfl
  | some bytes =>
    change (Answer.of (((Queue.decodeValue decode bytes).map some).map Reply.value)).seen =
      .ofText ((decode bytes).map fun v => .value (some v))
    unfold Queue.decodeValue
    cases decode bytes <;> rfl

/-- A dict call for which something is sent works on the entries as it means. -/
theorem DictOp.exists_serve (elapsed : ℕ → ℕ) (op : DictOp V) (honline : op.offline = none) :
    ∃ (β : Type) (f : Entries → Entries × β) (finish : β → Except Sdk.Error (Reply V)),
      (∀ id, op.perform elapsed id =
        andThen (retryRpc elapsed (onObject "Dict".toList id (ObjectStore.onDict id f))) finish) ∧
      ∀ entries dict, DictRel entries dict → DictRel (f entries).1 (op.meaning dict).1 ∧
        (Answer.of (finish (f entries).2)).seen = .ofText (op.meaning dict).2 := by
  cases op with
  | get key decode =>
    refine ⟨_, _, _, fun id => andThen_andThen _ _ _, fun entries dict hrel => ⟨hrel, ?_⟩⟩
    rw [show (DictOp.meaning (.get key decode) dict).2 =
      decodedValue decode (entries.lookup (encodeStrKey key)) by rw [hrel.lookup]; rfl]
    exact seen_found decode _
  | put key value =>
    cases value with
    | error e => cases honline
    | ok bytes =>
      refine ⟨_, _, _, fun id => andThen_andThen _ _ _, fun entries dict hrel => ?_⟩
      refine ⟨?_, rfl⟩
      change DictRel (Entries.update false [(encodeStrKey key, bytes)] entries).1
        (Function.update dict key (some bytes))
      have hinsert := hrel.insert key bytes
      unfold Entries.update
      split
      · exact hinsert
      · exact hinsert
  | putIfAbsent key value =>
    cases value with
    | error e => cases honline
    | ok bytes =>
      refine ⟨_, _, _, fun id => rfl, fun entries dict hrel => ?_⟩
      change DictRel (Entries.update true [(encodeStrKey key, bytes)] entries).1
          (if (dict key).isSome then dict else Function.update dict key (some bytes)) ∧
        Answer.reply (.flag (Entries.update true [(encodeStrKey key, bytes)] entries).2) =
          .reply (.flag (dict key).isNone)
      have hinsert := hrel.insert key bytes
      unfold Entries.update
      by_cases hmem : encodeStrKey key ∈ entries
      · have hsome := (hrel.mem_iff key).mp hmem
        rw [if_pos hmem, if_pos hsome, Option.isNone_eq_false_iff.mpr hsome]
        exact ⟨hrel, rfl⟩
      · have hnone : ¬ (dict key).isSome = true := fun hsome => hmem ((hrel.mem_iff key).mpr hsome)
        rw [if_neg hmem, if_neg hnone, Option.isNone_iff_eq_none.mpr (by simpa using hnone)]
        exact ⟨hinsert, rfl⟩
  | pop key decode =>
    refine ⟨_, _, _, fun id => andThen_andThen _ _ _, fun entries dict hrel =>
      ⟨hrel.erase key, ?_⟩⟩
    rw [show (DictOp.meaning (.pop key decode) dict).2 =
      decodedValue decode (entries.lookup (encodeStrKey key)) by rw [hrel.lookup]; rfl]
    exact seen_found decode _
  | contains key =>
    refine ⟨_, _, _, fun id => rfl, fun entries dict hrel => ⟨hrel, ?_⟩⟩
    change Answer.reply (.flag (entries.lookup (encodeStrKey key)).isSome) =
      .reply (.flag (dict key).isSome)
    rw [hrel.lookup]
  | len =>
    refine ⟨_, _, _, fun id => andThen_andThen _ _ _, fun entries dict hrel => ⟨hrel, ?_⟩⟩
    change Answer.reply (.count (wireLen entries.keys.length).toNat) = .reply (.count dict.len)
    rw [Sdk.Objects.toNat_wireLen, hrel.length_keys]
    rfl
  | clear =>
    exact ⟨_, _, _, fun id => rfl, fun entries dict hrel => ⟨dictRel_empty, rfl⟩⟩

end Entries

/-- A dict call for which nothing is sent. -/
theorem DictOp.perform_of_offline (elapsed : ℕ → ℕ) (op : DictOp V)
    {answer : Except Text (Reply V)} (hoffline : op.offline = some answer) (id : Text)
    (m : MockServicer) : op.perform elapsed id m = (m, answer.mapError .codec) := by
  match op with
  | .put key (.error e) | .putIfAbsent key (.error e) =>
    cases hoffline
    rfl

/-- Decoding a batch, with the error of the SDK. -/
theorem mapM_decodeValue (decode : Bytes → Except Text V) (items : List Bytes) :
    items.mapM (Queue.decodeValue decode) = (items.mapM decode).mapError .codec := by
  induction items with
  | nil => rfl
  | cons item items ih =>
    rw [List.mapM_cons, List.mapM_cons, ih]
    unfold Queue.decodeValue
    cases decode item with
    | error e => rfl
    | ok v => cases items.mapM decode <;> rfl

/-- The SDK's error of a text is seen as a codec error. -/
theorem seen_mapError (answer : Except Text (Reply V)) :
    (Answer.of (answer.mapError .codec)).seen = .ofText answer := by
  cases answer <;> rfl

/-- Popping takes the first items, as many as there are. -/
theorem pop_eq (n : ℕ) (items : List Bytes) : Items.pop n items = (items.drop n, items.take n) := by
  unfold Items.pop
  dsimp only
  rcases Nat.le_total n items.length with hle | hle
  · rw [Nat.min_eq_left hle]
  · rw [Nat.min_eq_right hle, List.drop_length, List.take_length, List.drop_of_length_le hle,
      List.take_of_length_le hle]

/-- The size of a batch, through the wire. -/
theorem toNat_batch (n : ℕ) :
    (max ((min (max n 1) (2 ^ 31 - 1) : ℕ) : ℤ) 1).toNat = batch n := by
  unfold batch
  omega

/-- Nothing is sent where a value does not encode. -/
theorem QueueOp.offline_of_error {values : List (Except Text Bytes)} {e : Text}
    (hencode : (values.mapM id : Except Text (List Bytes)) = .error e) :
    (QueueOp.putMany values : QueueOp V).offline = some (.error e) := by
  simp only [QueueOp.offline, hencode]

/-- Nothing is sent where there are no values. -/
theorem QueueOp.offline_of_nil {values : List (Except Text Bytes)}
    (hencode : (values.mapM id : Except Text (List Bytes)) = .ok []) :
    (QueueOp.putMany values : QueueOp V).offline = some (.ok .unit) := by
  simp only [QueueOp.offline, hencode]

/-- Values that encode are sent. -/
theorem QueueOp.offline_of_cons {values : List (Except Text Bytes)} {first : Bytes}
    {rest : List Bytes}
    (hencode : (values.mapM id : Except Text (List Bytes)) = .ok (first :: rest)) :
    (QueueOp.putMany values : QueueOp V).offline = none := by
  simp only [QueueOp.offline, hencode]

/-- Something is sent for many values exactly if all encode, and there are some. -/
theorem QueueOp.exists_encoded {values : List (Except Text Bytes)}
    (honline : (QueueOp.putMany values : QueueOp V).offline = none) :
    ∃ first rest, (values.mapM id : Except Text (List Bytes)) = .ok (first :: rest) := by
  cases hencode : (values.mapM id : Except Text (List Bytes)) with
  | error e =>
    rw [QueueOp.offline_of_error hencode] at honline
    cases honline
  | ok bytes =>
    cases bytes with
    | nil =>
      rw [QueueOp.offline_of_nil hencode] at honline
      cases honline
    | cons first rest => exact ⟨first, rest, rfl⟩

/-- Putting many values that encode. -/
theorem QueueOp.meaning_putMany {values : List (Except Text Bytes)} {bytes : List Bytes}
    (hencode : (values.mapM id : Except Text (List Bytes)) = .ok bytes) (items : List Bytes) :
    (QueueOp.putMany values : QueueOp V).meaning items = (items ++ bytes, .ok .unit) := by
  simp only [QueueOp.meaning, hencode]

/-- A queue call for which something is sent works on the items as it means. -/
theorem QueueOp.exists_serve (elapsed : ℕ → ℕ) (op : QueueOp V) (honline : op.offline = none) :
    ∃ (β : Type) (f : List Bytes → List Bytes × β) (finish : β → Except Sdk.Error (Reply V)),
      (∀ id, op.perform elapsed id =
        andThen (retryRpc elapsed (onObject "Queue".toList id (ObjectStore.onQueue id f)))
          finish) ∧
      ∀ items, (f items).1 = (op.meaning items).1 ∧
        (Answer.of (finish (f items).2)).seen = .ofText (op.meaning items).2 := by
  cases op with
  | put value =>
    cases value with
    | error e => cases honline
    | ok bytes => exact ⟨_, _, _, fun id => rfl, fun items => ⟨rfl, rfl⟩⟩
  | putMany values =>
    obtain ⟨first, rest, hencode⟩ := QueueOp.exists_encoded honline
    refine ⟨Unit, Items.put (first :: rest), fun _ => .ok .unit, fun id => ?_, fun items => ?_⟩
    · change encoded (values.mapM _) _ = _
      rw [hencode]
      rfl
    · rw [QueueOp.meaning_putMany hencode]
      exact ⟨rfl, rfl⟩
  | get decode =>
    refine ⟨_, _, _, fun id => rfl, fun items => ?_⟩
    rw [toNat_batch, pop_eq]
    refine ⟨rfl, ?_⟩
    change (Answer.of ((Queue.firstDecoded decode (items.take 1)).map Reply.value)).seen = _
    cases items with
    | nil => rfl
    | cons item items =>
      change (Answer.of (((Queue.decodeValue decode item).map some).map Reply.value)).seen =
        .ofText ((decode item).map fun v => .value (some v))
      unfold Queue.decodeValue
      cases decode item <;> rfl
  | getMany n decode =>
    refine ⟨_, _, _, fun id => rfl, fun items => ?_⟩
    rw [toNat_batch, pop_eq]
    refine ⟨rfl, ?_⟩
    change (Answer.of (((items.take (batch n)).mapM (Queue.decodeValue decode)).map
      Reply.values)).seen = .ofText (((items.take (batch n)).mapM decode).map Reply.values)
    rw [mapM_decodeValue]
    cases (items.take (batch n)).mapM decode <;> rfl
  | len =>
    refine ⟨_, _, _, fun id => andThen_andThen _ _ _, fun items => ⟨rfl, ?_⟩⟩
    change Answer.reply (.count (wireLen items.length).toNat) = .reply (.count _)
    rw [Sdk.Objects.toNat_wireLen]
  | clear => exact ⟨_, _, _, fun id => rfl, fun items => ⟨rfl, rfl⟩⟩

/-- A queue call for which nothing is sent. -/
theorem QueueOp.perform_of_offline (elapsed : ℕ → ℕ) (op : QueueOp V)
    {answer : Except Text (Reply V)} (hoffline : op.offline = some answer) (queueId : Text)
    (m : MockServicer) : op.perform elapsed queueId m = (m, answer.mapError .codec) := by
  match op with
  | .put (.error e) =>
    cases hoffline
    rfl
  | .putMany values =>
    change encoded (values.mapM id) _ m = _
    cases hencode : (values.mapM id : Except Text (List Bytes)) with
    | error e =>
      rw [QueueOp.offline_of_error hencode] at hoffline
      cases hoffline
      rfl
    | ok bytes =>
      cases bytes with
      | nil =>
        rw [QueueOp.offline_of_nil hencode] at hoffline
        cases hoffline
        rfl
      | cons first bytes =>
        rw [QueueOp.offline_of_cons hencode] at hoffline
        cases hoffline

/-- A call on a handle does to the objects what it means. -/
theorem Holds.on (hs : Holds d Rel stem ids m h) {Op : Type} (elapsed : ℕ → ℕ) (kind : Text)
    (offline : Op → Option (Except Text (Reply V)))
    (meaning : Op → γ → γ × Except Text (Reply V)) (new : γ) (op : Op)
    (perform : Text → Arm (Reply V))
    (hoffline : ∀ answer, offline op = some answer → ∀ id t,
      perform id t = (t, answer.mapError .codec))
    (honline : offline op = none → ∃ (β : Type) (f : α → α × β)
      (finish : β → Except Sdk.Error (Reply V))
      (work : Text → ObjectStore → ObjectStore × Option β),
      (∀ id s, work id s = (d.set s ((d.get s).apply id f).1, ((d.get s).apply id f).2)) ∧
      (∀ id, perform id = andThen (retryRpc elapsed (Testkit.onObject kind id (work id))) finish) ∧
      ∀ a c, Rel a c → Rel (f a).1 (meaning op c).1 ∧
        (Answer.of (finish (f a).2)).seen = .ofText (meaning op c).2)
    (handle : ℕ) :
    let r := useHandle ids handle perform m
    let a := NamedCall.meaning offline meaning new h (.on handle op)
    Holds d Rel stem ids r.1 a.1 ∧ r.2.seen = a.2 ∧ Within d m r.1 := by
  unfold useHandle NamedCall.meaning
  cases hid : ids[handle]? with
  | none =>
    have hlen : ¬ handle < h.length := by
      rw [← hs.represents.length]
      exact Nat.not_lt.mpr (List.getElem?_eq_none_iff.mp hid)
    dsimp only
    rw [if_neg hlen]
    exact ⟨hs, rfl, .refl d m⟩
  | some id =>
    have hlen : handle < h.length := by
      rw [← hs.represents.length]
      exact (List.getElem?_eq_some_iff.mp hid).1
    dsimp only
    rw [if_pos hlen]
    cases hcase : offline op with
    | some answer =>
      rw [hoffline answer hcase]
      exact ⟨hs, seen_mapError answer, .refl d m⟩
    | none =>
      obtain ⟨β, f, finish, work, hwork, hperform, hsim⟩ := honline hcase
      obtain ⟨hholds, hseen, hwithin⟩ := hs.onObject elapsed kind hid
        (hwork id) hsim
      rw [hperform]
      rcases hresult : History.apply h handle (meaning op) with ⟨h', _ | answer⟩
      · rw [hresult] at hholds hseen
        exact ⟨hholds, hseen, hwithin⟩
      · rw [hresult] at hholds hseen
        exact ⟨hholds, hseen, hwithin⟩

/-- The world does what the meaning does. -/
structure Tracks (w : World) (a : Meaning) : Prop where
  /-- The dicts. -/
  dicts : Holds dictDrawer DictRel "di-".toList w.dictIds w.servicer a.dicts
  /-- The queues. -/
  queues : Holds queueDrawer Eq "qu-".toList w.queueIds w.servicer a.queues

/-- At the start there is nothing. -/
theorem tracks_start : Tracks .start .start where
  dicts := ⟨represents_empty _, fun _ hid => absurd hid List.not_mem_nil⟩
  queues := ⟨represents_empty _, fun _ hid => absurd hid List.not_mem_nil⟩

/-- Deleting through a handle means to end the life. -/
theorem Holds.deleteHandle (hs : Holds d Rel stem ids m h) {Op : Type} (elapsed : ℕ → ℕ)
    (kind : Text) (offline : Op → Option (Except Text (Reply V)))
    (meaning : Op → γ → γ × Except Text (Reply V)) (new : γ)
    (delete : Text → ObjectStore → ObjectStore × Bool)
    (hdelete : ∀ id s, delete id s =
      (d.set s ((d.get s).delete id).1, ((d.get s).delete id).2)) (handle : ℕ) :
    let r : MockServicer × Answer Sdk.Error V := useHandle ids handle (fun id =>
      andThen (retryRpc elapsed (deleteObject kind id (delete id))) fun _ => .ok .unit) m
    let a := NamedCall.meaning offline meaning new h (.delete handle)
    Holds d Rel stem ids r.1 a.1 ∧ r.2.seen = a.2 ∧ Within d m r.1 := by
  unfold useHandle NamedCall.meaning
  cases hid : ids[handle]? with
  | none =>
    have hlen : ¬ handle < h.length := by
      rw [← hs.represents.length]
      exact Nat.not_lt.mpr (List.getElem?_eq_none_iff.mp hid)
    dsimp only
    rw [if_neg hlen]
    exact ⟨hs, rfl, .refl d m⟩
  | some id =>
    have hlen : handle < h.length := by
      rw [← hs.represents.length]
      exact (List.getElem?_eq_some_iff.mp hid).1
    dsimp only
    rw [if_pos hlen]
    exact hs.delete hid (hdelete id)

/-- Resolving a name means to find or to begin a life. -/
theorem Holds.resolveName (hs : Holds d Rel stem ids m h) {Op : Type} (elapsed : ℕ → ℕ)
    (kind name rpc field : Text) (offline : Op → Option (Except Text (Reply V)))
    (meaning : Op → γ → γ × Except Text (Reply V)) {new : α} {new' : γ} (hnew : Rel new new')
    {resolve : ObjectStore → Text → Bool → Text → ObjectStore × Option Text}
    (hresolve : ∀ s name create candidate, resolve s name create candidate =
      (d.set s ((d.get s).resolve name create candidate new).1,
        ((d.get s).resolve name create candidate new).2))
    (creationType : ObjectCreationType) :
    let r : MockServicer × List Text × Answer Sdk.Error V := resolveWith
      (andThen (retryRpc elapsed (getOrCreate kind stem resolve name creationType))
        (Sdk.Objects.nonEmptyId rpc name field)) ids m
    let a := NamedCall.meaning offline meaning new' h (.resolve name creationType)
    Holds d Rel stem r.2.1 r.1 a.1 ∧ r.2.2.seen = a.2 ∧ Within d m r.1 := by
  intro r a
  obtain ⟨hholds, hseen, hwithin⟩ := hs.resolve (V := V) elapsed kind name rpc field hnew
    hresolve creationType
  change Holds d Rel stem r.2.1 r.1 _ at hholds
  change r.2.2.seen = _ at hseen
  have ha : a = ((History.resolve h name (decide (creationType ≠ .unspecified)) new').1,
      match (History.resolve h name (decide (creationType ≠ .unspecified)) new').2 with
      | some i => Answer.handle i
      | none => Answer.failed Failure.absent) := by
    change NamedCall.meaning offline meaning new' h (.resolve name creationType) = _
    unfold NamedCall.meaning
    dsimp only
    rcases History.resolve h name (decide (creationType ≠ .unspecified)) new' with ⟨h', _ | i⟩
    · rfl
    · rfl
  rw [ha]
  exact ⟨hholds, hseen, hwithin⟩

/-- One call keeps the world in step with the meaning, and is answered as it means. -/
theorem Tracks.step {w : World} {a : Meaning} (ht : Tracks w a) (elapsed : ℕ → ℕ)
    (call : Call V) :
    Tracks (w.step elapsed call).1 (a.step call).1 ∧
      (w.step elapsed call).2.seen = (a.step call).2 := by
  cases call with
  | drawId =>
    exact ⟨⟨ht.dicts.mono (Nat.le_succ _) rfl, ht.queues.mono (Nat.le_succ _) rfl⟩, rfl⟩
  | dict call =>
    have hother {r : MockServicer} (hwithin : Within dictDrawer w.servicer r) :
        Holds queueDrawer Eq "qu-".toList w.queueIds r a.queues := by
      obtain ⟨shelf, hstore⟩ := hwithin.store
      exact ht.queues.mono hwithin.counter (by rw [hstore]; rfl)
    cases call with
    | resolve name creationType =>
      obtain ⟨hholds, hseen, hwithin⟩ := ht.dicts.resolveName (V := V) elapsed "Dict".toList
        name "DictGetOrCreate".toList "dict_id".toList DictOp.offline DictOp.meaning dictRel_empty
        (fun _ _ _ _ => rfl) creationType
      exact ⟨⟨hholds, hother hwithin⟩, hseen⟩
    | delete handle =>
      obtain ⟨hholds, hseen, hwithin⟩ := ht.dicts.deleteHandle (V := V) elapsed "Dict".toList
        DictOp.offline DictOp.meaning (fun _ => none) (fun id s => s.deleteDict id)
        (fun _ _ => rfl) handle
      exact ⟨⟨hholds, hother hwithin⟩, hseen⟩
    | on handle op =>
      obtain ⟨hholds, hseen, hwithin⟩ := ht.dicts.on elapsed "Dict".toList
        DictOp.offline DictOp.meaning (fun _ => none) op (op.perform elapsed)
        (fun answer hanswer id t => op.perform_of_offline elapsed hanswer id t)
        (fun honline => by
          obtain ⟨β, f, finish, hperform, hsim⟩ := op.exists_serve elapsed honline
          exact ⟨β, f, finish, fun id => ObjectStore.onDict id f, fun _ _ => rfl, hperform, hsim⟩)
        handle
      exact ⟨⟨hholds, hother hwithin⟩, hseen⟩
  | queue call =>
    have hother {r : MockServicer} (hwithin : Within queueDrawer w.servicer r) :
        Holds dictDrawer DictRel "di-".toList w.dictIds r a.dicts := by
      obtain ⟨shelf, hstore⟩ := hwithin.store
      exact ht.dicts.mono hwithin.counter (by rw [hstore]; rfl)
    cases call with
    | resolve name creationType =>
      obtain ⟨hholds, hseen, hwithin⟩ := ht.queues.resolveName (V := V) elapsed "Queue".toList
        name "QueueGetOrCreate".toList "queue_id".toList QueueOp.offline QueueOp.meaning rfl
        (fun _ _ _ _ => rfl) creationType
      exact ⟨⟨hother hwithin, hholds⟩, hseen⟩
    | delete handle =>
      obtain ⟨hholds, hseen, hwithin⟩ := ht.queues.deleteHandle (V := V) elapsed "Queue".toList
        QueueOp.offline QueueOp.meaning [] (fun id s => s.deleteQueue id) (fun _ _ => rfl) handle
      exact ⟨⟨hother hwithin, hholds⟩, hseen⟩
    | on handle op =>
      obtain ⟨hholds, hseen, hwithin⟩ := ht.queues.on elapsed "Queue".toList
        QueueOp.offline QueueOp.meaning [] op (op.perform elapsed)
        (fun answer hanswer id t => op.perform_of_offline elapsed hanswer id t)
        (fun honline => by
          obtain ⟨β, f, finish, hperform, hsim⟩ := op.exists_serve elapsed honline
          refine ⟨β, f, finish, fun id => ObjectStore.onQueue id f, fun _ _ => rfl, hperform, ?_⟩
          rintro items _ rfl
          exact hsim items)
        handle
      exact ⟨⟨hother hwithin, hholds⟩, hseen⟩

/-- A run keeps the world in step with the meaning, and is answered as it means. -/
theorem Tracks.run {w : World} {a : Meaning} (ht : Tracks w a) (calls : List (Call V × (ℕ → ℕ))) :
    Tracks (w.run calls).1 (a.run (calls.map Prod.fst)).1 ∧
      (w.run calls).2.map Answer.seen = (a.run (calls.map Prod.fst)).2 := by
  induction calls generalizing w a with
  | nil => exact ⟨ht, rfl⟩
  | cons call calls ih =>
    obtain ⟨hnext, hseen⟩ := ht.step call.2 call.1
    obtain ⟨hrest, hanswers⟩ := ih hnext
    exact ⟨hrest, congrArg₂ List.cons hseen hanswers⟩

/-- **A dict is a map and a queue is a list**: every run of the typed calls of any clients on any
handles, with resolutions, deletions and retries at any time, is answered as the calls mean on the
lives of the objects. -/
theorem handles_refine_meaning (calls : List (Call V × (ℕ → ℕ))) :
    (World.start.run calls).2.map Answer.seen = (Meaning.start.run (calls.map Prod.fst)).2 :=
  (tracks_start.run calls).2

end ModalRust.Facade.Objects
