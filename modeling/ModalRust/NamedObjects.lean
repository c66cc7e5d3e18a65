import Mathlib.Data.List.Basic
import Mathlib.Data.List.Nodup
import Mathlib.Logic.Function.Basic

/-!
# Named objects behind ids

A store gives an id to each object that it creates under a name, and a client works with the id.
What a client can see of this does not depend on the ids: it is a history of lives, each from the
creation of an object to its deletion, and a handle is the position of a life. The lemmas show that
each operation of a store does to the history that it represents what the same operation does on
histories. Nothing in this file refers to a particular program.
-/

namespace ModalRust.NamedObjects

variable {N I α β γ : Type}

/-- Objects behind ids, and the ids that names have. -/
structure Shelf (N I α : Type) where
  /-- The id of each name. -/
  ids : N → Option I
  /-- The object of each id. -/
  objects : I → Option α

/-- A shelf without objects. -/
def Shelf.empty : Shelf N I α := ⟨fun _ => none, fun _ => none⟩

/-- The id of a name. If there is none, a new object is put under `candidate`, or nothing is
done. -/
def Shelf.resolve [DecidableEq N] [DecidableEq I] (s : Shelf N I α) (name : N) (create : Bool)
    (candidate : I) (new : α) : Shelf N I α × Option I :=
  match s.ids name with
  | some id => (s, some id)
  | none =>
    if create then
      (⟨Function.update s.ids name (some candidate),
        Function.update s.objects candidate (some new)⟩, some candidate)
    else (s, none)

/-- Delete an object and the name that leads to it. The flag tells whether it was there. -/
def Shelf.delete [DecidableEq I] (s : Shelf N I α) (id : I) : Shelf N I α × Bool :=
  match s.objects id with
  | none => (s, false)
  | some _ =>
    (⟨fun name => (s.ids name).filter (· ≠ id), Function.update s.objects id none⟩, true)

/-- Change an object and read from it, if it is there. -/
def Shelf.apply [DecidableEq I] (s : Shelf N I α) (id : I) (f : α → α × β) :
    Shelf N I α × Option β :=
  match s.objects id with
  | none => (s, none)
  | some object =>
    ({ s with objects := Function.update s.objects id (some (f object).1) }, some (f object).2)

/-- Reading something else from an object changes the store in the same way. -/
theorem Shelf.apply_map {δ : Type} [DecidableEq I] (s : Shelf N I α) (id : I) (f : α → α × β)
    (k : β → δ) : s.apply id (fun a => ((f a).1, k (f a).2)) =
      ((s.apply id f).1, (s.apply id f).2.map k) := by
  unfold Shelf.apply
  cases s.objects id <;> rfl

/-- One life under a name. -/
structure Life (N γ : Type) where
  /-- The name. -/
  name : N
  /-- The object, until it is deleted. -/
  object : Option γ

/-- The lives so far, the oldest first. -/
abbrev History (N γ : Type) := List (Life N γ)

/-- Whether a life goes on under a name. -/
def Life.isAlive [DecidableEq N] (name : N) (life : Life N γ) : Bool :=
  life.name = name && life.object.isSome

/-- The life under a name. If there is none, a new one begins, or nothing is done. -/
def History.resolve [DecidableEq N] (h : History N γ) (name : N) (create : Bool) (new : γ) :
    History N γ × Option ℕ :=
  match h.findIdx? (Life.isAlive name) with
  | some i => (h, some i)
  | none => if create then (h ++ [⟨name, some new⟩], some h.length) else (h, none)

/-- End a life. The flag tells whether it still went on. -/
def History.delete (h : History N γ) (i : ℕ) : History N γ × Bool :=
  match h[i]? with
  | some ⟨name, some _⟩ => (h.set i ⟨name, none⟩, true)
  | _ => (h, false)

/-- Change the object of a life and read from it, if the life goes on. -/
def History.apply (h : History N γ) (i : ℕ) (f : γ → γ × β) : History N γ × Option β :=
  match h[i]? with
  | some ⟨name, some object⟩ => (h.set i ⟨name, some (f object).1⟩, some (f object).2)
  | _ => (h, none)

/-- Reading something else from the object of a life changes the history in the same way. -/
theorem History.apply_map {δ : Type} (h : History N γ) (i : ℕ) (f : γ → γ × β) (k : β → δ) :
    History.apply h i (fun a => ((f a).1, k (f a).2)) =
      ((History.apply h i f).1, (History.apply h i f).2.map k) := by
  unfold History.apply
  rcases h[i]? with _ | ⟨name, _ | object⟩ <;> rfl

/-- A store represents a history: `given` are the ids of the lives, in order, and `Rel` relates the
object behind an id to the object of its life. -/
structure Represents (Rel : α → γ → Prop) (given : List I) (s : Shelf N I α)
    (h : History N γ) : Prop where
  /-- No id is given twice. -/
  nodup : given.Nodup
  /-- Every life has an id. -/
  length : given.length = h.length
  /-- The object of a life is the one behind its id. -/
  objects : ∀ (i : ℕ) (id : I) (life : Life N γ), given[i]? = some id → h[i]? = some life →
    Option.Rel Rel (s.objects id) life.object
  /-- There is nothing behind other ids. -/
  unused : ∀ id, id ∉ given → s.objects id = none
  /-- A name leads to the life that goes on under it. -/
  named : ∀ name id, s.ids name = some id ↔
    ∃ (i : ℕ) (object : γ), given[i]? = some id ∧ h[i]? = some ⟨name, some object⟩

/-- The ids that were given, after one more was returned. -/
def remember [DecidableEq I] (given : List I) : Option I → List I
  | none => given
  | some id => if id ∈ given then given else given ++ [id]

/-- The number of an id among those that were given. -/
def position [DecidableEq I] (given : List I) (id : I) : ℕ := given.idxOf id

/-- A store without objects represents the empty history. -/
theorem represents_empty (Rel : α → γ → Prop) :
    Represents Rel ([] : List I) (Shelf.empty : Shelf N I α) ([] : History N γ) where
  nodup := List.nodup_nil
  length := rfl
  objects := fun _ _ _ hid => by simp at hid
  unused := fun _ _ => rfl
  named := fun _ _ => by simp [Shelf.empty]

/-- The position of an entry of a list without repetitions. -/
theorem position_of_getElem? [DecidableEq I] {given : List I} (hnodup : given.Nodup) {i : ℕ}
    {id : I} (hid : given[i]? = some id) : position given id = i := by
  obtain ⟨hi, rfl⟩ := List.getElem?_eq_some_iff.mp hid
  exact List.get_idxOf hnodup ⟨i, hi⟩

/-- Two positions of one id are equal. -/
theorem eq_of_getElem? {given : List I} (hnodup : given.Nodup) {i j : ℕ} {id : I}
    (hi : given[i]? = some id) (hj : given[j]? = some id) : i = j := by
  obtain ⟨hlti, hgeti⟩ := List.getElem?_eq_some_iff.mp hi
  obtain ⟨hltj, hgetj⟩ := List.getElem?_eq_some_iff.mp hj
  exact (List.Nodup.getElem_inj_iff hnodup).mp (hgeti.trans hgetj.symm)

variable {Rel : α → γ → Prop} {given : List I} {s : Shelf N I α}
  {h : History N γ} {id : I} {i : ℕ}

/-- The life that goes on under a name that has an id. -/
theorem Represents.findIdx?_of_named [DecidableEq N] (hs : Represents Rel given s h) {name : N}
    (hname : s.ids name = some id) :
    ∃ i, h.findIdx? (Life.isAlive name) = some i ∧ given[i]? = some id := by
  obtain ⟨i, object, hid, hlife⟩ := (hs.named name id).mp hname
  cases hfind : h.findIdx? (Life.isAlive name) with
  | none =>
    have hdead := List.findIdx?_eq_none_iff.mp hfind _ (List.mem_of_getElem? hlife)
    simp [Life.isAlive] at hdead
  | some j =>
    obtain ⟨hj, halive, -⟩ := List.findIdx?_eq_some_iff_getElem.mp hfind
    obtain ⟨hsame, hobject⟩ : h[j].name = name ∧ h[j].object.isSome = true := by
      simpa [Life.isAlive] using halive
    obtain ⟨object', hobject'⟩ := Option.isSome_iff_exists.mp hobject
    have hlen : j < given.length := by
      rw [hs.length]
      exact hj
    have hlife' : h[j]? = some ⟨name, some object'⟩ := by
      rw [List.getElem?_eq_getElem hj, ← hsame, ← hobject']
    have hids := (hs.named name given[j]).mpr
      ⟨j, object', List.getElem?_eq_getElem hlen, hlife'⟩
    rw [hname] at hids
    refine ⟨j, rfl, ?_⟩
    rw [List.getElem?_eq_getElem hlen, ← Option.some.inj hids]

/-- Under a name without an id no life goes on. -/
theorem Represents.findIdx?_of_unnamed [DecidableEq N] (hs : Represents Rel given s h) {name : N}
    (hname : s.ids name = none) : h.findIdx? (Life.isAlive name) = none := by
  rw [List.findIdx?_eq_none_iff]
  intro life hlife
  obtain ⟨j, hj, rfl⟩ := List.mem_iff_getElem.mp hlife
  rw [← Bool.not_eq_true]
  intro halive
  obtain ⟨hsame, hobject⟩ : h[j].name = name ∧ h[j].object.isSome = true := by
    simpa [Life.isAlive] using halive
  obtain ⟨object, hobject⟩ := Option.isSome_iff_exists.mp hobject
  have hlen : j < given.length := by
    rw [hs.length]
    exact hj
  have hids := (hs.named name given[j]).mpr ⟨j, object, List.getElem?_eq_getElem hlen, by
    rw [List.getElem?_eq_getElem hj, ← hsame, ← hobject]⟩
  rw [hname] at hids
  cases hids

/-- A new object under an id that was never given begins a life. -/
theorem Represents.append [DecidableEq N] [DecidableEq I] (hs : Represents Rel given s h)
    {name : N} (hname : s.ids name = none) {candidate : I} (hfresh : candidate ∉ given) {new : α}
    {new' : γ} (hnew : Rel new new') :
    Represents Rel (given ++ [candidate])
      ⟨Function.update s.ids name (some candidate),
        Function.update s.objects candidate (some new)⟩ (h ++ [⟨name, some new'⟩]) where
  nodup := List.nodup_append.mpr ⟨hs.nodup, List.nodup_singleton _, by
    rintro a ha b hb rfl
    rw [List.mem_singleton] at hb
    exact hfresh (hb ▸ ha)⟩
  length := by
    rw [List.length_append, List.length_append, hs.length]
    rfl
  objects := by
    intro i id life hid hlife
    rcases Nat.lt_trichotomy i given.length with hi | hi | hi
    · rw [List.getElem?_append_left hi] at hid
      rw [List.getElem?_append_left (hs.length ▸ hi)] at hlife
      have hne : id ≠ candidate := by
        rintro rfl
        exact hfresh (List.mem_of_getElem? hid)
      change Option.Rel Rel (Function.update s.objects candidate (some new) id) life.object
      rw [Function.update_of_ne hne]
      exact hs.objects i id life hid hlife
    · rw [hi, List.getElem?_concat_length] at hid
      rw [hi, hs.length, List.getElem?_concat_length] at hlife
      cases hid
      cases hlife
      change Option.Rel Rel (Function.update s.objects candidate (some new) candidate) (some new')
      rw [Function.update_self]
      exact .some hnew
    · rw [List.getElem?_eq_none (by rw [List.length_append]; exact hi)] at hid
      cases hid
  unused := by
    intro id hid
    rw [List.mem_append, not_or, List.mem_singleton] at hid
    change Function.update s.objects candidate (some new) id = none
    rw [Function.update_of_ne hid.2]
    exact hs.unused id hid.1
  named := by
    intro name' id
    change Function.update s.ids name (some candidate) name' = some id ↔ _
    by_cases hsame : name' = name
    · rw [hsame, Function.update_self]
      constructor
      · intro hid
        cases hid
        refine ⟨given.length, new', List.getElem?_concat_length, ?_⟩
        rw [hs.length]
        exact List.getElem?_concat_length
      · rintro ⟨i, object, hid, hlife⟩
        rcases Nat.lt_or_ge i given.length with hi | hi
        · rw [List.getElem?_append_left hi] at hid
          rw [List.getElem?_append_left (hs.length ▸ hi)] at hlife
          have hids := (hs.named name id).mpr ⟨i, object, hid, hlife⟩
          rw [hname] at hids
          cases hids
        · rw [List.getElem?_append_right hi, List.getElem?_singleton] at hid
          split at hid
          · exact hid
          · cases hid
    · rw [Function.update_of_ne hsame, hs.named]
      constructor
      · rintro ⟨i, object, hid, hlife⟩
        have hi : i < given.length := (List.getElem?_eq_some_iff.mp hid).1
        refine ⟨i, object, ?_, ?_⟩
        · rw [List.getElem?_append_left hi]
          exact hid
        · rw [List.getElem?_append_left (hs.length ▸ hi)]
          exact hlife
      · rintro ⟨i, object, hid, hlife⟩
        rcases Nat.lt_or_ge i given.length with hi | hi
        · rw [List.getElem?_append_left hi] at hid
          rw [List.getElem?_append_left (hs.length ▸ hi)] at hlife
          exact ⟨i, object, hid, hlife⟩
        · rw [List.getElem?_append_right (hs.length ▸ hi), List.getElem?_singleton] at hlife
          split at hlife
          · cases hlife
            exact absurd rfl hsame
          · cases hlife

/-- Resolving a name does to the store what it does to the history, and returns the id of the life
that the history returns. -/
theorem Represents.resolve [DecidableEq N] [DecidableEq I] (hs : Represents Rel given s h)
    (name : N) (create : Bool) {candidate : I} (hfresh : candidate ∉ given) {new : α} {new' : γ}
    (hnew : Rel new new') :
    Represents Rel (remember given (s.resolve name create candidate new).2)
        (s.resolve name create candidate new).1 (History.resolve h name create new').1 ∧
      (s.resolve name create candidate new).2.map
          (position (remember given (s.resolve name create candidate new).2)) =
        (History.resolve h name create new').2 := by
  unfold Shelf.resolve History.resolve
  cases hname : s.ids name with
  | some id =>
    obtain ⟨i, hfind, hid⟩ := hs.findIdx?_of_named hname
    rw [hfind]
    dsimp only
    rw [remember, if_pos (List.mem_of_getElem? hid)]
    exact ⟨hs, congrArg some (position_of_getElem? hs.nodup hid)⟩
  | none =>
    rw [hs.findIdx?_of_unnamed hname]
    cases create with
    | false => exact ⟨hs, rfl⟩
    | true =>
      dsimp only
      rw [if_pos rfl, if_pos rfl, remember, if_neg hfresh]
      have hnext := hs.append hname hfresh hnew
      have hidx : position (given ++ [candidate]) candidate = h.length :=
        (position_of_getElem? hnext.nodup List.getElem?_concat_length).trans hs.length
      exact ⟨hnext, congrArg some hidx⟩

/-- The life of an id goes on exactly if there is an object behind it. -/
theorem Represents.exists_life (hs : Represents Rel given s h) (hid : given[i]? = some id) :
    (s.objects id = none ∧ ∃ name, h[i]? = some ⟨name, none⟩) ∨
      ∃ object name object', s.objects id = some object ∧ h[i]? = some ⟨name, some object'⟩ ∧
        Rel object object' := by
  have hi : i < h.length := by
    rw [← hs.length]
    exact (List.getElem?_eq_some_iff.mp hid).1
  have hget : h[i]? = some h[i] := List.getElem?_eq_getElem hi
  have hrel := hs.objects i id _ hid hget
  generalize h[i] = life at hget hrel
  obtain ⟨name, object'⟩ := life
  change Option.Rel Rel (s.objects id) object' at hrel
  cases hobject : s.objects id with
  | none =>
    rw [hobject] at hrel
    cases hrel
    exact .inl ⟨rfl, name, hget⟩
  | some object =>
    rw [hobject] at hrel
    cases hrel with
    | some hobjects => exact .inr ⟨object, name, _, rfl, hget, hobjects⟩

/-- The store after an object was replaced. -/
theorem Represents.set [DecidableEq I] (hs : Represents Rel given s h) (hid : given[i]? = some id)
    {name : N} {old : γ} (hlife : h[i]? = some ⟨name, some old⟩) {object : α} {object' : γ}
    (hrel : Rel object object') :
    Represents Rel given { s with objects := Function.update s.objects id (some object) }
      (h.set i ⟨name, some object'⟩) where
  nodup := hs.nodup
  length := by
    rw [List.length_set]
    exact hs.length
  objects := by
    intro j id' life hid' hlife'
    change Option.Rel Rel (Function.update s.objects id (some object) id') life.object
    by_cases hj : j = i
    · subst hj
      rw [hid] at hid'
      cases hid'
      rw [List.getElem?_set_self (List.getElem?_eq_some_iff.mp hlife).1] at hlife'
      cases hlife'
      rw [Function.update_self]
      exact .some hrel
    · rw [List.getElem?_set_ne (Ne.symm hj)] at hlife'
      have hne : id' ≠ id := by
        rintro rfl
        exact hj (eq_of_getElem? hs.nodup hid' hid)
      rw [Function.update_of_ne hne]
      exact hs.objects j id' life hid' hlife'
  unused := by
    intro id' hid'
    change Function.update s.objects id (some object) id' = none
    rw [Function.update_of_ne]
    · exact hs.unused id' hid'
    · rintro rfl
      exact hid' (List.mem_of_getElem? hid)
  named := by
    intro name' id'
    change s.ids name' = some id' ↔ _
    rw [hs.named]
    constructor
    · rintro ⟨j, o, hid', hlife'⟩
      by_cases hj : j = i
      · subst hj
        rw [hlife] at hlife'
        cases hlife'
        exact ⟨j, object', hid', List.getElem?_set_self (List.getElem?_eq_some_iff.mp hlife).1⟩
      · exact ⟨j, o, hid', by rw [List.getElem?_set_ne (Ne.symm hj)]; exact hlife'⟩
    · rintro ⟨j, o, hid', hlife'⟩
      by_cases hj : j = i
      · subst hj
        rw [List.getElem?_set_self (List.getElem?_eq_some_iff.mp hlife).1] at hlife'
        cases hlife'
        exact ⟨j, old, hid', hlife⟩
      · rw [List.getElem?_set_ne (Ne.symm hj)] at hlife'
        exact ⟨j, o, hid', hlife'⟩

/-- Working on an object does to the store what it does to the history. -/
theorem Represents.apply [DecidableEq I] (hs : Represents Rel given s h) (hid : given[i]? = some id)
    {f : α → α × β} {g : γ → γ × β}
    (hsim : ∀ a c, Rel a c → Rel (f a).1 (g c).1 ∧ (f a).2 = (g c).2) :
    Represents Rel given (s.apply id f).1 (History.apply h i g).1 ∧
      (s.apply id f).2 = (History.apply h i g).2 := by
  unfold Shelf.apply History.apply
  rcases hs.exists_life hid with
    ⟨hobject, name, hlife⟩ | ⟨object, name, object', hobject, hlife, hrel⟩
  · rw [hobject, hlife]
    exact ⟨hs, rfl⟩
  · rw [hobject, hlife]
    obtain ⟨hnext, hvalue⟩ := hsim object object' hrel
    exact ⟨hs.set hid hlife hnext, congrArg some hvalue⟩

/-- Deleting an object does to the store what it does to the history. -/
theorem Represents.delete [DecidableEq I] (hs : Represents Rel given s h)
    (hid : given[i]? = some id) :
    Represents Rel given (s.delete id).1 (History.delete h i).1 ∧
      (s.delete id).2 = (History.delete h i).2 := by
  unfold Shelf.delete History.delete
  rcases hs.exists_life hid with
    ⟨hobject, name, hlife⟩ | ⟨object, name, object', hobject, hlife, hrel⟩
  · rw [hobject, hlife]
    exact ⟨hs, rfl⟩
  rw [hobject, hlife]
  have hi := (List.getElem?_eq_some_iff.mp hlife).1
  refine ⟨?_, rfl⟩
  constructor
  · exact hs.nodup
  · rw [List.length_set]
    exact hs.length
  · intro j id' life hid' hlife'
    change Option.Rel Rel (Function.update s.objects id none id') life.object
    by_cases hj : j = i
    · subst hj
      rw [hid] at hid'
      cases hid'
      rw [List.getElem?_set_self hi] at hlife'
      cases hlife'
      rw [Function.update_self]
      exact .none
    · rw [List.getElem?_set_ne (Ne.symm hj)] at hlife'
      have hne : id' ≠ id := by
        rintro rfl
        exact hj (eq_of_getElem? hs.nodup hid' hid)
      rw [Function.update_of_ne hne]
      exact hs.objects j id' life hid' hlife'
  · intro id' hid'
    change Function.update s.objects id none id' = none
    rw [Function.update_of_ne]
    · exact hs.unused id' hid'
    · rintro rfl
      exact hid' (List.mem_of_getElem? hid)
  · intro name' id'
    change (s.ids name').filter (· ≠ id) = some id' ↔ _
    rw [Option.filter_eq_some_iff, hs.named]
    constructor
    · rintro ⟨⟨j, o, hid', hlife'⟩, hne⟩
      have hj : j ≠ i := by
        rintro rfl
        rw [hid] at hid'
        cases hid'
        simp at hne
      exact ⟨j, o, hid', by rw [List.getElem?_set_ne (Ne.symm hj)]; exact hlife'⟩
    · rintro ⟨j, o, hid', hlife'⟩
      by_cases hj : j = i
      · subst hj
        rw [List.getElem?_set_self hi] at hlife'
        cases hlife'
      · rw [List.getElem?_set_ne (Ne.symm hj)] at hlife'
        refine ⟨⟨j, o, hid', hlife'⟩, ?_⟩
        rw [decide_eq_true_eq]
        rintro rfl
        exact hj (eq_of_getElem? hs.nodup hid' hid)

/-- The object of a life, if the life goes on. -/
def History.objectAt (h : History N γ) (i : ℕ) : Option γ := (h[i]?).bind Life.object

/-- Resolving a name keeps all objects, and a life that begins has the new one. -/
theorem History.objectAt_resolve [DecidableEq N] (h : History N γ) (name : N) (create : Bool)
    (new : γ) (i : ℕ) :
    (h.resolve name create new).1.objectAt i =
      if (h.resolve name create new).2 = some i then some ((h.objectAt i).getD new)
      else h.objectAt i := by
  unfold History.resolve
  cases hfind : h.findIdx? (Life.isAlive name) with
  | some j =>
    dsimp only
    by_cases hj : some j = some i
    · cases hj
      obtain ⟨hi, halive, -⟩ := List.findIdx?_eq_some_iff_getElem.mp hfind
      obtain ⟨-, hobject⟩ : h[i].name = name ∧ h[i].object.isSome = true := by
        simpa [Life.isAlive] using halive
      obtain ⟨object, hobject⟩ := Option.isSome_iff_exists.mp hobject
      have hat : h.objectAt i = some object := by
        unfold History.objectAt
        rw [List.getElem?_eq_getElem hi]
        exact hobject
      rw [if_pos rfl, hat]
      rfl
    · rw [if_neg hj]
  | none =>
    cases create with
    | false =>
      dsimp only
      rw [if_neg (by simp), if_neg (by simp)]
    | true =>
      dsimp only
      rw [if_pos rfl]
      unfold History.objectAt
      rcases Nat.lt_trichotomy i h.length with hi | hi | hi
      · rw [if_neg (by simp; omega), List.getElem?_append_left hi]
      · subst hi
        rw [if_pos (by simp), List.getElem?_concat_length, List.getElem?_eq_none (Nat.le_refl _)]
        rfl
      · rw [if_neg (by simp; omega), List.getElem?_eq_none (by simp; omega),
          List.getElem?_eq_none (by omega)]

/-- Deleting ends one life and keeps the others. -/
theorem History.objectAt_delete (h : History N γ) (n i : ℕ) :
    (h.delete n).1.objectAt i = if n = i then none else h.objectAt i := by
  unfold History.delete History.objectAt
  by_cases hn : n = i
  · subst hn
    rw [if_pos rfl]
    rcases hlife : h[n]? with _ | ⟨name, _ | object⟩
    · rw [hlife]
      rfl
    · rw [hlife]
      rfl
    · rw [List.getElem?_set_self (List.getElem?_eq_some_iff.mp hlife).1]
      rfl
  · rw [if_neg hn]
    rcases h[n]? with _ | ⟨name, _ | object⟩
    · rfl
    · rfl
    · dsimp only
      rw [List.getElem?_set_ne hn]

/-- Working on the object of one life changes that one, if the life goes on. -/
theorem History.objectAt_apply (h : History N γ) (f : γ → γ × β) (n i : ℕ) :
    (h.apply n f).1.objectAt i =
      if n = i then (h.objectAt i).map fun o => (f o).1 else h.objectAt i := by
  unfold History.apply History.objectAt
  by_cases hn : n = i
  · subst hn
    rw [if_pos rfl]
    rcases hlife : h[n]? with _ | ⟨name, _ | object⟩
    · rw [hlife]
      rfl
    · rw [hlife]
      rfl
    · rw [List.getElem?_set_self (List.getElem?_eq_some_iff.mp hlife).1]
      rfl
  · rw [if_neg hn]
    rcases h[n]? with _ | ⟨name, _ | object⟩
    · rfl
    · rfl
    · dsimp only
      rw [List.getElem?_set_ne hn]

/-- What is read from the object of a life. -/
theorem History.snd_apply (h : History N γ) (f : γ → γ × β) (n : ℕ) :
    (h.apply n f).2 = (h.objectAt n).map fun o => (f o).2 := by
  unfold History.apply History.objectAt
  rcases h[n]? with _ | ⟨name, _ | object⟩ <;> rfl

end ModalRust.NamedObjects
