import ModalRust.Facade.ObjectsAgree

/-!
# What handles see over a run

Two facts about every run of the calls of dict and queue handles, whoever makes the calls and
whatever else happens on other objects in between. A read of a dict returns what was last written
under its key. What was put into a queue is taken in that order, each item once, or is still there.
-/

namespace ModalRust.Facade.Objects

open NamedObjects Testkit
open Sdk (StrKey)

variable {V ε : Type}

/-- What a dict call does to the value of a key. -/
def DictOp.write (key : StrKey) : DictOp V → Option Bytes → Option Bytes
  | .put k (.ok bytes), value => if k = key then some bytes else value
  | .putIfAbsent k (.ok bytes), value => if k = key then value.or (some bytes) else value
  | .pop k _, value => if k = key then none else value
  | .clear, _ => none
  | _, value => value

/-- The value of a key of one dict after a call: `none` if there is no such dict. -/
def observe (i : ℕ) (key : StrKey) (seen : Option (Option Bytes)) :
    Call V × Answer ε V → Option (Option Bytes)
  | (.dict (.resolve _ _), .handle n) => if n = i then some (seen.getD none) else seen
  | (.dict (.delete n), _) => if n = i then none else seen
  | (.dict (.on n op), _) => if n = i then seen.map (op.write key) else seen
  | _ => seen

/-- What was last written under a key of one dict, from the calls and their answers alone. -/
def lastWrite (i : ℕ) (key : StrKey) (events : List (Call V × Answer ε V)) :
    Option (Option Bytes) :=
  events.foldl (observe i key) none

/-- A call means to its key what it writes. -/
theorem DictOp.meaning_apply (op : DictOp V) (d : DictMeaning) (key : StrKey) :
    (op.meaning d).1 key = op.write key (d key) := by
  match op with
  | .get _ _ | .put _ (.error _) | .putIfAbsent _ (.error _) | .contains _ | .len | .clear => rfl
  | .put k (.ok bytes) =>
    change Function.update d k (some bytes) key = if k = key then some bytes else d key
    by_cases hk : k = key
    · rw [hk, Function.update_self, if_pos rfl]
    · rw [Function.update_of_ne (Ne.symm hk), if_neg hk]
  | .putIfAbsent k (.ok bytes) =>
    change (if (d k).isSome then d else Function.update d k (some bytes)) key =
      if k = key then (d key).or (some bytes) else d key
    by_cases hk : k = key
    · subst hk
      rw [if_pos rfl]
      cases hd : d k with
      | none => rw [if_neg (by simp), Function.update_self, Option.none_or]
      | some v =>
        rw [if_pos (Option.isSome_some), Option.some_or]
        exact hd
    · rw [if_neg hk]
      split
      · rfl
      · rw [Function.update_of_ne (Ne.symm hk)]
  | .pop k _ =>
    change Function.update d k none key = if k = key then none else d key
    by_cases hk : k = key
    · rw [hk, Function.update_self, if_pos rfl]
    · rw [Function.update_of_ne (Ne.symm hk), if_neg hk]

/-- A call for which nothing is sent writes nothing. -/
theorem DictOp.write_of_offline {op : DictOp V} {answer : Except Text (Reply V)}
    (hoffline : op.offline = some answer) (key : StrKey) (value : Option Bytes) :
    op.write key value = value := by
  match op with
  | .put _ (.error _) | .putIfAbsent _ (.error _) => rfl

/-- The meaning of a resolution, taken apart. -/
theorem meaning_resolve {Op γ : Type} (offline : Op → Option (Except Text (Reply V)))
    (meaning : Op → γ → γ × Except Text (Reply V)) (new : γ) (h : History Text γ) (name : Text)
    (creationType : ObjectCreationType) :
    let r := h.resolve name (decide (creationType ≠ .unspecified)) new
    NamedCall.meaning offline meaning new h (.resolve name creationType) =
      (r.1, match r.2 with
        | some i => .handle i
        | none => .failed .absent) := by
  unfold NamedCall.meaning
  dsimp only
  rcases h.resolve name (decide (creationType ≠ .unspecified)) new with ⟨h', _ | i⟩
  · rfl
  · rfl

/-- A call on a handle beyond those that were given finds no object. -/
theorem objectAt_of_le {γ : Type} {h : History Text γ} {n : ℕ} (hn : ¬ n < h.length) :
    h.objectAt n = none := by
  unfold History.objectAt
  rw [List.getElem?_eq_none (by omega)]
  rfl

section Meaning

variable {Op γ : Type} (offline : Op → Option (Except Text (Reply V)))
  (meaning : Op → γ → γ × Except Text (Reply V)) (new : γ) (h : History Text γ)

/-- A deletion ends one life. -/
theorem objectAt_meaning_delete (n i : ℕ) :
    (NamedCall.meaning offline meaning new h (.delete n)).1.objectAt i =
      if n = i then none else h.objectAt i := by
  unfold NamedCall.meaning
  by_cases hn : n < h.length
  · dsimp only
    rw [if_pos hn]
    exact History.objectAt_delete h n i
  · dsimp only
    rw [if_neg hn]
    by_cases hi : n = i
    · rw [if_pos hi, ← hi]
      exact objectAt_of_le hn
    · rw [if_neg hi]

/-- A call on a handle for which nothing is sent keeps all objects. -/
theorem objectAt_meaning_of_offline {op : Op} {answer : Except Text (Reply V)}
    (hoffline : offline op = some answer) (n i : ℕ) :
    (NamedCall.meaning offline meaning new h (.on n op)).1.objectAt i = h.objectAt i := by
  unfold NamedCall.meaning
  dsimp only
  rw [hoffline]
  split <;> rfl

/-- A call on a handle for which something is sent works on one object. -/
theorem objectAt_meaning_of_online {op : Op} (honline : offline op = none) (n i : ℕ) :
    (NamedCall.meaning offline meaning new h (.on n op)).1.objectAt i =
      if n = i then (h.objectAt i).map fun o => (meaning op o).1 else h.objectAt i := by
  unfold NamedCall.meaning
  dsimp only
  rw [honline]
  by_cases hn : n < h.length
  · rw [if_pos hn, ← History.objectAt_apply]
    dsimp only
    rcases h.apply n (meaning op) with ⟨h', _ | answer⟩ <;> rfl
  · rw [if_neg hn]
    by_cases hi : n = i
    · rw [if_pos hi, ← hi, objectAt_of_le hn]
      rfl
    · rw [if_neg hi]

/-- The answer to a call on a handle for which something is sent. -/
theorem answer_of_online {op : Op} (honline : offline op = none) (n : ℕ) :
    (NamedCall.meaning offline meaning new h (.on n op)).2 =
      match h.objectAt n with
      | some o => .ofText (meaning op o).2
      | none => if n < h.length then .failed .absent else .noHandle := by
  unfold NamedCall.meaning
  dsimp only
  rw [honline]
  by_cases hn : n < h.length
  · have hread := History.snd_apply h (meaning op) n
    rw [if_pos hn, if_pos hn]
    dsimp only
    rcases hresult : h.apply n (meaning op) with ⟨h', _ | answer⟩
    · rw [hresult] at hread
      rw [Option.map_eq_none_iff.mp hread.symm]
    · rw [hresult] at hread
      obtain ⟨o, ho, heq⟩ := Option.map_eq_some_iff.mp hread.symm
      rw [ho, ← heq]
  · rw [if_neg hn, if_neg hn, objectAt_of_le hn]

end Meaning

/-- A call does to the value of a key what is observed of it. -/
theorem observe_step (a : Meaning) (call : Call V) (i : ℕ) (key : StrKey) :
    ((a.step call).1.dicts.objectAt i).map (· key) =
      observe i key ((a.dicts.objectAt i).map (· key)) (call, (a.step call).2) := by
  match call with
  | .drawId | .queue _ => rfl
  | .dict (.resolve name creationType) =>
    have hmeaning := meaning_resolve (V := V) DictOp.offline DictOp.meaning (fun _ => none) a.dicts
      name creationType
    change (History.objectAt (NamedCall.meaning _ _ _ _ _).1 i).map _ =
      observe i key _ (_, (NamedCall.meaning _ _ _ _ _).2)
    rw [hmeaning]
    dsimp only
    rw [History.objectAt_resolve]
    cases (a.dicts.resolve name (decide (creationType ≠ .unspecified)) fun _ => none).2 with
    | none => rfl
    | some n =>
      change _ = if n = i then some (((a.dicts.objectAt i).map (· key)).getD none) else _
      by_cases hn : n = i
      · rw [if_pos (congrArg some hn), if_pos hn]
        cases a.dicts.objectAt i <;> rfl
      · rw [if_neg fun heq => hn (Option.some.inj heq), if_neg hn]
  | .dict (.delete n) =>
    have hnext := objectAt_meaning_delete (V := V) DictOp.offline DictOp.meaning (fun _ => none)
      a.dicts n i
    change (History.objectAt (NamedCall.meaning _ _ _ _ _).1 i).map _ = if n = i then none else _
    rw [hnext]
    split <;> rfl
  | .dict (.on n op) =>
    change (History.objectAt (NamedCall.meaning _ _ _ _ _).1 i).map _ =
      if n = i then ((a.dicts.objectAt i).map (· key)).map (op.write key) else _
    cases hoffline : op.offline with
    | some answer =>
      rw [objectAt_meaning_of_offline DictOp.offline DictOp.meaning _ a.dicts hoffline]
      have hsame : op.write key = id := funext (op.write_of_offline hoffline key)
      rw [hsame, Option.map_id_fun, id, ite_self]
    | none =>
      rw [objectAt_meaning_of_online DictOp.offline DictOp.meaning _ a.dicts hoffline]
      split
      · cases a.dicts.objectAt i with
        | none => rfl
        | some d => exact congrArg some (op.meaning_apply d key)
      · rfl

/-- Over a run of meanings, the value of a key is what was last written. -/
theorem foldl_observe (a : Meaning) (calls : List (Call V)) (i : ℕ) (key : StrKey) :
    ((a.run calls).1.dicts.objectAt i).map (· key) =
      (calls.zip (a.run calls).2).foldl (observe i key) ((a.dicts.objectAt i).map (· key)) := by
  induction calls generalizing a with
  | nil => rfl
  | cons call calls ih =>
    rw [show (a.run (call :: calls)).1 = ((a.step call).1.run calls).1 from rfl, ih,
      observe_step a call i key]
    rfl

/-- **Reads see the last write**: after every run of calls of any clients, a get through a handle
returns what the calls so far have last written under the key in that dict, decoded, and fails as
absent if the dict was deleted. -/
theorem get_returns_last_write (calls : List (Call V × (ℕ → ℕ))) (elapsed : ℕ → ℕ) (i : ℕ)
    (key : StrKey) (decode : Bytes → Except Text V) :
    let r := World.start.run calls
    (r.1.step elapsed (.dict (.on i (.get key decode)))).2.seen =
      match lastWrite i key ((calls.map Prod.fst).zip (r.2.map Answer.seen)) with
      | some value => .ofText (decodedValue decode value)
      | none => if i < r.1.dictIds.length then .failed .absent else .noHandle := by
  intro r
  obtain ⟨htracks, hanswers⟩ := tracks_start.run calls
  have hstep := (htracks.step elapsed (.dict (.on i (.get key decode)))).2
  change (r.1.step elapsed _).2.seen = _ at hstep
  rw [hstep, show r.2.map Answer.seen = _ from hanswers]
  have hlast := foldl_observe .start (calls.map Prod.fst) i key
  change _ = lastWrite i key _ at hlast
  rw [← hlast, show r.1.dictIds.length = _ from htracks.dicts.represents.length]
  generalize (Meaning.start.run (calls.map Prod.fst)).1 = a
  have hanswer := answer_of_online DictOp.offline DictOp.meaning (fun _ => none) a.dicts
    (show DictOp.offline (.get key decode) = none from rfl) i
  change (NamedCall.meaning _ _ _ _ _).2 = _
  rw [hanswer]
  cases a.dicts.objectAt i <;> rfl

/-- What a queue call puts into the queue, if it returns. -/
def QueueOp.pushed : QueueOp V → List Bytes
  | .put (.ok bytes) => [bytes]
  | .putMany values => ((values.mapM id : Except Text (List Bytes)).toOption).getD []
  | _ => []

/-- What a call puts into one queue. -/
def pushedBy (i : ℕ) : Call V × Answer ε V → List Bytes
  | (.queue (.on n op), .reply _) => if n = i then op.pushed else []
  | _ => []

/-- The first item, decoded. -/
def firstValue (decode : Bytes → Except Text V) (items : List Bytes) : Except Text (Reply V) :=
  decodedValue decode items.head?

/-- A queue call that got this answer took these items out of the queue. -/
def QueueOp.Takes (op : QueueOp V) (answer : Answer Failure V) (items : List Bytes) : Prop :=
  match op with
  | .get decode => items.length ≤ 1 ∧ (answer = .ofText (firstValue decode items) ∨
      items = [] ∧ (answer = .failed .absent ∨ answer = .noHandle))
  | .getMany n decode => items.length ≤ batch n ∧
      (answer = .ofText ((items.mapM decode).map .values) ∨
        items = [] ∧ (answer = .failed .absent ∨ answer = .noHandle))
  | .clear => True
  | _ => items = []

/-- A call that got this answer took these items out of one queue. -/
def Takes (i : ℕ) (event : Call V × Answer Failure V) (items : List Bytes) : Prop :=
  match event.1 with
  | .queue (.on n op) => if n = i then op.Takes event.2 items else items = []
  | .queue (.delete n) => n = i ∨ items = []
  | _ => items = []

/-- A call that leaves nothing in one queue. -/
def Empties (i : ℕ) : Call V → Prop
  | .queue (.on n .clear) | .queue (.delete n) => n = i
  | _ => False

/-- The items of one queue, none if it was deleted. -/
def itemsAt (h : History Text (List Bytes)) (i : ℕ) : List Bytes := (h.objectAt i).getD []

/-- A queue call takes items from the front, and puts what it pushes at the back. A clear takes
all. -/
theorem QueueOp.takes_meaning (op : QueueOp V) (honline : op.offline = none)
    (items : List Bytes) :
    ∃ taken, op.Takes (.ofText (op.meaning items).2) taken ∧ (op = .clear → taken = items) ∧
      items ++ pushedBy 0 (.queue (.on 0 op), (Answer.ofText (op.meaning items).2)) =
        taken ++ (op.meaning items).1 := by
  match op with
  | .put (.ok bytes) => exact ⟨[], rfl, nofun, rfl⟩
  | .putMany values =>
    obtain ⟨first, rest, hencode⟩ := QueueOp.exists_encoded honline
    rw [QueueOp.meaning_putMany hencode]
    refine ⟨[], rfl, nofun, ?_⟩
    change items ++ ((values.mapM id : Except Text (List Bytes)).toOption).getD [] = _
    rw [hencode]
    rfl
  | .get decode =>
    refine ⟨items.take 1, ⟨List.length_take_le 1 items, .inl ?_⟩, nofun, ?_⟩
    · cases items <;> rfl
    · rw [show pushedBy 0 _ = [] by cases (QueueOp.get decode).meaning items |>.2 <;> rfl,
        List.append_nil]
      exact (List.take_append_drop 1 items).symm
  | .getMany n decode =>
    refine ⟨items.take (batch n), ⟨List.length_take_le _ items, .inl rfl⟩, nofun, ?_⟩
    rw [show pushedBy 0 _ = [] by cases (QueueOp.getMany n decode).meaning items |>.2 <;> rfl,
      List.append_nil]
    exact (List.take_append_drop (batch n) items).symm
  | .len => exact ⟨[], rfl, nofun, List.append_nil _⟩
  | .clear => exact ⟨items, trivial, fun _ => rfl, rfl⟩

/-- A queue call for which nothing is sent takes and pushes nothing. -/
theorem QueueOp.takes_of_offline {op : QueueOp V} {answer : Except Text (Reply V)}
    (hoffline : op.offline = some answer) (seen : Answer Failure V) (n i : ℕ) :
    op.Takes seen [] ∧ (seen = .ofText answer ∨ seen = .noHandle →
      pushedBy i (.queue (.on n op), seen) = []) := by
  match op with
  | .put (.error e) =>
    refine ⟨rfl, ?_⟩
    cases hoffline
    rintro (rfl | rfl)
    · rfl
    · rfl
  | .putMany values =>
    refine ⟨rfl, ?_⟩
    rintro (rfl | rfl)
    · cases hencode : (values.mapM id : Except Text (List Bytes)) with
      | error e =>
        rw [QueueOp.offline_of_error hencode] at hoffline
        cases hoffline
        rfl
      | ok bytes =>
        cases bytes with
        | nil =>
          rw [QueueOp.offline_of_nil hencode] at hoffline
          cases hoffline
          change (if n = i then ((values.mapM id : Except Text (List Bytes)).toOption).getD []
            else []) = []
          rw [hencode]
          exact ite_self _
        | cons first rest =>
          rw [QueueOp.offline_of_cons hencode] at hoffline
          cases hoffline
    · rfl

/-- A call that fails takes and pushes nothing. -/
theorem QueueOp.takes_of_absent (op : QueueOp V) (seen : Answer Failure V)
    (hseen : seen = .failed .absent ∨ seen = .noHandle) (n i : ℕ) :
    op.Takes seen [] ∧ pushedBy i (.queue (.on n op), seen) = [] := by
  refine ⟨?_, by rcases hseen with rfl | rfl <;> rfl⟩
  cases op with
  | put value => rfl
  | putMany values => rfl
  | get decode => exact ⟨Nat.zero_le _, .inr ⟨rfl, hseen⟩⟩
  | getMany count decode => exact ⟨Nat.zero_le _, .inr ⟨rfl, hseen⟩⟩
  | len => rfl
  | clear => trivial

/-- The answer to a call on a handle for which nothing is sent. -/
theorem answer_of_offline {Op γ : Type} (offline : Op → Option (Except Text (Reply V)))
    (meaning : Op → γ → γ × Except Text (Reply V)) (new : γ) (h : History Text γ) {op : Op}
    {answer : Except Text (Reply V)} (hoffline : offline op = some answer) (n : ℕ) :
    (NamedCall.meaning offline meaning new h (.on n op)).2 = .ofText answer ∨
      (NamedCall.meaning offline meaning new h (.on n op)).2 = .noHandle := by
  unfold NamedCall.meaning
  dsimp only
  rw [hoffline]
  split
  · exact .inl rfl
  · exact .inr rfl

/-- What is pushed on one queue does not depend on its number. -/
theorem pushedBy_self (i : ℕ) (op : QueueOp V) (answer : Answer ε V) :
    pushedBy i (.queue (.on i op), answer) = pushedBy 0 (.queue (.on 0 op), answer) := by
  cases answer with
  | reply r =>
    change (if i = i then op.pushed else []) = (if 0 = 0 then op.pushed else [])
    rw [if_pos rfl, if_pos rfl]
  | _ => rfl

/-- A call on another queue pushes nothing on this one. -/
theorem pushedBy_of_ne {n i : ℕ} (hn : n ≠ i) (op : QueueOp V) (answer : Answer ε V) :
    pushedBy i (.queue (.on n op), answer) = [] := by
  cases answer with
  | reply r => exact if_neg hn
  | _ => rfl

/-- A call on another queue leaves this one as it is. -/
theorem itemsAt_meaning_of_ne (h : History Text (List Bytes)) {n i : ℕ} (hn : n ≠ i)
    (op : QueueOp V) :
    itemsAt (NamedCall.meaning QueueOp.offline QueueOp.meaning [] h (.on n op)).1 i =
      itemsAt h i := by
  unfold itemsAt
  cases hcase : op.offline with
  | some answer => rw [objectAt_meaning_of_offline _ _ _ _ hcase]
  | none => rw [objectAt_meaning_of_online _ _ _ _ hcase, if_neg hn]

/-- A call on a queue takes items from its front, and puts what it pushes at its back. A clear
takes all. -/
theorem takes_on (h : History Text (List Bytes)) (op : QueueOp V) (n : ℕ) :
    let r := NamedCall.meaning QueueOp.offline QueueOp.meaning [] h (.on n op)
    ∃ taken, op.Takes r.2 taken ∧ (op = .clear → taken = itemsAt h n) ∧
      itemsAt h n ++ pushedBy n (.queue (.on n op), r.2) = taken ++ itemsAt r.1 n := by
  intro r
  unfold itemsAt
  cases hcase : op.offline with
  | some answer =>
    have hanswer := answer_of_offline QueueOp.offline QueueOp.meaning [] h hcase n
    obtain ⟨htakes, hpushed⟩ := QueueOp.takes_of_offline hcase r.2 n n
    refine ⟨[], htakes, fun hclear => ?_, ?_⟩
    · rw [hclear] at hcase
      cases hcase
    · rw [hpushed hanswer, objectAt_meaning_of_offline _ _ _ _ hcase, List.append_nil]
      rfl
  | none =>
    have hanswer : r.2 = _ := answer_of_online QueueOp.offline QueueOp.meaning [] h hcase n
    rw [hanswer, objectAt_meaning_of_online _ _ _ _ hcase, if_pos rfl]
    cases h.objectAt n with
    | none =>
      obtain ⟨htakes, hpushed⟩ := op.takes_of_absent
        (if n < h.length then .failed .absent else .noHandle) (by split <;> simp) n n
      exact ⟨[], htakes, fun _ => rfl, congrArg ([] ++ ·) hpushed⟩
    | some items =>
      obtain ⟨taken, htakes, hall, heq⟩ := op.takes_meaning hcase items
      refine ⟨taken, htakes, hall, ?_⟩
      rw [pushedBy_self]
      exact heq

/-- One call takes items from the front of a queue, and puts what it pushes at the back. A clear
and a deletion take all. -/
theorem takes_step (a : Meaning) (call : Call V) (i : ℕ) :
    ∃ taken, Takes i (call, (a.step call).2) taken ∧
      (Empties i call → taken = itemsAt a.queues i) ∧
      itemsAt a.queues i ++ pushedBy i (call, (a.step call).2) =
        taken ++ itemsAt (a.step call).1.queues i := by
  match call with
  | .drawId | .dict _ => exact ⟨[], rfl, False.elim, List.append_nil _⟩
  | .queue (.resolve name creationType) =>
    have hmeaning := meaning_resolve (V := V) QueueOp.offline QueueOp.meaning [] a.queues
      name creationType
    refine ⟨[], rfl, False.elim, ?_⟩
    change itemsAt a.queues i ++ pushedBy i (_, (NamedCall.meaning _ _ _ _ _).2) =
      itemsAt (NamedCall.meaning _ _ _ _ _).1 i
    rw [hmeaning]
    dsimp only
    rw [show pushedBy i _ = [] by
      cases (a.queues.resolve name (decide (creationType ≠ .unspecified)) []).2 <;> rfl,
      List.append_nil]
    unfold itemsAt
    rw [History.objectAt_resolve]
    split
    · rfl
    · rfl
  | .queue (.delete n) =>
    have hnext := objectAt_meaning_delete (V := V) QueueOp.offline QueueOp.meaning [] a.queues n i
    have hpushed : pushedBy i (Call.queue (.delete n), (a.step (.queue (.delete n) : Call V)).2) =
        [] := by
      cases (a.step (.queue (.delete n) : Call V)).2 <;> rfl
    rw [hpushed, List.append_nil]
    change ∃ taken, (n = i ∨ taken = []) ∧ (n = i → taken = itemsAt a.queues i) ∧
      itemsAt a.queues i = taken ++ ((NamedCall.meaning _ _ _ _ _).1.objectAt i).getD []
    rw [hnext]
    by_cases hn : n = i
    · refine ⟨itemsAt a.queues i, .inl hn, fun _ => rfl, ?_⟩
      rw [if_pos hn]
      exact (List.append_nil _).symm
    · refine ⟨[], .inr rfl, fun hi => absurd hi hn, ?_⟩
      rw [if_neg hn]
      rfl
  | .queue (.on n op) =>
    have hempties : Empties i (Call.queue (.on n op) : Call V) → n = i ∧ op = .clear := by
      cases op with
      | clear => exact fun hi => ⟨hi, rfl⟩
      | _ => exact False.elim
    change ∃ taken, (if n = i then op.Takes (NamedCall.meaning _ _ _ _ _).2 taken else taken = []) ∧
      (Empties i (Call.queue (.on n op) : Call V) → taken = itemsAt a.queues i) ∧
      itemsAt a.queues i ++ pushedBy i (_, (NamedCall.meaning _ _ _ _ _).2) =
        taken ++ ((NamedCall.meaning _ _ _ _ _).1.objectAt i).getD []
    by_cases hn : n = i
    · subst hn
      obtain ⟨taken, htakes, hall, heq⟩ := takes_on a.queues op n
      exact ⟨taken, Eq.mpr (if_pos rfl) htakes, fun hclear => hall (hempties hclear).2, heq⟩
    · refine ⟨[], Eq.mpr (if_neg hn) rfl, fun hclear => absurd (hempties hclear).1 hn, ?_⟩
      rw [pushedBy_of_ne hn, List.append_nil]
      exact (itemsAt_meaning_of_ne a.queues hn op).symm

/-- Over a run of meanings, items are taken from the front of a queue and put at its back. When a
call empties the queue, all that was there and that was put is taken. -/
theorem takes_run (a : Meaning) (calls : List (Call V)) (i : ℕ) :
    ∃ taken, List.Forall₂ (Takes i) (calls.zip (a.run calls).2) taken ∧
      (∀ k call, calls[k]? = some call → Empties i call →
        itemsAt a.queues i ++ ((calls.zip (a.run calls).2).take k).flatMap (pushedBy i) =
          (taken.take (k + 1)).flatten) ∧
      itemsAt a.queues i ++ (calls.zip (a.run calls).2).flatMap (pushedBy i) =
        taken.flatten ++ itemsAt (a.run calls).1.queues i := by
  induction calls generalizing a with
  | nil => exact ⟨[], .nil, nofun, List.append_nil _⟩
  | cons call calls ih =>
    obtain ⟨first, htakes, hall, hfirst⟩ := takes_step a call i
    obtain ⟨rest, hrest, hempties, heq⟩ := ih (a.step call).1
    refine ⟨first :: rest, .cons htakes hrest, fun k other hother hempty => ?_, ?_⟩
    · cases k with
      | zero =>
        cases hother
        rw [hall hempty]
        simp
      | succ k =>
        change itemsAt a.queues i ++ (pushedBy i (call, (a.step call).2) ++
          ((calls.zip ((a.step call).1.run calls).2).take k).flatMap (pushedBy i)) =
            first ++ (rest.take (k + 1)).flatten
        rw [← List.append_assoc, hfirst, List.append_assoc, hempties k other hother hempty]
    · change itemsAt a.queues i ++ (pushedBy i (call, (a.step call).2) ++
        (calls.zip ((a.step call).1.run calls).2).flatMap (pushedBy i)) =
          (first ++ rest.flatten) ++ itemsAt ((a.step call).1.run calls).1.queues i
      rw [← List.append_assoc, hfirst, List.append_assoc, heq, List.append_assoc]

/-- **Queues lose, repeat and reorder nothing**: in every run of calls of any clients, what was put
into a queue is, in this order, what the gets, clears and deletions have taken, one batch for each
call, followed by what is still in the store. A get that returns has decoded exactly its batch, of
at most the size that was asked for, and once a clear or a deletion is through, all that was put
before has been taken. -/
theorem queue_items_conserved (calls : List (Call V × (ℕ → ℕ))) (i : ℕ) :
    let r := World.start.run calls
    let events := (calls.map Prod.fst).zip (r.2.map Answer.seen)
    ∃ taken rest, List.Forall₂ (Takes i) events taken ∧
      events.flatMap (pushedBy i) = taken.flatten ++ rest ∧
      (∀ k call, (calls.map Prod.fst)[k]? = some call → Empties i call →
        (events.take k).flatMap (pushedBy i) = (taken.take (k + 1)).flatten) ∧
      ∀ id, r.1.queueIds[i]? = some id →
        (r.1.servicer.store.queues.objects id).getD [] = rest := by
  intro r events
  obtain ⟨htracks, hanswers⟩ := tracks_start.run calls
  obtain ⟨taken, htakes, hempties, heq⟩ := takes_run (V := V) .start (calls.map Prod.fst) i
  have hevents : events = (calls.map Prod.fst).zip
      (Meaning.start.run (calls.map Prod.fst)).2 := congrArg _ hanswers
  rw [hevents]
  refine ⟨taken, _, htakes, heq, hempties, fun id hid => ?_⟩
  unfold itemsAt History.objectAt
  rcases htracks.queues.represents.exists_life hid with
    ⟨hobject, name, hlife⟩ | ⟨object, name, object', hobject, hlife, hsame⟩
  · rw [hlife, show r.1.servicer.store.queues.objects id = none from hobject]
    rfl
  · rw [hlife, show r.1.servicer.store.queues.objects id = some object from hobject, hsame]
    rfl

end ModalRust.Facade.Objects
