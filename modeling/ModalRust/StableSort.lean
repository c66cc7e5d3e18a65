import Mathlib.Data.List.Sort

/-!
# Stable sorting by a key

A list sorted by a key keeps, for each key, the elements with this key in their order. So
the sorted list depends on these orders only, not on how the elements of different keys
are mixed. Nothing in this file refers to a particular program.
-/

namespace ModalRust

variable {α β : Type*} [LinearOrder β] (key : α → β)

/-- `sort_by` with a comparison of keys: a stable sort. -/
def sortByKey (l : List α) : List α := l.insertionSort fun a b => key a ≤ key b

/-- The elements with one key, in order. -/
def withKey (k : β) (l : List α) : List α := l.filter fun a => key a = k

/-- Sorting permutes. -/
theorem perm_sortByKey (l : List α) : (sortByKey key l).Perm l := List.perm_insertionSort _ _

/-- The keys are sorted. -/
theorem pairwise_sortByKey (l : List α) :
    (sortByKey key l).Pairwise fun a b => key a ≤ key b := by
  have : Std.Total fun a b => key a ≤ key b := ⟨fun a b => le_total _ _⟩
  have : IsTrans α fun a b => key a ≤ key b := ⟨fun _ _ _ => le_trans⟩
  exact List.pairwise_insertionSort _ l

/-- The sort is stable. -/
theorem withKey_sortByKey (k : β) (l : List α) :
    withKey key k (sortByKey key l) = withKey key k l := by
  have : Std.Total fun a b => key a ≤ key b := ⟨fun a b => le_total _ _⟩
  have : IsTrans α fun a b => key a ≤ key b := ⟨fun _ _ _ => le_trans⟩
  have hsorted : (withKey key k l).Pairwise fun a b => key a ≤ key b := by
    refine List.pairwise_of_forall_mem_list fun a ha b hb => ?_
    have ha := (List.mem_filter.mp ha).2
    have hb := (List.mem_filter.mp hb).2
    simp only [decide_eq_true_eq] at ha hb
    exact le_of_eq (ha.trans hb.symm)
  have hsub : (withKey key k l).Sublist (sortByKey key l) :=
    List.sublist_insertionSort hsorted List.filter_sublist
  have hfilter : (withKey key k l).Sublist (withKey key k (sortByKey key l)) := by
    have h := hsub.filter fun a => key a = k
    simpa [withKey] using h
  exact (hfilter.eq_of_length ((perm_sortByKey key l).filter _).length_eq.symm).symm

/-- Two sorted lists that agree for each key are equal. -/
theorem eq_of_withKey {l m : List α} (hl : l.Pairwise fun a b => key a ≤ key b)
    (hm : m.Pairwise fun a b => key a ≤ key b) (h : ∀ k, withKey key k l = withKey key k m) :
    l = m := by
  induction l generalizing m with
  | nil =>
    cases m with
    | nil => rfl
    | cons b m =>
      have hb := h (key b)
      simp [withKey] at hb
  | cons a l ih =>
    cases m with
    | nil =>
      have ha := h (key a)
      simp [withKey] at ha
    | cons b m =>
      have ha : a ∈ withKey key (key a) (b :: m) := by
        rw [← h (key a)]
        simp [withKey]
      have hb : b ∈ withKey key (key b) (a :: l) := by
        rw [h (key b)]
        simp [withKey]
      have hba : key b ≤ key a := by
        rcases List.mem_cons.mp (List.mem_filter.mp ha).1 with rfl | hmem
        · exact le_rfl
        · exact List.rel_of_pairwise_cons hm hmem
      have hab : key a ≤ key b := by
        rcases List.mem_cons.mp (List.mem_filter.mp hb).1 with rfl | hmem
        · exact le_rfl
        · exact List.rel_of_pairwise_cons hl hmem
      have hkey : key a = key b := le_antisymm hab hba
      have hhead := h (key a)
      simp only [withKey, List.filter_cons, hkey, decide_true, if_true, List.cons.injEq] at hhead
      obtain ⟨rfl, -⟩ := hhead
      refine congrArg _ (ih hl.tail hm.tail fun k => ?_)
      have hk := h k
      simp only [withKey, List.filter_cons] at hk
      split at hk
      · exact (List.cons.inj hk).2
      · exact hk

/-- Lists that agree for each key are sorted alike. -/
theorem sortByKey_congr {l m : List α} (h : ∀ k, withKey key k l = withKey key k m) :
    sortByKey key l = sortByKey key m := by
  refine eq_of_withKey key (pairwise_sortByKey key l) (pairwise_sortByKey key m) fun k => ?_
  rw [withKey_sortByKey, withKey_sortByKey, h k]

/-- A list in which no key occurs twice has at most one element with a key, so its order
does not matter. -/
theorem withKey_perm {l m : List α} (hkeys : (l.map key).Nodup) (hperm : l.Perm m) (k : β) :
    withKey key k l = withKey key k m := by
  have hone : (withKey key k l).length ≤ 1 := by
    have hcount : (withKey key k l).length = (l.map key).count k := by
      rw [withKey, ← List.countP_eq_length_filter, List.count, List.countP_map]
      refine List.countP_congr fun a _ => ?_
      simp
    rw [hcount]
    exact List.nodup_iff_count_le_one.mp hkeys k
  have hfilter : (withKey key k l).Perm (withKey key k m) := hperm.filter _
  match hl : withKey key k l, hone with
  | [], _ =>
    rw [hl] at hfilter
    exact (List.nil_perm.mp hfilter).symm
  | [a], _ =>
    rw [hl] at hfilter
    exact List.singleton_perm.mp hfilter

/-- Without duplicates, the keys are strictly sorted where they identify the elements. -/
theorem pairwise_lt_sortByKey (hkey : Function.Injective key) {l : List α} (hl : l.Nodup) :
    (sortByKey key l).Pairwise fun a b => key a < key b := by
  have hnodup : (sortByKey key l).Nodup := (perm_sortByKey key l).nodup_iff.mpr hl
  refine (List.Pairwise.and hnodup (pairwise_sortByKey key l)).imp fun ⟨hne, hle⟩ => ?_
  exact lt_of_le_of_ne hle fun h => hne (hkey h)

/-- A strictly sorted list is determined by its elements. -/
theorem eq_of_sorted_of_mem {l m : List α} (hl : l.Pairwise fun a b => key a < key b)
    (hm : m.Pairwise fun a b => key a < key b) (h : ∀ a, a ∈ l ↔ a ∈ m) : l = m := by
  have hnodup : ∀ n : List α, (n.Pairwise fun a b => key a < key b) → n.Nodup :=
    fun _ hn => hn.imp fun hlt heq => absurd (congrArg key heq) (ne_of_lt hlt)
  have hperm : l.Perm m := (List.perm_ext_iff_of_nodup (hnodup l hl) (hnodup m hm)).mpr h
  exact hperm.eq_of_pairwise (fun _ _ _ _ hab hba => absurd hba (lt_asymm hab)) hl hm

/-- **The first choice in sorted order** is the first choice in the given order exactly if that one
has the least key of all choices. -/
theorem find?_sorted_iff {l s : List α} (hperm : s.Perm l)
    (hsorted : s.Pairwise fun a b => key a ≤ key b) (hkeys : (l.map key).Nodup) (p : α → Bool) :
    s.find? p = l.find? p ↔
      ∀ a b, l.find? p = some a → b ∈ l → p b = true → key a ≤ key b := by
  constructor
  · intro hsame a b ha hb hpb
    rw [ha, List.find?_eq_some_iff_append] at hsame
    obtain ⟨-, before, after, rfl, hbefore⟩ := hsame
    rcases List.mem_append.mp (hperm.mem_iff.mpr hb) with hmem | hmem
    · have hno := hbefore b hmem
      rw [hpb] at hno
      cases hno
    · rcases List.mem_cons.mp hmem with rfl | hafter
      · exact le_rfl
      · exact List.rel_of_pairwise_cons (List.pairwise_append.mp hsorted).2.1 hafter
  · intro hleast
    cases hl : l.find? p with
    | none =>
      rw [List.find?_eq_none] at hl ⊢
      exact fun a ha => hl a (hperm.mem_iff.mp ha)
    | some a =>
      have hpa : p a = true := List.find?_some hl
      have hal : a ∈ l := List.mem_of_find?_eq_some hl
      obtain ⟨m, hm⟩ : ∃ m, s.find? p = some m :=
        Option.isSome_iff_exists.mp (List.find?_isSome.mpr ⟨a, hperm.mem_iff.mpr hal, hpa⟩)
      have hml : m ∈ l := hperm.mem_iff.mp (List.mem_of_find?_eq_some hm)
      have ham : key a ≤ key m := hleast a m hl hml (List.find?_some hm)
      -- the choice in sorted order has a key below that of `a`
      have hma : key m ≤ key a := by
        obtain ⟨-, before, after, rfl, hbefore⟩ := List.find?_eq_some_iff_append.mp hm
        rcases List.mem_append.mp (hperm.mem_iff.mpr hal) with hmem | hmem
        · have hno := hbefore a hmem
          rw [hpa] at hno
          cases hno
        · rcases List.mem_cons.mp hmem with rfl | hafter
          · exact le_rfl
          · exact List.rel_of_pairwise_cons (List.pairwise_append.mp hsorted).2.1 hafter
      rw [hm, List.inj_on_of_nodup_map hkeys hml hal (le_antisymm hma ham)]

end ModalRust
