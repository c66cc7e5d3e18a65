import ModalRust.Text

/-!
# Prefix codes

A code whose words can be told apart from whatever follows them. Fixed-length numbers,
length-prefixed fields, optional parts and counted lists are such codes when their lengths
fit the prefix, and such codes can be put one after the other. Without a frame, the fields of
a text are known only up to joining neighbours and taking fields apart. Nothing in this file
refers to a particular program.
-/

namespace ModalRust

/-- The little-endian bytes of a number, modulo `256 ^ count`. -/
def littleEndian : ℕ → ℕ → Bytes
  | 0, _ => []
  | count + 1, value => UInt8.ofNat value :: littleEndian count (value / 256)

/-- A field with its length in eight bytes before it. -/
def lengthPrefixed (bytes : Bytes) : Bytes := littleEndian 8 bytes.length ++ bytes

/-- A list of words with their number in eight bytes before them. -/
def counted {α : Type*} (encode : α → Bytes) (words : List α) : Bytes :=
  littleEndian 8 words.length ++ words.flatMap encode

/-- The words of the values in `good`, with whatever follows them, determine the values. -/
def PrefixCode {α : Type*} (good : α → Prop) (encode : α → Bytes) : Prop :=
  ∀ a b s t, good a → good b → encode a ++ s = encode b ++ t → a = b ∧ s = t

/-- The number of bytes. -/
@[simp] theorem length_littleEndian (count value : ℕ) :
    (littleEndian count value).length = count := by
  induction count generalizing value with
  | zero => rfl
  | succ count ih => simp [littleEndian, ih]

/-- Numbers that fit are determined by their bytes. -/
theorem littleEndian_inj {count a b : ℕ} (ha : a < 256 ^ count) (hb : b < 256 ^ count)
    (h : littleEndian count a = littleEndian count b) : a = b := by
  induction count generalizing a b with
  | zero =>
    rw [Nat.pow_zero] at ha hb
    omega
  | succ count ih =>
    rw [Nat.pow_succ] at ha hb
    obtain ⟨hlow, hhigh⟩ := List.cons.inj h
    have hdiv := ih (a := a / 256) (b := b / 256) (by omega) (by omega) hhigh
    have hmod : a % 256 = b % 256 := by
      have hnat := congrArg UInt8.toNat hlow
      simpa using hnat
    omega

namespace PrefixCode

variable {α β : Type*} {good : α → Prop} {good' : β → Prop} {encode : α → Bytes}
  {encode' : β → Bytes}

/-- Words of one length that are distinct. -/
theorem of_length {length : ℕ} (hlength : ∀ a, (encode a).length = length)
    (hinj : ∀ a b, good a → good b → encode a = encode b → a = b) : PrefixCode good encode := by
  intro a b s t ha hb h
  obtain ⟨hword, hrest⟩ := List.append_inj h (by rw [hlength, hlength])
  exact ⟨hinj a b ha hb hword, hrest⟩

/-- Words determine their values. -/
theorem inj (hcode : PrefixCode good encode) {a b : α} (ha : good a) (hb : good b)
    (h : encode a = encode b) : a = b :=
  (hcode a b [] [] ha hb (by rw [h])).1

/-- A number of a fixed width. -/
theorem littleEndian (count : ℕ) :
    PrefixCode (fun value => value < 256 ^ count) (littleEndian count) :=
  of_length (fun _ => length_littleEndian count _) fun _ _ ha hb => littleEndian_inj ha hb

/-- One word after another. -/
theorem pair (hcode : PrefixCode good encode) (hcode' : PrefixCode good' encode') :
    PrefixCode (fun p : α × β => good p.1 ∧ good' p.2) fun p => encode p.1 ++ encode' p.2 := by
  rintro ⟨a, a'⟩ ⟨b, b'⟩ s t ha hb h
  rw [List.append_assoc, List.append_assoc] at h
  obtain ⟨rfl, hrest⟩ := hcode a b _ _ ha.1 hb.1 h
  obtain ⟨rfl, rfl⟩ := hcode' a' b' s t ha.2 hb.2 hrest
  exact ⟨rfl, rfl⟩

/-- Encoding the image of an injection. -/
theorem comap (hcode : PrefixCode good encode) {f : β → α} (hf : Function.Injective f) :
    PrefixCode (fun b => good (f b)) fun b => encode (f b) := by
  intro a b s t ha hb h
  obtain ⟨hvalue, hrest⟩ := hcode _ _ s t ha hb h
  exact ⟨hf hvalue, hrest⟩

/-- A field whose length fits. -/
theorem lengthPrefixed :
    PrefixCode (fun bytes => bytes.length < 2 ^ 64) lengthPrefixed := by
  intro a b s t ha hb h
  unfold ModalRust.lengthPrefixed at h
  rw [List.append_assoc, List.append_assoc] at h
  obtain ⟨hlength, hrest⟩ := PrefixCode.littleEndian 8 _ _ _ _ ha hb h
  exact List.append_inj hrest hlength

/-- Words for which the number is known. -/
theorem flatMap (hcode : PrefixCode good encode) {as bs : List α} {s t : Bytes}
    (hlength : as.length = bs.length) (has : ∀ a ∈ as, good a) (hbs : ∀ b ∈ bs, good b)
    (h : as.flatMap encode ++ s = bs.flatMap encode ++ t) : as = bs ∧ s = t := by
  induction as generalizing bs with
  | nil =>
    obtain rfl := List.length_eq_zero_iff.mp hlength.symm
    exact ⟨rfl, h⟩
  | cons a as ih =>
    cases bs with
    | nil => simp at hlength
    | cons b bs =>
      rw [List.flatMap_cons, List.flatMap_cons, List.append_assoc, List.append_assoc] at h
      obtain ⟨rfl, hrest⟩ := hcode a b _ _ (has a (by simp)) (hbs b (by simp)) h
      obtain ⟨rfl, rfl⟩ := ih (by simpa using hlength) (fun c hc => has c (by simp [hc]))
        (fun c hc => hbs c (by simp [hc])) hrest
      exact ⟨rfl, rfl⟩

/-- A list whose length fits. -/
theorem counted (hcode : PrefixCode good encode) :
    PrefixCode (fun words : List α => words.length < 2 ^ 64 ∧ ∀ word ∈ words, good word)
      (counted encode) := by
  intro as bs s t has hbs h
  unfold ModalRust.counted at h
  rw [List.append_assoc, List.append_assoc] at h
  obtain ⟨hlength, hrest⟩ := PrefixCode.littleEndian 8 _ _ _ _ has.1 hbs.1 h
  exact hcode.flatMap hlength has.2 hbs.2 hrest

/-- An optional word after a byte that says whether it is there. -/
theorem option (hcode : PrefixCode good encode) :
    PrefixCode (fun value : Option α => ∀ a ∈ value, good a)
      fun value => value.elim [0] fun a => 1 :: encode a := by
  intro a b s t ha hb h
  cases a with
  | none =>
    cases b with
    | none => exact ⟨rfl, by simpa using h⟩
    | some b => simp at h
  | some a =>
    cases b with
    | none => simp at h
    | some b =>
      simp only [Option.elim_some, List.cons_append, List.cons.injEq, true_and] at h
      obtain ⟨rfl, hrest⟩ := hcode a b s t (ha a rfl) (hb b rfl) h
      exact ⟨rfl, hrest⟩

end PrefixCode

/-! ## Fields without a frame -/

section Fields

variable {α : Type*}

/-- Two neighbouring fields are joined. -/
def JoinsFields (xs ys : List (List α)) : Prop :=
  ∃ before first second after, xs = before ++ first :: second :: after ∧
    ys = before ++ (first ++ second) :: after

/-- The boundaries of the fields are moved: neighbours are joined, and fields are taken apart. -/
def Reframed : List (List α) → List (List α) → Prop := Relation.EqvGen JoinsFields

/-- Joining fields changes the boundaries only. -/
theorem JoinsFields.flatten_eq {xs ys : List (List α)} (h : JoinsFields xs ys) :
    xs.flatten = ys.flatten := by
  obtain ⟨before, first, second, after, rfl, rfl⟩ := h
  simp

/-- Moving boundaries changes the boundaries only. -/
theorem Reframed.flatten_eq {xs ys : List (List α)} (h : Reframed xs ys) :
    xs.flatten = ys.flatten := by
  induction h with
  | rel xs ys hjoins => exact hjoins.flatten_eq
  | refl xs => rfl
  | symm xs ys _ ih => exact ih.symm
  | trans xs ys zs _ _ ih ih' => exact ih.trans ih'

/-- All fields can be joined into one. -/
theorem reframed_flatten {xs : List (List α)} (hxs : xs ≠ []) : Reframed xs [xs.flatten] := by
  obtain ⟨field, fields, rfl⟩ := List.exists_cons_of_ne_nil hxs
  induction fields generalizing field with
  | nil =>
    rw [List.flatten_cons, List.flatten_nil, List.append_nil]
    exact .refl _
  | cons next fields ih =>
    have hjoined : Reframed (field :: next :: fields) ((field ++ next) :: fields) :=
      .rel _ _ ⟨[], field, next, fields, rfl, rfl⟩
    have hrest := ih (field ++ next) (List.cons_ne_nil _ _)
    rw [show (field :: next :: fields).flatten = ((field ++ next) :: fields).flatten by simp]
    exact .trans _ _ _ hjoined hrest

/-- **Fields without a frame are read back up to their boundaries.** -/
theorem reframed_iff {xs ys : List (List α)} (hxs : xs ≠ []) (hys : ys ≠ []) :
    Reframed xs ys ↔ xs.flatten = ys.flatten := by
  refine ⟨Reframed.flatten_eq, fun h => ?_⟩
  have hx := reframed_flatten hxs
  rw [h] at hx
  exact .trans _ _ _ hx (.symm _ _ (reframed_flatten hys))

end Fields

end ModalRust
