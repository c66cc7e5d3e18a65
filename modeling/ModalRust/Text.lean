import Mathlib

/-!
# Text and line framing

Texts as lists of characters, the whitespace classes of Rust's `str::trim` and of
Python's `str.strip`, and `readline` of a Python text pipe. The lemmas say how
`strip` and `readline` act on a text that is put together from parts. Nothing in
this file refers to a particular program.
-/

namespace ModalRust

/-- A decoded text, as a list of Unicode scalar values. -/
abbrev Text := List Char

/-- Texts are compared character by character. -/
instance lawfulBEqText : LawfulBEq Text := inferInstance

/-- Bytes. -/
abbrev Bytes := List UInt8

/-- The UTF-8 bytes of a text. -/
def toUtf8 (t : Text) : Bytes := t.flatMap String.utf8EncodeChar

/-- The text of UTF-8 bytes. -/
def fromUtf8 (bytes : Bytes) : Option Text :=
  (String.fromUTF8? ⟨bytes.toArray⟩).map String.toList

/-- The characters that `str::trim` removes: Unicode `White_Space`. -/
def isWhitespace (c : Char) : Bool :=
  (9 ≤ c.toNat && c.toNat ≤ 13) || c.toNat == 32 || c.toNat == 0x85 || c.toNat == 0xA0 ||
    c.toNat == 0x1680 || (0x2000 ≤ c.toNat && c.toNat ≤ 0x200A) || c.toNat == 0x2028 ||
    c.toNat == 0x2029 || c.toNat == 0x202F || c.toNat == 0x205F || c.toNat == 0x3000

/-- The characters that Python's `str.strip` removes: `White_Space` and the four
information separators. -/
def isSpace (c : Char) : Bool := isWhitespace c || (28 ≤ c.toNat && c.toNat ≤ 31)

/-- Rust's `line.trim().is_empty()`. -/
def isBlank (t : Text) : Bool := t.all isWhitespace

/-- Python's `str.strip`. -/
def strip (t : Text) : Text := (t.dropWhile isSpace).rdropWhile isSpace

/-- Rust's `t.contains(fragment)`. -/
def containsText (fragment : Text) : Text → Bool
  | [] => fragment.isEmpty
  | c :: t => fragment.isPrefixOf (c :: t) || containsText fragment t

/-- A character that ends a line under universal newlines. -/
def isBreak (c : Char) : Bool := c == '\n' || c == '\r'

/-- The rest of the stream after a carriage return: `\r\n` is one line ending. -/
def afterReturn (t : Text) : Text := if t.head? = some '\n' then t.tail else t

/-- `readline` of a pipe opened with `text=True`: the next line without its
terminator, whether a terminator was read, and the unread rest. A line ends at
`\n`, at `\r` or at `\r\n`. -/
def readline : Text → Text × Bool × Text
  | [] => ([], false, [])
  | c :: rest =>
    if c = '\n' then ([], true, rest)
    else if c = '\r' then ([], true, afterReturn rest)
    else (c :: (readline rest).1, (readline rest).2)

/-- The lines of `BufRead::lines` before decoding: a line ends at `\n`, a carriage return
just before it is dropped, and a last line needs no terminator. -/
def byteLines : Bytes → List Bytes
  | [] => []
  | b :: rest =>
    if b = 10 then [] :: byteLines rest
    else if b = 13 ∧ rest.head? = some 10 then byteLines rest
    else
      match byteLines rest with
      | [] => [[b]]
      | line :: lines => (b :: line) :: lines

/-- A text that is not empty and has no space at either end. -/
structure Solid (t : Text) : Prop where
  /-- There is a first character. -/
  ne_nil : t ≠ []
  /-- The first character is not a space. -/
  head : ∀ c ∈ t.head?, isSpace c = false
  /-- The last character is not a space. -/
  last : ∀ c ∈ t.getLast?, isSpace c = false

/-- `strip` yields the empty string exactly on all-space texts. -/
theorem strip_eq_nil_iff {t : Text} : strip t = [] ↔ ∀ c ∈ t, isSpace c = true := by
  unfold strip
  rw [List.rdropWhile_eq_nil_iff]
  constructor
  · intro h
    by_contra hne
    have hdrop : t.dropWhile isSpace ≠ [] := fun hnil => hne (List.dropWhile_eq_nil_iff.mp hnil)
    have hhead := List.head_dropWhile_not isSpace hdrop
    rw [h _ (List.head_mem hdrop)] at hhead
    exact absurd hhead (by decide)
  · intro h c hc
    exact h c (List.dropWhile_subset _ hc)

/-- `strip` removes all-space padding around a solid text, and nothing more. -/
theorem strip_pad {left t right : Text} (ht : Solid t) (hleft : ∀ c ∈ left, isSpace c = true)
    (hright : ∀ c ∈ right, isSpace c = true) : strip (left ++ t ++ right) = t := by
  obtain ⟨c, l, rfl⟩ := List.exists_cons_of_ne_nil ht.ne_nil
  have hc : isSpace c = false := ht.head c (by simp)
  have hdrop : (left ++ c :: l ++ right).dropWhile isSpace = c :: l ++ right := by
    rw [List.append_assoc, List.dropWhile_append_of_pos (by simpa using hleft)]
    simp [hc]
  unfold strip
  rw [hdrop]
  clear hdrop
  induction right using List.reverseRecOn with
  | nil =>
    rw [List.append_nil, List.rdropWhile_eq_self_iff]
    intro hne
    have hlast := ht.last _ (List.getLast?_eq_some_getLast hne)
    simp [hlast]
  | append_singleton right d ih =>
    rw [← List.append_assoc, List.rdropWhile_concat_pos _ _ _ (hright d (by simp))]
    exact ih fun c hc => hright c (by simp [hc])

/-- A break-free prefix is read as the beginning of the line. -/
theorem readline_append_of_no_break {t u : Text} (ht : ∀ c ∈ t, isBreak c = false) :
    readline (t ++ u) = (t ++ (readline u).1, (readline u).2) := by
  induction t with
  | nil => rfl
  | cons c t ih =>
    have hc := ht c (by simp)
    simp only [isBreak, Bool.or_eq_false_iff, beq_eq_false_iff_ne] at hc
    have ih := ih fun d hd => ht d (by simp [hd])
    rw [List.cons_append, readline, if_neg hc.1, if_neg hc.2, ih]
    rfl

/-- A terminated break-free line is read whole, without its terminator. -/
theorem readline_line {t u : Text} (ht : ∀ c ∈ t, isBreak c = false) :
    readline (t ++ '\n' :: u) = (t, true, u) := by
  simpa [readline] using readline_append_of_no_break (u := '\n' :: u) ht

/-- A line that already ended is not changed by what is written after it. -/
theorem readline_append_of_ended {t u : Text} (hended : (readline t).2.1 = true)
    (hu : u.head? ≠ some '\n') :
    readline (t ++ u) = ((readline t).1, true, (readline t).2.2 ++ u) := by
  induction t with
  | nil => simp [readline] at hended
  | cons c t ih =>
    rw [List.cons_append]
    by_cases hn : c = '\n'
    · simp [readline, hn]
    · by_cases hr : c = '\r'
      · have hskip : afterReturn (t ++ u) = afterReturn t ++ u := by
          cases t with
          | nil => simp [afterReturn, hu]
          | cons d t => by_cases hd : d = '\n' <;> simp [afterReturn, hd]
        simp [readline, hr, hskip]
      · rw [readline, if_neg hn, if_neg hr] at hended
        rw [readline, if_neg hn, if_neg hr, ih hended, readline, if_neg hn, if_neg hr]

/-- A line that did not end yet holds all that was written so far, and no break. -/
theorem readline_not_ended {t : Text} (hended : (readline t).2.1 = false) :
    (readline t).1 = t ∧ ∀ c ∈ t, isBreak c = false := by
  induction t with
  | nil => simp [readline]
  | cons c t ih =>
    by_cases hn : c = '\n'
    · simp [readline, hn] at hended
    · by_cases hr : c = '\r'
      · simp [readline, hr] at hended
      · rw [readline, if_neg hn, if_neg hr] at hended
        obtain ⟨hline, hfree⟩ := ih hended
        refine ⟨by rw [readline, if_neg hn, if_neg hr]; simp [hline], ?_⟩
        intro d hd
        rcases List.mem_cons.mp hd with rfl | hd
        · simp [isBreak, hn, hr]
        · exact hfree d hd

/-- Decoding inverts encoding. -/
theorem fromUtf8_toUtf8 (t : Text) : fromUtf8 (toUtf8 t) = some t := by
  have hbytes : (⟨(toUtf8 t).toArray⟩ : ByteArray) = (String.ofList t).toByteArray := by
    rw [String.toByteArray_ofList, List.utf8Encode]
    apply ByteArray.ext
    rw [List.data_toByteArray]
    rfl
  have hvalid : (String.ofList t).toByteArray.IsValidUTF8 := (String.ofList t).isValidUTF8
  have hstring : String.fromUTF8 (String.ofList t).toByteArray hvalid = String.ofList t := by
    apply String.toByteArray_inj.mp
    rfl
  rw [fromUtf8, hbytes, String.fromUTF8?, dif_pos hvalid, hstring, Option.map_some,
    String.toList_ofList]

end ModalRust
