import ModalRust.Provision.Image

/-!
# Reading base64

Texts and bytes travel into an image as base64. Decoding the encoding of some bytes yields these
bytes, and the encoding holds no character that a shell, a Dockerfile or a Python literal reads as
anything but itself.
-/

namespace ModalRust.Provision

/-- The alphabet of base64. -/
def base64Alphabet : Text :=
  "ABCDEFGHIJKLMNOPQRSTUVWXYZabcdefghijklmnopqrstuvwxyz0123456789+/".toList

/-- The value of a character of the alphabet. -/
def base64Value (c : Char) : Option ℕ := base64Alphabet.idxOf? c

/-- `base64.b64decode`, on texts of the alphabet with padding at their end. It decodes no other
text; Python skips characters outside of the alphabet instead. -/
def base64Decode : Text → Option Bytes
  | [] => some []
  | a :: b :: c :: d :: rest => do
    let w ← base64Value a
    let x ← base64Value b
    let first := UInt8.ofNat (w * 4 + x / 16)
    if c = '=' then
      if d = '=' ∧ rest = [] then some [first] else none
    else
      let y ← base64Value c
      let second := UInt8.ofNat (x % 16 * 16 + y / 4)
      if d = '=' then
        if rest = [] then some [first, second] else none
      else
        let z ← base64Value d
        let bytes ← base64Decode rest
        some (first :: second :: UInt8.ofNat (y % 4 * 64 + z) :: bytes)
  | _ => none

/-- The characters of an encoding. -/
def isBase64 (c : Char) : Bool := c.isAlphanum || c == '+' || c == '/' || c == '='

/-- A character of the alphabet has its place as value. -/
theorem base64Value_base64Char : ∀ n < 64, base64Value (base64Char n) = some n := by decide +kernel

/-- The alphabet does not contain the padding. -/
theorem base64Char_ne_padding : ∀ n < 64, base64Char n ≠ '=' := by decide +kernel

/-- The characters of the alphabet. -/
theorem isBase64_base64Char : ∀ n < 64, isBase64 (base64Char n) = true := by decide +kernel

/-- The three bytes of a group are put together again. -/
theorem joined_bytes (a b c : UInt8) :
    UInt8.ofNat (a.toNat / 4 * 4 + (a.toNat % 4 * 16 + b.toNat / 16) / 16) = a ∧
      UInt8.ofNat ((a.toNat % 4 * 16 + b.toNat / 16) % 16 * 16 +
        (b.toNat % 16 * 4 + c.toNat / 64) / 4) = b ∧
      UInt8.ofNat ((b.toNat % 16 * 4 + c.toNat / 64) % 4 * 64 + c.toNat % 64) = c := by
  have ha := a.toNat_lt
  have hb := b.toNat_lt
  have hc := c.toNat_lt
  have hfirst : a.toNat / 4 * 4 + (a.toNat % 4 * 16 + b.toNat / 16) / 16 = a.toNat := by omega
  have hsecond : (a.toNat % 4 * 16 + b.toNat / 16) % 16 * 16 +
      (b.toNat % 16 * 4 + c.toNat / 64) / 4 = b.toNat := by omega
  have hthird : (b.toNat % 16 * 4 + c.toNat / 64) % 4 * 64 + c.toNat % 64 = c.toNat := by omega
  rw [hfirst, hsecond, hthird]
  exact ⟨UInt8.ofNat_toNat, UInt8.ofNat_toNat, UInt8.ofNat_toNat⟩

/-- **Decoding an encoding** yields the bytes. -/
theorem base64Decode_base64 (bytes : Bytes) : base64Decode (base64 bytes) = some bytes := by
  induction bytes using base64.induct with
  | case1 => rfl
  | case2 a =>
    have ha := a.toNat_lt
    obtain ⟨hfirst, -, -⟩ := joined_bytes a 0 0
    simp only [base64, base64Decode, base64Value_base64Char _ (show a.toNat / 4 < 64 by omega),
      base64Value_base64Char _ (show a.toNat % 4 * 16 < 64 by omega), Option.bind_eq_bind,
      Option.bind_some, true_and, if_true]
    exact congrArg (fun a => some [a]) hfirst
  | case3 a b =>
    have ha := a.toNat_lt
    have hb := b.toNat_lt
    obtain ⟨hfirst, hsecond, -⟩ := joined_bytes a b 0
    have hlast : b.toNat % 16 * 4 < 64 := by omega
    simp only [base64, base64Decode, base64Value_base64Char _ (show a.toNat / 4 < 64 by omega),
      base64Value_base64Char _ (show a.toNat % 4 * 16 + b.toNat / 16 < 64 by omega),
      base64Value_base64Char _ hlast, base64Char_ne_padding _ hlast, Option.bind_eq_bind,
      Option.bind_some, if_true, if_false]
    exact congrArg₂ (fun a b => some [a, b]) hfirst hsecond
  | case4 a b c rest ih =>
    have ha := a.toNat_lt
    have hb := b.toNat_lt
    have hc := c.toNat_lt
    obtain ⟨hfirst, hsecond, hthird⟩ := joined_bytes a b c
    have hy : b.toNat % 16 * 4 + c.toNat / 64 < 64 := by omega
    have hz : c.toNat % 64 < 64 := by omega
    simp only [base64, base64Decode, base64Value_base64Char _ (show a.toNat / 4 < 64 by omega),
      base64Value_base64Char _ (show a.toNat % 4 * 16 + b.toNat / 16 < 64 by omega),
      base64Value_base64Char _ hy, base64Char_ne_padding _ hy, base64Value_base64Char _ hz,
      base64Char_ne_padding _ hz, ih, Option.bind_eq_bind, Option.bind_some, if_false, hfirst,
      hsecond, hthird]

/-- The characters of an encoding are of the alphabet, or padding. -/
theorem isBase64_of_mem {bytes : Bytes} {c : Char} (hc : c ∈ base64 bytes) :
    isBase64 c = true := by
  induction bytes using base64.induct with
  | case1 => cases hc
  | case2 a =>
    have ha := a.toNat_lt
    simp only [base64, List.mem_cons, List.not_mem_nil, or_false] at hc
    rcases hc with rfl | rfl | rfl | rfl
    · exact isBase64_base64Char _ (by omega)
    · exact isBase64_base64Char _ (by omega)
    · decide
    · decide
  | case3 a b =>
    have ha := a.toNat_lt
    have hb := b.toNat_lt
    simp only [base64, List.mem_cons, List.not_mem_nil, or_false] at hc
    rcases hc with rfl | rfl | rfl | rfl
    · exact isBase64_base64Char _ (by omega)
    · exact isBase64_base64Char _ (by omega)
    · exact isBase64_base64Char _ (by omega)
    · decide
  | case4 a b d rest ih =>
    have ha := a.toNat_lt
    have hb := b.toNat_lt
    have hd := d.toNat_lt
    simp only [base64, List.mem_cons] at hc
    rcases hc with rfl | rfl | rfl | rfl | hc
    · exact isBase64_base64Char _ (by omega)
    · exact isBase64_base64Char _ (by omega)
    · exact isBase64_base64Char _ (by omega)
    · exact isBase64_base64Char _ (by omega)
    · exact ih hc

end ModalRust.Provision
