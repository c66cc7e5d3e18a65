import ModalRust.Pickle

/-!
# The keys of a dict

`encode_str_key`, which pickles the key of a dict. The server compares the bytes of keys, so
what is written must be what Python's `pickle.dumps` writes. It is up to the size from which
Python writes a string outside any frame.
-/

namespace ModalRust.Sdk

open Pickle

/-- The opcode `PROTO`. -/
def PROTO : UInt8 := 0x80

/-- The opcode `FRAME`. -/
def FRAME : UInt8 := 0x95

/-- The opcode of a string of at most 255 bytes. -/
def SHORT_BINUNICODE : UInt8 := 0x8c

/-- The opcode of a string whose length has four bytes. -/
def BINUNICODE : UInt8 := 0x58

/-- The opcode of a string whose length has eight bytes. -/
def BINUNICODE8 : UInt8 := 0x8d

/-- The opcode `MEMOIZE`. -/
def MEMOIZE : UInt8 := 0x94

/-- The opcode `STOP`. -/
def STOP : UInt8 := 0x2e

/-- A `&str`: its bytes are an allocation, so there are at most `isize::MAX` of them. -/
structure StrKey where
  /-- The characters. -/
  text : Text
  /-- The bytes fit an allocation. -/
  fits : (toUtf8 text).length < 2 ^ 63

/-- `encode_str_key`. -/
def encodeStrKey (key : StrKey) : Bytes :=
  let utf8 := toUtf8 key.text
  let opcode :=
    if utf8.length ≤ 0xff then [SHORT_BINUNICODE, UInt8.ofNat utf8.length]
    -- `u64::try_from(..).unwrap_or(u64::MAX)`
    else if min utf8.length (2 ^ 64 - 1) > 0xffffffff then
      BINUNICODE8 :: littleEndian 8 utf8.length
    else BINUNICODE :: littleEndian 4 utf8.length
  let body := opcode ++ utf8 ++ [MEMOIZE, STOP]
  [PROTO, 4, FRAME] ++ littleEndian 8 body.length ++ body

/-- A key's opcode. -/
def StrKey.op (key : StrKey) : StringOp := .forLength (toUtf8 key.text).length

/-- A key's bytes fit the widest field. -/
theorem StrKey.lt (key : StrKey) : (toUtf8 key.text).length < 256 ^ 8 := by
  have hfits := key.fits
  omega

/-- Keys with the same characters. -/
theorem StrKey.ext {a b : StrKey} (h : a.text = b.text) : a = b := by
  cases a
  cases b
  cases h
  rfl

/-- What follows the frame's header. -/
def StrKey.body (key : StrKey) : Bytes := program (stringBody key.op (toUtf8 key.text))

/-- The body fits the frame's length field. -/
theorem StrKey.length_body_lt (key : StrKey) : key.body.length < 2 ^ 64 := by
  have hfits := key.fits
  have hwidth : key.op.width ≤ 8 := by cases key.op <;> decide
  rw [StrKey.body, length_stringBody]
  omega

/-- The encoder writes a program of five instructions. -/
theorem encodeStrKey_eq (key : StrKey) :
    encodeStrKey key = program [.proto 4, .frame key.body.length] ++ key.body := by
  have hlt := key.lt
  have hopcode : (if (toUtf8 key.text).length ≤ 0xff then
        [SHORT_BINUNICODE, UInt8.ofNat (toUtf8 key.text).length]
      else if min (toUtf8 key.text).length (2 ^ 64 - 1) > 0xffffffff then
        BINUNICODE8 :: littleEndian 8 (toUtf8 key.text).length
      else BINUNICODE :: littleEndian 4 (toUtf8 key.text).length) =
      key.op.code :: littleEndian key.op.width (toUtf8 key.text).length := by
    unfold StrKey.op StringOp.forLength
    have hmin : min (toUtf8 key.text).length (2 ^ 64 - 1) = (toUtf8 key.text).length := by
      omega
    rw [hmin]
    split
    · rfl
    · split <;> rfl
  have hbody : key.op.code :: littleEndian key.op.width (toUtf8 key.text).length ++
      toUtf8 key.text ++ [MEMOIZE, STOP] = key.body := by
    simp [StrKey.body, stringBody, program, Instr.bytes, MEMOIZE, STOP]
  dsimp only [encodeStrKey]
  rw [hopcode, hbody]
  simp [program, Instr.bytes, PROTO, FRAME]

/-- The unpickling machine reads a key back, and reads every byte. -/
theorem loads_encodeStrKey (key : StrKey) :
    loads (encodeStrKey key) = some (key.text, []) := by
  have hframe : key.body.length < 256 ^ 8 := by
    have hlt := key.length_body_lt
    omega
  rw [encodeStrKey_eq]
  exact loads_framed (fits_string key.lt) hframe

/-- A key is a well-formed pickle: `PROTO 4`, one `FRAME` of what follows it, the shortest
opcode with the key's length, `MEMOIZE` and `STOP`. The machine reads the key from it, and
different keys have different pickles. -/
theorem encode_str_key_decodes (key : StrKey) :
    (∃ op : StringOp, ∃ body : Bytes,
      encodeStrKey key = [PROTO, 4, FRAME] ++ littleEndian 8 body.length ++ body ∧
      body.length < 2 ^ 64 ∧
      body = op.code :: littleEndian op.width (toUtf8 key.text).length ++ toUtf8 key.text ++
        [MEMOIZE, STOP] ∧
      (toUtf8 key.text).length < 256 ^ op.width ∧
      ∀ other : StringOp, (toUtf8 key.text).length < 256 ^ other.width →
        op.width ≤ other.width) ∧
    loads (encodeStrKey key) = some (key.text, []) ∧
    ∀ other : StrKey, encodeStrKey key = encodeStrKey other → key = other := by
  refine ⟨⟨key.op, key.body, ?_, key.length_body_lt, ?_, StringOp.lt_forLength key.lt,
    fun _ hother => StringOp.width_forLength_le hother⟩, loads_encodeStrKey key, ?_⟩
  · rw [encodeStrKey_eq]
    simp [program, Instr.bytes, PROTO, FRAME]
  · simp [StrKey.body, stringBody, program, Instr.bytes, MEMOIZE, STOP]
  · intro other h
    have hloads := (loads_encodeStrKey key).symm.trans (h ▸ loads_encodeStrKey other)
    exact StrKey.ext (congrArg Prod.fst (Option.some.inj hloads))

example : encodeStrKey ⟨"foo".toList, by decide⟩ =
    [0x80, 4, 0x95, 7, 0, 0, 0, 0, 0, 0, 0, 0x8c, 3, 0x66, 0x6f, 0x6f, 0x94, 0x2e] := by
  decide

/-- A key's bytes are Python's exactly when Python writes the string in a frame. -/
theorem encodeStrKey_eq_dumps_self (key : StrKey) :
    encodeStrKey key = dumps key.text ↔ (toUtf8 key.text).length < frameSizeTarget := by
  constructor
  · intro h
    by_contra hlong
    rw [dumps_of_le (Nat.le_of_not_lt hlong), encodeStrKey_eq] at h
    -- the third byte is the opcode of a frame on one side and of a string on the other
    have hthird : FRAME = key.op.code := by
      have hget := congrArg (fun bytes => bytes.getD 2 0) h
      simpa [program, stringBody, Instr.bytes, StrKey.op, FRAME] using hget
    cases hop : key.op <;> rw [hop] at hthird <;> exact absurd hthird (by decide)
  · intro hshort
    rw [dumps_of_lt hshort, encodeStrKey_eq]
    rfl

/-- What one side stores under a key is what the other finds under a key exactly when the keys
are the same and Python writes them in a frame. -/
theorem encodeStrKey_eq_dumps_iff {key : StrKey} {t : Text}
    (ht : (toUtf8 t).length < 256 ^ 8) :
    encodeStrKey key = dumps t ↔ key.text = t ∧ (toUtf8 t).length < frameSizeTarget := by
  constructor
  · intro h
    have hloads := (loads_encodeStrKey key).symm.trans (h ▸ loads_dumps ht)
    have htext : key.text = t := congrArg Prod.fst (Option.some.inj hloads)
    subst htext
    exact ⟨rfl, (encodeStrKey_eq_dumps_self key).mp h⟩
  · rintro ⟨rfl, hshort⟩
    exact (encodeStrKey_eq_dumps_self key).mpr hshort

/-- A key is Python's pickle of the same string exactly when the string is shorter than
64 KiB, the size from which Python writes no frame around it. -/
theorem encode_str_key_eq_dumps_iff (key : StrKey) :
    encodeStrKey key = dumps key.text ↔ (toUtf8 key.text).length < 64 * 1024 :=
  encodeStrKey_eq_dumps_self key

/-- One byte for each of these characters. -/
theorem length_toUtf8_replicate (n : ℕ) : (toUtf8 (List.replicate n 'a')).length = n := by
  have hchar : (String.utf8EncodeChar 'a').length = 1 := by decide
  rw [toUtf8, List.flatMap_replicate, List.length_flatten, List.map_replicate,
    List.sum_replicate_nat, hchar, Nat.mul_one]

/-- The shortest length that Python writes outside a frame. -/
def longKey : StrKey where
  text := List.replicate 65536 'a'
  fits := by
    rw [length_toUtf8_replicate]
    decide

/-- The encoder announces a frame that Python does not write. -/
theorem encode_str_key_not_dumps :
    (toUtf8 longKey.text).length = 65536 ∧ encodeStrKey longKey ≠ dumps longKey.text := by
  have hlength : (toUtf8 longKey.text).length = 65536 := length_toUtf8_replicate 65536
  refine ⟨hlength, fun h => ?_⟩
  have hlt := (encodeStrKey_eq_dumps_iff longKey.lt).mp h
  rw [hlength] at hlt
  exact absurd hlt.2 (by decide)

end ModalRust.Sdk
