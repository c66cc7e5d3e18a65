import ModalRust.PrefixCode

/-!
# Pickles of strings

The part of Python's pickle format that a string needs: the instructions and their bytes, the
unpickling machine, which reads them inside and outside frames, and the framer and the
`save_str` of `pickle.dumps` at protocol 4. What the pickler writes is what the machine reads.
Nothing in this file refers to a particular program.
-/

namespace ModalRust.Pickle

/-- The opcodes that push a string. -/
inductive StringOp
  /-- `SHORT_BINUNICODE`. -/
  | short
  /-- `BINUNICODE`. -/
  | binary
  /-- `BINUNICODE8`. -/
  | binary8
  deriving DecidableEq, Repr

/-- The byte of the opcode. -/
def StringOp.code : StringOp → UInt8
  | .short => 0x8c
  | .binary => 0x58
  | .binary8 => 0x8d

/-- The number of bytes of its length field. -/
def StringOp.width : StringOp → ℕ
  | .short => 1
  | .binary => 4
  | .binary8 => 8

/-- The opcode of a byte. -/
def StringOp.ofCode (code : UInt8) : Option StringOp :=
  if code = 0x8c then some .short
  else if code = 0x58 then some .binary
  else if code = 0x8d then some .binary8
  else none

/-- The instructions of a string's pickle. -/
inductive Instr
  /-- `PROTO`: the protocol of what follows. -/
  | proto (version : UInt8)
  /-- `FRAME`: the next `length` bytes are read together. -/
  | frame (length : ℕ)
  /-- Push the string with these UTF-8 bytes. -/
  | string (op : StringOp) (utf8 : Bytes)
  /-- `MEMOIZE`: remember the top of the stack. -/
  | memoize
  /-- `STOP`: the top of the stack is the value. -/
  | stop
  deriving DecidableEq, Repr

/-- The bytes of an instruction. -/
def Instr.bytes : Instr → Bytes
  | .proto version => [0x80, version]
  | .frame length => 0x95 :: littleEndian 8 length
  | .string op utf8 => op.code :: (littleEndian op.width utf8.length ++ utf8)
  | .memoize => [0x94]
  | .stop => [0x2e]

/-- The numbers of an instruction fit its fields. -/
def Instr.Fits : Instr → Prop
  | .frame length => length < 256 ^ 8
  | .string op utf8 => utf8.length < 256 ^ op.width
  | _ => True

/-- The number with these little-endian bytes. -/
def fromLittleEndian : Bytes → ℕ
  | [] => 0
  | b :: rest => b.toNat + 256 * fromLittleEndian rest

/-- The first `count` bytes and the rest, if there are so many. -/
def readExactly (count : ℕ) (bytes : Bytes) : Option (Bytes × Bytes) :=
  if count ≤ bytes.length then some (bytes.take count, bytes.drop count) else none

/-- The first instruction and the bytes after it. -/
def fetch : Bytes → Option (Instr × Bytes)
  | [] => none
  | code :: rest =>
    if code = 0x80 then (readExactly 1 rest).map fun r => (.proto (r.1.headD 0), r.2)
    else if code = 0x95 then
      (readExactly 8 rest).map fun r => (.frame (fromLittleEndian r.1), r.2)
    else if code = 0x94 then some (.memoize, rest)
    else if code = 0x2e then some (.stop, rest)
    else do
      let op ← StringOp.ofCode code
      let (field, rest) ← readExactly op.width rest
      let (utf8, rest) ← readExactly (fromLittleEndian field) rest
      some (.string op utf8, rest)

/-- The state of the unpickling machine. -/
structure Unpickler where
  /-- The unread bytes of the current frame. -/
  frame : Bytes
  /-- The bytes after the current frame. -/
  file : Bytes
  /-- The values pushed. -/
  stack : List Text
  /-- The values memoized. -/
  memo : List Text

/-- The next instruction: the rest of the current frame is read first, and no instruction
reaches past its end. -/
def Unpickler.next (m : Unpickler) : Option (Instr × Unpickler) :=
  if m.frame = [] then (fetch m.file).map fun r => (r.1, { m with file := r.2 })
  else (fetch m.frame).map fun r => (r.1, { m with frame := r.2 })

/-- One instruction: the machine after it, or the value and the unread bytes. -/
def Unpickler.exec (m : Unpickler) : Instr → Option (Unpickler ⊕ Text × Bytes)
  | .proto version => if version ≤ 5 then some (.inl m) else none
  | .frame length =>
    -- a frame does not begin before the last one ends
    if m.frame = [] ∧ length ≤ m.file.length then
      some (.inl { m with frame := m.file.take length, file := m.file.drop length })
    else none
  | .string _ utf8 => (fromUtf8 utf8).map fun t => .inl { m with stack := t :: m.stack }
  | .memoize => m.stack.head?.map fun t => .inl { m with memo := m.memo ++ [t] }
  | .stop => m.stack.head?.map fun t => .inr (t, m.frame ++ m.file)

/-- At most `fuel` instructions. -/
def Unpickler.run : ℕ → Unpickler → Option (Text × Bytes)
  | 0, _ => none
  | fuel + 1, m => do
    let (i, m) ← m.next
    match ← m.exec i with
    | .inl m => m.run fuel
    | .inr result => some result

/-- The value of a pickle and the bytes after it. Every instruction takes a byte. -/
def loads (bytes : Bytes) : Option (Text × Bytes) :=
  Unpickler.run bytes.length ⟨[], bytes, [], []⟩

/-- Little-endian bytes are read back. -/
theorem fromLittleEndian_littleEndian {count value : ℕ} (hvalue : value < 256 ^ count) :
    fromLittleEndian (littleEndian count value) = value := by
  induction count generalizing value with
  | zero =>
    rw [Nat.pow_zero] at hvalue
    simp only [littleEndian, fromLittleEndian]
    omega
  | succ count ih =>
    rw [Nat.pow_succ] at hvalue
    have hrest := ih (show value / 256 < 256 ^ count by omega)
    simp only [littleEndian, fromLittleEndian, hrest, UInt8.toNat_ofNat']
    omega

/-- Exactly the bytes at the front. -/
theorem readExactly_append {count : ℕ} {bytes : Bytes} (hcount : bytes.length = count)
    (rest : Bytes) : readExactly count (bytes ++ rest) = some (bytes, rest) := by
  subst hcount
  have hle : bytes.length ≤ (bytes ++ rest).length := by simp
  rw [readExactly, if_pos hle, List.take_left, List.drop_left]

/-- The opcode of an opcode's byte. -/
@[simp] theorem StringOp.ofCode_code (op : StringOp) : ofCode op.code = some op := by
  cases op <;> rfl

/-- An instruction that fits is read back from its bytes. -/
theorem fetch_bytes {i : Instr} (hfits : i.Fits) (rest : Bytes) :
    fetch (i.bytes ++ rest) = some (i, rest) := by
  cases i with
  | proto version =>
    have hread := readExactly_append (show [version].length = 1 from rfl) rest
    simp only [List.singleton_append] at hread
    simp [Instr.bytes, fetch, hread]
  | frame length =>
    have hread := readExactly_append (length_littleEndian 8 length) rest
    simp [Instr.bytes, fetch, hread, fromLittleEndian_littleEndian hfits]
  | string op utf8 =>
    have hfield := readExactly_append (length_littleEndian op.width utf8.length) (utf8 ++ rest)
    have hutf8 := readExactly_append (rfl : utf8.length = utf8.length) rest
    have hlength := fromLittleEndian_littleEndian (show utf8.length < 256 ^ op.width from hfits)
    have hcode : op.code ≠ 0x80 ∧ op.code ≠ 0x95 ∧ op.code ≠ 0x94 ∧ op.code ≠ 0x2e := by
      cases op <;> decide
    obtain ⟨hproto, hframe, hmemoize, hstop⟩ := hcode
    simp [Instr.bytes, fetch, hproto, hframe, hmemoize, hstop, hfield, hlength, hutf8]
  | memoize => rfl
  | stop => rfl

/-- A protocol always fits. -/
theorem Instr.fits_proto (version : UInt8) : (Instr.proto version).Fits := trivial

/-- There is nothing to fit. -/
theorem Instr.fits_memoize : Instr.memoize.Fits := trivial

/-- There is nothing to fit. -/
theorem Instr.fits_stop : Instr.stop.Fits := trivial

/-- No instruction is empty. -/
theorem Instr.bytes_ne_nil (i : Instr) : i.bytes ≠ [] := by
  cases i <;> simp [Instr.bytes]

namespace Unpickler

variable {i : Instr} {rest unread : Bytes} {stack memo : List Text}

/-- Outside a frame the file is read. -/
theorem next_file (hfits : i.Fits) :
    next ⟨[], i.bytes ++ rest, stack, memo⟩ = some (i, ⟨[], rest, stack, memo⟩) := by
  rw [next, if_pos rfl, fetch_bytes hfits, Option.map_some]

/-- Inside a frame the frame is read. -/
theorem next_frame (hfits : i.Fits) :
    next ⟨i.bytes ++ rest, unread, stack, memo⟩ = some (i, ⟨rest, unread, stack, memo⟩) := by
  have hne : i.bytes ++ rest ≠ [] := by simp [i.bytes_ne_nil]
  rw [next, if_neg hne, fetch_bytes hfits, Option.map_some]

/-- An instruction that does not stop the machine. -/
theorem run_of_inl {m m₁ m₂ : Unpickler} (fuel : ℕ) (hnext : m.next = some (i, m₁))
    (hexec : m₁.exec i = some (.inl m₂)) : m.run (fuel + 1) = m₂.run fuel := by
  rw [run, hnext]
  simp only [Option.bind_eq_bind, Option.bind_some, hexec]

/-- An instruction that stops the machine. -/
theorem run_of_inr {m m₁ : Unpickler} {result : Text × Bytes} (fuel : ℕ)
    (hnext : m.next = some (i, m₁)) (hexec : m₁.exec i = some (.inr result)) :
    m.run (fuel + 1) = some result := by
  rw [run, hnext]
  simp only [Option.bind_eq_bind, Option.bind_some, hexec]

end Unpickler

/-- The instructions that leave a string as the value. -/
def stringBody (op : StringOp) (utf8 : Bytes) : List Instr := [.string op utf8, .memoize, .stop]

/-- The bytes of a list of instructions. -/
def program (instrs : List Instr) : Bytes := instrs.flatMap Instr.bytes

/-- A program's first instruction. -/
@[simp] theorem program_cons (i : Instr) (instrs : List Instr) :
    program (i :: instrs) = i.bytes ++ program instrs := rfl

/-- The bytes around a string. -/
theorem length_stringBody (op : StringOp) (utf8 : Bytes) :
    (program (stringBody op utf8)).length = op.width + utf8.length + 3 := by
  simp [program, stringBody, Instr.bytes]
  omega

section Loads

variable {op : StringOp} {t : Text} {stack memo : List Text} {unread : Bytes}

/-- The body in a frame. -/
theorem run_stringBody_frame (fuel : ℕ) (hfits : (Instr.string op (toUtf8 t)).Fits) :
    Unpickler.run (fuel + 3) ⟨program (stringBody op (toUtf8 t)), unread, stack, memo⟩ =
      some (t, unread) := by
  have hpush : Unpickler.exec ⟨program [.memoize, .stop], unread, stack, memo⟩
      (.string op (toUtf8 t)) =
        some (.inl ⟨program [.memoize, .stop], unread, t :: stack, memo⟩) := by
    rw [Unpickler.exec, fromUtf8_toUtf8, Option.map_some]
  rw [stringBody, program_cons, Unpickler.run_of_inl _ (Unpickler.next_frame hfits) hpush,
    program_cons, Unpickler.run_of_inl _ (Unpickler.next_frame Instr.fits_memoize) rfl,
    program_cons]
  exact Unpickler.run_of_inr _ (Unpickler.next_frame Instr.fits_stop) rfl

/-- The body outside a frame. -/
theorem run_stringBody_file (fuel : ℕ) (hfits : (Instr.string op (toUtf8 t)).Fits) :
    Unpickler.run (fuel + 3) ⟨[], program (stringBody op (toUtf8 t)), stack, memo⟩ =
      some (t, []) := by
  have hpush : Unpickler.exec ⟨[], program [.memoize, .stop], stack, memo⟩
      (.string op (toUtf8 t)) =
        some (.inl ⟨[], program [.memoize, .stop], t :: stack, memo⟩) := by
    rw [Unpickler.exec, fromUtf8_toUtf8, Option.map_some]
  rw [stringBody, program_cons, Unpickler.run_of_inl _ (Unpickler.next_file hfits) hpush,
    program_cons, Unpickler.run_of_inl _ (Unpickler.next_file Instr.fits_memoize) rfl,
    program_cons, ← List.append_nil (program [])]
  exact Unpickler.run_of_inr _ (Unpickler.next_file Instr.fits_stop) rfl

/-- A string in one frame is the value of its pickle. -/
theorem loads_framed (hfits : (Instr.string op (toUtf8 t)).Fits)
    (hframe : (program (stringBody op (toUtf8 t))).length < 256 ^ 8) :
    loads (program [.proto 4, .frame (program (stringBody op (toUtf8 t))).length] ++
      program (stringBody op (toUtf8 t))) = some (t, []) := by
  generalize hbody : program (stringBody op (toUtf8 t)) = body at hframe ⊢
  -- five instructions, and at least as many bytes
  obtain ⟨fuel, hfuel⟩ : ∃ fuel, (program [.proto 4, .frame body.length] ++ body).length =
      fuel + 3 + 1 + 1 := by
    refine ⟨body.length + 6, ?_⟩
    simp [program, Instr.bytes]
    omega
  have hshape : program [.proto 4, .frame body.length] ++ body =
      (Instr.proto 4).bytes ++ ((Instr.frame body.length).bytes ++ body) := by
    simp [program]
  have henter : Unpickler.exec ⟨[], body, [], []⟩ (.frame body.length) =
      some (.inl ⟨body, [], [], []⟩) := by
    simp [Unpickler.exec]
  rw [loads, hfuel, hshape, Unpickler.run_of_inl _ (Unpickler.next_file (Instr.fits_proto 4)) rfl,
    Unpickler.run_of_inl _ (Unpickler.next_file (i := .frame _) hframe) henter, ← hbody]
  exact run_stringBody_frame fuel hfits

/-- A string outside any frame is the value of its pickle. -/
theorem loads_unframed (hfits : (Instr.string op (toUtf8 t)).Fits) :
    loads (program (.proto 4 :: stringBody op (toUtf8 t))) = some (t, []) := by
  obtain ⟨fuel, hfuel⟩ : ∃ fuel, (program (.proto 4 :: stringBody op (toUtf8 t))).length =
      fuel + 3 + 1 := by
    refine ⟨op.width + (toUtf8 t).length + 1, ?_⟩
    rw [program_cons, List.length_append, length_stringBody, Instr.bytes, List.length_cons,
      List.length_singleton]
    omega
  rw [loads, hfuel, program_cons,
    Unpickler.run_of_inl _ (Unpickler.next_file (Instr.fits_proto 4)) rfl]
  exact run_stringBody_file fuel hfits

end Loads

/-! ### Writing -/

/-- The size from which a payload is written outside a frame. -/
def frameSizeTarget : ℕ := 64 * 1024

/-- The size from which a frame is announced. -/
def frameSizeMin : ℕ := 4

/-- The framer of a pickler. -/
structure Framer where
  /-- The bytes written to the file. -/
  file : Bytes
  /-- The bytes of the current frame. -/
  currentFrame : Option Bytes

namespace Framer

/-- A frame is begun. -/
def startFraming (f : Framer) : Framer := { f with currentFrame := some [] }

/-- The current frame goes to the file when it is large or `force` says so. -/
def commitFrame (f : Framer) (force : Bool) : Framer :=
  match f.currentFrame with
  | none => f
  | some data =>
    if frameSizeTarget ≤ data.length ∨ force = true then
      { file := f.file ++
          (if frameSizeMin ≤ data.length then (Instr.frame data.length).bytes else []) ++ data
        currentFrame := some [] }
    else f

/-- The last frame goes to the file. -/
def endFraming (f : Framer) : Framer :=
  match f.currentFrame with
  | none => f
  | some data => if 0 < data.length then { f.commitFrame true with currentFrame := none } else f

/-- Bytes go to the current frame if there is one. -/
def write (f : Framer) (data : Bytes) : Framer :=
  match f.currentFrame with
  | none => { f with file := f.file ++ data }
  | some frame => { f with currentFrame := some (frame ++ data) }

/-- A large payload goes to the file, after the frame before it. -/
def writeLargeBytes (f : Framer) (header payload : Bytes) : Framer :=
  let f := f.commitFrame true
  { f with file := f.file ++ header ++ payload }

end Framer

/-- `save_str` at protocol 4, with the `memoize` at its end. -/
def saveStr (f : Framer) (t : Text) : Framer :=
  let encoded := toUtf8 t
  let n := encoded.length
  let f :=
    if n ≤ 0xff then f.write (StringOp.short.code :: littleEndian 1 n ++ encoded)
    else if n > 0xffffffff then
      f.writeLargeBytes (StringOp.binary8.code :: littleEndian 8 n) encoded
    else if frameSizeTarget ≤ n then
      f.writeLargeBytes (StringOp.binary.code :: littleEndian 4 n) encoded
    else f.write (StringOp.binary.code :: littleEndian 4 n ++ encoded)
  f.write Instr.memoize.bytes

/-- `pickle.dumps(t, protocol=4)` of a string. -/
def dumps (t : Text) : Bytes :=
  let f : Framer := ⟨[], none⟩
  let f := (f.write (Instr.proto 4).bytes).startFraming
  let f := saveStr (f.commitFrame false) t
  (f.write Instr.stop.bytes).endFraming.file

/-- The shortest opcode whose length field holds `n`. -/
def StringOp.forLength (n : ℕ) : StringOp :=
  if n ≤ 0xff then .short else if n > 0xffffffff then .binary8 else .binary

/-- The chosen opcode holds the length. -/
theorem StringOp.lt_forLength {n : ℕ} (hn : n < 256 ^ 8) : n < 256 ^ (forLength n).width := by
  unfold forLength
  split
  · rw [width]
    omega
  · split
    · exact hn
    · rw [width]
      omega

/-- No opcode with a shorter length field holds the length. -/
theorem StringOp.width_forLength_le {n : ℕ} {op : StringOp} (hop : n < 256 ^ op.width) :
    (forLength n).width ≤ op.width := by
  unfold forLength
  cases op with
  | short =>
    rw [width] at hop
    rw [if_pos (by omega)]
  | binary =>
    rw [width] at hop
    split
    · decide
    · rw [if_neg (by omega)]
  | binary8 => split <;> [decide; split <;> decide]

/-- A short string is written like any other bytes. -/
theorem saveStr_of_lt {t : Text} (f : Framer) (ht : (toUtf8 t).length < frameSizeTarget) :
    saveStr f t = (f.write (Instr.string (.forLength (toUtf8 t).length) (toUtf8 t)).bytes).write
      Instr.memoize.bytes := by
  have htarget : frameSizeTarget = 65536 := rfl
  rw [htarget] at ht
  unfold saveStr StringOp.forLength
  by_cases hshort : (toUtf8 t).length ≤ 0xff
  · simp only [if_pos hshort]
    rfl
  · simp only [if_neg hshort, htarget]
    rw [if_neg (by omega), if_neg (by omega), if_neg (by omega)]
    rfl

/-- A long string is written as a large payload. -/
theorem saveStr_of_le {t : Text} (f : Framer) (ht : frameSizeTarget ≤ (toUtf8 t).length) :
    ∃ header, header ++ toUtf8 t =
        (Instr.string (.forLength (toUtf8 t).length) (toUtf8 t)).bytes ∧
      saveStr f t = (f.writeLargeBytes header (toUtf8 t)).write Instr.memoize.bytes := by
  have htarget : frameSizeTarget = 65536 := rfl
  rw [htarget] at ht
  have hshort : ¬ (toUtf8 t).length ≤ 0xff := by omega
  unfold saveStr StringOp.forLength
  simp only [if_neg hshort, htarget]
  by_cases hlong : (toUtf8 t).length > 0xffffffff
  · rw [if_pos hlong, if_pos hlong]
    exact ⟨_, rfl, rfl⟩
  · rw [if_neg hlong, if_neg hlong, if_pos ht]
    exact ⟨_, rfl, rfl⟩

/-- The framer when the value is saved: the protocol is written and an empty frame begun. -/
theorem dumps_eq (t : Text) :
    dumps t = ((saveStr ⟨(Instr.proto 4).bytes, some []⟩ t).write
      Instr.stop.bytes).endFraming.file := rfl

/-- A short string is written in one frame. -/
theorem dumps_of_lt {t : Text} (ht : (toUtf8 t).length < frameSizeTarget) :
    dumps t = program [.proto 4, .frame (program (stringBody
      (.forLength (toUtf8 t).length) (toUtf8 t))).length] ++
        program (stringBody (.forLength (toUtf8 t).length) (toUtf8 t)) := by
  generalize hop : StringOp.forLength (toUtf8 t).length = op
  have hbody : (Instr.string op (toUtf8 t)).bytes ++ Instr.memoize.bytes ++ Instr.stop.bytes =
      program (stringBody op (toUtf8 t)) := by
    simp [program, stringBody]
  -- even the empty string has an opcode, a length, `MEMOIZE` and `STOP`
  have hmin : frameSizeMin ≤ (program (stringBody op (toUtf8 t))).length := by
    have hwidth : 1 ≤ op.width := by cases op <;> decide
    rw [length_stringBody, frameSizeMin]
    omega
  have hpos : 0 < (program (stringBody op (toUtf8 t))).length :=
    Nat.lt_of_lt_of_le (by decide) hmin
  rw [dumps_eq, saveStr_of_lt _ ht, hop]
  simp only [Framer.write, List.nil_append, hbody, Framer.endFraming, Framer.commitFrame,
    if_pos hpos, or_true, if_true, if_pos hmin]
  simp [program]

/-- A long string is written outside any frame, and what follows it is too short for one. -/
theorem dumps_of_le {t : Text} (ht : frameSizeTarget ≤ (toUtf8 t).length) :
    dumps t = program (.proto 4 :: stringBody (.forLength (toUtf8 t).length) (toUtf8 t)) := by
  obtain ⟨header, hheader, hsave⟩ :=
    saveStr_of_le ⟨(Instr.proto 4).bytes, some []⟩ ht
  rw [dumps_eq, hsave]
  have hlarge : Framer.writeLargeBytes ⟨(Instr.proto 4).bytes, some []⟩ header (toUtf8 t) =
      ⟨(Instr.proto 4).bytes ++ header ++ toUtf8 t, some []⟩ := rfl
  rw [hlarge, List.append_assoc, hheader, stringBody, program_cons, program_cons]
  generalize (Instr.string (.forLength (toUtf8 t).length) (toUtf8 t)).bytes = string
  simp [Framer.write, Framer.endFraming, Framer.commitFrame, Instr.bytes, frameSizeMin, program]

/-- The string's length in bytes. -/
theorem fits_string {t : Text} (ht : (toUtf8 t).length < 256 ^ 8) :
    (Instr.string (.forLength (toUtf8 t).length) (toUtf8 t)).Fits :=
  StringOp.lt_forLength ht

/-- What is dumped is loaded. -/
theorem loads_dumps {t : Text} (ht : (toUtf8 t).length < 256 ^ 8) :
    loads (dumps t) = some (t, []) := by
  rcases Nat.lt_or_ge (toUtf8 t).length frameSizeTarget with hlt | hge
  · rw [dumps_of_lt hlt]
    have hwidth : ∀ op : StringOp, op.width ≤ 8 := by
      intro op
      cases op <;> decide
    have hop := hwidth (.forLength (toUtf8 t).length)
    refine loads_framed (fits_string ht) ?_
    rw [frameSizeTarget] at hlt
    rw [length_stringBody]
    omega
  · rw [dumps_of_le hge]
    exact loads_unframed (fits_string ht)

end ModalRust.Pickle
