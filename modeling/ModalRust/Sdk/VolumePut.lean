import ModalRust.Sdk.Error
import ModalRust.Sdk.VolumePlan

/-!
# Uploading to a volume

`volume_put` declares every file as blocks with their digests, is told which blocks are missing,
puts these to object storage, and declares the files again with the responses. The files may change
between the two reads of a block, and the server may answer anything.
-/

namespace ModalRust.Sdk.VolumePut

open VolumePlan

/-- `VOLUME_BLOCK_SIZE`. -/
def volumeBlockSize : ℕ := 8 * 1024 * 1024

/-- `Block`. -/
structure Block where
  /-- The declared digest. -/
  contentsSha256 : Bytes
  /-- The response to the `PUT` of the block. -/
  putResponse : Option Bytes
  deriving DecidableEq

/-- `File` of a request. -/
structure PutFile where
  /-- The remote path. -/
  path : Text
  /-- The size. -/
  size : ℕ
  /-- The permission bits. -/
  mode : Option ℕ
  /-- The blocks. -/
  blocks : List Block
  deriving DecidableEq

/-- `VolumePutFiles2Request`. -/
structure PutRequest where
  /-- The volume. -/
  volumeId : Text
  /-- The files. -/
  files : List PutFile
  /-- Whether files that exist are refused. -/
  disallowOverwriteExistingFiles : Bool
  deriving DecidableEq

/-- `MissingBlock`. -/
structure MissingBlock where
  /-- The index of the file. -/
  fileIndex : ℕ
  /-- The index of the block in the file. -/
  blockIndex : ℕ
  /-- Where to put the block. -/
  putUrl : Text

/-- `VolumePutStats`. -/
structure VolumePutStats where
  /-- The number of files. -/
  files : ℕ
  /-- Their sizes together. -/
  bytes : ℕ
  /-- The number of blocks that were put. -/
  blocksUploaded : ℕ
  deriving DecidableEq

/-- Why reading a block fails. -/
inductive ReadError
  /-- The position cannot be set. -/
  | seek (message : Text)
  /-- The bytes cannot be read. -/
  | read (message : Text)

/-- What surrounds the client: local files that may change at any time, and a server that may
answer anything. -/
structure Env where
  /-- `Path::display`. -/
  display : LocalPath → Text
  /-- SHA-256. -/
  sha256 : Bytes → Bytes
  /-- Opening a planned file. -/
  opened : ℕ → Except Text Unit
  /-- The size of a planned file when it is opened. -/
  size : ℕ → Except Text ℕ
  /-- The contents of a planned file when a block of it is hashed. -/
  hashed : ℕ → ℕ → Except ReadError Bytes
  /-- The reply to the request of a round. -/
  reply : ℕ → Except Error (List MissingBlock)
  /-- Cloning a file handle for the upload with a number. -/
  cloned : ℕ → Except Text Unit
  /-- The contents of the file when the block of an upload is read again. -/
  reread : ℕ → Except ReadError Bytes
  /-- The outcome of an upload, after its retries. -/
  put : ℕ → Except Error Bytes

/-- The bytes of a span. -/
def slice (contents : Bytes) (start len : ℕ) : Bytes := (contents.drop start).take len

/-- The bytes of a block of a file of a size, in the contents of the file at some time. -/
def blockOf (size k : ℕ) (contents : Bytes) : Bytes :=
  slice contents (k * volumeBlockSize) (min volumeBlockSize (size - k * volumeBlockSize))

/-- `hash_block`, on a file with contents. -/
def hashBlock (env : Env) (file : Except ReadError Bytes) (start len : ℕ) :
    Except Error (Bytes × Bytes) :=
  match file with
  | .error (.seek message) => .error (.build ("seek failed: ".toList ++ message))
  | .error (.read message) => .error (.build ("read failed: ".toList ++ message))
  | .ok contents =>
    let buf := slice contents start len
    if buf.length < len then .error (.build "read failed: failed to fill whole buffer".toList)
    else .ok (env.sha256 buf, buf)

/-- A block of a local file. -/
structure LocalBlock where
  /-- Where it starts. -/
  start : ℕ
  /-- How long it is. -/
  len : ℕ
  /-- The digest that it had. -/
  sha : Bytes

/-- `LocalFile`. -/
structure LocalFile where
  /-- The size. -/
  size : ℕ
  /-- The remote path. -/
  remote : Text
  /-- The permission bits. -/
  mode : ℕ
  /-- The blocks, in order. -/
  blocks : List LocalBlock

/-- The loop over the blocks of a file. Every block takes at least one byte, so the size is fuel
enough. -/
def hashFrom (env : Env) (i size : ℕ) : ℕ → ℕ → ℕ → Except Error (List LocalBlock)
  | 0, _, _ => .ok []
  | fuel + 1, k, start =>
    if start < size then
      let len := min volumeBlockSize (size - start)
      (hashBlock env (env.hashed i k) start len).bind fun (digest, _) =>
        (hashFrom env i size fuel (k + 1) (start + len)).map fun blocks =>
          ⟨start, len, digest⟩ :: blocks
    else .ok []

/-- Hash the planned files from an index on. -/
def hashFiles (env : Env) : ℕ → List PlannedFile → Except Error (List LocalFile)
  | _, [] => .ok []
  | i, pf :: files =>
    ((env.opened i).mapError fun e =>
      .build ("cannot open '".toList ++ env.display pf.localPath ++ "': ".toList ++ e)).bind
        fun _ =>
    ((env.size i).mapError fun e =>
      .build ("cannot stat '".toList ++ env.display pf.localPath ++ "': ".toList ++ e)).bind
        fun size =>
    (hashFrom env i size size 0 0).bind fun blocks =>
      (hashFiles env (i + 1) files).map fun locals => ⟨size, pf.remote, pf.mode, blocks⟩ :: locals

/-- The request of a round, with the responses so far. -/
def putRequest (volumeId : Text) (force : Bool) (locals : List LocalFile)
    (responses : List (Bytes × Bytes)) : PutRequest where
  volumeId := volumeId
  files := locals.map fun lf =>
    { path := lf.remote
      size := lf.size
      mode := some lf.mode
      blocks := lf.blocks.map fun b => ⟨b.sha, responses.lookup b.sha⟩ }
  disallowOverwriteExistingFiles := !force

/-- A `PUT` of a block. -/
structure Put where
  /-- The missing block. -/
  missing : MissingBlock
  /-- The declared digest. -/
  sha : Bytes
  /-- The bytes. -/
  bytes : Bytes
  /-- The response. -/
  reply : Except Error Bytes

/-- The state of an upload. -/
structure Progress where
  /-- `put_responses`. -/
  responses : List (Bytes × Bytes)
  /-- `blocks_uploaded`. -/
  blocksUploaded : ℕ
  /-- What was put. -/
  puts : List Put

/-- Put the missing blocks, up to the first error. -/
def uploadMissing (env : Env) (locals : List LocalFile) :
    List MissingBlock → Progress → Progress × Option Error
  | [], st => (st, none)
  | mb :: missing, st =>
    match locals[mb.fileIndex]? with
    | none =>
      (st, some (.build ("server returned out-of-range file_index ".toList ++
        (toString mb.fileIndex).toList)))
    | some lf =>
      match lf.blocks[mb.blockIndex]? with
      | none =>
        (st, some (.build ("server returned out-of-range block_index ".toList ++
          (toString mb.blockIndex).toList ++ " for file ".toList ++
            (toString mb.fileIndex).toList)))
      | some b =>
        if (st.responses.lookup b.sha).isSome then uploadMissing env locals missing st
        else
          match env.cloned st.blocksUploaded with
          | .error e => (st, some (.build ("clone handle: ".toList ++ e)))
          | .ok () =>
            match hashBlock env (env.reread st.blocksUploaded) b.start b.len with
            | .error e => (st, some e)
            | .ok (_, bytes) =>
              -- the digest of the bytes that are read again is not compared
              match env.put st.blocksUploaded with
              | .error e => ({ st with puts := st.puts ++ [⟨mb, b.sha, bytes, .error e⟩] }, some e)
              | .ok body =>
                uploadMissing env locals missing
                  { responses := st.responses ++ [(b.sha, body)]
                    blocksUploaded := st.blocksUploaded + 1
                    puts := st.puts ++ [⟨mb, b.sha, bytes, .ok body⟩] }

/-- What a call does. -/
structure Run where
  /-- The requests, in order. -/
  requests : List PutRequest
  /-- The blocks that were put, in order. -/
  puts : List Put
  /-- The result; there is none where the code is marked unreachable. -/
  result : Option (Except Error VolumePutStats)

/-- The loop over the rounds, for a number of files with a number of bytes. -/
def rounds (env : Env) (volumeId : Text) (force : Bool) (locals : List LocalFile)
    (files totalBytes : ℕ) : ℕ → ℕ → Progress → List PutRequest → Run
  | 0, _, st, sent => ⟨sent, st.puts, none⟩
  | left + 1, round, st, sent =>
    let sent := sent ++ [putRequest volumeId force locals st.responses]
    match env.reply round with
    | .error e => ⟨sent, st.puts, some (.error e)⟩
    | .ok missing =>
      if missing.isEmpty then
        ⟨sent, st.puts, some (.ok ⟨files, totalBytes, st.blocksUploaded⟩)⟩
      else if round = 1 then
        ⟨sent, st.puts, some (.error (.build
          ("volume put did not converge: server still reports missing blocks after ".toList ++
            "re-uploading them".toList)))⟩
      else
        match uploadMissing env locals missing st with
        | (st, some e) => ⟨sent, st.puts, some (.error e)⟩
        | (st, none) => rounds env volumeId force locals files totalBytes left (round + 1) st sent

/-- `volume_put`. -/
def volumePut (env : Env) (volumeId : Text) (files : List PlannedFile) (force : Bool) : Run :=
  if files.isEmpty then ⟨[], [], some (.error (.invalid "no files to upload".toList))⟩
  else
    match hashFiles env 0 files with
    | .error e => ⟨[], [], some (.error e)⟩
    | .ok locals =>
      rounds env volumeId force locals files.length (locals.map LocalFile.size).sum 2 0 ⟨[], 0, []⟩
        []

/-! ### What is declared -/

/-- Spans that divide a file into blocks. -/
structure Partition (size : ℕ) (spans : List (ℕ × ℕ)) : Prop where
  /-- Every span starts where the spans before it end: there is no gap and no overlap. -/
  contiguous : ∀ k span, spans[k]? = some span → span.1 = ((spans.take k).map Prod.snd).sum
  /-- The spans end where the file ends. -/
  total : (spans.map Prod.snd).sum = size
  /-- A span is not empty and not longer than a block. -/
  bounded : ∀ span ∈ spans, 0 < span.2 ∧ span.2 ≤ volumeBlockSize
  /-- All spans but the last are as long as a block. -/
  full : ∀ span ∈ spans.dropLast, span.2 = volumeBlockSize

/-- The span of a block. -/
def LocalBlock.span (b : LocalBlock) : ℕ × ℕ := (b.start, b.len)

/-- The blocks of a file from an offset on, where the block at the offset has a number. -/
structure HashedFrom (env : Env) (i size k start : ℕ) (blocks : List LocalBlock) : Prop where
  /-- Every block starts where the blocks before it end. -/
  contiguous : ∀ j b, blocks[j]? = some b →
    b.start = start + ((blocks.take j).map LocalBlock.len).sum
  /-- The blocks end where the file ends. -/
  total : start + (blocks.map LocalBlock.len).sum = size
  /-- A block is not empty and not too long. -/
  bounded : ∀ b ∈ blocks, 0 < b.len ∧ b.len ≤ volumeBlockSize
  /-- All blocks but the last are full. -/
  full : ∀ b ∈ blocks.dropLast, b.len = volumeBlockSize
  /-- Every block has the digest of what was read. -/
  digest : ∀ j b, blocks[j]? = some b → ∃ contents, env.hashed i (k + j) = .ok contents ∧
    (slice contents b.start b.len).length = b.len ∧
      b.sha = env.sha256 (slice contents b.start b.len)

/-- What is read for a block. -/
theorem hashBlock_ok {env : Env} {file : Except ReadError Bytes} {start len : ℕ}
    {digest bytes : Bytes} (hok : hashBlock env file start len = .ok (digest, bytes)) :
    ∃ contents, file = .ok contents ∧ bytes = slice contents start len ∧ bytes.length = len ∧
      digest = env.sha256 bytes := by
  cases file with
  | error e => cases e <;> cases hok
  | ok contents =>
    unfold hashBlock at hok
    dsimp only at hok
    split_ifs at hok with hshort
    cases hok
    refine ⟨contents, rfl, rfl, ?_, rfl⟩
    have hle : (slice contents start len).length ≤ len := List.length_take_le _ _
    omega

/-- No blocks are left at the end of a file. -/
theorem HashedFrom.nil (env : Env) (i size k : ℕ) : HashedFrom env i size k size [] :=
  ⟨nofun, rfl, nofun, nofun, nofun⟩

/-- One more block in front. -/
theorem HashedFrom.cons {env : Env} {i size k start len : ℕ} {contents digest : Bytes}
    {rest : List LocalBlock} (hrest : HashedFrom env i size (k + 1) (start + len) rest)
    (hlen : len = min volumeBlockSize (size - start)) (hmore : start < size)
    (hfile : env.hashed i k = .ok contents) (hread : (slice contents start len).length = len)
    (hdigest : digest = env.sha256 (slice contents start len)) :
    HashedFrom env i size k start (⟨start, len, digest⟩ :: rest) := by
  have hblock : 0 < volumeBlockSize := by decide
  have htotal := hrest.total
  refine ⟨?_, ?_, ?_, ?_, ?_⟩
  · intro j b hb
    cases j with
    | zero =>
      cases hb
      rfl
    | succ j =>
      have hstart := hrest.contiguous j b hb
      rw [List.take_succ_cons, List.map_cons, List.sum_cons, hstart]
      dsimp only
      omega
  · rw [List.map_cons, List.sum_cons]
    dsimp only
    omega
  · rw [List.forall_mem_cons]
    refine ⟨?_, hrest.bounded⟩
    dsimp only
    omega
  · cases rest with
    | nil => nofun
    | cons b rest =>
      have hb := hrest.bounded b List.mem_cons_self
      rw [List.map_cons, List.sum_cons] at htotal
      rw [List.dropLast_cons_cons, List.forall_mem_cons]
      exact ⟨by change len = _; omega, hrest.full⟩
  · intro j b hb
    cases j with
    | zero =>
      cases hb
      exact ⟨contents, hfile, hread, hdigest⟩
    | succ j =>
      obtain ⟨contents', hfile', hread', hdigest'⟩ := hrest.digest j b hb
      exact ⟨contents', by rw [← hfile', Nat.add_right_comm, Nat.add_assoc], hread', hdigest'⟩

/-- The blocks that the loop makes. -/
theorem hashedFrom {env : Env} {i size fuel k start : ℕ} {blocks : List LocalBlock}
    (hstart : start ≤ size) (hfuel : size - start ≤ fuel)
    (hok : hashFrom env i size fuel k start = .ok blocks) :
    HashedFrom env i size k start blocks := by
  have hblock : 0 < volumeBlockSize := by decide
  induction fuel generalizing k start blocks with
  | zero =>
    cases hok
    rw [show start = size by omega]
    exact .nil env i size k
  | succ fuel ih =>
    unfold hashFrom at hok
    split_ifs at hok with hmore
    · obtain ⟨⟨digest, bytes⟩, hhash, hmap⟩ := exists_of_bind_ok hok
      obtain ⟨rest, hrest, rfl⟩ := exists_of_map_ok hmap
      obtain ⟨contents, hfile, rfl, hread, hdigest⟩ := hashBlock_ok hhash
      exact (ih (by omega) (by omega) hrest).cons rfl hmore hfile hread hdigest
    · cases hok
      rw [show start = size by omega]
      exact .nil env i size k

/-- The blocks of a whole file are a partition of it. -/
theorem HashedFrom.partition {env : Env} {i size : ℕ} {blocks : List LocalBlock}
    (hhashed : HashedFrom env i size 0 0 blocks) : Partition size (blocks.map LocalBlock.span) := by
  have hlens (bs : List LocalBlock) :
      (bs.map LocalBlock.span).map Prod.snd = bs.map LocalBlock.len := by
    rw [List.map_map]
    rfl
  refine ⟨?_, ?_, ?_, ?_⟩
  · intro k span hspan
    rw [List.getElem?_map] at hspan
    obtain ⟨b, hb, rfl⟩ := Option.map_eq_some_iff.mp hspan
    have hstart := hhashed.contiguous k b hb
    rw [Nat.zero_add] at hstart
    rw [← List.map_take, hlens]
    exact hstart
  · rw [hlens, ← hhashed.total, Nat.zero_add]
  · rw [List.forall_mem_map]
    exact hhashed.bounded
  · rw [← List.map_dropLast, List.forall_mem_map]
    exact hhashed.full

/-- The blocks before another one are full. -/
theorem HashedFrom.sum_take {env : Env} {i size k : ℕ} {blocks : List LocalBlock}
    (hhashed : HashedFrom env i size 0 0 blocks) (hk : k < blocks.length) :
    ((blocks.take k).map LocalBlock.len).sum = k * volumeBlockSize := by
  have hfull : ∀ b ∈ blocks.take k, b.len = volumeBlockSize := by
    intro b hb
    refine hhashed.full b ?_
    rw [List.dropLast_eq_take]
    exact List.take_subset_take_left _ (by omega) hb
  rw [List.map_congr_left hfull, List.map_const', List.sum_replicate_nat,
    List.length_take_of_le hk.le]

/-- Where a block lies. -/
theorem HashedFrom.span_eq {env : Env} {i size k : ℕ} {blocks : List LocalBlock}
    (hhashed : HashedFrom env i size 0 0 blocks) {b : LocalBlock} (hb : blocks[k]? = some b) :
    b.start = k * volumeBlockSize ∧ b.len = min volumeBlockSize (size - k * volumeBlockSize) := by
  obtain ⟨hk, hget⟩ := List.getElem?_eq_some_iff.mp hb
  have htake := hhashed.sum_take hk
  have hstart := hhashed.contiguous k b hb
  rw [htake, Nat.zero_add] at hstart
  refine ⟨hstart, ?_⟩
  have hbounded := (hhashed.bounded b (List.mem_of_getElem? hb)).2
  have htotal := hhashed.total
  rw [← List.take_append_drop k blocks, List.drop_eq_getElem_cons hk, hget, List.map_append,
    List.sum_append, htake, List.map_cons, List.sum_cons, Nat.zero_add] at htotal
  -- the size of a block is a number that no step should compute with
  by_cases hlast : k + 1 < blocks.length
  · have hnext := hhashed.sum_take hlast
    rw [List.take_succ_eq_append_getElem hk, hget, List.map_append, List.sum_append, htake,
      List.map_singleton, List.sum_singleton] at hnext
    have hmul : (k + 1) * volumeBlockSize = k * volumeBlockSize + volumeBlockSize :=
      by rw [Nat.add_mul, Nat.one_mul]
    generalize k * volumeBlockSize = offset at *
    generalize volumeBlockSize = full at *
    omega
  · rw [List.drop_of_length_le (by omega), List.map_nil, List.sum_nil] at htotal
    omega

/-- A local file is the planned one as it was hashed. -/
structure HashedAs (env : Env) (i : ℕ) (pf : PlannedFile) (lf : LocalFile) : Prop where
  /-- The remote path. -/
  remote : lf.remote = pf.remote
  /-- The permission bits. -/
  mode : lf.mode = pf.mode
  /-- The size. -/
  size : env.size i = .ok lf.size
  /-- The blocks. -/
  blocks : HashedFrom env i lf.size 0 0 lf.blocks

/-- The local files are the planned ones, in order. -/
theorem hashFiles_ok {env : Env} {i : ℕ} {files : List PlannedFile} {locals : List LocalFile}
    (hok : hashFiles env i files = .ok locals) :
    locals.length = files.length ∧ ∀ j pf lf, files[j]? = some pf → locals[j]? = some lf →
      HashedAs env (i + j) pf lf := by
  induction files generalizing i locals with
  | nil =>
    cases hok
    exact ⟨rfl, nofun⟩
  | cons pf files ih =>
    obtain ⟨-, -, hstat⟩ := exists_of_bind_ok hok
    obtain ⟨size, hsize, hhash⟩ := exists_of_bind_ok hstat
    obtain ⟨blocks, hblocks, hmap⟩ := exists_of_bind_ok hhash
    obtain ⟨rest, hrest, rfl⟩ := exists_of_map_ok hmap
    obtain ⟨hlength, hall⟩ := ih hrest
    refine ⟨by rw [List.length_cons, List.length_cons, hlength], fun j pf' lf hpf hlf => ?_⟩
    cases j with
    | zero =>
      cases hpf
      cases hlf
      exact ⟨rfl, rfl, eq_of_mapError_ok hsize, hashedFrom (Nat.zero_le _) (Nat.sub_le _ _) hblocks⟩
    | succ j =>
      rw [show i + (j + 1) = i + 1 + j by omega]
      exact hall j pf' lf hpf hlf

/-! ### What is put -/

/-- The local block that is reported missing, if the indices are in range. -/
def blockAt (locals : List LocalFile) (mb : MissingBlock) : Option LocalBlock :=
  locals[mb.fileIndex]?.bind fun lf => lf.blocks[mb.blockIndex]?

/-- The `PUT` with a number is of a missing block, and of the bytes that were read again. -/
structure IsPut (env : Env) (locals : List LocalFile) (missing : List MissingBlock) (n : ℕ)
    (put : Put) : Prop where
  /-- The block was reported. -/
  asked : put.missing ∈ missing
  /-- The bytes are those of its span at the second read. -/
  block : ∃ b contents, blockAt locals put.missing = some b ∧ put.sha = b.sha ∧
    env.reread n = .ok contents ∧ put.bytes = slice contents b.start b.len
  /-- The response is that of the storage. -/
  reply : put.reply = env.put n

/-- Blocks that are put are missing ones, and no digest is put twice. -/
structure PutsSound (env : Env) (locals : List LocalFile) (missing : List MissingBlock)
    (puts : List Put) : Prop where
  /-- No digest is put twice. -/
  nodup : (puts.map Put.sha).Nodup
  /-- Every `PUT` is of a missing block. -/
  each : ∀ n put, puts[n]? = some put → IsPut env locals missing n put

/-- The state after missing blocks were put. -/
structure Uploaded (env : Env) (locals : List LocalFile) (done : List MissingBlock)
    (st : Progress) : Prop where
  /-- What was put is missing. -/
  sound : PutsSound env locals done st.puts
  /-- The counter counts what was put. -/
  count : st.blocksUploaded = st.puts.length
  /-- The responses are those of what was put. -/
  responses : st.puts.map (fun put => (put.sha, put.reply)) =
    st.responses.map fun (sha, body) => (sha, .ok body)
  /-- Every missing block is in range, and its digest was put. -/
  answered : ∀ mb ∈ done, ∃ b, blockAt locals mb = some b ∧ b.sha ∈ st.puts.map Put.sha

/-- Nothing was put. -/
theorem Uploaded.nil (env : Env) (locals : List LocalFile) :
    Uploaded env locals [] ⟨[], 0, []⟩ :=
  ⟨⟨List.nodup_nil, nofun⟩, rfl, rfl, nofun⟩

/-- More blocks are missing. -/
theorem PutsSound.mono {env : Env} {locals : List LocalFile} {missing more : List MissingBlock}
    {puts : List Put} (hsound : PutsSound env locals missing puts) (hsub : missing ⊆ more) :
    PutsSound env locals more puts :=
  ⟨hsound.nodup, fun n put hput =>
    let his := hsound.each n put hput
    ⟨hsub his.asked, his.block, his.reply⟩⟩

/-- One more block is put, with a digest that was not put before. -/
theorem PutsSound.concat {env : Env} {locals : List LocalFile} {missing : List MissingBlock}
    {puts : List Put} (hsound : PutsSound env locals missing puts) {put : Put}
    (hnew : put.sha ∉ puts.map Put.sha) (his : IsPut env locals missing puts.length put) :
    PutsSound env locals missing (puts ++ [put]) := by
  refine ⟨?_, fun n other hother => ?_⟩
  · rw [List.map_append, List.map_singleton, List.nodup_append]
    refine ⟨hsound.nodup, List.nodup_singleton _, ?_⟩
    intro sha hsha other hother
    rw [List.mem_singleton.mp hother]
    rintro rfl
    exact hnew hsha
  · rcases Nat.lt_trichotomy n puts.length with hlt | heq | hgt
    · rw [List.getElem?_append_left hlt] at hother
      exact hsound.each n other hother
    · rw [heq, List.getElem?_concat_length] at hother
      rw [heq, ← Option.some.inj hother]
      exact his
    · rw [List.getElem?_eq_none (by simp; omega)] at hother
      cases hother

/-- The digests that have a response are those that were put. -/
theorem Uploaded.isSome_lookup {env : Env} {locals : List LocalFile} {done : List MissingBlock}
    {st : Progress} (hst : Uploaded env locals done st) (sha : Bytes) :
    (st.responses.lookup sha).isSome = true ↔ sha ∈ st.puts.map Put.sha := by
  have hkeys : st.puts.map Put.sha = st.responses.map Prod.fst := by
    have hfst := congrArg (List.map Prod.fst) hst.responses
    rw [List.map_map, List.map_map] at hfst
    exact hfst
  rw [hkeys, Option.isSome_iff_exists]
  constructor
  · rintro ⟨body, hbody⟩
    exact List.mem_map.mpr ⟨_, Scope.mem_of_lookup hbody, rfl⟩
  · intro hmem
    obtain ⟨entry, hentry, rfl⟩ := List.mem_map.mp hmem
    by_contra hnone
    have := List.lookup_eq_none_iff.mp (Option.not_isSome_iff_eq_none.mp
      (fun h => hnone (Option.isSome_iff_exists.mp h))) entry hentry
    simp at this

/-- Why putting missing blocks stops, where `find` gives the span of a block that is in range. -/
inductive Stops (env : Env) (find : MissingBlock → Option (ℕ × ℕ)) (missing : List MissingBlock)
    (puts : List Put) : Prop
  /-- An index is out of range. -/
  | range (mb : MissingBlock) (hmb : mb ∈ missing) (hrange : find mb = none)
  /-- The file handle cannot be cloned. -/
  | clone (e : Text) (hclone : env.cloned puts.length = .error e)
  /-- A block cannot be read again. -/
  | reread (mb : MissingBlock) (span : ℕ × ℕ) (hmb : mb ∈ missing) (hspan : find mb = some span)
    (hshort : ∀ contents, env.reread puts.length = .ok contents →
      (slice contents span.1 span.2).length < span.2)
  /-- A `PUT` fails. -/
  | put (put : Put) (e : Error) (hput : put ∈ puts) (hreply : put.reply = .error e)

/-- What cannot be hashed is too short, or cannot be read. -/
theorem hashBlock_error {env : Env} {file : Except ReadError Bytes} {start len : ℕ} {e : Error}
    (herror : hashBlock env file start len = .error e) (contents : Bytes)
    (hfile : file = .ok contents) : (slice contents start len).length < len := by
  subst hfile
  unfold hashBlock at herror
  dsimp only at herror
  split_ifs at herror with hshort
  exact hshort

section Step

variable {env : Env} {locals : List LocalFile} {done rest : List MissingBlock} {st : Progress}
  {mb : MissingBlock} {b : LocalBlock} {bytes : Bytes}

/-- A missing block whose digest was put before. -/
theorem Uploaded.skip (hst : Uploaded env locals done st) (hblock : blockAt locals mb = some b)
    (hseen : b.sha ∈ st.puts.map Put.sha) : Uploaded env locals (done ++ [mb]) st := by
  refine ⟨hst.sound.mono (List.subset_append_left _ _), hst.count, hst.responses, ?_⟩
  intro other hother
  rcases List.mem_append.mp hother with hother | hother
  · exact hst.answered other hother
  · rw [List.mem_singleton.mp hother]
    exact ⟨b, hblock, hseen⟩

/-- A missing block is put. -/
theorem Uploaded.concat (hst : Uploaded env locals done st) (hblock : blockAt locals mb = some b)
    (hnew : b.sha ∉ st.puts.map Put.sha) {body : Bytes}
    (his : IsPut env locals (done ++ [mb]) st.puts.length ⟨mb, b.sha, bytes, .ok body⟩) :
    Uploaded env locals (done ++ [mb])
      ⟨st.responses ++ [(b.sha, body)], st.blocksUploaded + 1,
        st.puts ++ [⟨mb, b.sha, bytes, .ok body⟩]⟩ := by
  refine ⟨(hst.sound.mono (List.subset_append_left _ _)).concat hnew his, ?_, ?_, ?_⟩
  · rw [List.length_append, List.length_singleton, hst.count]
  · rw [List.map_append, List.map_append, hst.responses]
    rfl
  · intro other hother
    rw [List.map_append]
    rcases List.mem_append.mp hother with hother | hother
    · obtain ⟨b', hb', hmem⟩ := hst.answered other hother
      exact ⟨b', hb', List.mem_append_left _ hmem⟩
    · rw [List.mem_singleton.mp hother]
      exact ⟨b, hblock, List.mem_append_right _ (List.mem_singleton_self _)⟩

/-- What the first of the missing blocks comes to, after others were put. -/
inductive BlockStep (env : Env) (locals : List LocalFile) (mb : MissingBlock)
    (rest : List MissingBlock) (st : Progress) : Progress × Option Error → Prop
  /-- It is not put, and the upload stops. -/
  | stopped (e : Error) (hstops : ∀ missing, mb ∈ missing →
      Stops env (fun mb => (blockAt locals mb).map LocalBlock.span) missing st.puts) :
    BlockStep env locals mb rest st (st, some e)
  /-- Its digest was put before. -/
  | skipped (b : LocalBlock) (hblock : blockAt locals mb = some b)
    (hseen : b.sha ∈ st.puts.map Put.sha) :
    BlockStep env locals mb rest st (uploadMissing env locals rest st)
  /-- It is put, and the storage fails. -/
  | failed (put : Put) (e : Error) (hnew : put.sha ∉ st.puts.map Put.sha)
    (hput : ∀ missing, mb ∈ missing → IsPut env locals missing st.puts.length put)
    (hreply : put.reply = .error e) :
    BlockStep env locals mb rest st ({ st with puts := st.puts ++ [put] }, some e)
  /-- It is put. -/
  | put (b : LocalBlock) (bytes body : Bytes) (hblock : blockAt locals mb = some b)
    (hnew : b.sha ∉ st.puts.map Put.sha)
    (hput : ∀ missing, mb ∈ missing →
      IsPut env locals missing st.puts.length ⟨mb, b.sha, bytes, .ok body⟩) :
    BlockStep env locals mb rest st (uploadMissing env locals rest
      ⟨st.responses ++ [(b.sha, body)], st.blocksUploaded + 1,
        st.puts ++ [⟨mb, b.sha, bytes, .ok body⟩]⟩)

/-- The loop over the missing blocks takes such a step. -/
theorem blockStep_uploadMissing (hst : Uploaded env locals done st) (mb : MissingBlock)
    (rest : List MissingBlock) :
    BlockStep env locals mb rest st (uploadMissing env locals (mb :: rest) st) := by
  have hrange (h : blockAt locals mb = none) (missing : List MissingBlock) (hmb : mb ∈ missing) :
      Stops env (fun mb => (blockAt locals mb).map LocalBlock.span) missing st.puts :=
    .range mb hmb (by rw [h, Option.map_none])
  unfold blockAt at hrange
  unfold uploadMissing
  cases hlf : locals[mb.fileIndex]? with
  | none => exact .stopped _ (hrange (by rw [hlf, Option.bind_none]))
  | some lf =>
    rw [hlf, Option.bind_some] at hrange
    dsimp only
    cases hb : lf.blocks[mb.blockIndex]? with
    | none => exact .stopped _ (hrange hb)
    | some b =>
      have hblock : blockAt locals mb = some b := by
        unfold blockAt
        rw [hlf]
        exact hb
      dsimp only
      by_cases hseen : (st.responses.lookup b.sha).isSome = true
      · rw [if_pos hseen]
        exact .skipped b hblock ((hst.isSome_lookup b.sha).mp hseen)
      · rw [if_neg hseen]
        have hnew : b.sha ∉ st.puts.map Put.sha := fun h =>
          hseen ((hst.isSome_lookup b.sha).mpr h)
        cases hclone : env.cloned st.blocksUploaded with
        | error e => exact .stopped _ fun _ _ => .clone e (hst.count ▸ hclone)
        | ok _ =>
          dsimp only
          cases hread : hashBlock env (env.reread st.blocksUploaded) b.start b.len with
          | error e =>
            have hshort := hashBlock_error hread
            rw [hst.count] at hshort
            exact .stopped _ fun _ hmb =>
              .reread mb b.span hmb (by rw [hblock, Option.map_some]) hshort
          | ok result =>
            obtain ⟨digest, bytes⟩ := result
            obtain ⟨contents, hcontents, hbytes, -, -⟩ := hashBlock_ok hread
            have his (missing : List MissingBlock) (hmb : mb ∈ missing) :
                IsPut env locals missing st.puts.length
                  ⟨mb, b.sha, bytes, env.put st.blocksUploaded⟩ :=
              ⟨hmb, ⟨b, contents, hblock, rfl, hst.count ▸ hcontents, hbytes⟩, by rw [hst.count]⟩
            dsimp only
            cases hput : env.put st.blocksUploaded with
            | error e => exact .failed _ e hnew (hput ▸ his) rfl
            | ok body => exact .put b bytes body hblock hnew (hput ▸ his)

/-- What uploading the rest of the missing blocks comes to. -/
theorem uploadMissing_spec (rest : List MissingBlock) (hst : Uploaded env locals done st) :
    PutsSound env locals (done ++ rest) (uploadMissing env locals rest st).1.puts ∧
      ((uploadMissing env locals rest st).2 = none →
        Uploaded env locals (done ++ rest) (uploadMissing env locals rest st).1) ∧
      ∀ e, (uploadMissing env locals rest st).2 = some e →
        Stops env (fun mb => (blockAt locals mb).map LocalBlock.span) (done ++ rest)
          (uploadMissing env locals rest st).1.puts := by
  induction rest generalizing done st with
  | nil =>
    rw [List.append_nil]
    exact ⟨hst.sound, fun _ => hst, nofun⟩
  | cons mb rest ih =>
    have hassoc : done ++ mb :: rest = (done ++ [mb]) ++ rest := by
      rw [List.append_assoc]
      rfl
    have hmem : mb ∈ done ++ mb :: rest := List.mem_append_right _ List.mem_cons_self
    have hlast : mb ∈ done ++ [mb] := List.mem_append_right _ (List.mem_singleton_self mb)
    have hbefore : PutsSound env locals (done ++ mb :: rest) st.puts :=
      hst.sound.mono (List.subset_append_left _ _)
    have hstep := blockStep_uploadMissing hst mb rest
    generalize uploadMissing env locals (mb :: rest) st = result at hstep ⊢
    cases hstep with
    | stopped e hstops => exact ⟨hbefore, nofun, fun _ _ => hstops _ hmem⟩
    | skipped b hblock hseen =>
      rw [hassoc]
      exact ih (hst.skip hblock hseen)
    | failed put e hnew hput hreply =>
      refine ⟨hbefore.concat hnew (hput _ hmem), nofun, fun _ _ => ?_⟩
      exact .put put e (List.mem_append_right _ (List.mem_singleton_self _)) hreply
    | put b bytes body hblock hnew hput =>
      rw [hassoc]
      exact ih (hst.concat hblock hnew (hput _ hlast))

end Step

end ModalRust.Sdk.VolumePut
