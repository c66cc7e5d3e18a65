import ModalRust.Sdk.VolumePut

/-!
# The block protocol of a volume upload

What a call of `volume_put` promises, whatever the files and the replies: the planned files are
declared as partitions, at most two rounds are sent, only missing blocks are put, and none twice.
And what it gets done: every step is taken that the files and the replies admit.
-/

namespace ModalRust.Sdk.VolumePut

open VolumePlan

/-! ### What the protocol promises -/

/-- The digest that a request declares for a missing block, if the indices are in range. -/
def PutRequest.blockAt (request : PutRequest) (mb : MissingBlock) : Option Bytes :=
  (request.files[mb.fileIndex]?.bind fun file => file.blocks[mb.blockIndex]?).map
    Block.contentsSha256

/-- The digests that are reported missing. -/
def PutRequest.reported (request : PutRequest) (missing : List MissingBlock) : List Bytes :=
  missing.filterMap request.blockAt

/-- The same request with responses to some of its blocks. -/
def PutRequest.carrying (request : PutRequest) (responses : Bytes → Option Bytes) : PutRequest :=
  { request with
    files := request.files.map fun file =>
      { file with
        blocks := file.blocks.map fun b =>
          { b with putResponse := responses b.contentsSha256 } } }

/-- A planned file is declared as a partition into blocks with their digests. -/
structure Declares (env : Env) (i : ℕ) (pf : PlannedFile) (file : PutFile) : Prop where
  /-- The remote path. -/
  path : file.path = pf.remote
  /-- The permission bits. -/
  mode : file.mode = some pf.mode
  /-- The size. -/
  size : env.size i = .ok file.size
  /-- The blocks. -/
  blocks : ∃ spans, Partition file.size spans ∧ spans.length = file.blocks.length ∧
    ∀ k span b, spans[k]? = some span → file.blocks[k]? = some b →
      ∃ contents, env.hashed i k = .ok contents ∧
        (slice contents span.1 span.2).length = span.2 ∧
          b.contentsSha256 = env.sha256 (slice contents span.1 span.2)

/-- A run follows the protocol. -/
structure Follows (env : Env) (volumeId : Text) (files : List PlannedFile) (force : Bool)
    (run : Run) : Prop where
  /-- The call returns. -/
  returns : run.result ≠ none
  /-- There are at most two rounds. -/
  twice : run.requests.length ≤ 2
  /-- Every request declares the planned files, in order. -/
  declares : ∀ request ∈ run.requests, request.volumeId = volumeId ∧
    request.disallowOverwriteExistingFiles = !force ∧ request.files.length = files.length ∧
      ∀ i pf file, files[i]? = some pf → request.files[i]? = some file → Declares env i pf file
  /-- The first request carries no response. -/
  first : ∀ request, run.requests.head? = some request → request.carrying (fun _ => none) = request
  /-- The second request is the first with the responses to the blocks whose digests were
  reported missing. -/
  second : ∀ first second, run.requests = [first, second] → ∃ missing responses,
    env.reply 0 = .ok missing ∧ second = first.carrying responses ∧
      (∀ sha, (responses sha).isSome = true ↔ sha ∈ first.reported missing) ∧
        ∀ sha body, responses sha = some body → ∃ put ∈ run.puts, put.sha = sha ∧
          put.reply = .ok body
  /-- What is put was reported missing in the first round. -/
  asked : ∀ put ∈ run.puts, ∃ request missing, run.requests.head? = some request ∧
    env.reply 0 = .ok missing ∧ put.missing ∈ missing ∧
      request.blockAt put.missing = some put.sha
  /-- No digest is put twice. -/
  once : (run.puts.map Put.sha).Nodup
  /-- If there is a second round, every digest that was reported missing has been put. -/
  every : ∀ first second missing, run.requests = [first, second] → env.reply 0 = .ok missing →
    ∀ sha ∈ first.reported missing, sha ∈ run.puts.map Put.sha
  /-- The call succeeds only if the last reply reports nothing missing, and says how many blocks
  were put. -/
  success : ∀ stats, run.result = some (.ok stats) →
    (∃ n, run.requests.length = n + 1 ∧ env.reply n = .ok []) ∧
      stats.blocksUploaded = run.puts.length ∧ ∀ put ∈ run.puts, ∃ body, put.reply = .ok body
  /-- An index that is out of range is an error. -/
  range : ∀ n request missing, run.requests[n]? = some request → env.reply n = .ok missing →
    (∃ mb ∈ missing, request.blockAt mb = none) → ∃ e, run.result = some (.error e)

/-- The blocks of a request are those of the local files. -/
theorem blockAt_putRequest (volumeId : Text) (force : Bool) (locals : List LocalFile)
    (responses : List (Bytes × Bytes)) (mb : MissingBlock) :
    (putRequest volumeId force locals responses).blockAt mb =
      (blockAt locals mb).map LocalBlock.sha := by
  unfold PutRequest.blockAt putRequest blockAt
  dsimp only
  rw [List.getElem?_map]
  cases locals[mb.fileIndex]? with
  | none => rfl
  | some lf =>
    simp only [Option.map_some, Option.bind_some, List.getElem?_map, Option.map_map]
    rfl

/-- The request of a round, from that of the round before. -/
theorem putRequest_carrying (volumeId : Text) (force : Bool) (locals : List LocalFile)
    (before responses : List (Bytes × Bytes)) :
    (putRequest volumeId force locals before).carrying (responses.lookup ·) =
      putRequest volumeId force locals responses := by
  unfold PutRequest.carrying putRequest
  simp [Function.comp_def]

/-- A request declares the files that were hashed. -/
theorem declares_putRequest {env : Env} {files : List PlannedFile} {locals : List LocalFile}
    (hhashed : hashFiles env 0 files = .ok locals) (volumeId : Text) (force : Bool)
    (responses : List (Bytes × Bytes)) :
    (putRequest volumeId force locals responses).volumeId = volumeId ∧
      (putRequest volumeId force locals responses).disallowOverwriteExistingFiles = !force ∧
      (putRequest volumeId force locals responses).files.length = files.length ∧
      ∀ i pf file, files[i]? = some pf →
        (putRequest volumeId force locals responses).files[i]? = some file →
          Declares env i pf file := by
  obtain ⟨hlength, hall⟩ := hashFiles_ok hhashed
  refine ⟨rfl, rfl, by rw [← hlength]; exact List.length_map _, fun i pf file hpf hfile => ?_⟩
  unfold putRequest at hfile
  rw [List.getElem?_map] at hfile
  obtain ⟨lf, hlf, rfl⟩ := Option.map_eq_some_iff.mp hfile
  have has := hall i pf lf hpf hlf
  rw [Nat.zero_add] at has
  refine ⟨has.remote, congrArg some has.mode, has.size, lf.blocks.map LocalBlock.span,
    has.blocks.partition, by simp, fun k span b hspan hb => ?_⟩
  rw [List.getElem?_map] at hspan hb
  obtain ⟨block, hblock, rfl⟩ := Option.map_eq_some_iff.mp hspan
  rw [hblock] at hb
  cases hb
  obtain ⟨contents, hfile, hread, hdigest⟩ := has.blocks.digest k block hblock
  rw [Nat.zero_add] at hfile
  exact ⟨contents, hfile, hread, hdigest⟩

/-- The courses that a call may take, once the files are hashed. -/
inductive Course (env : Env) (volumeId : Text) (files : List PlannedFile) (force : Bool)
    (locals : List LocalFile) : Run → Prop
  /-- The first request fails. -/
  | failed (e : Error) (hreply : env.reply 0 = .error e) :
    Course env volumeId files force locals
      ⟨[putRequest volumeId force locals []], [], some (.error e)⟩
  /-- Nothing is missing. -/
  | complete (hreply : env.reply 0 = .ok []) :
    Course env volumeId files force locals
      ⟨[putRequest volumeId force locals []], [],
        some (.ok ⟨files.length, (locals.map LocalFile.size).sum, 0⟩)⟩
  /-- A missing block cannot be put. -/
  | stopped (missing : List MissingBlock) (st : Progress) (e : Error)
    (hreply : env.reply 0 = .ok missing) (hne : missing ≠ [])
    (hput : uploadMissing env locals missing ⟨[], 0, []⟩ = (st, some e)) :
    Course env volumeId files force locals
      ⟨[putRequest volumeId force locals []], st.puts, some (.error e)⟩
  /-- The second request fails, or blocks are missing after it. -/
  | failedAgain (missing : List MissingBlock) (st : Progress) (e : Error)
    (hreply : env.reply 0 = .ok missing) (hne : missing ≠ [])
    (hput : uploadMissing env locals missing ⟨[], 0, []⟩ = (st, none))
    (hagain : env.reply 1 = .error e ∨ ∃ still, env.reply 1 = .ok still ∧ still ≠ []) :
    Course env volumeId files force locals
      ⟨[putRequest volumeId force locals [], putRequest volumeId force locals st.responses],
        st.puts, some (.error e)⟩
  /-- Nothing is missing after the second request. -/
  | completeAgain (missing : List MissingBlock) (st : Progress)
    (hreply : env.reply 0 = .ok missing) (hne : missing ≠ [])
    (hput : uploadMissing env locals missing ⟨[], 0, []⟩ = (st, none))
    (hagain : env.reply 1 = .ok []) :
    Course env volumeId files force locals
      ⟨[putRequest volumeId force locals [], putRequest volumeId force locals st.responses],
        st.puts, some (.ok ⟨files.length, (locals.map LocalFile.size).sum, st.blocksUploaded⟩)⟩

/-- The loop over the rounds takes such a course. -/
theorem course_rounds (env : Env) (volumeId : Text) (files : List PlannedFile) (force : Bool)
    (locals : List LocalFile) :
    Course env volumeId files force locals
      (rounds env volumeId force locals files.length (locals.map LocalFile.size).sum 2 0
        ⟨[], 0, []⟩ []) := by
  unfold rounds
  dsimp only
  cases hreply : env.reply 0 with
  | error e => exact .failed e hreply
  | ok missing =>
    dsimp only
    cases missing with
    | nil => exact .complete hreply
    | cons mb missing =>
      have hne : mb :: missing ≠ [] := List.cons_ne_nil _ _
      rw [if_neg (by simp), if_neg (by decide)]
      cases hput : uploadMissing env locals (mb :: missing) ⟨[], 0, []⟩ with
      | mk st failure =>
        cases failure with
        | some e => exact .stopped _ st e hreply hne hput
        | none =>
          dsimp only
          unfold rounds
          dsimp only
          cases hagain : env.reply (0 + 1) with
          | error e => exact .failedAgain _ st e hreply hne hput (.inl hagain)
          | ok still =>
            dsimp only
            cases still with
            | nil => exact .completeAgain _ st hreply hne hput hagain
            | cons mb' still =>
              rw [if_neg (by simp), if_pos (by decide)]
              exact .failedAgain _ st _ hreply hne hput (.inr ⟨_, hagain, List.cons_ne_nil _ _⟩)

/-- What is put was reported missing. -/
theorem PutsSound.asked {env : Env} {locals : List LocalFile} {missing : List MissingBlock}
    {puts : List Put} (hsound : PutsSound env locals missing puts) (volumeId : Text)
    (force : Bool) {put : Put} (hput : put ∈ puts) :
    put.missing ∈ missing ∧
      (putRequest volumeId force locals []).blockAt put.missing = some put.sha := by
  obtain ⟨n, hn⟩ := List.mem_iff_getElem?.mp hput
  have his := hsound.each n put hn
  obtain ⟨b, contents, hblock, hsha, -⟩ := his.block
  rw [blockAt_putRequest, hblock, hsha]
  exact ⟨his.asked, rfl⟩

/-- After an upload that succeeds, the digests that were put are those reported missing. -/
theorem Uploaded.mem_reported {env : Env} {locals : List LocalFile} {missing : List MissingBlock}
    {st : Progress} (hst : Uploaded env locals missing st) (volumeId : Text) (force : Bool)
    (sha : Bytes) :
    sha ∈ st.puts.map Put.sha ↔ sha ∈ (putRequest volumeId force locals []).reported missing := by
  constructor
  · intro hmem
    obtain ⟨put, hput, rfl⟩ := List.mem_map.mp hmem
    obtain ⟨hasked, hblock⟩ := hst.sound.asked volumeId force hput
    exact List.mem_filterMap.mpr ⟨put.missing, hasked, hblock⟩
  · intro hmem
    obtain ⟨mb, hmb, hblock⟩ := List.mem_filterMap.mp hmem
    obtain ⟨b, hb, hput⟩ := hst.answered mb hmb
    rw [blockAt_putRequest, hb] at hblock
    rw [← Option.some.inj hblock]
    exact hput

/-- After an upload that succeeds, every response is that to a `PUT`. -/
theorem Uploaded.exists_put {env : Env} {locals : List LocalFile} {missing : List MissingBlock}
    {st : Progress} (hst : Uploaded env locals missing st) {sha body : Bytes}
    (hbody : st.responses.lookup sha = some body) :
    ∃ put ∈ st.puts, put.sha = sha ∧ put.reply = .ok body := by
  have hmem : (sha, (.ok body : Except Error Bytes)) ∈
      st.puts.map fun put => (put.sha, put.reply) := by
    rw [hst.responses]
    exact List.mem_map.mpr ⟨_, Scope.mem_of_lookup hbody, rfl⟩
  obtain ⟨put, hput, heq⟩ := List.mem_map.mp hmem
  injection heq with hsha hreply
  exact ⟨put, hput, hsha, hreply⟩

/-- After an upload that succeeds, every `PUT` has succeeded. -/
theorem Uploaded.exists_body {env : Env} {locals : List LocalFile} {missing : List MissingBlock}
    {st : Progress} (hst : Uploaded env locals missing st) {put : Put} (hput : put ∈ st.puts) :
    ∃ body, put.reply = .ok body := by
  have hmem : (put.sha, put.reply) ∈ st.puts.map fun put => (put.sha, put.reply) :=
    List.mem_map_of_mem hput
  rw [hst.responses] at hmem
  obtain ⟨⟨sha, body⟩, -, heq⟩ := List.mem_map.mp hmem
  injection heq with hsha hreply
  exact ⟨body, hreply.symm⟩

/-- An upload that stops nowhere succeeds. -/
theorem uploaded_of_put {env : Env} {locals : List LocalFile} {missing : List MissingBlock}
    {st : Progress} (hput : uploadMissing env locals missing ⟨[], 0, []⟩ = (st, none)) :
    Uploaded env locals missing st := by
  obtain ⟨-, huploaded, -⟩ := uploadMissing_spec missing (Uploaded.nil env locals)
  rw [hput, List.nil_append] at huploaded
  exact huploaded rfl

/-- The second request of an upload that succeeds. -/
theorem Uploaded.second {env : Env} {locals : List LocalFile} {missing : List MissingBlock}
    {st : Progress} (hst : Uploaded env locals missing st) (hreply : env.reply 0 = .ok missing)
    (volumeId : Text) (force : Bool) :
    ∃ missing responses, env.reply 0 = .ok missing ∧
      putRequest volumeId force locals st.responses =
        (putRequest volumeId force locals []).carrying responses ∧
      (∀ sha, (responses sha).isSome = true ↔
        sha ∈ (putRequest volumeId force locals []).reported missing) ∧
      ∀ sha body, responses sha = some body → ∃ put ∈ st.puts, put.sha = sha ∧
        put.reply = .ok body := by
  refine ⟨missing, (st.responses.lookup ·), hreply, (putRequest_carrying ..).symm, fun sha => ?_,
    fun sha body hbody => hst.exists_put hbody⟩
  rw [hst.isSome_lookup, hst.mem_reported volumeId force]

section Shapes

variable {env : Env} {volumeId : Text} {files : List PlannedFile} {force : Bool}
  {locals : List LocalFile} {result : Option (Except Error VolumePutStats)}

/-- A run with one request follows the protocol, if what is put was reported missing, and if
nothing was missing where it succeeds. -/
theorem follows_of_one (hhashed : hashFiles env 0 files = .ok locals) {puts : List Put}
    (hreturns : result ≠ none)
    (hasked : ∀ put ∈ puts, ∃ missing, env.reply 0 = .ok missing ∧ put.missing ∈ missing ∧
      (putRequest volumeId force locals []).blockAt put.missing = some put.sha)
    (honce : (puts.map Put.sha).Nodup)
    (hend : (∃ e, result = some (.error e)) ∨
      env.reply 0 = .ok [] ∧ puts = [] ∧ ∀ stats, result = some (.ok stats) →
        stats.blocksUploaded = 0) :
    Follows env volumeId files force ⟨[putRequest volumeId force locals []], puts, result⟩ := by
  have hnot {first second : PutRequest} {goal : Prop}
      (heq : [putRequest volumeId force locals []] = [first, second]) : goal :=
    absurd heq (by simp)
  refine ⟨hreturns, by simp, List.forall_mem_singleton.mpr (declares_putRequest hhashed _ _ _),
    fun request hrequest => ?_, fun _ _ heq => hnot heq, fun put hput => ?_, honce,
    fun _ _ _ heq => hnot heq, fun stats hstats => ?_, fun n request missing hrequest hok hmb => ?_⟩
  · rw [← Option.some.inj hrequest]
    exact putRequest_carrying volumeId force locals [] []
  · obtain ⟨missing, hreply, hmem, hblock⟩ := hasked put hput
    exact ⟨_, missing, rfl, hreply, hmem, hblock⟩
  · rcases hend with ⟨e, he⟩ | ⟨hreply, rfl, hcount⟩
    · rw [he] at hstats
      cases hstats
    · exact ⟨⟨0, rfl, hreply⟩, hcount stats hstats, nofun⟩
  · rcases hend with herror | ⟨hreply, -, -⟩
    · exact herror
    · cases n with
      | succ n => cases hrequest
      | zero =>
        rw [hreply] at hok
        cases hok
        obtain ⟨mb, hmb, -⟩ := hmb
        cases hmb

/-- A run with two requests follows the protocol, if the upload between them has succeeded, and
if nothing is missing after the second one where the run succeeds. -/
theorem follows_of_two (hhashed : hashFiles env 0 files = .ok locals)
    {missing : List MissingBlock} {st : Progress} (hreply : env.reply 0 = .ok missing)
    (hst : Uploaded env locals missing st) (hreturns : result ≠ none)
    (hend : (∃ e, result = some (.error e)) ∨
      env.reply 1 = .ok [] ∧ ∀ stats, result = some (.ok stats) →
        stats.blocksUploaded = st.puts.length) :
    Follows env volumeId files force
      ⟨[putRequest volumeId force locals [], putRequest volumeId force locals st.responses],
        st.puts, result⟩ := by
  have hdeclares := declares_putRequest hhashed volumeId force
  refine ⟨hreturns, by simp,
    List.forall_mem_cons.mpr ⟨hdeclares [], List.forall_mem_singleton.mpr (hdeclares _)⟩,
    fun request hrequest => ?_, fun first second heq => ?_, fun put hput => ?_, hst.sound.nodup,
    fun first second missing' heq hok sha hsha => ?_, fun stats hstats => ?_,
    fun n request missing' hrequest hok hmb => ?_⟩
  · rw [← Option.some.inj hrequest]
    exact putRequest_carrying volumeId force locals [] []
  · cases heq
    exact hst.second hreply volumeId force
  · exact ⟨_, missing, rfl, hreply, hst.sound.asked volumeId force hput⟩
  · cases heq
    rw [hreply] at hok
    cases hok
    exact (hst.mem_reported volumeId force sha).mpr hsha
  · rcases hend with ⟨e, he⟩ | ⟨hagain, hcount⟩
    · rw [he] at hstats
      cases hstats
    · exact ⟨⟨1, rfl, hagain⟩, hcount stats hstats, fun put hput => hst.exists_body hput⟩
  · rcases hend with herror | ⟨hagain, -⟩
    · exact herror
    · obtain ⟨mb, hmb, hblock⟩ := hmb
      match n, hrequest with
      | 0, hrequest =>
        -- All that was missing in the first round was in range: it has been put.
        cases hrequest
        rw [hreply] at hok
        cases hok
        obtain ⟨b, hb, -⟩ := hst.answered mb hmb
        rw [blockAt_putRequest, hb] at hblock
        cases hblock
      | 1, _ =>
        rw [hagain] at hok
        cases hok
        cases hmb

/-- Every course follows the protocol. -/
theorem Course.follows {run : Run} (hcourse : Course env volumeId files force locals run)
    (hhashed : hashFiles env 0 files = .ok locals) : Follows env volumeId files force run := by
  cases hcourse with
  | failed e hreply =>
    exact follows_of_one hhashed (Option.some_ne_none _) nofun List.nodup_nil (.inl ⟨e, rfl⟩)
  | complete hreply =>
    refine follows_of_one hhashed (Option.some_ne_none _) nofun List.nodup_nil
      (.inr ⟨hreply, rfl, fun stats hstats => ?_⟩)
    rw [← Except.ok.inj (Option.some.inj hstats)]
  | stopped missing st e hreply hne hput =>
    obtain ⟨hsound, -⟩ := uploadMissing_spec missing (Uploaded.nil env locals)
    rw [hput, List.nil_append] at hsound
    exact follows_of_one hhashed (Option.some_ne_none _)
      (fun put hmem => ⟨missing, hreply, hsound.asked volumeId force hmem⟩) hsound.nodup
      (.inl ⟨e, rfl⟩)
  | failedAgain missing st e hreply hne hput hagain =>
    exact follows_of_two hhashed hreply (uploaded_of_put hput) (Option.some_ne_none _)
      (.inl ⟨e, rfl⟩)
  | completeAgain missing st hreply hne hput hagain =>
    have hst := uploaded_of_put hput
    refine follows_of_two hhashed hreply hst (Option.some_ne_none _)
      (.inr ⟨hagain, fun stats hstats => ?_⟩)
    rw [← Except.ok.inj (Option.some.inj hstats)]
    exact hst.count

end Shapes

/-! ### What the protocol gets done -/

/-- A planned file can be opened, and each of its blocks can be read. -/
structure Hashable (env : Env) (i : ℕ) : Prop where
  /-- It can be opened. -/
  opened : env.opened i = .ok ()
  /-- It has a size, and the blocks up to it. -/
  read : ∃ size, env.size i = .ok size ∧ ∀ k, k * volumeBlockSize < size →
    ∃ contents, env.hashed i k = .ok contents ∧
      (blockOf size k contents).length = min volumeBlockSize (size - k * volumeBlockSize)

/-- Where the missing block lies in its file, if the indices are in range. -/
def PutRequest.spanAt (request : PutRequest) (mb : MissingBlock) : Option (ℕ × ℕ) :=
  request.files[mb.fileIndex]?.bind fun file =>
    if mb.blockIndex < file.blocks.length then
      some (mb.blockIndex * volumeBlockSize,
        min volumeBlockSize (file.size - mb.blockIndex * volumeBlockSize))
    else none

/-- A run gets as far as the environment lets it. -/
structure Proceeds (env : Env) (files : List PlannedFile) (run : Run) : Prop where
  /-- The first request is sent exactly if there are files and all can be hashed. -/
  starts : run.requests ≠ [] ↔ files ≠ [] ∧ ∀ i < files.length, Hashable env i
  /-- If it is not sent, the call fails. -/
  unstarted : run.requests = [] → ∃ e, run.result = some (.error e)
  /-- A request that fails is the last one, and its error is returned. -/
  failed : ∀ n e, n < run.requests.length → env.reply n = .error e →
    run.requests.length = n + 1 ∧ run.result = some (.error e)
  /-- If nothing is missing after a request, it is the last one and the call succeeds, with the
  number and the sizes of the files and the number of blocks that were put. -/
  complete : ∀ n, n < run.requests.length → env.reply n = .ok [] →
    run.requests.length = n + 1 ∧ ∃ first, run.requests.head? = some first ∧
      run.result = some (.ok ⟨files.length, (first.files.map PutFile.size).sum, run.puts.length⟩)
  /-- If blocks are missing after the first request, there is a second one, unless putting them
  stops with an error. -/
  proceeds : ∀ first missing, run.requests.head? = some first → env.reply 0 = .ok missing →
    missing ≠ [] → run.requests.length = 2 ∨
      (Stops env first.spanAt missing run.puts ∧ ∃ e, run.result = some (.error e))
  /-- If blocks are missing after the second request, the call fails. -/
  unsettled : ∀ missing, run.requests.length = 2 → env.reply 1 = .ok missing → missing ≠ [] →
    ∃ e, run.result = some (.error e)

/-- When a block is hashed. -/
theorem exists_hashBlock_iff {env : Env} {file : Except ReadError Bytes} {start len : ℕ} :
    (∃ result, hashBlock env file start len = .ok result) ↔
      ∃ contents, file = .ok contents ∧ (slice contents start len).length = len := by
  constructor
  · rintro ⟨⟨digest, bytes⟩, hok⟩
    obtain ⟨contents, hfile, rfl, hread, -⟩ := hashBlock_ok hok
    exact ⟨contents, hfile, hread⟩
  · rintro ⟨contents, rfl, hread⟩
    unfold hashBlock
    dsimp only
    rw [if_neg (by omega)]
    exact ⟨_, rfl⟩

/-- When the blocks from a number on are hashed. -/
theorem exists_hashFrom_iff {env : Env} {i size fuel k start : ℕ}
    (hstart : start = min (k * volumeBlockSize) size) (hfuel : size - start ≤ fuel) :
    (∃ blocks, hashFrom env i size fuel k start = .ok blocks) ↔
      ∀ j, k ≤ j → j * volumeBlockSize < size → ∃ contents, env.hashed i j = .ok contents ∧
        (blockOf size j contents).length = min volumeBlockSize (size - j * volumeBlockSize) := by
  have hblock : 0 < volumeBlockSize := by decide
  have hnone (h : size ≤ start) (j : ℕ) (hj : k ≤ j) : ¬ j * volumeBlockSize < size := by
    have hmul := Nat.mul_le_mul_right volumeBlockSize hj
    omega
  induction fuel generalizing k start with
  | zero =>
    exact ⟨fun _ j hj hsize => absurd hsize (hnone (by omega) j hj), fun _ => ⟨[], rfl⟩⟩
  | succ fuel ih =>
    unfold hashFrom
    split_ifs with hmore
    · have hstart' : start = k * volumeBlockSize := by omega
      have hmul : (k + 1) * volumeBlockSize = k * volumeBlockSize + volumeBlockSize := by
        rw [Nat.add_mul, Nat.one_mul]
      have hnext : start + min volumeBlockSize (size - start) =
          min ((k + 1) * volumeBlockSize) size := by
        rw [hmul]
        omega
      have hrest := ih hnext (by omega) fun h j hj hsize => by
        have hle := Nat.mul_le_mul_right volumeBlockSize hj
        omega
      subst hstart'
      constructor
      · rintro ⟨blocks, hblocks⟩ j hj hsize
        obtain ⟨result, hresult, hmap⟩ := exists_of_bind_ok hblocks
        obtain ⟨rest, hok, -⟩ := exists_of_map_ok hmap
        rcases hj.eq_or_lt with rfl | hlt
        · exact exists_hashBlock_iff.mp ⟨result, hresult⟩
        · exact hrest.mp ⟨rest, hok⟩ j hlt hsize
      · intro hall
        obtain ⟨result, hresult⟩ := exists_hashBlock_iff.mpr (hall k le_rfl hmore)
        obtain ⟨rest, hok⟩ := hrest.mpr fun j hj => hall j (Nat.le_of_succ_le hj)
        dsimp only
        rw [hresult, Except.bind, hok]
        exact ⟨_, rfl⟩
    · exact ⟨fun _ j hj hsize => absurd hsize (hnone (by omega) j hj), fun _ => ⟨[], rfl⟩⟩

/-- When the files from an index on are hashed. -/
theorem exists_hashFiles_iff {env : Env} {i : ℕ} {files : List PlannedFile} :
    (∃ locals, hashFiles env i files = .ok locals) ↔
      ∀ j < files.length, Hashable env (i + j) := by
  induction files generalizing i with
  | nil => exact ⟨fun _ => nofun, fun _ => ⟨[], rfl⟩⟩
  | cons pf files ih =>
    have hfirst : (∀ j < (pf :: files).length, Hashable env (i + j)) ↔
        Hashable env i ∧ ∀ j < files.length, Hashable env (i + 1 + j) := by
      constructor
      · intro hall
        refine ⟨hall 0 (Nat.succ_pos _), fun j hj => ?_⟩
        rw [Nat.add_right_comm]
        exact hall (j + 1) (Nat.succ_lt_succ hj)
      · rintro ⟨hzero, hrest⟩ j hj
        cases j with
        | zero => exact hzero
        | succ j =>
          rw [show i + (j + 1) = i + 1 + j by omega]
          exact hrest j (Nat.lt_of_succ_lt_succ hj)
    rw [hfirst, ← ih]
    constructor
    · rintro ⟨locals, hok⟩
      obtain ⟨_, hopened, hstat⟩ := exists_of_bind_ok hok
      obtain ⟨size, hsize, hhash⟩ := exists_of_bind_ok hstat
      obtain ⟨blocks, hblocks, hmap⟩ := exists_of_bind_ok hhash
      obtain ⟨rest, hrest, -⟩ := exists_of_map_ok hmap
      have hreads := (exists_hashFrom_iff (by rw [Nat.zero_mul, Nat.zero_min])
        (Nat.sub_le _ _)).mp ⟨blocks, hblocks⟩
      refine ⟨⟨eq_of_mapError_ok hopened, size, eq_of_mapError_ok hsize, fun k hk => ?_⟩, rest,
        hrest⟩
      exact hreads k (Nat.zero_le k) hk
    · rintro ⟨⟨hopened, size, hsize, hreads⟩, rest, hrest⟩
      have hstart : 0 = min (0 * volumeBlockSize) size := by rw [Nat.zero_mul, Nat.zero_min]
      obtain ⟨blocks, hblocks⟩ :=
        (exists_hashFrom_iff hstart (Nat.sub_le size 0)).mpr fun k _ => hreads k
      unfold hashFiles
      rw [hopened, hsize]
      dsimp only [Except.mapError, Except.bind]
      rw [hblocks]
      dsimp only
      rw [hrest]
      exact ⟨_, rfl⟩

/-- The spans of a request are those of the local files. -/
theorem spanAt_putRequest {env : Env} {files : List PlannedFile} {locals : List LocalFile}
    (hhashed : hashFiles env 0 files = .ok locals) (volumeId : Text) (force : Bool)
    (responses : List (Bytes × Bytes)) :
    (putRequest volumeId force locals responses).spanAt =
      fun mb => (blockAt locals mb).map LocalBlock.span := by
  obtain ⟨hlength, hall⟩ := hashFiles_ok hhashed
  funext mb
  unfold PutRequest.spanAt putRequest blockAt
  dsimp only
  rw [List.getElem?_map]
  cases hlf : locals[mb.fileIndex]? with
  | none => rfl
  | some lf =>
    have hindex : mb.fileIndex < files.length :=
      hlength ▸ (List.getElem?_eq_some_iff.mp hlf).1
    have has := hall mb.fileIndex _ lf (List.getElem?_eq_getElem hindex) hlf
    simp only [Option.map_some, Option.bind_some, List.length_map]
    cases hb : lf.blocks[mb.blockIndex]? with
    | none => rw [if_neg (by simpa using hb), Option.map_none]
    | some b =>
      obtain ⟨hblock, -⟩ := List.getElem?_eq_some_iff.mp hb
      obtain ⟨hstart, hlen⟩ := has.blocks.span_eq hb
      rw [if_pos hblock, Option.map_some, LocalBlock.span, hstart, hlen]

/-- The sizes that a request declares are those of the local files. -/
theorem sum_sizes_putRequest (volumeId : Text) (force : Bool) (locals : List LocalFile)
    (responses : List (Bytes × Bytes)) :
    ((putRequest volumeId force locals responses).files.map PutFile.size).sum =
      (locals.map LocalFile.size).sum := by
  unfold putRequest
  rw [List.map_map]
  rfl

section Shapes

variable {env : Env} {volumeId : Text} {files : List PlannedFile} {force : Bool}
  {locals : List LocalFile} {puts : List Put} {result : Option (Except Error VolumePutStats)}

/-- Where a first request is sent, there are files and all can be hashed. -/
theorem starts_of_hashed (hfiles : files ≠ []) (hhashed : hashFiles env 0 files = .ok locals)
    (first : PutRequest) (more : List PutRequest) :
    first :: more ≠ [] ↔ files ≠ [] ∧ ∀ i < files.length, Hashable env i := by
  refine ⟨fun _ => ⟨hfiles, fun i hi => ?_⟩, fun _ => List.cons_ne_nil _ _⟩
  have hi' := exists_hashFiles_iff.mp ⟨locals, hhashed⟩ i hi
  rwa [Nat.zero_add] at hi'

/-- A run with one request gets as far as it can, if its result is what the reply asks for. -/
theorem proceeds_of_one (hfiles : files ≠ []) (hhashed : hashFiles env 0 files = .ok locals)
    (hfailed : ∀ e, env.reply 0 = .error e → result = some (.error e))
    (hcomplete : env.reply 0 = .ok [] →
      result = some (.ok ⟨files.length, (locals.map LocalFile.size).sum, puts.length⟩))
    (hstops : ∀ missing, env.reply 0 = .ok missing → missing ≠ [] →
      Stops env (putRequest volumeId force locals []).spanAt missing puts ∧
        ∃ e, result = some (.error e)) :
    Proceeds env files ⟨[putRequest volumeId force locals []], puts, result⟩ := by
  refine ⟨starts_of_hashed hfiles hhashed _ _, nofun, fun n e hn herror => ?_, fun n hn hok => ?_,
    fun first missing hfirst hok hne => ?_, nofun⟩
  · obtain rfl : n = 0 := by simpa using hn
    exact ⟨rfl, hfailed e herror⟩
  · obtain rfl : n = 0 := by simpa using hn
    refine ⟨rfl, _, rfl, ?_⟩
    rw [sum_sizes_putRequest]
    exact hcomplete hok
  · rw [← Option.some.inj hfirst]
    exact .inr (hstops missing hok hne)

/-- A run with two requests gets as far as it can, if blocks were missing after the first and if
its result is what the reply to the second asks for. -/
theorem proceeds_of_two (hfiles : files ≠ []) (hhashed : hashFiles env 0 files = .ok locals)
    {missing : List MissingBlock} (hreply : env.reply 0 = .ok missing) (hne : missing ≠ [])
    {responses : List (Bytes × Bytes)}
    (hfailed : ∀ e, env.reply 1 = .error e → result = some (.error e))
    (hcomplete : env.reply 1 = .ok [] →
      result = some (.ok ⟨files.length, (locals.map LocalFile.size).sum, puts.length⟩))
    (hunsettled : ∀ still, env.reply 1 = .ok still → still ≠ [] → ∃ e, result = some (.error e)) :
    Proceeds env files
      ⟨[putRequest volumeId force locals [], putRequest volumeId force locals responses], puts,
        result⟩ := by
  have hround {n : ℕ} (hn : n < 2) : n = 0 ∨ n = 1 := by omega
  refine ⟨starts_of_hashed hfiles hhashed _ _, nofun, fun n e hn herror => ?_, fun n hn hok => ?_,
    fun _ _ _ _ _ => .inl rfl, fun still _ => hunsettled still⟩
  · obtain rfl | rfl := hround hn
    · rw [hreply] at herror
      cases herror
    · exact ⟨rfl, hfailed e herror⟩
  · obtain rfl | rfl := hround hn
    · rw [hreply] at hok
      exact absurd (Except.ok.inj hok) hne
    · refine ⟨rfl, _, rfl, ?_⟩
      rw [sum_sizes_putRequest]
      exact hcomplete hok

/-- Every course gets as far as it can. -/
theorem Course.proceeds {run : Run} (hcourse : Course env volumeId files force locals run)
    (hfiles : files ≠ []) (hhashed : hashFiles env 0 files = .ok locals) :
    Proceeds env files run := by
  cases hcourse with
  | failed e hreply =>
    refine proceeds_of_one hfiles hhashed (fun e' herror => ?_) (fun hok => ?_) fun _ hok => ?_
    · rw [hreply] at herror
      rw [Except.error.inj herror]
    · rw [hreply] at hok
      cases hok
    · rw [hreply] at hok
      cases hok
  | complete hreply =>
    refine proceeds_of_one hfiles hhashed (fun e herror => ?_) (fun _ => rfl) fun _ hok hne => ?_
    · rw [hreply] at herror
      cases herror
    · exact absurd (Except.ok.inj (hok.symm.trans hreply)) hne
  | stopped missing st e hreply hne hput =>
    obtain ⟨-, -, hstops⟩ := uploadMissing_spec missing (Uploaded.nil env locals)
    rw [hput, List.nil_append, ← spanAt_putRequest hhashed volumeId force []] at hstops
    refine proceeds_of_one hfiles hhashed (fun e herror => ?_) (fun hok => ?_) fun _ hok _ => ?_
    · rw [hreply] at herror
      cases herror
    · exact absurd (Except.ok.inj (hreply.symm.trans hok)) hne
    · rw [← Except.ok.inj (hreply.symm.trans hok)]
      exact ⟨hstops e rfl, e, rfl⟩
  | failedAgain missing st e hreply hne hput hagain =>
    refine proceeds_of_two hfiles hhashed hreply hne (fun e' herror => ?_) (fun hok => ?_)
      fun _ _ _ => ⟨e, rfl⟩
    · obtain hagain | ⟨still, hagain, -⟩ := hagain
      · rw [Except.error.inj (hagain.symm.trans herror)]
      · rw [hagain] at herror
        cases herror
    · obtain hagain | ⟨still, hagain, hstill⟩ := hagain
      · rw [hagain] at hok
        cases hok
      · exact absurd (Except.ok.inj (hagain.symm.trans hok)) hstill
  | completeAgain missing st hreply hne hput hagain =>
    refine proceeds_of_two hfiles hhashed hreply hne (fun e herror => ?_) (fun _ => ?_)
      fun still hok hstill => ?_
    · rw [hagain] at herror
      cases herror
    · rw [(uploaded_of_put hput).count]
    · exact absurd (Except.ok.inj (hok.symm.trans hagain)) hstill

end Shapes

end ModalRust.Sdk.VolumePut
