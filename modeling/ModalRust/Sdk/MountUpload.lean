import ModalRust.Scope.Closure
import ModalRust.Scope.Upload
import ModalRust.Sdk.Error
import ModalRust.StableSort
import ModalRust.TaskPool
import ModalRust.Upload.Collect

/-!
# Uploading the files of a mount

`upload_files` sends each content once, in up to sixteen tasks at a time: a task asks whether the
server has the content, sends it if not, inline or as a blob, and asks again until the server
confirms it. Each RPC is one step here, with whatever reply the server and the retry loop come to.
A mount is requested when all tasks have returned.
-/

namespace ModalRust.Sdk.MountUpload

open Scope (FilePath displayPath textKey textKey_injective)
open TaskPool (Accounts Filled Joined Pool System)
open Upload (LocalFile)

/-- `LARGE_FILE_BLOB_THRESHOLD`. -/
def largeFileBlobThreshold : ℕ := 4 * 1024 * 1024

/-- `UPLOAD_CONCURRENCY`. -/
def uploadConcurrency : ℕ := 16

/-- `MOUNT_PUT_FILE_CLIENT_TIMEOUT`, in nanoseconds. -/
def mountPutFileClientTimeout : ℕ := 10 * 60 * 1000000000

/-- `DataOneof`, of an upload. -/
inductive Payload
  /-- The bytes, inline. -/
  | data (bytes : Bytes)
  /-- The id of a blob. -/
  | dataBlobId (blobId : Text)

/-- `UploadTypeOneof`. -/
inductive UploadType
  /-- One presigned URL. -/
  | uploadUrl (url : Text)
  /-- A plan for several parts. -/
  | multipart

/-- `BlobCreateResponse`. -/
structure BlobCreateResponse where
  /-- The id of the blob. -/
  blobId : Text
  /-- Where its bytes go. -/
  uploadTypeOneof : Option UploadType

/-- A request of a task with its reply. -/
inductive Event
  /-- `mount_put_file_probe`. -/
  | probe (reply : Except Error Bool)
  /-- `BlobCreate` for the bytes. -/
  | blobCreate (reply : Except Error BlobCreateResponse)
  /-- `put_blob_bytes` of the bytes. -/
  | putBlob (url : Text) (reply : Except Error Unit)
  /-- `mount_put_file(upload)`. -/
  | upload (payload : Payload) (reply : Except Error Unit)

/-- Where a task is in `ensure_file_uploaded`. -/
inductive Phase
  /-- Before the existence probe. -/
  | probing
  /-- In `blob_create_and_put`, before `BlobCreate`. -/
  | creatingBlob
  /-- Before the bytes are put to the presigned URL. -/
  | puttingBlob (url blobId : Text)
  /-- Before the upload. -/
  | uploading (payload : Payload)
  /-- In the completion gate. -/
  | confirming (deadline : ℕ)
  /-- The task has returned. -/
  | returned (result : Except Error Unit)

/-- A task of `ensure_file_uploaded`, with what it has sent so far. -/
structure Task where
  /-- The digest of the content. -/
  sha256 : Text
  /-- The content. -/
  data : Bytes
  /-- Where the task is. -/
  phase : Phase
  /-- Its requests so far. -/
  trace : List Event

/-- A reply, and the time when it arrives. -/
inductive Reply
  /-- Of a probe. -/
  | probe (now : ℕ) (reply : Except Error Bool)
  /-- Of `BlobCreate`. -/
  | blobCreate (reply : Except Error BlobCreateResponse)
  /-- Of the HTTP put. -/
  | putBlob (reply : Except Error Unit)
  /-- Of the upload. -/
  | upload (now : ℕ) (reply : Except Error Unit)

/-- The task of one content. -/
def Task.start (item : Text × Bytes) : Task := ⟨item.1, item.2, .probing, []⟩

/-- The task goes on after a request. -/
def Task.next (t : Task) (event : Event) (phase : Phase) : Task :=
  { t with phase, trace := t.trace ++ [event] }

/-- One request of `ensure_file_uploaded`, with its reply. -/
def Task.step (t : Task) (reply : Reply) : Option Task :=
  match t.phase, reply with
  | .probing, .probe _ r => some <| t.next (.probe r) <|
    match r with
    | .error e => .returned (.error e)
    | .ok true => .returned (.ok ())
    | .ok false =>
      if t.data.length ≥ largeFileBlobThreshold then .creatingBlob else .uploading (.data t.data)
  | .creatingBlob, .blobCreate r => some <| t.next (.blobCreate r) <|
    match r with
    | .error e => .returned (.error e)
    | .ok resp =>
      match resp.uploadTypeOneof with
      | some (.uploadUrl url) => .puttingBlob url resp.blobId
      | some .multipart => .returned (.error (.invalid
        "multipart blob uploads not yet supported (file exceeds the single-part limit)".toList))
      | none => .returned (.error (.build
        "BlobCreate response did not include an upload URL".toList))
  | .puttingBlob url blobId, .putBlob r => some <| t.next (.putBlob url r) <|
    match r with
    | .error e => .returned (.error e)
    | .ok () => .uploading (.dataBlobId blobId)
  | .uploading payload, .upload now r => some <| t.next (.upload payload r) <|
    match r with
    | .error e => .returned (.error e)
    | .ok () => .confirming (now + mountPutFileClientTimeout)
  | .confirming deadline, .probe now r => some <| t.next (.probe r) <|
    match r with
    | .error e => .returned (.error e)
    | .ok true => .returned (.ok ())
    | .ok false =>
      if now ≥ deadline then
        .returned (.error (.build ("uploading mount file with sha256 ".toList ++ t.sha256 ++
          " timed out after 10 minutes".toList)))
      else .confirming deadline
  | _, _ => none

/-- What a task has returned. -/
def Task.result (t : Task) : Option (Except Error Unit) :=
  match t.phase with
  | .returned r => some r
  | _ => none

/-- The tasks of `upload_files`. -/
def system : System (Text × Bytes) Task Reply Error := ⟨Task.start, Task.step, Task.result⟩

/-- `MountFile`. -/
structure MountFile where
  /-- The path in the mount. -/
  filename : Text
  /-- The digest of the content. -/
  sha256Hex : Text
  /-- The size of the content. -/
  size : ℕ
  /-- The permission bits. -/
  mode : Option ℕ
  deriving DecidableEq

/-- What the first loop of `upload_files` has seen and made. -/
structure Plan where
  /-- The paths so far. -/
  seenPaths : List Text
  /-- The digests so far. -/
  accountedSha : List Text
  /-- The descriptors so far. -/
  mountFiles : List MountFile
  /-- The contents that are to be uploaded. -/
  toUpload : List (Text × Bytes)

/-- The descriptor of a file, for a digest function `sha256Hex`. -/
def describe (sha256Hex : Bytes → Text) (file : LocalFile) : MountFile :=
  ⟨file.mountFilename, sha256Hex file.data, file.data.length, file.mode⟩

/-- One turn of the first loop of `upload_files`. -/
def planFile (sha256Hex : Bytes → Text) (plan : Plan) (file : LocalFile) : Except Error Plan :=
  if file.mountFilename ∈ plan.seenPaths then
    .error (.invalid ("duplicate mount path '".toList ++ file.mountFilename ++ "'".toList))
  else
    let sha := sha256Hex file.data
    .ok {
      seenPaths := plan.seenPaths ++ [file.mountFilename]
      accountedSha := if sha ∈ plan.accountedSha then plan.accountedSha
        else plan.accountedSha ++ [sha]
      mountFiles := plan.mountFiles ++ [describe sha256Hex file]
      toUpload := if sha ∈ plan.accountedSha then plan.toUpload
        else plan.toUpload ++ [(sha, file.data)] }

/-- The first loop of `upload_files`. -/
def planFiles (sha256Hex : Bytes → Text) (files : List LocalFile) : Except Error Plan :=
  files.foldlM (planFile sha256Hex) ⟨[], [], [], []⟩

/-- A pool of upload tasks. -/
abbrev Uploads := Pool (Text × Bytes) Task Error

/-- What `upload_files` has returned in this state of its tasks. -/
def Plan.returned (plan : Plan) (pool : Uploads) : Option (Except Error (List MountFile)) :=
  match pool.failed with
  | some e => some (.error e)
  | none =>
    if pool.running.isEmpty then
      some (.ok (sortByKey (fun file => textKey file.filename) plan.mountFiles))
    else none

/-- The tasks of a plan after some steps, in any order. -/
def Plan.run (plan : Plan) (labels : List (TaskPool.Label Reply)) : Option Uploads :=
  Machine.run (Pool.step system) (Pool.start system uploadConcurrency plan.toUpload) labels

/-- `finalize_mount`, up to the files of its `MountGetOrCreate` request; `none` while tasks are in
the pool. -/
def finalizeMount (sha256Hex : Bytes → Text) (sourceRoot : FilePath) (files : List LocalFile)
    (labels : List (TaskPool.Label Reply)) : Option (Except Error (List MountFile)) :=
  if files.isEmpty then
    some (.error (.invalid ("no files to upload under '".toList ++ displayPath sourceRoot ++
      "' after applying ignore files".toList)))
  else
    match planFiles sha256Hex files with
    | .error e => some (.error e)
    | .ok plan => (plan.run labels).bind plan.returned

/-- Whether an event is an upload. -/
def Event.isUpload : Event → Bool
  | .upload _ _ => true
  | _ => false

/-- Whether an event is a probe. -/
def Event.isProbe : Event → Bool
  | .probe _ => true
  | _ => false

/-- What comes before the upload of a payload: the server said that it lacks the content, and a blob
was stored. -/
inductive Prepared (data : Bytes) : List Event → Payload → Prop
  /-- A small file is sent inline. -/
  | small (hsmall : data.length < largeFileBlobThreshold) :
    Prepared data [.probe (.ok false)] (.data data)
  /-- A large file is stored as a blob first. -/
  | large (url blobId : Text) (hlarge : largeFileBlobThreshold ≤ data.length) :
    Prepared data [.probe (.ok false), .blobCreate (.ok ⟨blobId, some (.uploadUrl url)⟩),
      .putBlob url (.ok ())] (.dataBlobId blobId)

/-- The requests of a task are in order: there is at most one upload, it is prepared, and only
probes follow. -/
inductive Orderly (data : Bytes) : List Event → Prop
  /-- Nothing was uploaded. -/
  | none {trace : List Event} (hnone : ∀ event ∈ trace, event.isUpload = false) :
    Orderly data trace
  /-- The content was uploaded once. -/
  | once {before : List Event} {payload : Payload} (hprepared : Prepared data before payload)
    (reply : Except Error Unit) {after : List Event} (hafter : ∀ event ∈ after, event.isProbe) :
    Orderly data (before ++ .upload payload reply :: after)

/-- What a task has done when it is in a phase. -/
def Phase.Reached (data : Bytes) (trace : List Event) : Phase → Prop
  | .probing => trace = []
  | .creatingBlob => largeFileBlobThreshold ≤ data.length ∧ trace = [.probe (.ok false)]
  | .puttingBlob url blobId => largeFileBlobThreshold ≤ data.length ∧
    trace = [.probe (.ok false), .blobCreate (.ok ⟨blobId, some (.uploadUrl url)⟩)]
  | .uploading payload => Prepared data trace payload
  | .confirming _ => ∃ before payload after, Prepared data before payload ∧
    (∀ event ∈ after, event.isProbe) ∧ trace = before ++ .upload payload (.ok ()) :: after
  | .returned r => Orderly data trace ∧ (r = .ok () → trace.getLast? = some (.probe (.ok true)))

/-- The task of a content, in a phase that it can have reached. -/
structure Good (item : Text × Bytes) (t : Task) : Prop where
  /-- Its digest. -/
  sha256 : t.sha256 = item.1
  /-- Its content. -/
  data : t.data = item.2
  /-- Its phase. -/
  reached : t.phase.Reached t.data t.trace

/-- A task starts well. -/
theorem good_start (item : Text × Bytes) : Good item (Task.start item) := ⟨rfl, rfl, rfl⟩

/-- What comes before an upload holds no upload. -/
theorem Prepared.isUpload_eq_false {data : Bytes} {before : List Event} {payload : Payload}
    (hprepared : Prepared data before payload) : ∀ event ∈ before, event.isUpload = false := by
  intro event hevent
  cases hprepared with
  | small => simp only [List.mem_singleton] at hevent; subst hevent; rfl
  | large =>
    simp only [List.mem_cons, List.not_mem_nil, or_false] at hevent
    rcases hevent with rfl | rfl | rfl <;> rfl

/-- A task that has returned an error in order. -/
theorem reached_error {data : Bytes} {trace : List Event} {e : Error}
    (horderly : Orderly data trace) : (Phase.returned (.error e)).Reached data trace :=
  ⟨horderly, nofun⟩

/-- A step keeps a task good. -/
theorem Good.step {item : Text × Bytes} {t t' : Task} {reply : Reply} (hgood : Good item t)
    (hstep : t.step reply = some t') : Good item t' := by
  obtain ⟨sha256, data, phase, trace⟩ := t
  have hreached := hgood.reached
  unfold Task.step at hstep
  dsimp only at hstep hreached
  split at hstep
  · next now r =>
    cases hstep
    refine ⟨hgood.sha256, hgood.data, ?_⟩
    change trace = [] at hreached
    subst hreached
    have hone : Orderly data [Event.probe r] := .none fun event hevent => by
      rw [List.mem_singleton.mp hevent]
      rfl
    match r with
    | .error e => exact reached_error hone
    | .ok true => exact ⟨hone, fun _ => rfl⟩
    | .ok false =>
      change (if data.length ≥ largeFileBlobThreshold then Phase.creatingBlob
        else .uploading (.data data)).Reached data [.probe (.ok false)]
      split
      · next hlarge => exact ⟨hlarge, rfl⟩
      · next hsmall => exact .small (by omega)
  · next r =>
    cases hstep
    refine ⟨hgood.sha256, hgood.data, ?_⟩
    obtain ⟨hlarge, rfl⟩ : largeFileBlobThreshold ≤ data.length ∧ trace = [.probe (.ok false)] :=
      hreached
    have htwo : Orderly data [Event.probe (.ok false), .blobCreate r] :=
      .none fun event hevent => by
        simp only [List.mem_cons, List.not_mem_nil, or_false] at hevent
        rcases hevent with rfl | rfl <;> rfl
    match r with
    | .error e => exact reached_error htwo
    | .ok ⟨blobId, some (.uploadUrl url)⟩ => exact ⟨hlarge, rfl⟩
    | .ok ⟨_, some .multipart⟩ => exact reached_error htwo
    | .ok ⟨_, none⟩ => exact reached_error htwo
  · next url blobId r =>
    cases hstep
    refine ⟨hgood.sha256, hgood.data, ?_⟩
    obtain ⟨hlarge, rfl⟩ : largeFileBlobThreshold ≤ data.length ∧ trace = _ := hreached
    match r with
    | .error e =>
      have hthree : Orderly data [Event.probe (.ok false),
          .blobCreate (.ok ⟨blobId, some (.uploadUrl url)⟩), .putBlob url (.error e)] :=
        .none fun event hevent => by
          simp only [List.mem_cons, List.not_mem_nil, or_false] at hevent
          rcases hevent with rfl | rfl | rfl <;> rfl
      exact reached_error hthree
    | .ok () => exact .large url blobId hlarge
  · next payload now r =>
    cases hstep
    refine ⟨hgood.sha256, hgood.data, ?_⟩
    change Prepared data trace payload at hreached
    match r with
    | .error e =>
      have hnothing : ∀ event ∈ ([] : List Event), event.isProbe = true := nofun
      exact reached_error (.once hreached _ hnothing)
    | .ok () => exact ⟨trace, payload, [], hreached, nofun, rfl⟩
  · next deadline now r =>
    cases hstep
    refine ⟨hgood.sha256, hgood.data, ?_⟩
    obtain ⟨before, payload, after, hprepared, hafter, rfl⟩ := hreached
    have hmore : ∀ event ∈ after ++ [Event.probe r], event.isProbe := fun event hevent => by
      rcases List.mem_append.mp hevent with hold | hnew
      · exact hafter event hold
      · rw [List.mem_singleton.mp hnew]
        rfl
    have hassoc : before ++ Event.upload payload (.ok ()) :: after ++ [.probe r] =
        before ++ Event.upload payload (.ok ()) :: (after ++ [.probe r]) := by
      rw [List.append_assoc, List.cons_append]
    have horderly :
        Orderly data (before ++ Event.upload payload (.ok ()) :: after ++ [.probe r]) := by
      rw [hassoc]
      exact .once hprepared _ hmore
    match r with
    | .error e => exact reached_error horderly
    | .ok true => exact ⟨horderly, fun _ => List.getLast?_concat⟩
    | .ok false =>
      change (if now ≥ deadline then Phase.returned _ else .confirming deadline).Reached data
        (before ++ Event.upload payload (.ok ()) :: after ++ [.probe (.ok false)])
      split
      · exact reached_error horderly
      · exact ⟨before, payload, _, hprepared, hmore, hassoc⟩
  · cases hstep

/-- A good task is orderly. -/
theorem Good.orderly {item : Text × Bytes} {t : Task} (hgood : Good item t) :
    Orderly t.data t.trace := by
  have hreached := hgood.reached
  cases hphase : t.phase with
  | probing =>
    rw [hphase] at hreached
    exact .none fun event hevent => by rw [hreached] at hevent; cases hevent
  | creatingBlob =>
    rw [hphase] at hreached
    rw [hreached.2]
    refine .none fun event hevent => ?_
    rw [List.mem_singleton.mp hevent]
    rfl
  | puttingBlob url blobId =>
    rw [hphase] at hreached
    rw [hreached.2]
    refine .none fun event hevent => ?_
    simp only [List.mem_cons, List.not_mem_nil, or_false] at hevent
    rcases hevent with rfl | rfl <;> rfl
  | uploading payload =>
    rw [hphase] at hreached
    exact .none (Prepared.isUpload_eq_false hreached)
  | confirming deadline =>
    rw [hphase] at hreached
    obtain ⟨before, payload, after, hprepared, hafter, htrace⟩ := hreached
    rw [htrace]
    exact .once hprepared _ hafter
  | returned r =>
    rw [hphase] at hreached
    exact hreached.1

/-- What the first loop has made of the files so far. -/
structure Planned (sha256Hex : Bytes → Text) (files : List LocalFile) (plan : Plan) : Prop where
  /-- The paths. -/
  seenPaths : plan.seenPaths = files.map LocalFile.mountFilename
  /-- They are distinct. -/
  nodup : plan.seenPaths.Nodup
  /-- The descriptors. -/
  mountFiles : plan.mountFiles = files.map (describe sha256Hex)
  /-- The digests are those of the contents that are to be uploaded. -/
  accountedSha : plan.accountedSha = plan.toUpload.map Prod.fst
  /-- They are distinct. -/
  distinct : plan.accountedSha.Nodup
  /-- Every file's digest is among them. -/
  covers : ∀ file ∈ files, sha256Hex file.data ∈ plan.accountedSha
  /-- Every content that is to be uploaded is that of a file, with its digest. -/
  contents : ∀ item ∈ plan.toUpload, item.1 = sha256Hex item.2 ∧ ∃ file ∈ files, file.data = item.2

/-- One turn of the first loop. -/
theorem Planned.step {sha256Hex : Bytes → Text} {files : List LocalFile} {plan plan' : Plan}
    (hplanned : Planned sha256Hex files plan) {file : LocalFile}
    (hstep : planFile sha256Hex plan file = .ok plan') :
    Planned sha256Hex (files ++ [file]) plan' := by
  unfold planFile at hstep
  by_cases hseen : file.mountFilename ∈ plan.seenPaths
  · rw [if_pos hseen] at hstep
    cases hstep
  rw [if_neg hseen] at hstep
  cases hstep
  have hold : ∀ {item : Text × Bytes}, item ∈ plan.toUpload → item.1 = sha256Hex item.2 ∧
      ∃ f ∈ files ++ [file], f.data = item.2 := by
    intro item hitem
    obtain ⟨hdigest, f, hf, hdata⟩ := hplanned.contents item hitem
    exact ⟨hdigest, f, List.mem_append_left _ hf, hdata⟩
  have hlast : ∀ {P : LocalFile → Prop}, (∀ f ∈ files, P f) → P file →
      ∀ f ∈ files ++ [file], P f := by
    intro P hfiles hfile f hf
    rcases List.mem_append.mp hf with hf | hf
    · exact hfiles f hf
    · rw [List.mem_singleton.mp hf]
      exact hfile
  constructor
  · dsimp only
    rw [hplanned.seenPaths, List.map_append]
    rfl
  · exact List.nodup_append.mpr ⟨hplanned.nodup, List.nodup_singleton _, by
      rintro a ha b hb rfl
      rw [List.mem_singleton] at hb
      exact hseen (hb ▸ ha)⟩
  · dsimp only
    rw [hplanned.mountFiles, List.map_append]
    rfl
  · dsimp only
    split
    · exact hplanned.accountedSha
    · rw [hplanned.accountedSha, List.map_append]
      rfl
  · dsimp only
    split
    · exact hplanned.distinct
    · next hnew =>
      exact List.nodup_append.mpr ⟨hplanned.distinct, List.nodup_singleton _, by
        rintro a ha b hb rfl
        rw [List.mem_singleton] at hb
        exact hnew (hb ▸ ha)⟩
  · dsimp only
    split
    · next hknown => exact hlast hplanned.covers hknown
    · exact hlast (fun f hf => List.mem_append_left _ (hplanned.covers f hf))
        (List.mem_append_right _ (List.mem_singleton.mpr rfl))
  · dsimp only
    split
    · exact fun item hitem => hold hitem
    · intro item hitem
      rcases List.mem_append.mp hitem with hitem | hitem
      · exact hold hitem
      · rw [List.mem_singleton.mp hitem]
        exact ⟨rfl, file, List.mem_append_right _ (List.mem_singleton.mpr rfl), rfl⟩

/-- The whole first loop. -/
theorem planned_of_planFiles {sha256Hex : Bytes → Text} {files : List LocalFile} {plan : Plan}
    (hplan : planFiles sha256Hex files = .ok plan) : Planned sha256Hex files plan := by
  have hloop : ∀ (rest done : List LocalFile) (st : Plan), Planned sha256Hex done st →
      rest.foldlM (planFile sha256Hex) st = .ok plan → Planned sha256Hex (done ++ rest) plan := by
    intro rest
    induction rest with
    | nil =>
      intro done st hst hrun
      cases hrun
      rw [List.append_nil]
      exact hst
    | cons file rest ih =>
      intro done st hst hrun
      rw [List.foldlM_cons] at hrun
      cases hnext : planFile sha256Hex st file with
      | error e =>
        rw [hnext] at hrun
        cases hrun
      | ok st' =>
        rw [hnext] at hrun
        have hdone := ih (done ++ [file]) st' (hst.step hnext) hrun
        rwa [List.append_assoc] at hdone
  exact hloop files [] _ ⟨rfl, List.nodup_nil, rfl, rfl, List.nodup_nil,
    fun _ hfile => absurd hfile List.not_mem_nil,
    fun _ hitem => absurd hitem List.not_mem_nil⟩ hplan

section Run

variable {sha256Hex : Bytes → Text} {sourceRoot : FilePath} {files : List LocalFile} {plan : Plan}
  {pool : Uploads} {labels : List (TaskPool.Label Reply)}

/-- The tasks of a plan stay filled, accounted for and joined in order. -/
theorem Plan.run_invariants (hrun : plan.run labels = some pool) :
    Filled uploadConcurrency pool ∧ Accounts Good plan.toUpload pool ∧ Joined system pool :=
  TaskPool.run_invariants good_start (fun _ _ _ _ => Good.step) hrun

/-- The digests of good tasks are those of their contents. -/
theorem map_sha256_of_good {items : List (Text × Bytes)} {ts : List Task}
    (hall : List.Forall₂ Good items ts) : ts.map Task.sha256 = items.map Prod.fst := by
  induction hall with
  | nil => rfl
  | cons hhead htail ih => rw [List.map_cons, List.map_cons, ih, hhead.sha256]

/-- Every task of a run is good for a content that is to be uploaded. -/
theorem exists_good_of_mem (haccounts : Accounts Good plan.toUpload pool) {t : Task}
    (ht : t ∈ pool.joined ++ pool.running) : ∃ item ∈ plan.toUpload, Good item t := by
  obtain ⟨mine, hperm, hall⟩ := haccounts.started
  obtain ⟨i, hi, rfl⟩ := List.getElem_of_mem ht
  have hi' : i < mine.length := by
    rw [hall.length_eq]
    exact hi
  refine ⟨mine[i], hperm.mem_iff.mp (List.mem_append_left _ (List.getElem_mem hi')), ?_⟩
  exact (List.forall₂_iff_get.mp hall).2 i hi' hi

/-- The task of a digest is joined when all tasks are. -/
theorem exists_joined (hplanned : Planned sha256Hex files plan)
    (hinv : Filled uploadConcurrency pool ∧ Accounts Good plan.toUpload pool ∧ Joined system pool)
    (hdone : pool.Done) {sha : Text} (hsha : sha ∈ plan.accountedSha) :
    ∃ t ∈ pool.joined, t.sha256 = sha ∧ t.trace.getLast? = some (.probe (.ok true)) := by
  obtain ⟨hfilled, haccounts, hjoined⟩ := hinv
  obtain ⟨mine, hperm, hall⟩ := haccounts.started
  rw [hfilled.queue_of_done (by decide) hdone, List.append_nil] at hperm
  have hmem : sha ∈ (pool.joined ++ pool.running).map Task.sha256 := by
    rw [map_sha256_of_good hall]
    rw [hplanned.accountedSha] at hsha
    exact (hperm.map Prod.fst).mem_iff.mpr hsha
  obtain ⟨t, ht, hdigest⟩ := List.mem_map.mp hmem
  obtain ⟨item, -, hgood⟩ := exists_good_of_mem haccounts ht
  rw [hdone.2, List.append_nil] at ht
  refine ⟨t, ht, hdigest, ?_⟩
  have hresult := hjoined.ok hdone.1 t ht
  have hreached := hgood.reached
  change t.result = some (.ok ()) at hresult
  unfold Task.result at hresult
  split at hresult
  · next r hphase =>
    rw [hphase] at hreached
    exact hreached.2 (Option.some.inj hresult)
  · cases hresult

/-- What `upload_files` returns: its descriptors, when all tasks have succeeded. -/
theorem Plan.returned_ok {request : List MountFile}
    (hreturned : plan.returned pool = some (.ok request)) :
    pool.Done ∧ request = sortByKey (fun file => textKey file.filename) plan.mountFiles := by
  unfold Plan.returned at hreturned
  cases hfailed : pool.failed with
  | some e =>
    rw [hfailed] at hreturned
    cases hreturned
  | none =>
    rw [hfailed] at hreturned
    dsimp only at hreturned
    by_cases hempty : pool.running.isEmpty = true
    · rw [if_pos hempty] at hreturned
      cases hreturned
      exact ⟨⟨hfailed, List.isEmpty_iff.mp hempty⟩, rfl⟩
    · rw [if_neg hempty] at hreturned
      cases hreturned

/-- A mount is requested from the files of a plan whose tasks are all done. -/
theorem exists_of_finalizeMount {request : List MountFile}
    (hmount : finalizeMount sha256Hex sourceRoot files labels = some (.ok request)) :
    ∃ plan pool, planFiles sha256Hex files = .ok plan ∧ plan.run labels = some pool ∧ pool.Done ∧
      request = sortByKey (fun file => textKey file.filename) plan.mountFiles := by
  unfold finalizeMount at hmount
  by_cases hempty : files.isEmpty = true
  · rw [if_pos hempty] at hmount
    cases hmount
  rw [if_neg hempty] at hmount
  cases hplan : planFiles sha256Hex files with
  | error e =>
    rw [hplan] at hmount
    cases hmount
  | ok plan =>
    rw [hplan] at hmount
    obtain ⟨pool, hrun, hreturned⟩ := Option.bind_eq_some_iff.mp hmount
    obtain ⟨hdone, hrequest⟩ := Plan.returned_ok hreturned
    exact ⟨plan, pool, rfl, hrun, hdone, hrequest⟩

/-- A mount that is requested lists each file once, in the order of the paths, which are distinct;
and the last reply about each digest that it lists was that the server has the content. -/
theorem mount_lists_confirmed_files {request : List MountFile}
    (hmount : finalizeMount sha256Hex sourceRoot files labels = some (.ok request)) :
    request.Perm (files.map (describe sha256Hex)) ∧
      (request.Pairwise fun a b => textKey a.filename < textKey b.filename) ∧
      ∃ plan pool, planFiles sha256Hex files = .ok plan ∧ plan.run labels = some pool ∧
        ∀ file ∈ request, ∃ t ∈ pool.joined, t.sha256 = file.sha256Hex ∧
          t.trace.getLast? = some (.probe (.ok true)) := by
  obtain ⟨plan, pool, hplan, hrun, hdone, rfl⟩ := exists_of_finalizeMount hmount
  have hplanned := planned_of_planFiles hplan
  have hperm := perm_sortByKey (fun file => textKey file.filename) plan.mountFiles
  have hpaths : (plan.mountFiles.map MountFile.filename).Nodup := by
    rw [hplanned.mountFiles, List.map_map]
    have hnodup := hplanned.nodup
    rwa [hplanned.seenPaths] at hnodup
  refine ⟨hplanned.mountFiles ▸ hperm, ?_, plan, pool, hplan, hrun, fun file hfile => ?_⟩
  · have hdistinct := List.pairwise_map.mp ((hperm.map MountFile.filename).nodup_iff.mpr hpaths)
    refine (pairwise_sortByKey _ _).imp₂ (fun a b hle hne => ?_) hdistinct
    exact lt_of_le_of_ne hle fun heq => hne (textKey_injective heq)
  · have hmem := hperm.mem_iff.mp hfile
    rw [hplanned.mountFiles] at hmem
    obtain ⟨source, hsource, rfl⟩ := List.mem_map.mp hmem
    exact exists_joined hplanned (Plan.run_invariants hrun) hdone (hplanned.covers source hsource)

/-- Two files with one content. -/
def twins : List LocalFile :=
  [⟨"b.rs".toList, [7], none⟩, ⟨"a.rs".toList, [7], some 0o644⟩]

/-- A digest of short contents: their letters. -/
def letters (data : Bytes) : Text := data.map fun byte => Char.ofNat (97 + byte.toNat % 26)

/-- The plan of the twins, with one content. -/
def twinPlan : Plan where
  seenPaths := ["b.rs".toList, "a.rs".toList]
  accountedSha := ["h".toList]
  mountFiles := twins.map (describe letters)
  toUpload := [("h".toList, [7])]

/-- The one content of the twins is sent, and confirmed on the second question. -/
def twinReplies : List (TaskPool.Label Reply) :=
  [.task 0 (.probe 0 (.ok false)), .task 0 (.upload 5 (.ok ())), .task 0 (.probe 6 (.ok false)),
    .task 0 (.probe 7 (.ok true)), .join 0]

/-- The mount of the twins. -/
theorem mount_lists_confirmed_files_twins : ∃ request,
    finalizeMount letters ⟨true, []⟩ twins twinReplies = some (.ok request) ∧
      request.Perm (twins.map (describe letters)) ∧
      (request.Pairwise fun a b => textKey a.filename < textKey b.filename) ∧
      ∃ plan pool, planFiles letters twins = .ok plan ∧ plan.run twinReplies = some pool ∧
        ∀ file ∈ request, ∃ t ∈ pool.joined, t.sha256 = file.sha256Hex ∧
          t.trace.getLast? = some (.probe (.ok true)) :=
  have hmount : finalizeMount letters ⟨true, []⟩ twins twinReplies = some (.ok _) := rfl
  ⟨_, hmount, mount_lists_confirmed_files hmount⟩

/-- In every state of the uploads, no two tasks have the same digest, and each task is about the
content of a file, which it sends at most once: after the server said that it lacks the content, as
a stored blob if it is large, and with nothing but probes after it. -/
theorem each_content_uploaded_once (hplan : planFiles sha256Hex files = .ok plan)
    (hrun : plan.run labels = some pool) :
    ((pool.joined ++ pool.running).map Task.sha256).Nodup ∧
      ∀ t ∈ pool.joined ++ pool.running, t.sha256 = sha256Hex t.data ∧
        (∃ file ∈ files, file.data = t.data) ∧ Orderly t.data t.trace := by
  have hplanned := planned_of_planFiles hplan
  obtain ⟨-, haccounts, -⟩ := Plan.run_invariants hrun
  constructor
  · obtain ⟨mine, hperm, hall⟩ := haccounts.started
    have hdistinct := hplanned.distinct
    rw [hplanned.accountedSha] at hdistinct
    have hstarted := (hperm.map Prod.fst).nodup_iff.mpr hdistinct
    rw [List.map_append] at hstarted
    rw [map_sha256_of_good hall]
    exact hstarted.of_append_left
  · intro t ht
    obtain ⟨item, hitem, hgood⟩ := exists_good_of_mem haccounts ht
    obtain ⟨hdigest, file, hfile, hdata⟩ := hplanned.contents item hitem
    refine ⟨?_, ⟨file, hfile, ?_⟩, hgood.orderly⟩
    · rw [hgood.sha256, hgood.data]
      exact hdigest
    · rw [hgood.data]
      exact hdata

/-- The one task of the twins, in the middle of the run. -/
theorem each_content_uploaded_once_twins : ∃ pool,
    twinPlan.run (twinReplies.take 3) = some pool ∧
      ((pool.joined ++ pool.running).map Task.sha256).Nodup ∧
      ∀ t ∈ pool.joined ++ pool.running, t.sha256 = letters t.data ∧
        (∃ file ∈ twins, file.data = t.data) ∧ Orderly t.data t.trace := by
  have hsome : (twinPlan.run (twinReplies.take 3)).isSome := rfl
  obtain ⟨pool, hrun⟩ := Option.isSome_iff_exists.mp hsome
  have hplan : planFiles letters twins = .ok twinPlan := rfl
  exact ⟨pool, hrun, each_content_uploaded_once hplan hrun⟩

/-- A task that has not returned can take its next step. -/
theorem Task.exists_step {t : Task} (hresult : t.result = none) :
    ∃ reply t', t.step reply = some t' := by
  obtain ⟨sha256, data, phase, trace⟩ := t
  cases phase with
  | probing => exact ⟨.probe 0 (.ok true), _, rfl⟩
  | creatingBlob => exact ⟨.blobCreate (.ok ⟨[], none⟩), _, rfl⟩
  | puttingBlob url blobId => exact ⟨.putBlob (.ok ()), _, rfl⟩
  | uploading payload => exact ⟨.upload 0 (.ok ()), _, rfl⟩
  | confirming deadline => exact ⟨.probe 0 (.ok true), _, rfl⟩
  | returned r => cases hresult

/-- In every state of the uploads at most sixteen tasks are in flight. Unless one has failed, there
are sixteen of them while contents wait, and some task can take a step or be joined until all
contents are done. -/
theorem uploads_bounded_and_live (hrun : plan.run labels = some pool) :
    pool.running.length ≤ uploadConcurrency ∧ (pool.failed = none →
      (pool.queue ≠ [] → pool.running.length = uploadConcurrency) ∧
      ((∃ label next, pool.step system label = some next) ∨
        pool.queue = [] ∧ pool.joined.length = plan.toUpload.length)) := by
  obtain ⟨hfilled, haccounts, -⟩ := Plan.run_invariants hrun
  refine ⟨hfilled.le, fun hnone => ⟨hfilled.full hnone, ?_⟩⟩
  by_cases hrunning : pool.running = []
  · have hqueue := hfilled.queue_of_done (by decide) ⟨hnone, hrunning⟩
    obtain ⟨mine, hperm, hall⟩ := haccounts.started
    have hlength := hall.length_eq
    rw [hqueue, List.append_nil] at hperm
    rw [hrunning, List.append_nil] at hlength
    exact .inr ⟨hqueue, hlength.symm.trans hperm.length_eq⟩
  · exact .inl (TaskPool.exists_step (fun _ => Task.exists_step) hnone hrunning)

/-- The uploads of the twins, in the middle of the run. -/
theorem uploads_bounded_and_live_twins : ∃ pool, twinPlan.run (twinReplies.take 3) = some pool ∧
    pool.running.length ≤ uploadConcurrency ∧ (pool.failed = none →
      (pool.queue ≠ [] → pool.running.length = uploadConcurrency) ∧
      ((∃ label next, pool.step system label = some next) ∨
        pool.queue = [] ∧ pool.joined.length = twinPlan.toUpload.length)) := by
  have hsome : (twinPlan.run (twinReplies.take 3)).isSome := rfl
  obtain ⟨pool, hrun⟩ := Option.isSome_iff_exists.mp hsome
  exact ⟨pool, hrun, uploads_bounded_and_live hrun⟩

end Run

end ModalRust.Sdk.MountUpload
