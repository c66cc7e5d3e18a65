import ModalRust.Sdk.VolumeProtocol

/-!
# Files that change during a volume upload

A block is read twice: once for its digest, and once more for its `PUT`, after the server has said
that it is missing. Nothing compares the two reads, so bytes are stored under the declared digest
exactly as far as the block still has it when it is read again.
-/

namespace ModalRust.Sdk.VolumePut

open VolumePlan

/-- No content is put under a digest that it does not have, or the call fails; and no such content
is stored in any case. -/
structure Intact (env : Env) (run : Run) : Prop where
  /-- What is put has the declared digest, or the call fails. -/
  put : (∀ put ∈ run.puts, env.sha256 put.bytes = put.sha) ∨ ∃ e, run.result = some (.error e)
  /-- What is stored has the declared digest. -/
  stored : ∀ put ∈ run.puts, ∀ body, put.reply = .ok body → env.sha256 put.bytes = put.sha

/-- Between the two reads of a block no write has changed its digest: block `k` of the file `i`,
which is read again for the upload with the number `n`. -/
def SameDigest (env : Env) (i k n : ℕ) : Prop :=
  ∀ size before after, env.size i = .ok size → env.hashed i k = .ok before →
    env.reread n = .ok after →
      env.sha256 (blockOf size k after) = env.sha256 (blockOf size k before)

/-- What was put, sound for the blocks that were hashed. -/
theorem Course.sound {env : Env} {volumeId : Text} {files : List PlannedFile} {force : Bool}
    {locals : List LocalFile} {run : Run} (hcourse : Course env volumeId files force locals run) :
    ∃ missing, PutsSound env locals missing run.puts := by
  have hspec (missing : List MissingBlock) (st : Progress) (failure : Option Error)
      (hput : uploadMissing env locals missing ⟨[], 0, []⟩ = (st, failure)) :
      PutsSound env locals missing st.puts := by
    obtain ⟨hsound, -⟩ := uploadMissing_spec missing (Uploaded.nil env locals)
    rw [hput, List.nil_append] at hsound
    exact hsound
  cases hcourse with
  | failed e hreply => exact ⟨[], List.nodup_nil, nofun⟩
  | complete hreply => exact ⟨[], List.nodup_nil, nofun⟩
  | stopped missing st e hreply hne hput => exact ⟨missing, hspec missing st _ hput⟩
  | failedAgain missing st e hreply hne hput hagain => exact ⟨missing, hspec missing st _ hput⟩
  | completeAgain missing st hreply hne hput hagain =>
    exact ⟨missing, hspec missing st _ hput⟩

/-- A course fails, or everything that was put was stored. -/
theorem Course.fails_or_stored {env : Env} {volumeId : Text} {files : List PlannedFile}
    {force : Bool} {locals : List LocalFile} {run : Run}
    (hcourse : Course env volumeId files force locals run) :
    (∃ e, run.result = some (.error e)) ∨ ∀ put ∈ run.puts, ∃ body, put.reply = .ok body := by
  cases hcourse with
  | failed e hreply => exact .inl ⟨e, rfl⟩
  | complete hreply => exact .inr nofun
  | stopped missing st e hreply hne hput => exact .inl ⟨e, rfl⟩
  | failedAgain missing st e hreply hne hput hagain => exact .inl ⟨e, rfl⟩
  | completeAgain missing st hreply hne hput hagain =>
    obtain ⟨-, huploaded, -⟩ := uploadMissing_spec missing (Uploaded.nil env locals)
    rw [hput] at huploaded
    exact .inr fun put hmem => (huploaded rfl).exists_body hmem

/-- A call fails, or everything that it put was stored. -/
theorem fails_or_stored (env : Env) (volumeId : Text) (files : List PlannedFile) (force : Bool) :
    (∃ e, (volumePut env volumeId files force).result = some (.error e)) ∨
      ∀ put ∈ (volumePut env volumeId files force).puts, ∃ body, put.reply = .ok body := by
  unfold volumePut
  split_ifs with hempty
  · exact .inl ⟨_, rfl⟩
  · cases hashFiles env 0 files with
    | error e => exact .inl ⟨e, rfl⟩
    | ok locals => exact (course_rounds env volumeId files force locals).fails_or_stored

/-- What the `PUT` with a number is of: the bytes of the second read under the digest of the
first. -/
theorem exists_of_put {env : Env} {volumeId : Text} {files : List PlannedFile} {force : Bool}
    {n : ℕ} {put : Put} (hput : (volumePut env volumeId files force).puts[n]? = some put) :
    ∃ size before after, env.size put.missing.fileIndex = .ok size ∧
      env.hashed put.missing.fileIndex put.missing.blockIndex = .ok before ∧
      env.reread n = .ok after ∧ put.bytes = blockOf size put.missing.blockIndex after ∧
      put.sha = env.sha256 (blockOf size put.missing.blockIndex before) := by
  unfold volumePut at hput
  split_ifs at hput with hempty
  · cases hput
  · cases hhashed : hashFiles env 0 files with
    | error e =>
      rw [hhashed] at hput
      cases hput
    | ok locals =>
      rw [hhashed] at hput
      obtain ⟨missing, hsound⟩ := (course_rounds env volumeId files force locals).sound
      have his := hsound.each n put hput
      obtain ⟨b, after, hblock, hsha, hreread, hbytes⟩ := his.block
      obtain ⟨lf, hlf, hb⟩ := Option.bind_eq_some_iff.mp hblock
      obtain ⟨hlength, hall⟩ := hashFiles_ok hhashed
      have hlt : put.missing.fileIndex < files.length := by
        rw [← hlength]
        exact (List.getElem?_eq_some_iff.mp hlf).1
      have has := hall _ _ lf (List.getElem?_eq_getElem hlt) hlf
      rw [Nat.zero_add] at has
      obtain ⟨before, hfile, -, hdigest⟩ := has.blocks.digest _ b hb
      obtain ⟨hstart, hlen⟩ := has.blocks.span_eq hb
      rw [hstart, hlen] at hdigest hbytes
      rw [Nat.zero_add] at hfile
      exact ⟨lf.size, before, after, has.size, hfile, hreread, hbytes, hsha.trans hdigest⟩

/-- What is put has the declared digest if the block has kept it. -/
theorem sha256_bytes_iff {env : Env} {volumeId : Text} {files : List PlannedFile} {force : Bool}
    {n : ℕ} {put : Put} (hput : (volumePut env volumeId files force).puts[n]? = some put) :
    env.sha256 put.bytes = put.sha ↔
      SameDigest env put.missing.fileIndex put.missing.blockIndex n := by
  obtain ⟨size, before, after, hsize, hbefore, hafter, hbytes, hsha⟩ := exists_of_put hput
  rw [hbytes, hsha]
  constructor
  · intro hsame size' before' after' hsize' hbefore' hafter'
    rw [hsize] at hsize'
    rw [hbefore] at hbefore'
    rw [hafter] at hafter'
    cases hsize'
    cases hbefore'
    cases hafter'
    exact hsame
  · exact fun hsame => hsame size before after hsize hbefore hafter

/-- **An upload is intact exactly if every block that is stored has kept its digest** between the
two reads. -/
theorem intact_iff_sameDigest (env : Env) (volumeId : Text) (files : List PlannedFile)
    (force : Bool) :
    Intact env (volumePut env volumeId files force) ↔
      ∀ n put, (volumePut env volumeId files force).puts[n]? = some put →
        (∃ body, put.reply = .ok body) →
          SameDigest env put.missing.fileIndex put.missing.blockIndex n := by
  constructor
  · rintro ⟨-, hstored⟩ n put hput ⟨body, hbody⟩
    exact (sha256_bytes_iff hput).mp (hstored put (List.mem_of_getElem? hput) body hbody)
  · intro hsame
    have hstored : ∀ put ∈ (volumePut env volumeId files force).puts, ∀ body,
        put.reply = .ok body → env.sha256 put.bytes = put.sha := by
      intro put hmem body hbody
      obtain ⟨n, hput⟩ := List.mem_iff_getElem?.mp hmem
      exact (sha256_bytes_iff hput).mpr (hsame n put hput ⟨body, hbody⟩)
    refine ⟨?_, hstored⟩
    rcases fails_or_stored env volumeId files force with hfails | hbodies
    · exact .inr hfails
    · left
      intro put hmem
      obtain ⟨body, hbody⟩ := hbodies put hmem
      exact hstored put hmem body hbody

/-- The digests of the bytes 1 and 2. -/
def digestOf (bytes : Bytes) : Bytes :=
  if bytes = [1] then
    [75, 245, 18, 47, 52, 69, 84, 197, 59, 222, 46, 187, 140, 210, 183, 227, 209, 96, 10, 214, 49,
      195, 133, 165, 215, 204, 226, 60, 119, 133, 69, 154]
  else if bytes = [2] then
    [219, 193, 180, 201, 0, 255, 228, 141, 87, 91, 93, 165, 198, 56, 4, 1, 37, 246, 93, 176, 254,
      62, 36, 73, 75, 118, 234, 152, 100, 87, 217, 134]
  else []

/-- A file of one byte, which a write changes from 1 to 2 while the server is asked. -/
def changingFile : Env where
  display _ := "data".toList
  sha256 := digestOf
  opened _ := .ok ()
  size _ := .ok 1
  hashed _ _ := .ok [1]
  reply n := .ok (if n = 0 then [⟨0, 0, "https://u".toList⟩] else [])
  cloned _ := .ok ()
  reread _ := .ok [2]
  put _ := .ok []

/-- The new byte is stored under the digest of the old one, and the call succeeds. -/
theorem changed_block_is_stored :
    ¬ ∀ env volumeId files force, Intact env (volumePut env volumeId files force) := by
  intro hclaim
  have hputs : (volumePut changingFile "vo-1".toList [⟨dataDir, "data".toList, 0o644⟩] true).puts =
      [⟨⟨0, 0, "https://u".toList⟩, digestOf [1], [2], .ok []⟩] := rfl
  have hstored := (hclaim changingFile "vo-1".toList [⟨dataDir, "data".toList, 0o644⟩] true).stored
  rw [hputs] at hstored
  have hsame := hstored _ (List.mem_singleton_self _) [] rfl
  exact absurd hsame (by decide +kernel)

end ModalRust.Sdk.VolumePut
