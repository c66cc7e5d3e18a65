import ModalRust.Facade.Envelope

/-!
# The way of an output to the client

A handler's output is serialized, read into a value by the runner, embedded in the success
envelope, emitted, parsed by the client and decoded. The output arrives exactly if its
integers fit a word of 64 bits, its floats are read back from their literals, it leaves
room for the nesting of the envelope, and its type decodes the value that holds exactly
what was serialized.
-/

namespace ModalRust.Facade

open ModalRust.Runtime

/-- A call of an entrypoint reaches a handler, which returns these bytes. -/
structure Returns {σ : Type*} (platform : Platform) (registry : Registry σ) (entrypoint : Text)
    (rawInput : Bytes) (proc : Proc σ) (bytes : Bytes) : Prop where
  /-- The input is JSON. -/
  input : ∃ v, platform.parseValue rawInput = .ok v
  /-- The handler returns the bytes. -/
  output : ∃ handler, registry.get entrypoint = some handler ∧
    (handler rawInput proc.user).result = some (.ok bytes)

variable {σ Out : Type} {platform : Platform} {readFloat : Literal → Option FloatText}
  {serialize : Out → Doc} {fromValue : Json → Except Text Out} {out : Out}

/-- The result of such a call is what the runner reads from the bytes. -/
theorem Returns.call_eq {registry : Registry σ} {entrypoint : Text} {rawInput bytes : Bytes}
    {proc : Proc σ} (hreturns : Returns platform registry entrypoint rawInput proc bytes)
    (stack : List Text) :
    (call platform registry stack entrypoint rawInput proc).1 = reparse platform bytes := by
  obtain ⟨v, hinput⟩ := hreturns.input
  obtain ⟨handler, hget, hresult⟩ := hreturns.output
  simp only [call, hinput, hget, runHandler, hresult]
  rfl

/-- The output arrives: the runner reads exactly what was serialized, and the client
decodes the output from the line. -/
def Faithful (platform : Platform) (serialize : Out → Doc) (fromValue : Json → Except Text Out)
    (out : Out) (line : Text) : Prop :=
  (∃ v, (serialize out).exactValue = some v ∧
    platform.parseValue (toUtf8 (serialize out).print) = .ok v) ∧
  parseEnvelope platform fromValue line = .ok out

/-- The outputs that arrive. -/
structure Representable (readFloat : Literal → Option FloatText) (serialize : Out → Doc)
    (fromValue : Json → Except Text Out) (out : Out) : Prop where
  /-- Every integer fits a word, and every float is read back from its literal. -/
  numbers : ∀ n ∈ (serialize out).numbers, n.Exact readFloat
  /-- There is room for the nesting of the envelope. -/
  depth : (serialize out).depth ≤ 126
  /-- The type decodes the value that holds exactly what was serialized. -/
  decodes : ∀ v, (serialize out).exactValue = some v → fromValue v = .ok out

/-- The exact value of exact numbers is what serde_json reads. -/
theorem exists_exactValue_iff {d : Doc} (hfree : d.DuplicateFree) :
    (∃ v, d.toValue (JsonTree.reread (readNumber readFloat)) = some v ∧ d.exactValue = some v) ↔
      ∀ n ∈ d.numbers, n.Exact readFloat := by
  constructor
  · rintro ⟨v, hread, hexact⟩ n hn
    exact WideNumber.exact_iff.mpr (JsonTree.read_eq_of_toValue hfree hread hexact n hn)
  · exact fun hexact => JsonTree.exists_toValue fun n hn => WideNumber.exact_iff.mp (hexact n hn)

/-- An exact value is read back by the client as it is. -/
theorem reread_exactValue {d : Doc} {v : Json} (hexact : ∀ n ∈ d.numbers, n.Exact readFloat)
    (hv : d.exactValue = some v) :
    v.toValue (JsonTree.reread (readNumber readFloat)) = some v := by
  refine JsonTree.reread_eq_self (JsonTree.stored_toValue hv) fun m hm => ?_
  obtain ⟨n, hn, hnumber⟩ := JsonTree.mem_numbers_toValue hv hm
  exact (hexact n hn).number hnumber

/-- **The output arrives exactly if it is representable.** -/
theorem faithful_iff (hparses : platform.ParsesWith readFloat)
    (hfree : (serialize out).DuplicateFree) :
    Faithful platform serialize fromValue out
        (emitLine (envelopeOf (reparse platform (toUtf8 (serialize out).print)))) ↔
      Representable readFloat serialize fromValue out := by
  have hparse : (platform.parseValue (toUtf8 (serialize out).print)).toOption =
      if (serialize out).depth ≤ 127 then
        (serialize out).toValue (JsonTree.reread (readNumber readFloat)) else none := by
    rw [parseValue_toUtf8 hparses]
    have hprint := (serialize out).fromStr_print readFloat [] rfl
    rwa [List.append_nil] at hprint
  constructor
  · rintro ⟨⟨v, hv, hok⟩, hdecoded⟩
    rw [hok] at hparse
    have hdepth : (serialize out).depth ≤ 127 := by
      by_contra hdeep
      rw [if_neg hdeep] at hparse
      cases hparse
    rw [if_pos hdepth] at hparse
    have hexact := (exists_exactValue_iff hfree).mp ⟨v, hparse.symm, hv⟩
    have hreread := reread_exactValue hexact hv
    have hsame : v.depth = (serialize out).depth := JsonTree.depth_toValue hfree hv
    have hline : reparse platform (toUtf8 (serialize out).print) = .ok v := by
      rw [reparse, hok]
      rfl
    rw [hline, envelopeOf] at hdecoded
    by_cases hroom : v.depth ≤ 126
    · rw [parseEnvelope_successEnvelope hparses hroom hreread] at hdecoded
      refine ⟨hexact, by omega, fun v' hv' => ?_⟩
      obtain rfl := Option.some.inj (hv.symm.trans hv')
      cases hfrom : fromValue v with
      | error e =>
        rw [hfrom] at hdecoded
        cases hdecoded
      | ok out' =>
        rw [hfrom] at hdecoded
        obtain rfl := Except.ok.inj hdecoded
        rfl
    · obtain ⟨message, hrejected⟩ :=
        exists_error_of_rejected hparses (Or.inl (by omega : 126 < v.depth))
      rw [parseEnvelope_of_error fromValue hrejected] at hdecoded
      cases hdecoded
  · rintro ⟨hexact, hdepth, hdecodes⟩
    obtain ⟨v, hread, hv⟩ := (exists_exactValue_iff hfree).mpr hexact
    rw [if_pos (by omega), hread] at hparse
    have hok := eq_ok_of_toOption hparse
    have hline : reparse platform (toUtf8 (serialize out).print) = .ok v := by
      rw [reparse, hok]
      rfl
    have hroom : v.depth ≤ 126 := by
      rw [JsonTree.depth_toValue hfree hv]
      exact hdepth
    refine ⟨⟨v, hv, hok⟩, ?_⟩
    rw [hline, envelopeOf, parseEnvelope_successEnvelope hparses hroom
      (reread_exactValue hexact hv), hdecodes v hv]
    rfl

/-- **An output arrives over the one-shot command line and over the serve loop exactly if
it is representable.** -/
theorem successEnvelope_faithful_iff {registry : Registry σ} {entrypoint : Text}
    {rawInput : Bytes} {proc : Proc σ} (hparses : platform.ParsesWith readFloat)
    (hfree : (serialize out).DuplicateFree)
    (hreturns : Returns platform registry entrypoint rawInput proc
      (toUtf8 (serialize out).print)) :
    (∀ callers argv source, parseArgs argv = .ok ⟨entrypoint, source⟩ →
      readInput platform source = .ok rawInput →
        (Faithful platform serialize fromValue out
            (runCliWithArgs platform registry callers argv proc).stdout ↔
          Representable readFloat serialize fromValue out)) ∧
    ∀ callers input, toUtf8 input = rawInput →
      (Faithful platform serialize fromValue out
          (serveOne platform registry callers ⟨entrypoint, input⟩ proc).out ↔
        Representable readFloat serialize fromValue out) := by
  constructor
  · intro callers argv source hargv hread
    rw [stdout_runCliWithArgs hargv hread, hreturns.call_eq]
    exact faithful_iff hparses hfree
  · intro callers input hinput
    rw [out_serveOne, hinput, hreturns.call_eq]
    exact faithful_iff hparses hfree

/-- The serialization of a `u128`. -/
def serializeU128 (n : ℕ) : Doc := .number (.int n)

/-- The deserialization of a `u128` from a value. -/
def fromValueU128 : Json → Except Text ℕ
  | .number (.posInt n) => .ok n.toNat
  | .number (.float _) => .error "invalid type: floating point, expected u128".toList
  | _ => .error "invalid type, expected u128".toList

/-- A floating-point reader that knows what 2 ^ 64 is as a float. -/
def readRounded (l : Literal) : Option FloatText :=
  if l = intLiteral false (2 ^ 64) then
    some ⟨⟨false, "1".toList, "8446744073709552".toList, ['+'], "19".toList⟩, by decide, by decide⟩
  else readShortest l

/-- A registry with one entrypoint, whose handler returns the serialization of a `u128`. -/
def returning (n : ℕ) : Registry Unit where
  __ := Registry.new
  handlers := Std.TreeMap.empty.insert "f".toList fun _ user =>
    Run.pure (.ok (toUtf8 (serializeU128 n).print)) user

/-- A call of that entrypoint. -/
theorem returns_returning (n : ℕ) (proc : Proc Unit) :
    Returns (.reading readRounded) (returning n) "f".toList (toUtf8 "null".toList) proc
      (toUtf8 (serializeU128 n).print) := by
  have hparses := Platform.parsesWith_reading readRounded
  refine ⟨⟨.null, eq_ok_of_toOption ?_⟩, ⟨_, rfl, rfl⟩⟩
  rw [parseValue_toUtf8 hparses]
  rfl

/-- The largest integer of 64 bits arrives. -/
theorem faithful_largest_word :
    Faithful (.reading readRounded) serializeU128 fromValueU128 (2 ^ 64 - 1)
      (runCliWithArgs (.reading readRounded) (returning (2 ^ 64 - 1)) []
        ["--entrypoint".toList, "f".toList, "--input-json".toList, "null".toList]
        (.fresh ())).stdout := by
  have hfree : (serializeU128 (2 ^ 64 - 1)).DuplicateFree := trivial
  refine ((successEnvelope_faithful_iff (Platform.parsesWith_reading readRounded) hfree
    (returns_returning (2 ^ 64 - 1) (.fresh ()))).1 [] _ (.json "null".toList) rfl rfl).mpr
    ⟨?_, by decide, ?_⟩
  · intro n hn
    obtain rfl := List.mem_singleton.mp hn
    constructor <;> decide
  · intro v hv
    obtain rfl := Option.some.inj hv
    rfl

/-- The next integer does not. -/
theorem not_faithful_above_largest_word :
    ¬ Faithful (.reading readRounded) serializeU128 fromValueU128 (2 ^ 64)
      (runCliWithArgs (.reading readRounded) (returning (2 ^ 64)) []
        ["--entrypoint".toList, "f".toList, "--input-json".toList, "null".toList]
        (.fresh ())).stdout := by
  have hargv : parseArgs ["--entrypoint".toList, "f".toList, "--input-json".toList,
      "null".toList] = .ok ⟨"f".toList, .json "null".toList⟩ := rfl
  rw [stdout_runCliWithArgs hargv rfl, (returns_returning (2 ^ 64) (.fresh ())).call_eq]
  intro hfaithful
  have hfree : (serializeU128 (2 ^ 64)).DuplicateFree := trivial
  have hrepresentable :=
    (faithful_iff (Platform.parsesWith_reading readRounded) hfree).mp hfaithful
  have hword := (hrepresentable.numbers (.int (2 ^ 64 : ℕ)) List.mem_cons_self).2
  exact absurd hword (by decide)

end ModalRust.Facade
