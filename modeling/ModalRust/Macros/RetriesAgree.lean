import ModalRust.Macros.Retries
import ModalRust.Macros.ScheduleAgrees

/-!
# Retries from the attribute to the message

What the SDK reads from the spec of retries is compared with what the attribute says. The spec is
always read, but a delay that does not fit 32 bits of milliseconds is cut off, and a coefficient
that is too large for single precision becomes infinite.
-/

namespace ModalRust.Macros

open BinaryFormat ModalRust.Sdk

/-- The names of the components of `Retries(..)`. -/
def retriesNames : List Text :=
  ["max_retries".toList, "backoff_coefficient".toList, "initial_delay".toList, "max_delay".toList]

/-- The key of a component in the spec. -/
def retriesKey (name : Text) : Text :=
  if name = "max_retries".toList then "max".toList
  else if name = "backoff_coefficient".toList then "backoff".toList
  else if name = "initial_delay".toList then "initial_ms".toList
  else "max_ms".toList

/-- What is sent for a component. -/
def sent (name digits : Text) : Text :=
  if name = "max_retries".toList then Nat.toDigits 10 ((parseU32 digits).getD 0)
  else if name = "backoff_coefficient".toList then (F64.ofRat (numeral digits)).display
  else Nat.toDigits 10 ((F64.ofRat (numeral digits)).times 1000).toU32

/-- The pair that is sent for a pair that is written. -/
def sentPair (pair : Text × Text) : Text × Text := (retriesKey pair.1, sent pair.1 pair.2)

/-- The retry count is sent as it is read. -/
theorem sent_max (digits : Text) :
    sent "max_retries".toList digits = Nat.toDigits 10 ((parseU32 digits).getD 0) := if_pos rfl

/-- The numbers that the macro accepts. -/
def Accepted (name digits : Text) : Prop :=
  name ∈ retriesNames ∧
    (name = "max_retries".toList → ∃ n, parseU32 digits = some n ∧ digitsValue digits = some n) ∧
    (name = "initial_delay".toList ∨ name = "max_delay".toList →
      double.round (numeral digits) < 2 ^ double.maxExp)

/-! ### Integer literals -/

/-- The digits of an integer literal have no sign. -/
theorem head_of_digitsValue {digits : Text} {n : ℕ} (hdigits : digitsValue digits = some n) :
    digits.head? ≠ some '+' :=
  (head_of_parseDecimal (parseDecimal_of_digitsValue hdigits)).2

/-- The number of digits. -/
theorem numeral_of_digitsValue {digits : Text} {n : ℕ} (hdigits : digitsValue digits = some n) :
    numeral digits = n := by
  rw [numeral, parseDecimal_of_digitsValue hdigits]
  rfl

/-- An integer literal that fits 32 bits. -/
theorem eq_of_parseU32 {digits : Text} {m n : ℕ} (hdigits : digitsValue digits = some m)
    (hn : parseU32 digits = some n) : n = m ∧ m < 2 ^ 32 := by
  unfold parseU32 at hn
  rw [if_neg (head_of_digitsValue hdigits), hdigits, Option.filter_some] at hn
  split at hn
  · next hlt =>
    cases hn
    exact ⟨rfl, of_decide_eq_true hlt⟩
  · cases hn

/-- An integer literal that is read as a double. -/
theorem eq_of_u64AsF64 {digits : Text} {m : ℕ} {x : F64} (hdigits : digitsValue digits = some m)
    (hx : u64AsF64 digits = .ok x) : x = .ofRat (numeral digits) := by
  unfold u64AsF64 parseU64 at hx
  rw [if_neg (head_of_digitsValue hdigits), hdigits, Option.filter_some] at hx
  split at hx
  · cases hx
    rw [numeral_of_digitsValue hdigits]
  · cases hx

/-- The decimal text of a number that fits 32 bits is read as the number. -/
theorem parseU32_toDigits {n : ℕ} (hn : n < 2 ^ 32) :
    parseU32 (trim (Nat.toDigits 10 n)) = some n := by
  have hdigits := digitsValue_toDigits n
  rw [(clean_of_parseDecimal (parseDecimal_of_digitsValue hdigits)).2, parseU32,
    if_neg (head_of_digitsValue hdigits), hdigits, Option.filter_some,
    if_pos (decide_eq_true hn)]

/-! ### What the macro emits -/

/-- A number that the macro reads as a double is that of its digits. -/
theorem eq_of_expectF64Lit {e : Expr} (hlexed : e.Lexed) {x : F64}
    (hx : expectF64Lit e = .ok x) :
    ∃ digits, e.digits = some digits ∧ x = .ofRat (numeral digits) := by
  unfold expectF64Lit at hx
  split at hx
  · next digits =>
    refine ⟨digits, rfl, ?_⟩
    unfold base10ParseF64 at hx
    split at hx
    · next q hq =>
      cases hx
      rw [numeral, hq]
      rfl
    · cases hx
  · next digits =>
    obtain ⟨m, hm⟩ := Option.isSome_iff_exists.mp hlexed
    exact ⟨digits, rfl, eq_of_u64AsF64 hm hx⟩
  · cases hx

/-- A delay that the macro accepts is finite. -/
theorem eq_of_secsLitToMs {e : Expr} (hlexed : e.Lexed) {ms : ℕ} (hms : secsLitToMs e = .ok ms) :
    ∃ digits, e.digits = some digits ∧ double.round (numeral digits) < 2 ^ double.maxExp ∧
      ms = ((F64.ofRat (numeral digits)).times 1000).toU32 := by
  have hsecs : ∃ secs, expectF64Lit e = .ok secs ∧ secs.value.all (· < 0) = false ∧
      ms = (secs.times 1000).toU32 := by
    unfold secsLitToMs at hms
    unfold expectF64Lit
    split at hms
    · next digits =>
      cases hsecs : base10ParseF64 digits with
      | error m =>
        rw [hsecs] at hms
        cases hms
      | ok secs =>
        rw [hsecs] at hms
        change (if secs.value.all (· < 0) = true then _ else _) = _ at hms
        split at hms
        · cases hms
        · next hfinite =>
          cases hms
          exact ⟨secs, rfl, Bool.not_eq_true _ ▸ hfinite, rfl⟩
    · next digits =>
      cases hsecs : u64AsF64 digits with
      | error m =>
        rw [hsecs] at hms
        cases hms
      | ok secs =>
        rw [hsecs] at hms
        change (if secs.value.all (· < 0) = true then _ else _) = _ at hms
        split at hms
        · cases hms
        · next hfinite =>
          cases hms
          exact ⟨secs, rfl, Bool.not_eq_true _ ▸ hfinite, rfl⟩
    · cases hms
  obtain ⟨secs, hlit, hfinite, rfl⟩ := hsecs
  obtain ⟨digits, hdigits, rfl⟩ := eq_of_expectF64Lit hlexed hlit
  refine ⟨digits, hdigits, ?_, rfl⟩
  by_contra hlarge
  have hnone := F64.value_ofRat_eq_none hlarge
  rw [hnone] at hfinite
  cases hfinite

/-- The parts of a spec that come from the pairs. -/
def partsOf (pairs : List (Text × Text)) : Option Text × List Text :=
  ((lastGiven "max_retries".toList pairs).map fun digits =>
      render (sentPair ("max_retries".toList, digits)),
    (pairs.filter fun pair => pair.1 ≠ "max_retries".toList).map fun pair =>
      render (sentPair pair))

/-- A further retry count replaces an earlier one. -/
theorem partsOf_max (pairs : List (Text × Text)) (digits : Text) :
    partsOf (pairs ++ [("max_retries".toList, digits)]) =
      (some (render (sentPair ("max_retries".toList, digits))), (partsOf pairs).2) := by
  have hkept : [("max_retries".toList, digits)].filter
      (fun pair => decide (pair.1 ≠ "max_retries".toList)) = [] := rfl
  have hlast : lastGiven "max_retries".toList (pairs ++ [("max_retries".toList, digits)]) =
      some digits := by
    rw [lastGiven_append]
    exact if_pos rfl
  unfold partsOf
  rw [hlast, List.filter_append, hkept, List.append_nil, Option.map_some]

/-- A further component is added at the end. -/
theorem partsOf_other {name : Text} (hname : name ≠ "max_retries".toList)
    (pairs : List (Text × Text)) (digits : Text) :
    partsOf (pairs ++ [(name, digits)]) =
      ((partsOf pairs).1, (partsOf pairs).2 ++ [render (sentPair (name, digits))]) := by
  have hkept : [(name, digits)].filter
      (fun pair => decide (pair.1 ≠ "max_retries".toList)) = [(name, digits)] := by
    rw [List.filter_singleton, decide_eq_true hname]
    rfl
  unfold partsOf
  rw [lastGiven_append, if_neg hname, List.filter_append, hkept, List.map_append,
    List.map_singleton]

/-- A delay that is accepted adds what it writes. -/
theorem accepted_of_secsLitToMs {right : Expr} (hright : right.Lexed) {ms : ℕ}
    (hms : secsLitToMs right = .ok ms) {name : Text}
    (hname : name = "initial_delay".toList ∨ name = "max_delay".toList)
    (pairs : List (Text × Text)) :
    ∃ digits, right.digits = some digits ∧ Accepted name digits ∧
      partsOf (pairs ++ [(name, digits)]) = ((partsOf pairs).1,
        (partsOf pairs).2 ++ [retriesKey name ++ '=' :: Nat.toDigits 10 ms]) := by
  have hnames : name ∈ retriesNames ∧ name ≠ "max_retries".toList ∧
      name ≠ "backoff_coefficient".toList := by
    rcases hname with rfl | rfl <;> decide
  obtain ⟨hmem, hmax, hcoefficient⟩ := hnames
  obtain ⟨digits, hdigits, hfinite, rfl⟩ := eq_of_secsLitToMs hright hms
  refine ⟨digits, hdigits, ⟨hmem, fun heq => absurd heq hmax, fun _ => hfinite⟩, ?_⟩
  rw [partsOf_other hmax, render, sentPair, sent, if_neg hmax, if_neg hcoefficient]

/-- One argument adds what it writes. -/
theorem retriesArg_partsOf {std : Std} {arg : Expr} {pairs : List (Text × Text)}
    {acc : Option Text × List Text} (hlexed : ∀ a ∈ assigned arg, a.2.Lexed)
    (harg : retriesArg std (partsOf pairs) arg = .ok acc) :
    ∃ name digits, writtenPair arg = some (name, digits) ∧ Accepted name digits ∧
      acc = partsOf (pairs ++ [(name, digits)]) := by
  unfold retriesArg at harg
  cases hnamed : namedArg _ _ _ arg with
  | error e =>
    rw [hnamed] at harg
    cases harg
  | ok a =>
    obtain ⟨name, right⟩ := a
    rw [hnamed] at harg
    change retriesComponent std (partsOf pairs) name right = .ok acc at harg
    have hassigned := assigned_of_namedArg hnamed
    have hright := hlexed _ hassigned
    have hwritten : ∀ {digits : Text}, right.digits = some digits →
        writtenPair arg = some (name, digits) := by
      intro digits hdigits
      simp [writtenPair, hassigned, hdigits]
    unfold retriesComponent at harg
    split at harg
    · next hname =>
      subst hname
      cases hn : expectU32Lit right with
      | error e =>
        rw [hn] at harg
        cases harg
      | ok n =>
        rw [hn] at harg
        cases harg
        unfold expectU32Lit at hn
        split at hn
        · next digits =>
          obtain ⟨m, hm⟩ := Option.isSome_iff_exists.mp hright
          cases hparse : parseU32 digits with
          | none =>
            rw [hparse] at hn
            cases hn
          | some k =>
            rw [hparse] at hn
            cases hn
            obtain ⟨rfl, -⟩ := eq_of_parseU32 hm hparse
            refine ⟨_, digits, hwritten rfl, ⟨by decide, fun _ => ⟨_, hparse, hm⟩, ?_⟩, ?_⟩
            · rintro (heq | heq) <;> exact absurd heq (by decide)
            · rw [partsOf_max, render, sentPair, sent_max, hparse, Option.getD_some]
              rfl
        · cases hn
    split at harg
    · next hmax hname =>
      subst hname
      cases hx : expectF64Lit right with
      | error e =>
        rw [hx] at harg
        cases harg
      | ok x =>
        rw [hx] at harg
        cases harg
        obtain ⟨digits, hdigits, rfl⟩ := eq_of_expectF64Lit hright hx
        refine ⟨_, digits, hwritten hdigits,
          ⟨by decide, fun heq => absurd heq (by decide), ?_⟩, ?_⟩
        · rintro (heq | heq) <;> exact absurd heq (by decide)
        · rw [partsOf_other hmax]
          rfl
    split at harg
    · next hmax hcoefficient hname =>
      subst hname
      cases hms : secsLitToMs right with
      | error e =>
        rw [hms] at harg
        cases harg
      | ok ms =>
        rw [hms] at harg
        cases harg
        obtain ⟨digits, hdigits, haccepted, hparts⟩ :=
          accepted_of_secsLitToMs hright hms (.inl rfl) pairs
        exact ⟨_, digits, hwritten hdigits, haccepted, hparts.symm⟩
    split at harg
    · next hmax hcoefficient hinitial hname =>
      subst hname
      cases hms : secsLitToMs right with
      | error e =>
        rw [hms] at harg
        cases harg
      | ok ms =>
        rw [hms] at harg
        cases harg
        obtain ⟨digits, hdigits, haccepted, hparts⟩ :=
          accepted_of_secsLitToMs hright hms (.inr rfl) pairs
        exact ⟨_, digits, hwritten hdigits, haccepted, hparts.symm⟩
    · cases harg

/-- The arguments add what they write. -/
theorem foldlM_retriesArg {std : Std} {args : List Expr} {acc : Option Text × List Text}
    (hlexed : ∀ arg ∈ args, ∀ a ∈ assigned arg, a.2.Lexed)
    (hargs : args.foldlM (retriesArg std) (none, []) = .ok acc) :
    acc = partsOf (written args) ∧ ∀ pair ∈ written args, Accepted pair.1 pair.2 := by
  induction args using List.reverseRecOn generalizing acc with
  | nil =>
    cases hargs
    refine ⟨rfl, fun pair hpair => ?_⟩
    cases hpair
  | append_singleton args arg ih =>
    rw [List.foldlM_append] at hargs
    cases hfirst : args.foldlM (retriesArg std) (none, []) with
    | error e =>
      rw [hfirst] at hargs
      cases hargs
    | ok first =>
      obtain ⟨rfl, haccepted⟩ := ih (fun a ha => hlexed a (List.mem_append_left _ ha)) hfirst
      rw [hfirst] at hargs
      have hlast : (retriesArg std (partsOf (written args)) arg).bind pure = .ok acc := hargs
      cases harg : retriesArg std (partsOf (written args)) arg with
      | error e =>
        rw [harg] at hlast
        cases hlast
      | ok last =>
        rw [harg] at hlast
        cases hlast
        obtain ⟨name, digits, hpair, hnew, rfl⟩ :=
          retriesArg_partsOf (hlexed arg (by simp)) harg
        have happend : written (args ++ [arg]) = written args ++ [(name, digits)] := by
          simp [written, hpair]
        rw [happend]
        refine ⟨rfl, fun pair hmem => ?_⟩
        rcases List.mem_append.mp hmem with hmem | hmem
        · exact haccepted pair hmem
        · obtain rfl := List.mem_singleton.mp hmem
          exact hnew

/-! ### What the SDK reads -/

/-- The keys of the spec. -/
def retriesKeys : List Text :=
  ["max".toList, "backoff".toList, "initial_ms".toList, "max_ms".toList]

/-- The component of the retries that were read so far. -/
def retriesGet (acc : RetriesSoFar) (key : Text) : Component :=
  if key = "max".toList then (acc.retries.map fun n : ℕ => Component.whole n).getD .absent
  else if key = "backoff".toList then .float acc.backoffCoefficient
  else if key = "initial_ms".toList then .whole acc.initialDelayMs
  else if key = "max_ms".toList then .whole acc.maxDelayMs
  else .absent

/-- How the value of a key is read. -/
def retriesRead (std : Std) (key value : Text) : Option Component :=
  if key = "backoff".toList then (std.readF32 (trim value)).map .float
  else (parseU32 (trim value)).map fun n : ℕ => .whole n

/-- The reader of the SDK fills in the components of retries. -/
theorem fills_retries (std : Std) (spec : Text) :
    Fills (· ∈ retriesKeys) retriesGet (retriesRead std) fun acc pair =>
      Sdk.retriesComponent std spec acc (render pair) := by
  have hcases : ∀ {key : Text}, key ∈ retriesKeys → '=' ∉ key ∧ trim key = key := by decide
  constructor
  · intro acc key value c hkey hread
    obtain ⟨hsplit, htrim⟩ := hcases hkey
    unfold Sdk.retriesComponent render
    rw [splitOnce_append hsplit]
    dsimp only
    rw [htrim]
    simp only [retriesKeys, List.mem_cons, List.not_mem_nil, or_false] at hkey
    rcases hkey with rfl | rfl | rfl | rfl
    all_goals
      obtain ⟨n, hn, rfl⟩ := Option.map_eq_some_iff.mp hread
      repeat rw [if_neg (by decide)]
      rw [if_pos rfl, hn]
      refine ⟨_, rfl, ?_, ?_⟩
      · rfl
      · intro other _ hother
        unfold retriesGet
        rw [if_neg hother, if_neg hother]
  · intro acc key value hkey hread
    obtain ⟨hsplit, htrim⟩ := hcases hkey
    unfold Sdk.retriesComponent render
    rw [splitOnce_append hsplit]
    dsimp only
    rw [htrim]
    simp only [retriesKeys, List.mem_cons, List.not_mem_nil, or_false] at hkey
    rcases hkey with rfl | rfl | rfl | rfl
    all_goals
      have hnone := Option.map_eq_none_iff.mp hread
      repeat rw [if_neg (by decide)]
      rw [if_pos rfl, hnone]
      exact ⟨_, rfl⟩

/-- The characters of a displayed double neither separate components nor are they trimmed. -/
theorem clean_display (x : F64) : ',' ∉ x.display ∧ trim x.display = x.display := by
  cases hvalue : x.value with
  | some y => exact clean_of_parseDecimal (parseDecimal_display hvalue)
  | none =>
    have hdisplay : x.display = "inf".toList := by
      unfold F64.display
      rw [hvalue]
    rw [hdisplay]
    decide

/-- A displayed double is read as a single. -/
theorem exists_parseF32_display (x : F64) : ∃ b, parseF32 x.display = some b := by
  cases hvalue : x.value with
  | some y =>
    obtain ⟨b, hb, -⟩ := exists_parseF32 (parseDecimal_display hvalue)
    exact ⟨b, hb⟩
  | none =>
    have hdisplay : x.display = "inf".toList := by
      unfold F64.display
      rw [hvalue]
    exact ⟨0x7F800000, by rw [hdisplay]; decide +kernel⟩

/-- What is sent is clean. -/
theorem clean_sent (name digits : Text) :
    ',' ∉ sent name digits ∧ trim (sent name digits) = sent name digits := by
  have hnat : ∀ n : ℕ, ',' ∉ Nat.toDigits 10 n ∧ trim (Nat.toDigits 10 n) = Nat.toDigits 10 n :=
    fun n => clean_of_parseDecimal (parseDecimal_of_digitsValue (digitsValue_toDigits n))
  unfold sent
  split
  · exact hnat _
  split
  · exact clean_display _
  · exact hnat _

/-- What is sent for an accepted number is read. -/
theorem isSome_retriesRead {std : Std} (hread : std.readF32 = parseF32) {pair : Text × Text}
    (haccepted : Accepted pair.1 pair.2) :
    (retriesRead std (sentPair pair).1 (sentPair pair).2).isSome := by
  obtain ⟨name, digits⟩ := pair
  obtain ⟨hname, hcount, -⟩ := haccepted
  dsimp only [sentPair] at *
  have htrim := (clean_sent name digits).2
  have hwhole : ∀ n < 2 ^ 32, ((parseU32 (trim (Nat.toDigits 10 n))).map
      fun n : ℕ => Component.whole n).isSome := by
    intro n hn
    rw [parseU32_toDigits hn]
    rfl
  simp only [retriesNames, List.mem_cons, List.not_mem_nil, or_false] at hname
  rcases hname with rfl | rfl | rfl | rfl
  · obtain ⟨n, hn, hdigits⟩ := hcount rfl
    have hsmall := (eq_of_parseU32 hdigits hn).2
    rw [sent_max, hn]
    exact hwhole n hsmall
  · obtain ⟨b, hb⟩ := exists_parseF32_display (.ofRat (numeral digits))
    change ((std.readF32 (trim (F64.ofRat (numeral digits)).display)).map _).isSome
    rw [hread, (clean_display _).2, hb]
    rfl
  · exact hwhole _ (F64.toU32_lt _)
  · exact hwhole _ (F64.toU32_lt _)

/-- The pairs of the spec, in the order in which they are sent. -/
def sentPairs (count : Text) (pairs : List (Text × Text)) : List (Text × Text) :=
  sentPair ("max_retries".toList, count) ::
    (pairs.filter fun pair => pair.1 ≠ "max_retries".toList).map sentPair

/-- Keys are different for different names. -/
theorem retriesKey_injective {name name' : Text} (hname : name ∈ retriesNames)
    (hname' : name' ∈ retriesNames) (hkey : retriesKey name = retriesKey name') :
    name = name' := by
  have hall : ∀ a ∈ retriesNames, ∀ b ∈ retriesNames, retriesKey a = retriesKey b → a = b := by
    decide
  exact hall name hname name' hname' hkey

/-- What is last sent under a key is what was last written under its name. -/
theorem lastGiven_sentPairs {count : Text} {pairs : List (Text × Text)}
    (hcount : lastGiven "max_retries".toList pairs = some count)
    (hnames : ∀ pair ∈ pairs, pair.1 ∈ retriesNames) {name : Text} (hname : name ∈ retriesNames) :
    lastGiven (retriesKey name) (sentPairs count pairs) =
      (lastGiven name pairs).map (sent name) := by
  have hkept : lastGiven (retriesKey name)
      ((pairs.filter fun pair => pair.1 ≠ "max_retries".toList).map sentPair) =
        (lastGiven name (pairs.filter fun pair => pair.1 ≠ "max_retries".toList)).map
          (sent name) := by
    refine lastGiven_map (fun pair hpair => ?_) fun pair _ heq => ?_
    · have hmem := hnames pair (List.mem_of_mem_filter hpair)
      exact ⟨retriesKey_injective hmem hname, fun heq => congrArg retriesKey heq⟩
    · rw [sentPair, heq]
  rw [sentPairs, lastGiven_cons, hkept, lastGiven_filter]
  by_cases hmax : name = "max_retries".toList
  · subst hmax
    have hkey : (sentPair ("max_retries".toList, count)).1 = retriesKey "max_retries".toList := rfl
    rw [if_pos rfl, Option.map_none, Option.none_or, if_pos hkey, hcount]
    rfl
  · have hkey : (sentPair ("max_retries".toList, count)).1 ≠ retriesKey name := fun heq =>
      hmax (retriesKey_injective hname (by decide) heq.symm)
    rw [if_neg hmax, if_neg hkey, Option.or_none]

/-- The delays, with their defaults. -/
def delays : List (Text × (FunctionRetryPolicy → ℕ) × ℕ) :=
  [("initial_delay".toList, FunctionRetryPolicy.initialDelayMs, retryDefaultInitialDelayMs),
    ("max_delay".toList, FunctionRetryPolicy.maxDelayMs, retryDefaultMaxDelayMs)]

/-- A policy has what was last written for every component. -/
structure RetriesReads (pairs : List (Text × Text)) (policy : FunctionRetryPolicy) : Prop where
  /-- The retry count. -/
  retries : ∀ digits ∈ lastGiven "max_retries".toList pairs, (policy.retries : ℚ) = numeral digits
  /-- The coefficient. -/
  backoff : (lastGiven "backoff_coefficient".toList pairs = none →
      policy.backoffCoefficient = retryDefaultBackoffCoefficient) ∧
    ∀ digits ∈ lastGiven "backoff_coefficient".toList pairs,
      parseF32 (F64.ofRat (numeral digits)).display = some policy.backoffCoefficient
  /-- The delays. -/
  delay : ∀ d ∈ delays, (lastGiven d.1 pairs = none → d.2.1 policy = d.2.2) ∧
    ∀ digits ∈ lastGiven d.1 pairs,
      d.2.1 policy = ((F64.ofRat (numeral digits)).times 1000).toU32

/-- Every pair that is sent is that of an accepted number. -/
theorem exists_of_mem_sentPairs {count : Text} {pairs : List (Text × Text)}
    (hcount : Accepted "max_retries".toList count)
    (haccepted : ∀ pair ∈ pairs, Accepted pair.1 pair.2) {pair : Text × Text}
    (hpair : pair ∈ sentPairs count pairs) : ∃ p, Accepted p.1 p.2 ∧ pair = sentPair p := by
  rcases List.mem_cons.mp hpair with rfl | hmem
  · exact ⟨_, hcount, rfl⟩
  · obtain ⟨p, hp, rfl⟩ := List.mem_map.mp hmem
    exact ⟨p, haccepted p (List.mem_of_mem_filter hp), rfl⟩

/-- The keys are read, and are no separators. -/
theorem retriesKey_mem {name : Text} (hname : name ∈ retriesNames) :
    retriesKey name ∈ retriesKeys ∧ ',' ∉ retriesKey name := by
  have hall : ∀ name ∈ retriesNames, retriesKey name ∈ retriesKeys ∧ ',' ∉ retriesKey name := by
    decide
  exact hall name hname

/-- What is sent separates into its parts. -/
theorem clean_render_sentPair {p : Text × Text} (hname : p.1 ∈ retriesNames) :
    render (sentPair p) ≠ [] ∧ ',' ∉ render (sentPair p) := by
  refine ⟨by simp [render], fun hcomma => ?_⟩
  rcases List.mem_append.mp hcomma with hmem | hmem
  · exact (retriesKey_mem hname).2 hmem
  · rcases List.mem_cons.mp hmem with heq | hmem
    · exact absurd heq (by decide)
    · exact (clean_sent p.1 p.2).1 hmem

/-- The retry count is read as it was accepted. -/
theorem retriesRead_max {std : Std} {count : Text} {n : ℕ} (hn : parseU32 count = some n)
    (hsmall : n < 2 ^ 32) :
    retriesRead std "max".toList (sent "max_retries".toList count) = some (.whole n) := by
  rw [sent_max, hn]
  change (parseU32 (trim (Nat.toDigits 10 n))).map _ = _
  rw [parseU32_toDigits hsmall]
  rfl

/-- The coefficient is read as a single. -/
theorem retriesRead_backoff {std : Std} (hread : std.readF32 = parseF32) {digits : Text} {b : F32}
    (hb : parseF32 (F64.ofRat (numeral digits)).display = some b) :
    retriesRead std "backoff".toList (sent "backoff_coefficient".toList digits) =
      some (.float b) := by
  change (std.readF32 (trim (F64.ofRat (numeral digits)).display)).map _ = _
  rw [hread, (clean_display _).2, hb]
  rfl

/-- A delay is read as it was sent. -/
theorem retriesRead_ms {std : Std} {key : Text} (hkey : key ≠ "backoff".toList) {n : ℕ}
    (hsmall : n < 2 ^ 32) : retriesRead std key (Nat.toDigits 10 n) = some (.whole n) := by
  rw [retriesRead, if_neg hkey, parseU32_toDigits hsmall]
  rfl

/-- The components before any is read. -/
def retriesStart : RetriesSoFar :=
  ⟨none, retryDefaultBackoffCoefficient, retryDefaultInitialDelayMs, retryDefaultMaxDelayMs⟩

/-- Every component that was read is what was last written, or the default. -/
def GivenTo (std : Std) (pairs : List (Text × Text)) (acc : RetriesSoFar) : Prop :=
  ∀ name ∈ retriesNames, retriesGet acc (retriesKey name) =
    (((lastGiven name pairs).map (sent name)).bind (retriesRead std (retriesKey name))).getD
      (retriesGet retriesStart (retriesKey name))

/-- The retry count that was read. -/
theorem GivenTo.retries {std : Std} {pairs : List (Text × Text)} {acc : RetriesSoFar}
    (hgiven : GivenTo std pairs acc) {count : Text}
    (hcount : lastGiven "max_retries".toList pairs = some count) {n : ℕ}
    (hn : parseU32 count = some n) (hsmall : n < 2 ^ 32) : acc.retries = some n := by
  have hcomponent := hgiven "max_retries".toList (by decide)
  rw [hcount, Option.map_some, Option.bind_some,
    show retriesKey "max_retries".toList = "max".toList from rfl,
    retriesRead_max hn hsmall] at hcomponent
  change (acc.retries.map _).getD _ = Component.whole n at hcomponent
  cases hacc : acc.retries with
  | none =>
    rw [hacc] at hcomponent
    cases hcomponent
  | some m =>
    rw [hacc] at hcomponent
    have hcast := Component.whole.inj hcomponent
    rw [Int.ofNat_inj.mp hcast]

/-- The coefficient that was read. -/
theorem GivenTo.backoff {std : Std} (hread : std.readF32 = parseF32)
    {pairs : List (Text × Text)} {acc : RetriesSoFar} (hgiven : GivenTo std pairs acc) :
    (lastGiven "backoff_coefficient".toList pairs = none →
      acc.backoffCoefficient = retryDefaultBackoffCoefficient) ∧
    ∀ digits ∈ lastGiven "backoff_coefficient".toList pairs,
      parseF32 (F64.ofRat (numeral digits)).display = some acc.backoffCoefficient := by
  have hcomponent := hgiven "backoff_coefficient".toList (by decide)
  change Component.float acc.backoffCoefficient = _ at hcomponent
  refine ⟨fun hnone => ?_, fun digits hlast => ?_⟩
  · rw [hnone] at hcomponent
    exact Component.float.inj hcomponent
  · obtain ⟨b, hb⟩ := exists_parseF32_display (.ofRat (numeral digits))
    rw [Option.mem_def.mp hlast, Option.map_some, Option.bind_some,
      show retriesKey "backoff_coefficient".toList = "backoff".toList from rfl,
      retriesRead_backoff hread hb] at hcomponent
    rw [Component.float.inj hcomponent]
    exact hb

/-- A delay that was read, where `field` is the component under its key. -/
theorem GivenTo.delay {std : Std} {pairs : List (Text × Text)} {acc : RetriesSoFar}
    (hgiven : GivenTo std pairs acc) {name : Text}
    (hname : name = "initial_delay".toList ∨ name = "max_delay".toList)
    (field : RetriesSoFar → ℕ)
    (hfield : ∀ acc, retriesGet acc (retriesKey name) = .whole (field acc)) :
    (lastGiven name pairs = none → field acc = field retriesStart) ∧
      ∀ digits ∈ lastGiven name pairs,
        field acc = ((F64.ofRat (numeral digits)).times 1000).toU32 := by
  have hnames : name ∈ retriesNames ∧ retriesKey name ≠ "backoff".toList ∧
      name ≠ "max_retries".toList ∧ name ≠ "backoff_coefficient".toList := by
    rcases hname with rfl | rfl <;> decide
  obtain ⟨hmem, hkey, hmax, hcoefficient⟩ := hnames
  have hcomponent := hgiven name hmem
  rw [hfield, hfield] at hcomponent
  refine ⟨fun hnone => ?_, fun digits hlast => ?_⟩
  · rw [hnone] at hcomponent
    exact Int.ofNat_inj.mp (Component.whole.inj hcomponent)
  · rw [Option.mem_def.mp hlast, Option.map_some, Option.bind_some, sent, if_neg hmax,
      if_neg hcoefficient, retriesRead_ms hkey (F64.toU32_lt _)] at hcomponent
    exact Int.ofNat_inj.mp (Component.whole.inj hcomponent)

/-- The SDK reads the spec of retries. -/
theorem exists_parseRetriesSpec {std : Std} (hread : std.readF32 = parseF32) {count : Text}
    {pairs : List (Text × Text)} (hcount : lastGiven "max_retries".toList pairs = some count)
    (haccepted : ∀ pair ∈ pairs, Accepted pair.1 pair.2) :
    ∃ policy, parseRetriesSpec std
        ("retries:".toList ++ [','].intercalate ((sentPairs count pairs).map render)) =
      .ok policy ∧ RetriesReads pairs policy := by
  have hcountAccepted : Accepted "max_retries".toList count :=
    haccepted _ (mem_of_lastGiven hcount)
  have hpairs {pair : Text × Text} (hpair : pair ∈ sentPairs count pairs) :=
    exists_of_mem_sentPairs hcountAccepted haccepted hpair
  have hclean : ∀ part ∈ (sentPairs count pairs).map render, part ≠ [] ∧ ',' ∉ part := by
    intro part hpart
    obtain ⟨pair, hpair, rfl⟩ := List.mem_map.mp hpart
    obtain ⟨p, haccepted, rfl⟩ := hpairs hpair
    exact clean_render_sentPair haccepted.1
  generalize hspec : "retries:".toList ++ [','].intercalate ((sentPairs count pairs).map render) =
    spec
  have hstart : "retries:".toList.isPrefixOf? spec =
      some ([','].intercalate ((sentPairs count pairs).map render)) := by
    rw [← hspec]
    rfl
  obtain ⟨acc, hfold, hget⟩ := (fills_retries std spec).exists_filled retriesStart
    fun pair hpair => by
      obtain ⟨p, haccepted, rfl⟩ := hpairs hpair
      exact ⟨(retriesKey_mem haccepted.1).1, isSome_retriesRead hread haccepted⟩
  have hgiven : GivenTo std pairs acc := by
    intro name hname
    rw [hget _ (retriesKey_mem hname).1,
      lastGiven_sentPairs hcount (fun pair hpair => (haccepted pair hpair).1) hname]
  obtain ⟨n, hn, hdigits⟩ := hcountAccepted.2.1 rfl
  have hretries : acc.retries = some n :=
    hgiven.retries hcount hn (eq_of_parseU32 hdigits hn).2
  refine ⟨⟨acc.backoffCoefficient, acc.initialDelayMs, acc.maxDelayMs, n⟩, ?_, ?_,
    hgiven.backoff hread, fun d hd => ?_⟩
  · unfold parseRetriesSpec
    rw [hstart]
    dsimp only
    rw [components_intercalate hclean, List.foldlM_map]
    change (List.foldlM _ retriesStart _ >>= _) = _
    rw [hfold]
    simp only [bind, Except.bind, hretries]
    rfl
  · intro digits hlast
    obtain rfl := Option.some.inj (hcount.symm.trans hlast)
    rw [numeral_of_digitsValue hdigits]
  · simp only [delays, List.mem_cons, List.not_mem_nil, or_false] at hd
    rcases hd with rfl | rfl
    · exact hgiven.delay (.inl rfl) RetriesSoFar.initialDelayMs fun _ => rfl
    · exact hgiven.delay (.inr rfl) RetriesSoFar.maxDelayMs fun _ => rfl

/-! ### Agreement -/

/-- Milliseconds: `int(1000 * secs)` in double precision, without a bound. -/
def milliseconds (secs : ℚ) : ℕ := ⌊double.round (double.round secs * 1000)⌋₊

/-- A policy has every component as it is written, and the defaults of the others. -/
structure RetriesCarries (args : List Expr) (policy : FunctionRetryPolicy) : Prop where
  /-- The retry count. -/
  retries : ∀ v ∈ given "max_retries".toList args, (policy.retries : ℚ) = v
  /-- The coefficient, which is written as a double. -/
  backoff : (∀ v ∈ given "backoff_coefficient".toList args,
      Carries policy.backoffCoefficient (double.round v)) ∧
    (given "backoff_coefficient".toList args = [] →
      policy.backoffCoefficient = retryDefaultBackoffCoefficient)
  /-- The delays. -/
  delay : ∀ d ∈ delays, (∀ v ∈ given d.1 args, d.2.1 policy = milliseconds v) ∧
    (given d.1 args = [] → d.2.1 policy = d.2.2)

/-- The arguments of retries that arrive: the coefficient is finite in single precision, delays
fit 32 bits of milliseconds, and what is written more than once agrees with what is written
last. -/
structure RetriesFits (args : List Expr) : Prop where
  /-- The retry count. -/
  retries : ∀ v ∈ given "max_retries".toList args,
    ∀ w ∈ (given "max_retries".toList args).getLast?, v = w
  /-- The coefficient. -/
  backoff : ∀ v ∈ given "backoff_coefficient".toList args,
    ∀ w ∈ (given "backoff_coefficient".toList args).getLast?,
      double.round w ≤ single.overflowBound ∧
        single.Nearest (double.round v) (single.round (double.shortestDecimal 17 (double.round w)))
  /-- The delays. -/
  delay : ∀ d ∈ delays, ∀ v ∈ given d.1 args, ∀ w ∈ (given d.1 args).getLast?,
    double.round w * 1000 < 2 ^ 32 ∧ milliseconds v = milliseconds w

/-- A displayed double is carried as a single if it is not too large. -/
theorem carries_display_iff {w v : ℚ} {b : F32} (hb : parseF32 (F64.ofRat w).display = some b) :
    Carries b v ↔ double.round w ≤ single.overflowBound ∧
      single.Nearest v (single.round (double.shortestDecimal 17 (double.round w))) := by
  by_cases hfinite : double.round w < 2 ^ double.maxExp
  · have hvalue := F64.value_ofRat hfinite
    rw [carries_iff (parseDecimal_display hvalue) hb, shortestDecimal_lt_iff hvalue]
  · have hvalue := F64.value_ofRat_eq_none hfinite
    have hinf : (F64.ofRat w).display = "inf".toList := by
      unfold F64.display
      rw [hvalue]
    have hbits : parseF32 "inf".toList = some 0x7F800000 := by decide +kernel
    rw [hinf, hbits] at hb
    obtain rfl := Option.some.inj hb
    have hnone : valueF32 0x7F800000 = none := by decide +kernel
    have hbound : single.overflowBound < 2 ^ double.maxExp := by decide +kernel
    refine iff_of_false ?_ ?_
    · rintro ⟨y, hy, -⟩
      rw [hnone] at hy
      cases hy
    · rintro ⟨hle, -⟩
      exact hfinite (hle.trans_lt hbound)

/-- **Milliseconds fit 32 bits exactly if a thousand times the seconds does.** -/
theorem milliseconds_lt_iff (secs : ℚ) :
    milliseconds secs < 2 ^ 32 ↔ double.round secs * 1000 < 2 ^ 32 := by
  have hheld := double.holds_round secs
  have hnonneg := hheld.nonneg
  have hfloor : milliseconds secs < 2 ^ 32 ↔ double.round (double.round secs * 1000) < 2 ^ 32 := by
    unfold milliseconds
    rw [Nat.floor_lt (double.holds_round _).nonneg]
    norm_num
  rw [hfloor]
  constructor
  · intro hlt
    by_contra hge
    have hpower : double.round (2 ^ 32) = 2 ^ 32 := by decide +kernel
    have hmono := double.round_mono (by norm_num) (not_lt.mp hge)
    rw [hpower] at hmono
    linarith
  · intro hlt
    -- the largest double below the bound, and the next one
    have hneighbours := double.not_between
      (x := 4611686018427387 / 2 ^ 30) (by norm_num) hheld
    have hunit : double.unitExp (4611686018427387 / 2 ^ 30) = -30 := by decide +kernel
    have hinteger : ⌊(4611686018427387 / 2 ^ 30 : ℚ) / 2 ^ (-30 : ℤ)⌋₊ = 4611686018427387 := by
      decide +kernel
    rw [hunit, hinteger] at hneighbours
    have hsmall : double.round secs ≤ 4611686018427387 / 2 ^ 30 := by
      rcases hneighbours with hle | hge
      · refine hle.trans (le_of_eq ?_)
        norm_num
      · norm_num at hge
        linarith
    have hlargest : double.round (4611686018427387 / 2 ^ 30 * 1000) < 2 ^ 32 := by decide +kernel
    exact (double.round_mono (by positivity) (by linarith)).trans_lt hlargest

/-- **Retries arrive as they are written exactly if their numbers fit.** -/
theorem retries_agrees_iff {std std' : Std} (hread : std.readF32 = parseF32) {call : ExprCall}
    (hlexed : call.Lexed) {spec : Text} (hspec : parseRetriesToSpec std' (some call) = .ok spec) :
    (∃ policy, parseRetriesSpec std spec = .ok policy ∧ RetriesCarries call.args policy) ↔
      RetriesFits call.args := by
  -- the spec is that of the pairs that are written
  obtain ⟨count, hcount, haccepted, rfl⟩ : ∃ count,
      lastGiven "max_retries".toList (written call.args) = some count ∧
      (∀ pair ∈ written call.args, Accepted pair.1 pair.2) ∧
      spec = "retries:".toList ++
        [','].intercalate ((sentPairs count (written call.args)).map render) := by
    unfold parseRetriesToSpec at hspec
    dsimp only at hspec
    split at hspec
    · split at hspec
      · cases hspec
      cases hfold : call.args.foldlM (retriesArg std') (none, []) with
      | error e =>
        rw [hfold] at hspec
        cases hspec
      | ok acc =>
        obtain ⟨rfl, haccepted⟩ := foldlM_retriesArg hlexed hfold
        rw [hfold] at hspec
        cases hlast : lastGiven "max_retries".toList (written call.args) with
        | none =>
          simp only [bind, Except.bind, partsOf, hlast, Option.map] at hspec
          cases hspec
        | some count =>
          simp only [bind, Except.bind, partsOf, hlast, Option.map] at hspec
          refine ⟨count, rfl, haccepted, ?_⟩
          rw [sentPairs, List.map_cons, List.map_map]
          exact (Except.ok.inj hspec).symm
    · cases hspec
  obtain ⟨policy, hpolicy, hreads⟩ := exists_parseRetriesSpec hread hcount haccepted
  constructor
  · rintro ⟨policy', hpolicy', hcarries⟩
    obtain rfl := Except.ok.inj (hpolicy.symm.trans hpolicy')
    refine ⟨fun v hv w hw => ?_, fun v hv w hw => ?_, fun d hd v hv w hw => ?_⟩
    · rw [← hcarries.retries v hv, ← hcarries.retries w (List.mem_of_getLast? hw)]
    · obtain ⟨digits, hdigits, hlast⟩ := exists_last hv
      obtain rfl := Option.some.inj (hlast.symm.trans hw)
      exact (carries_display_iff (hreads.backoff.2 digits hdigits)).mp (hcarries.backoff.1 v hv)
    · obtain ⟨digits, hdigits, hlast⟩ := exists_last hv
      obtain rfl := Option.some.inj (hlast.symm.trans hw)
      have hvalue := (hcarries.delay d hd).1 _ (List.mem_of_getLast? hw)
      have hsmall : d.2.1 policy < 2 ^ 32 := by
        rw [(hreads.delay d hd).2 digits hdigits]
        exact F64.toU32_lt _
      refine ⟨(milliseconds_lt_iff _).mp (hvalue ▸ hsmall), ?_⟩
      rw [← (hcarries.delay d hd).1 v hv, hvalue]
  · intro hfits
    refine ⟨policy, hpolicy, fun v hv => ?_, ⟨fun v hv => ?_, fun hnil => ?_⟩,
      fun d hd => ⟨fun v hv => ?_, fun hnil => ?_⟩⟩
    · obtain ⟨digits, hdigits, hlast⟩ := exists_last hv
      rw [hreads.retries digits hdigits]
      exact (hfits.retries v hv _ hlast).symm
    · obtain ⟨digits, hdigits, hlast⟩ := exists_last hv
      exact (carries_display_iff (hreads.backoff.2 digits hdigits)).mpr
        (hfits.backoff v hv _ hlast)
    · exact hreads.backoff.1 (lastGiven_eq_none_iff.mpr hnil)
    · obtain ⟨digits, hdigits, hlast⟩ := exists_last hv
      obtain ⟨hsmall, hagree⟩ := hfits.delay d hd v hv _ hlast
      have hname : d.1 = "initial_delay".toList ∨ d.1 = "max_delay".toList := by
        simp only [delays, List.mem_cons, List.not_mem_nil, or_false] at hd
        rcases hd with rfl | rfl
        · exact Or.inl rfl
        · exact Or.inr rfl
      have hfinite := (haccepted _ (mem_of_lastGiven hdigits)).2.2 hname
      have hbound := (milliseconds_lt_iff (numeral digits)).mpr hsmall
      have hsent : ((F64.ofRat (numeral digits)).times 1000).toU32 =
          min (milliseconds (numeral digits)) (2 ^ 32 - 1) := by
        unfold F64.times
        rw [F64.value_ofRat hfinite]
        exact F64.toU32_ofRat _
      rw [(hreads.delay d hd).2 digits hdigits, hsent, hagree]
      omega
    · exact (hreads.delay d hd).1 (lastGiven_eq_none_iff.mpr hnil)

/-- The kind of a call. -/
def ExprCall.kind (call : ExprCall) : Text :=
  match call.func with
  | .path p => p.lastIdent
  | _ => []

/-- A schedule is what the arguments say. -/
def ScheduleCarries (call : ExprCall) (schedule : Schedule) : Prop :=
  if call.kind = "Cron".toList then CronCarries call.args schedule
  else ∃ p, schedule = .period p ∧ PeriodCarries call.args p

/-- **Schedules and retries that the macros accept arrive as they are written**, exactly if the
numbers of a period and of retries fit the fields of the message. -/
theorem specs_agree_iff (std std' : Std) (hread : std.readF32 = parseF32) (call : ExprCall)
    (hlexed : call.Lexed) (spec : Text) :
    (parseScheduleToSpec std' (some call) = .ok spec →
      ((∃ schedule, parseSchedule std spec = .ok schedule ∧ ScheduleCarries call schedule) ↔
        (call.kind ≠ "Cron".toList → PeriodFits call.args))) ∧
    (parseRetriesToSpec std' (some call) = .ok spec →
      ((∃ policy, parseRetriesSpec std spec = .ok policy ∧ RetriesCarries call.args policy) ↔
        RetriesFits call.args)) := by
  refine ⟨fun hspec => ?_, retries_agrees_iff hread hlexed⟩
  unfold parseScheduleToSpec at hspec
  dsimp only at hspec
  unfold ScheduleCarries ExprCall.kind
  cases hfunc : call.func with
  | path p =>
    rw [hfunc] at hspec
    dsimp only at hspec ⊢
    by_cases hcron : p.lastIdent = "Cron".toList
    · rw [if_pos hcron] at hspec
      simp only [if_pos hcron]
      obtain ⟨schedule, hschedule, hcarries⟩ :
          ∃ schedule, parseSchedule std spec = .ok schedule ∧ CronCarries call.args schedule :=
        cron_agrees hspec
      exact iff_of_true ⟨schedule, hschedule, hcarries⟩ fun hne => absurd hcron hne
    · rw [if_neg hcron] at hspec
      simp only [if_neg hcron]
      split at hspec
      · rw [← period_agrees_iff hread hlexed hspec]
        constructor
        · rintro ⟨_, hschedule, p, rfl, hcarries⟩ _
          exact ⟨p, hschedule, hcarries⟩
        · intro hperiod
          obtain ⟨p, hschedule, hcarries⟩ := hperiod hcron
          exact ⟨_, hschedule, p, rfl, hcarries⟩
      · cases hspec
  | _ =>
    rw [hfunc] at hspec
    cases hspec

/-- `Std` with the floats of Rust. -/
def plainStd : Std := ⟨parseF32, id, id⟩

/-- A call `kind(name = digits)`. -/
def integerCall (kind name digits : Text) : ExprCall :=
  ⟨identPath kind, [.assign (identPath name) (.lit (.int digits))]⟩

/-- A call `Cron(cron_string, timezone)`. -/
def cronCall (cronString timezone : Text) : ExprCall :=
  ⟨identPath "Cron".toList, [.lit (.str cronString), .lit (.str timezone)]⟩

/-- Calls of one number have valid literals. -/
theorem lexed_integerCall {kind name digits : Text} (h : (Expr.lit (.int digits)).Lexed) :
    (integerCall kind name digits).Lexed := by
  intro arg harg a ha
  obtain rfl := List.mem_singleton.mp harg
  cases ha
  exact h

/-- The results for `Retries(max_retries = 5)`, `Period(hours = 5)` and
`Cron("0 9 * * 1", "Asia/Tokyo")`. -/
theorem specs_agree_five :
    ((∃ policy, parseRetriesSpec plainStd "retries:max=5".toList = .ok policy ∧
      RetriesCarries (integerCall "Retries".toList "max_retries".toList "5".toList).args policy) ↔
    RetriesFits (integerCall "Retries".toList "max_retries".toList "5".toList).args) ∧
    ((∃ schedule, parseSchedule plainStd "period:hours=5".toList = .ok schedule ∧
      ScheduleCarries (integerCall "Period".toList "hours".toList "5".toList) schedule) ↔
    PeriodFits (integerCall "Period".toList "hours".toList "5".toList).args) ∧
    ∃ schedule, parseSchedule plainStd "cron:Asia/Tokyo:0 9 * * 1".toList = .ok schedule ∧
      ScheduleCarries (cronCall "0 9 * * 1".toList "Asia/Tokyo".toList) schedule := by
  refine ⟨(specs_agree_iff plainStd plainStd rfl
    (integerCall "Retries".toList "max_retries".toList "5".toList) (lexed_integerCall rfl)
    "retries:max=5".toList).2 rfl, ?_, ?_⟩
  · have hperiod := (specs_agree_iff plainStd plainStd rfl
      (integerCall "Period".toList "hours".toList "5".toList) (lexed_integerCall rfl)
      "period:hours=5".toList).1 rfl
    exact hperiod.trans ⟨fun h => h (by decide), fun h _ => h⟩
  · refine ((specs_agree_iff plainStd plainStd rfl
      (cronCall "0 9 * * 1".toList "Asia/Tokyo".toList) ?_
      "cron:Asia/Tokyo:0 9 * * 1".toList).1 rfl).mpr fun hne => absurd rfl hne
    intro arg harg a ha
    obtain rfl | rfl : arg = _ ∨ arg = _ := by simpa [cronCall] using harg
    · cases ha
    · cases ha

/-- `Period(days = 3000000000)` compiles, and its spec is refused by the SDK. -/
theorem large_period_is_refused :
    (integerCall "Period".toList "days".toList "3000000000".toList).Lexed ∧
    parseScheduleToSpec plainStd
      (some (integerCall "Period".toList "days".toList "3000000000".toList)) =
        .ok "period:days=3000000000".toList ∧
    ∀ schedule, parseSchedule plainStd "period:days=3000000000".toList ≠ .ok schedule := by
  refine ⟨?_, rfl, ?_⟩
  · intro arg harg a ha
    obtain rfl := List.mem_singleton.mp harg
    cases ha
    rfl
  · intro schedule hschedule
    cases hschedule

end ModalRust.Macros
