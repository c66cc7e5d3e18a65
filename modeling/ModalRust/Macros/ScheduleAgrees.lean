import ModalRust.Filling
import ModalRust.Floats
import ModalRust.Macros.Schedule

/-!
# Schedules from the attribute to the message

What the SDK reads from the spec of a schedule is compared with what the attribute says. A cron
schedule arrives as it is written. A period is read component by component, and arrives exactly
if its whole components fit 32 bits, its seconds are finite in single precision, and components
that are written more than once do not disagree.
-/

namespace ModalRust.Macros

open BinaryFormat ModalRust.Sdk

/-! ### What is written -/

/-- The digits of a numeric literal. -/
def Expr.digits : Expr → Option Text
  | .lit (.int digits) => some digits
  | .lit (.float digits) => some digits
  | _ => none

/-- A numeric literal is one that the compiler admits. -/
def Expr.Lexed : Expr → Prop
  | .lit (.int digits) => (digitsValue digits).isSome
  | .lit (.float digits) => (parseDecimal digits).isSome
  | _ => True

/-- Every argument is written with literals that the compiler admits. -/
def ExprCall.Lexed (call : ExprCall) : Prop := ∀ arg ∈ call.args, ∀ a ∈ assigned arg, a.2.Lexed

/-- The component that an argument writes, with its digits. -/
def writtenPair (arg : Expr) : Option (Text × Text) :=
  (assigned arg).bind fun a => a.2.digits.map fun digits => (a.1, digits)

/-- The components that are written, with their digits. -/
def written (args : List Expr) : List (Text × Text) := args.filterMap writtenPair

/-- The number that digits stand for. -/
def numeral (digits : Text) : ℚ := (parseDecimal digits).getD 0

/-- The numbers that are written for a component. -/
def given (name : Text) (args : List Expr) : List ℚ :=
  ((written args).filter fun pair => pair.1 = name).map fun pair => numeral pair.2

/-- A single carries a number if it is a nearest one to it. -/
def Carries (b : F32) (v : ℚ) : Prop := ∃ y, valueF32 b = some y ∧ single.Nearest v y

/-- The number that was last written for a component. -/
theorem getLast?_given (name : Text) (args : List Expr) :
    (given name args).getLast? = (lastGiven name (written args)).map numeral := by
  unfold given lastGiven
  rw [List.getLast?_map, Option.map_map]
  rfl

/-- Digits of a literal stand for a number. -/
theorem parseDecimal_of_lexed {e : Expr} {digits : Text} (hlexed : e.Lexed)
    (hdigits : e.digits = some digits) : parseDecimal digits = some (numeral digits) := by
  have hsome : (parseDecimal digits).isSome := by
    unfold Expr.digits at hdigits
    split at hdigits
    · next d =>
      cases hdigits
      obtain ⟨n, hn⟩ := Option.isSome_iff_exists.mp hlexed
      rw [parseDecimal_of_digitsValue hn]
      rfl
    · cases hdigits
      exact hlexed
    · cases hdigits
  obtain ⟨q, hq⟩ := Option.isSome_iff_exists.mp hsome
  rw [numeral, hq]
  rfl

/-- Every pair that is written stands for a number. -/
theorem parseDecimal_of_written {call : ExprCall} (hlexed : call.Lexed) {pair : Text × Text}
    (hpair : pair ∈ written call.args) : parseDecimal pair.2 = some (numeral pair.2) := by
  obtain ⟨arg, harg, hbind⟩ := List.mem_filterMap.mp hpair
  obtain ⟨a, ha, hmap⟩ := Option.bind_eq_some_iff.mp hbind
  obtain ⟨digits, hdigits, rfl⟩ := Option.map_eq_some_iff.mp hmap
  exact parseDecimal_of_lexed (hlexed arg harg a ha) hdigits

/-- The characters of a decimal number neither separate components nor are they trimmed. -/
theorem clean_of_parseDecimal {t : Text} {q : ℚ} (ht : parseDecimal t = some q) :
    ',' ∉ t ∧ trim t = t := by
  have hchars := isDecimal_of_parseDecimal ht
  refine ⟨fun hcomma => absurd (hchars _ hcomma) (by decide), trim_eq_self fun c hc => ?_⟩
  have hdecimal := hchars c hc
  simp only [isDecimal, Bool.or_eq_true, decide_eq_true_eq, Char.isDigit, Bool.and_eq_true]
    at hdecimal
  rcases hdecimal with ⟨hlow, hhigh⟩ | hmem
  · have hlow' : 48 ≤ c.toNat := hlow
    have hhigh' : c.toNat ≤ 57 := hhigh
    unfold isWhitespace
    simp only [Bool.or_eq_false_iff, Bool.and_eq_false_iff, beq_eq_false_iff_ne,
      decide_eq_false_iff_not]
    omega
  · simp only [List.mem_cons, List.not_mem_nil, or_false] at hmem
    rcases hmem with rfl | rfl | rfl | rfl | rfl <;> decide

/-! ### What the SDK reads -/

/-- A component of a message. -/
inductive Component
  /-- A whole number. -/
  | whole (n : ℤ)
  /-- A single. -/
  | float (b : F32)
  /-- There is no such component. -/
  | absent

/-- The component of a period. -/
def periodGet (p : Period) (name : Text) : Component :=
  if name = "years".toList then .whole p.years
  else if name = "months".toList then .whole p.months
  else if name = "weeks".toList then .whole p.weeks
  else if name = "days".toList then .whole p.days
  else if name = "hours".toList then .whole p.hours
  else if name = "minutes".toList then .whole p.minutes
  else if name = "seconds".toList then .float p.seconds
  else .absent

/-- How the value of a component of a period is read. -/
def periodRead (std : Std) (name value : Text) : Option Component :=
  if name = "seconds".toList then (std.readF32 (trim value)).map .float
  else (parseI32 (trim value)).map .whole

/-- How a pair is written into a spec. -/
def render (pair : Text × Text) : Text := pair.1 ++ '=' :: pair.2

/-- The reader of the SDK fills in the components of a period. -/
theorem fills_period (std : Std) (spec : Text) :
    Fills (· ∈ periodComponents) periodGet (periodRead std) fun p pair =>
      periodComponent std spec p (render pair) := by
  have hcases : ∀ {name : Text}, name ∈ periodComponents → '=' ∉ name ∧ trim name = name := by
    decide
  constructor
  · intro p name value c hname hread
    obtain ⟨hsplit, htrim⟩ := hcases hname
    unfold periodComponent render
    rw [splitOnce_append hsplit]
    dsimp only
    rw [htrim]
    simp only [periodComponents, List.mem_cons, List.not_mem_nil, or_false] at hname
    rcases hname with rfl | rfl | rfl | rfl | rfl | rfl | rfl
    all_goals
      obtain ⟨n, hn, rfl⟩ := Option.map_eq_some_iff.mp hread
      repeat rw [if_neg (by decide)]
      rw [if_pos rfl, hn]
      refine ⟨_, rfl, ?_, ?_⟩
      · rfl
      · intro other _ hother
        unfold periodGet
        rw [if_neg hother, if_neg hother]
  · intro p name value hname hread
    obtain ⟨hsplit, htrim⟩ := hcases hname
    unfold periodComponent render
    rw [splitOnce_append hsplit]
    dsimp only
    rw [htrim]
    simp only [periodComponents, List.mem_cons, List.not_mem_nil, or_false] at hname
    rcases hname with rfl | rfl | rfl | rfl | rfl | rfl | rfl
    all_goals
      have hnone := Option.map_eq_none_iff.mp hread
      repeat rw [if_neg (by decide)]
      rw [if_pos rfl, hnone]
      exact ⟨_, rfl⟩

/-! ### What the macro emits -/

/-- An accepted argument of a period writes a component of a period. -/
theorem writtenPair_of_periodPart {std : Std} {arg : Expr} {part : Text}
    (hpart : periodPart std arg = .ok part) :
    ∃ name right digits, assigned arg = some (name, right) ∧ right.digits = some digits ∧
      part = render (name, digits) ∧ name ∈ periodComponents ∧
      (name ≠ "seconds".toList → right = .lit (.int digits)) := by
  unfold periodPart at hpart
  cases hnamed : namedArg _ _ _ arg with
  | error e =>
    rw [hnamed] at hpart
    cases hpart
  | ok a =>
    obtain ⟨name, right⟩ := a
    rw [hnamed] at hpart
    change (if name ∉ periodComponents then _ else _) = _ at hpart
    split at hpart
    · cases hpart
    next hname =>
    cases hvalue : periodValue std name right with
    | error e =>
      rw [hvalue] at hpart
      cases hpart
    | ok digits =>
      rw [hvalue] at hpart
      cases hpart
      refine ⟨name, right, digits, assigned_of_namedArg hnamed, ?_, rfl, not_not.mp hname, ?_⟩
      · unfold periodValue at hvalue
        split at hvalue
        · cases hvalue
          rfl
        · split at hvalue <;> cases hvalue
          rfl
        · cases hvalue
      · intro hseconds
        unfold periodValue at hvalue
        split at hvalue
        · cases hvalue
          rfl
        · rw [if_neg hseconds] at hvalue
          cases hvalue
        · cases hvalue

/-- The emitted parts are what is written. -/
theorem written_of_mapM {std : Std} {args : List Expr} {parts : List Text}
    (hparts : args.mapM (periodPart std) = .ok parts) : parts = (written args).map render := by
  induction args generalizing parts with
  | nil =>
    cases hparts
    rfl
  | cons arg args ih =>
    rw [List.mapM_cons] at hparts
    cases hpart : periodPart std arg with
    | error e =>
      rw [hpart] at hparts
      cases hparts
    | ok part =>
      rw [hpart] at hparts
      cases hrest : args.mapM (periodPart std) with
      | error e =>
        rw [hrest] at hparts
        cases hparts
      | ok rest =>
        rw [hrest] at hparts
        cases hparts
        obtain ⟨name, right, digits, hassigned, hdigits, rfl, -⟩ := writtenPair_of_periodPart hpart
        have hpair : writtenPair arg = some (name, digits) := by
          simp [writtenPair, hassigned, hdigits]
        rw [ih hrest]
        simp [written, hpair]

/-- Every accepted argument is accepted on its own. -/
theorem exists_periodPart {std : Std} {args : List Expr} {parts : List Text}
    (hparts : args.mapM (periodPart std) = .ok parts) :
    ∀ arg ∈ args, ∃ part, periodPart std arg = .ok part := by
  induction args generalizing parts with
  | nil =>
    intro arg harg
    cases harg
  | cons arg args ih =>
    rw [List.mapM_cons] at hparts
    cases hpart : periodPart std arg with
    | error e =>
      rw [hpart] at hparts
      cases hparts
    | ok part =>
      rw [hpart] at hparts
      cases hrest : args.mapM (periodPart std) with
      | error e =>
        rw [hrest] at hparts
        cases hparts
      | ok rest =>
        intro arg' harg'
        rcases List.mem_cons.mp harg' with rfl | hmem
        · exact ⟨part, hpart⟩
        · exact ih hrest arg' hmem

/-- Every component that is written is one of a period, and a whole number unless it is
seconds. -/
theorem known_of_written {std : Std} {call : ExprCall} {parts : List Text} (hlexed : call.Lexed)
    (hparts : call.args.mapM (periodPart std) = .ok parts) {pair : Text × Text}
    (hpair : pair ∈ written call.args) :
    pair.1 ∈ periodComponents ∧
      (pair.1 ≠ "seconds".toList → ∃ n, digitsValue pair.2 = some n) := by
  obtain ⟨arg, harg, hwritten⟩ := List.mem_filterMap.mp hpair
  obtain ⟨part, hpart⟩ := exists_periodPart hparts arg harg
  obtain ⟨name, right, digits, hassigned, hdigits, -, hknown, hwhole⟩ :=
    writtenPair_of_periodPart hpart
  have heq : writtenPair arg = some (name, digits) := by
    simp [writtenPair, hassigned, hdigits]
  obtain rfl := Option.some.inj (hwritten.symm.trans heq)
  refine ⟨hknown, fun hseconds => ?_⟩
  have hright := hlexed arg harg (name, right) hassigned
  rw [show right = .lit (.int digits) from hwhole hseconds] at hright
  exact Option.isSome_iff_exists.mp hright

/-! ### Agreement -/

/-- The whole components of a period. -/
def wholeComponents : List (Text × (Period → ℤ)) :=
  [("years".toList, Period.years), ("months".toList, Period.months),
    ("weeks".toList, Period.weeks), ("days".toList, Period.days), ("hours".toList, Period.hours),
    ("minutes".toList, Period.minutes)]

/-- A period has every component as it is written, and no other one. -/
structure PeriodCarries (args : List Expr) (p : Period) : Prop where
  /-- The whole components. -/
  whole : ∀ c ∈ wholeComponents,
    (∀ v ∈ given c.1 args, (c.2 p : ℚ) = v) ∧ (given c.1 args = [] → c.2 p = 0)
  /-- The seconds. -/
  seconds : (∀ v ∈ given "seconds".toList args, Carries p.seconds v) ∧
    (given "seconds".toList args = [] → p.seconds = 0)

/-- The arguments of a period that arrive: whole components fit 32 bits, seconds are finite in
single precision, and what is written more than once agrees with what is written last. -/
structure PeriodFits (args : List Expr) : Prop where
  /-- The whole components. -/
  whole : ∀ c ∈ wholeComponents, ∀ v ∈ given c.1 args,
    v < 2 ^ 31 ∧ ∀ w ∈ (given c.1 args).getLast?, v = w
  /-- The seconds. -/
  seconds : ∀ v ∈ given "seconds".toList args, ∀ w ∈ (given "seconds".toList args).getLast?,
    w < single.overflowBound ∧ single.Nearest v (single.round w)

/-- The SDK reads the pairs of a period one after the other. -/
theorem parseSchedule_period {std : Std} {pairs : List (Text × Text)}
    (hpairs : ∀ pair ∈ pairs, pair.1 ∈ periodComponents ∧ ',' ∉ pair.2) :
    parseSchedule std ("period:".toList ++ [','].intercalate (pairs.map render)) =
      (pairs.foldlM (fun p pair => periodComponent std
        ("period:".toList ++ [','].intercalate (pairs.map render)) p (render pair))
        ⟨0, 0, 0, 0, 0, 0, 0⟩).map .period := by
  have hclean : ∀ part ∈ pairs.map render, part ≠ [] ∧ ',' ∉ part := by
    have hnames : ∀ name ∈ periodComponents, ',' ∉ name := by decide
    intro part hpart
    obtain ⟨pair, hpair, rfl⟩ := List.mem_map.mp hpart
    obtain ⟨hname, hvalue⟩ := hpairs pair hpair
    refine ⟨by simp [render], fun hcomma => ?_⟩
    rcases List.mem_append.mp hcomma with hmem | hmem
    · exact hnames _ hname hmem
    · rcases List.mem_cons.mp hmem with heq | hmem
      · exact absurd heq (by decide)
      · exact hvalue hmem
  generalize hspec : "period:".toList ++ [','].intercalate (pairs.map render) = spec
  have hcron : "cron:".toList.isPrefixOf? spec = none := by
    rw [← hspec]
    rfl
  have hperiod : "period:".toList.isPrefixOf? spec =
      some ([','].intercalate (pairs.map render)) := by
    rw [← hspec]
    rfl
  unfold parseSchedule
  rw [hcron, hperiod]
  dsimp only
  rw [components_intercalate hclean, List.foldlM_map]
  cases pairs.foldlM (fun p pair => periodComponent std spec p (render pair))
    ⟨0, 0, 0, 0, 0, 0, 0⟩ <;> rfl

/-- A whole component is read as the number that is written, if it fits 32 bits. -/
theorem parseI32_trim {digits : Text} {n : ℕ} (hdigits : digitsValue digits = some n) :
    parseI32 (trim digits) = if n < 2 ^ 31 then some (n : ℤ) else none := by
  have hdecimal := parseDecimal_of_digitsValue hdigits
  obtain ⟨hminus, hplus⟩ := head_of_parseDecimal hdecimal
  rw [(clean_of_parseDecimal hdecimal).2, parseI32, if_neg hminus, if_neg hplus, hdigits,
    Option.filter_some]
  by_cases hn : n < 2 ^ 31
  · rw [if_pos (decide_eq_true hn), if_pos hn]
    rfl
  · rw [if_neg (by simpa using hn), if_neg hn]
    rfl

/-- A decimal that is read as a single is carried if it is not too large. -/
theorem carries_iff {digits : Text} {q v : ℚ} {b : F32} (hdigits : parseDecimal digits = some q)
    (hb : parseF32 digits = some b) :
    Carries b v ↔ q < single.overflowBound ∧ single.Nearest v (single.round q) := by
  obtain ⟨b', hb', hvalue⟩ := exists_parseF32 hdigits
  obtain rfl := Option.some.inj (hb.symm.trans hb')
  have hbound := single.round_lt_iff (by decide) (nonneg_of_parseDecimal hdigits)
  unfold Carries
  rw [hvalue]
  constructor
  · rintro ⟨y, hy, hnearest⟩
    split at hy
    · next hlt =>
      cases hy
      exact ⟨hbound.mp hlt, hnearest⟩
    · cases hy
  · rintro ⟨hlt, hnearest⟩
    exact ⟨_, if_pos (hbound.mpr hlt), hnearest⟩

/-- A component of a period is read unless it is a whole number that is too large. -/
theorem isSome_periodRead {std : Std} (hread : std.readF32 = parseF32) {pair : Text × Text}
    (hnumber : parseDecimal pair.2 = some (numeral pair.2))
    (hwhole : pair.1 ≠ "seconds".toList → ∃ n, digitsValue pair.2 = some n) :
    (periodRead std pair.1 pair.2).isSome ↔
      (pair.1 ≠ "seconds".toList → numeral pair.2 < 2 ^ 31) := by
  unfold periodRead
  by_cases hseconds : pair.1 = "seconds".toList
  · obtain ⟨b, hb, -⟩ := exists_parseF32 hnumber
    rw [if_pos hseconds, hread, (clean_of_parseDecimal hnumber).2, hb]
    simp [hseconds]
  · obtain ⟨n, hn⟩ := hwhole hseconds
    have hnumeral : numeral pair.2 = n := by
      rw [numeral, parseDecimal_of_digitsValue hn]
      rfl
    rw [if_neg hseconds, parseI32_trim hn, hnumeral]
    have hcast : ((n : ℚ) < 2 ^ 31) ↔ n < 2 ^ 31 := by
      exact_mod_cast Iff.rfl
    rw [hcast]
    by_cases hsmall : n < 2 ^ 31
    · rw [if_pos hsmall]
      exact iff_of_true rfl fun _ => hsmall
    · rw [if_neg hsmall]
      exact iff_of_false (by simp) fun hall => hsmall (hall hseconds)

/-- The whole components are components, and are read as whole numbers. -/
theorem get_of_wholeComponents {c : Text × (Period → ℤ)} (hc : c ∈ wholeComponents) :
    c.1 ∈ periodComponents ∧ c.1 ≠ "seconds".toList ∧
      (∀ p, periodGet p c.1 = .whole (c.2 p)) ∧ c.2 ⟨0, 0, 0, 0, 0, 0, 0⟩ = 0 := by
  simp only [wholeComponents, List.mem_cons, List.not_mem_nil, or_false] at hc
  rcases hc with rfl | rfl | rfl | rfl | rfl | rfl <;>
    exact ⟨by decide, by decide, fun _ => rfl, rfl⟩

/-- A period has what was last written for every component. -/
structure PeriodReads (pairs : List (Text × Text)) (p : Period) : Prop where
  /-- A whole component. -/
  whole : ∀ c ∈ wholeComponents, (lastGiven c.1 pairs = none → c.2 p = 0) ∧
    ∀ digits ∈ lastGiven c.1 pairs, (c.2 p : ℚ) = numeral digits
  /-- The seconds. -/
  seconds : (lastGiven "seconds".toList pairs = none → p.seconds = 0) ∧
    ∀ digits ∈ lastGiven "seconds".toList pairs, parseF32 digits = some p.seconds

section Pairs

variable {std : Std} {pairs : List (Text × Text)} (hread : std.readF32 = parseF32)
  (hnumbers : ∀ pair ∈ pairs, parseDecimal pair.2 = some (numeral pair.2))
  (hknown : ∀ pair ∈ pairs, pair.1 ∈ periodComponents ∧
    (pair.1 ≠ "seconds".toList → ∃ n, digitsValue pair.2 = some n))

include hread hnumbers hknown

/-- A period of numbers that fit is read. -/
theorem exists_parseSchedule_ok
    (hsmall : ∀ pair ∈ pairs, pair.1 ≠ "seconds".toList → numeral pair.2 < 2 ^ 31) :
    ∃ p, parseSchedule std ("period:".toList ++ [','].intercalate (pairs.map render)) =
      .ok (.period p) ∧ PeriodReads pairs p := by
  rw [parseSchedule_period fun pair hpair =>
    ⟨(hknown pair hpair).1, (clean_of_parseDecimal (hnumbers pair hpair)).1⟩]
  obtain ⟨p, hfold, hget⟩ := (fills_period std _).exists_filled ⟨0, 0, 0, 0, 0, 0, 0⟩
    fun pair hpair => ⟨(hknown pair hpair).1, (isSome_periodRead hread (hnumbers pair hpair)
      (hknown pair hpair).2).mpr (hsmall pair hpair)⟩
  refine ⟨p, by rw [hfold]; rfl, ⟨fun c hc => ?_, ?_⟩⟩
  · obtain ⟨hname, hseconds, hwhole, hzero⟩ := get_of_wholeComponents hc
    have hcomponent := hget c.1 hname
    rw [hwhole, hwhole, hzero] at hcomponent
    refine ⟨fun hnone => ?_, fun digits hdigits => ?_⟩
    · rw [hnone] at hcomponent
      exact Component.whole.inj hcomponent
    · have hpair := mem_of_lastGiven hdigits
      obtain ⟨n, hn⟩ := (hknown _ hpair).2 hseconds
      have hlt := hsmall _ hpair hseconds
      have hnumeral : numeral digits = n := by
        rw [numeral, parseDecimal_of_digitsValue hn]
        rfl
      dsimp only at hlt
      rw [hnumeral] at hlt
      rw [Option.mem_def.mp hdigits, Option.bind_some, periodRead, if_neg hseconds,
        parseI32_trim hn, if_pos (by exact_mod_cast hlt)] at hcomponent
      rw [Component.whole.inj hcomponent, hnumeral, Int.cast_natCast]
  · have hcomponent := hget "seconds".toList (by decide)
    have hfloat : ∀ p, periodGet p "seconds".toList = .float p.seconds := fun _ => rfl
    rw [hfloat, hfloat] at hcomponent
    refine ⟨fun hnone => ?_, fun digits hdigits => ?_⟩
    · rw [hnone] at hcomponent
      exact Component.float.inj hcomponent
    · have hnumber := hnumbers _ (mem_of_lastGiven hdigits)
      obtain ⟨b, hb, -⟩ := exists_parseF32 hnumber
      rw [Option.mem_def.mp hdigits, Option.bind_some, periodRead, if_pos rfl, hread,
        (clean_of_parseDecimal hnumber).2, hb] at hcomponent
      rw [Component.float.inj hcomponent]
      exact hb

/-- A period with a number that does not fit is refused. -/
theorem exists_parseSchedule_error {pair : Text × Text} (hpair : pair ∈ pairs)
    (hseconds : pair.1 ≠ "seconds".toList) (hlarge : ¬ numeral pair.2 < 2 ^ 31) :
    ∃ e, parseSchedule std ("period:".toList ++ [','].intercalate (pairs.map render)) =
      .error e := by
  rw [parseSchedule_period fun pair hpair =>
    ⟨(hknown pair hpair).1, (clean_of_parseDecimal (hnumbers pair hpair)).1⟩]
  have hnone : periodRead std pair.1 pair.2 = none := by
    rw [← Option.not_isSome_iff_eq_none,
      isSome_periodRead hread (hnumbers pair hpair) (hknown pair hpair).2]
    exact fun hall => hlarge (hall hseconds)
  obtain ⟨e, he⟩ := (fills_period std _).exists_refused ⟨0, 0, 0, 0, 0, 0, 0⟩
    (fun pair hpair => (hknown pair hpair).1) hpair hnone
  exact ⟨e, by rw [he]; rfl⟩

end Pairs

/-- The numbers of a component are those of its pairs. -/
theorem mem_given {name : Text} {args : List Expr} {v : ℚ} :
    v ∈ given name args ↔ ∃ digits, (name, digits) ∈ written args ∧ numeral digits = v := by
  unfold given
  simp only [List.mem_map, List.mem_filter, decide_eq_true_eq]
  constructor
  · rintro ⟨⟨name', digits⟩, ⟨hmem, rfl⟩, rfl⟩
    exact ⟨digits, hmem, rfl⟩
  · rintro ⟨digits, hmem, rfl⟩
    exact ⟨(name, digits), ⟨hmem, rfl⟩, rfl⟩

/-- A component that is given has a last value. -/
theorem exists_last {name : Text} {args : List Expr} {v : ℚ} (hv : v ∈ given name args) :
    ∃ digits, lastGiven name (written args) = some digits ∧
      numeral digits ∈ (given name args).getLast? := by
  have hlast := getLast?_given name args
  cases hdigits : lastGiven name (written args) with
  | none =>
    rw [hdigits, Option.map_none, List.getLast?_eq_none_iff] at hlast
    rw [hlast] at hv
    cases hv
  | some digits =>
    rw [hdigits] at hlast
    exact ⟨digits, rfl, hlast⟩

/-- A component that is not given has no last value. -/
theorem lastGiven_eq_none_iff {name : Text} {args : List Expr} :
    lastGiven name (written args) = none ↔ given name args = [] := by
  rw [← List.getLast?_eq_none_iff, getLast?_given, Option.map_eq_none_iff]

/-- **A period arrives as it is written exactly if its numbers fit.** -/
theorem period_agrees_iff {std std' : Std} (hread : std.readF32 = parseF32) {call : ExprCall}
    (hlexed : call.Lexed) {spec : Text} (hspec : parsePeriodComponents std' call = .ok spec) :
    (∃ p, parseSchedule std spec = .ok (.period p) ∧ PeriodCarries call.args p) ↔
      PeriodFits call.args := by
  unfold parsePeriodComponents at hspec
  split at hspec
  · cases hspec
  cases hparts : call.args.mapM (periodPart std') with
  | error e =>
    rw [hparts] at hspec
    cases hspec
  | ok parts =>
    rw [hparts] at hspec
    obtain rfl := Except.ok.inj hspec
    have hnumbers := fun pair (hpair : pair ∈ written call.args) =>
      parseDecimal_of_written hlexed hpair
    have hknown := fun pair (hpair : pair ∈ written call.args) =>
      known_of_written hlexed hparts hpair
    rw [written_of_mapM hparts]
    constructor
    · rintro ⟨p, hp, hcarries⟩
      have hsmall : ∀ pair ∈ written call.args, pair.1 ≠ "seconds".toList →
          numeral pair.2 < 2 ^ 31 := by
        intro pair hpair hseconds
        by_contra hlarge
        obtain ⟨e, he⟩ := exists_parseSchedule_error hread hnumbers hknown hpair hseconds hlarge
        rw [he] at hp
        cases hp
      obtain ⟨p', hp', hreads⟩ := exists_parseSchedule_ok hread hnumbers hknown hsmall
      obtain rfl : p = p' := Schedule.period.inj (Except.ok.inj (hp.symm.trans hp'))
      refine ⟨fun c hc v hv => ?_, fun v hv w hw => ?_⟩
      · obtain ⟨digits, hmem, rfl⟩ := mem_given.mp hv
        have hlt := hsmall _ hmem (get_of_wholeComponents hc).2.1
        refine ⟨hlt, fun w hw => ?_⟩
        rw [← (hcarries.whole c hc).1 _ hv, ← (hcarries.whole c hc).1 w (List.mem_of_getLast? hw)]
      · obtain ⟨digits, hdigits, hlast⟩ := exists_last hv
        obtain rfl := Option.some.inj (hlast.symm.trans hw)
        exact (carries_iff (hnumbers _ (mem_of_lastGiven hdigits))
          (hreads.seconds.2 digits hdigits)).mp (hcarries.seconds.1 v hv)
    · intro hfits
      have hsmall : ∀ pair ∈ written call.args, pair.1 ≠ "seconds".toList →
          numeral pair.2 < 2 ^ 31 := by
        intro pair hpair hseconds
        have hcomponent : ∀ name ∈ periodComponents, name ≠ "seconds".toList →
            name ∈ wholeComponents.map Prod.fst := by decide
        obtain ⟨c, hc, hname⟩ := List.mem_map.mp (hcomponent _ (hknown pair hpair).1 hseconds)
        exact (hfits.whole c hc _ (mem_given.mpr ⟨pair.2, by rw [hname]; exact hpair, rfl⟩)).1
      obtain ⟨p, hp, hreads⟩ := exists_parseSchedule_ok hread hnumbers hknown hsmall
      refine ⟨p, hp, ⟨fun c hc => ⟨fun v hv => ?_, fun hnil => ?_⟩,
        fun v hv => ?_, fun hnil => ?_⟩⟩
      · obtain ⟨digits, hdigits, hlast⟩ := exists_last hv
        rw [(hreads.whole c hc).2 digits hdigits]
        exact ((hfits.whole c hc v hv).2 _ hlast).symm
      · exact (hreads.whole c hc).1 (lastGiven_eq_none_iff.mpr hnil)
      · obtain ⟨digits, hdigits, hlast⟩ := exists_last hv
        exact (carries_iff (hnumbers _ (mem_of_lastGiven hdigits))
          (hreads.seconds.2 digits hdigits)).mpr (hfits.seconds v hv _ hlast)
      · exact hreads.seconds.1 (lastGiven_eq_none_iff.mpr hnil)

/-! ### Cron -/

/-- A cron schedule has the expression and the time zone of the arguments. -/
def CronCarries (args : List Expr) (schedule : Schedule) : Prop :=
  ∃ cronString timezone, schedule = .cron cronString timezone ∧
    (args = [.lit (.str cronString)] ∧ timezone = "UTC".toList ∨
      args = [.lit (.str cronString), .lit (.str timezone)])

/-- **A cron schedule arrives as it is written.** -/
theorem cron_agrees {std : Std} {args : List Expr} {spec : Text}
    (hspec : parseCron args = .ok spec) :
    ∃ schedule, parseSchedule std spec = .ok schedule ∧ CronCarries args schedule := by
  have hparse : ∀ {cronString timezone : Text}, ':' ∉ timezone →
      parseSchedule std ("cron:".toList ++ timezone ++ ':' :: cronString) =
        .ok (.cron cronString timezone) := by
    intro cronString timezone htimezone
    have hstart : "cron:".toList.isPrefixOf? ("cron:".toList ++ timezone ++ ':' :: cronString) =
        some (timezone ++ ':' :: cronString) := rfl
    unfold parseSchedule
    rw [hstart]
    dsimp only
    rw [splitOnce_append htimezone]
  have hlit : ∀ {message s : Text} {arg : Option Expr}, expectStrLit message arg = .ok s →
      arg = some (.lit (.str s)) := by
    intro message s arg harg
    unfold expectStrLit at harg
    split at harg <;> cases harg
    rfl
  unfold parseCron at hspec
  cases hcron : expectStrLit _ args[0]? with
  | error e =>
    rw [hcron] at hspec
    cases hspec
  | ok cronString =>
    rw [hcron] at hspec
    have hfirst := hlit hcron
    cases args with
    | nil => cases hfirst
    | cons first rest =>
      obtain rfl := Option.some.inj hfirst
      cases rest with
      | nil =>
        change (if ':' ∈ cronString ∨ ':' ∈ "UTC".toList then _ else _) = _ at hspec
        split at hspec
        · cases hspec
        · cases hspec
          exact ⟨_, hparse (by decide), cronString, "UTC".toList, rfl, Or.inl ⟨rfl, rfl⟩⟩
      | cons second rest =>
        change (expectStrLit _ (some second)).bind (fun timezone =>
          if (rest[0]?).isSome then _ else _) = _ at hspec
        cases htimezone : expectStrLit "Cron timezone must be a string".toList (some second) with
        | error e =>
          rw [htimezone] at hspec
          cases hspec
        | ok timezone =>
          obtain rfl := Option.some.inj (hlit htimezone)
          rw [htimezone] at hspec
          change (if (rest[0]?).isSome then _ else if _ then _ else _) = _ at hspec
          cases rest with
          | cons third rest => cases hspec
          | nil =>
            change (if ':' ∈ cronString ∨ ':' ∈ timezone then _ else _) = _ at hspec
            split at hspec
            · cases hspec
            · next hcolon =>
              cases hspec
              exact ⟨_, hparse fun hmem => hcolon (Or.inr hmem), cronString, timezone, rfl,
                Or.inr rfl⟩

end ModalRust.Macros
