import ModalRust.Floats
import ModalRust.Macros.Syntax
import ModalRust.Sdk.Specs

/-!
# The spec of retries

`parse_retries_to_spec`, which turns `retries = Retries(..)` into the compact string that the SDK
reads. Delays are given in seconds and passed on in milliseconds, and the coefficient is read as
a double and displayed.
-/

namespace ModalRust.Macros

open ModalRust.Sdk

/-- `base10_parse`: the number of a literal, or the error of the type it does not fit. -/
def base10Parse {α : Type} : Option α → Except Text α
  | some n => .ok n
  | none => .error "number too large to fit in target type".toList

/-- `base10_parse::<f64>`. A literal has no sign, and a large one is infinite. -/
def base10ParseF64 (digits : Text) : Except Text F64 :=
  match parseDecimal digits with
  | some q => .ok (.ofRat q)
  | none => .error "invalid float literal".toList

/-- `base10_parse::<u64>()? as f64`. -/
def u64AsF64 (digits : Text) : Except Text F64 :=
  (base10Parse (parseU64 digits)).map fun n : ℕ => .ofRat n

/-- `expect_u32_lit`. -/
def expectU32Lit : Expr → Except Text ℕ
  | .lit (.int digits) => base10Parse (parseU32 digits)
  | _ => .error "expected a non-negative integer literal".toList

/-- `expect_f64_lit`. -/
def expectF64Lit : Expr → Except Text F64
  | .lit (.float digits) => base10ParseF64 digits
  | .lit (.int digits) => u64AsF64 digits
  | _ => .error "expected a number (float or int)".toList

/-- `secs_lit_to_ms`. -/
def secsLitToMs (e : Expr) : Except Text ℕ := do
  let secs ← match e with
    | .lit (.float digits) => base10ParseF64 digits
    | .lit (.int digits) => u64AsF64 digits
    | _ => .error ("delay must be a number of SECONDS (float or int), e.g. `0.5` or ".toList ++
        "`30`".toList)
  if secs.value.all (· < 0) then
    .error "delay (seconds) must be a finite, non-negative number".toList
  else return (secs.times 1000).toU32

/-- The component `name = right` of `Retries(..)`: the retry count is kept apart, and the other
components are in the order in which they are written. -/
def retriesComponent (std : Std) (acc : Option Text × List Text) (name : Text) (right : Expr) :
    Except Text (Option Text × List Text) :=
  if name = "max_retries".toList then do
    return (some ("max=".toList ++ Nat.toDigits 10 (← expectU32Lit right)), acc.2)
  else if name = "backoff_coefficient".toList then do
    return (acc.1, acc.2 ++ ["backoff=".toList ++ (← expectF64Lit right).display])
  else if name = "initial_delay".toList then do
    return (acc.1, acc.2 ++ ["initial_ms=".toList ++ Nat.toDigits 10 (← secsLitToMs right)])
  else if name = "max_delay".toList then do
    return (acc.1, acc.2 ++ ["max_ms=".toList ++ Nat.toDigits 10 (← secsLitToMs right)])
  else .error ("unknown Retries component ".toList ++ std.debug name ++
    "; expected one of ".toList ++
    "`max_retries`, `backoff_coefficient`, `initial_delay`, `max_delay`".toList)

/-- One argument of `Retries(..)`. -/
def retriesArg (std : Std) (acc : Option Text × List Text) (arg : Expr) :
    Except Text (Option Text × List Text) := do
  let (name, right) ← namedArg
    "Retries components must be `name = value`, e.g. `max_retries = 5`".toList
    "Retries component name must be a bare identifier (e.g. `max_retries`)".toList
    "Retries component name must be an identifier".toList arg
  retriesComponent std acc name right

/-- `parse_retries_to_spec`, of a value that may not parse as a call. -/
def parseRetriesToSpec (std : Std) : Option ExprCall → Except Text Text
  | none => .error ("`retries` must be a bare integer (`retries = 5`) or the struct form ".toList ++
      "`retries = Retries(max_retries = N[, backoff_coefficient = f] ".toList ++
      "[, initial_delay = s][, max_delay = s])`".toList)
  | some call =>
    match call.func with
    | .path p =>
      if p.lastIdent ≠ "Retries".toList then
        .error ("unknown retries kind ".toList ++ std.debug p.lastIdent ++
          "; expected the `Retries(..)` struct form".toList)
      else do
        match ← call.args.foldlM (retriesArg std) (none, []) with
        | (none, _) =>
          .error ("Retries requires `max_retries = N` (the retry count), e.g. ".toList ++
            "`Retries(max_retries = 5)`".toList)
        | (some maxRetries, parts) =>
          return "retries:".toList ++ [','].intercalate (maxRetries :: parts)
    | _ => .error "`retries` struct form must call `Retries(..)`".toList

end ModalRust.Macros
