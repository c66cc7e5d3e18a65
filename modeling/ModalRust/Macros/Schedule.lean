import ModalRust.Macros.Syntax
import ModalRust.Sdk.Specs

/-!
# The spec of a schedule

`parse_schedule_to_spec`, which turns `schedule = Cron(..)` and `schedule = Period(..)` into the
compact strings that the SDK reads. The numbers of a period are passed on as they are written.
-/

namespace ModalRust.Macros

open ModalRust.Sdk

/-- `PERIOD_COMPONENTS`. -/
def periodComponents : List Text :=
  ["years".toList, "months".toList, "weeks".toList, "days".toList, "hours".toList,
    "minutes".toList, "seconds".toList]

/-- `expect_str_lit`. -/
def expectStrLit (message : Text) : Option Expr → Except Text Text
  | some (.lit (.str s)) => .ok s
  | _ => .error message

/-- The arguments of `Cron(..)`. -/
def parseCron (args : List Expr) : Except Text Text := do
  let cronString ← expectStrLit "Cron expects a cron string".toList args[0]?
  let timezone ← match args[1]? with
    | some a => expectStrLit "Cron timezone must be a string".toList (some a)
    | none => .ok "UTC".toList
  if args[2]?.isSome then
    .error "Cron takes at most two arguments: Cron(\"expr\"[, \"tz\"])".toList
  else if ':' ∈ cronString ∨ ':' ∈ timezone then
    .error "Cron expression / timezone must not contain a ':'".toList
  else return "cron:".toList ++ timezone ++ ':' :: cronString

/-- The value of a component of `Period(..)`. -/
def periodValue (std : Std) (name : Text) : Expr → Except Text Text
  | .lit (.int digits) => .ok digits
  | .lit (.float digits) =>
    if name = "seconds".toList then .ok digits
    else .error ("Period component ".toList ++ std.debug name ++
      " must be an integer (only `seconds` is a float)".toList)
  | _ => .error ("Period component ".toList ++ std.debug name ++
      " must be a numeric literal".toList)

/-- One argument of `Period(..)`, as it is written into the spec. -/
def periodPart (std : Std) (arg : Expr) : Except Text Text := do
  let (name, right) ← namedArg
    "Period components must be `name = value`, e.g. `hours = 4`".toList
    "Period component name must be a bare identifier (e.g. `days`)".toList
    "Period component name must be an identifier".toList arg
  if name ∉ periodComponents then
    .error ("unknown Period component ".toList ++ std.debug name ++
      "; expected one of [\"years\", \"months\", \"weeks\", \"days\", \"hours\", ".toList ++
      "\"minutes\", \"seconds\"]".toList)
  else
    let value ← periodValue std name right
    return name ++ '=' :: value

/-- `parse_period_components`. -/
def parsePeriodComponents (std : Std) (call : ExprCall) : Except Text Text :=
  if call.args.isEmpty then
    .error "Period needs at least one component, e.g. `Period(days = 1)`".toList
  else do
    let parts ← call.args.mapM (periodPart std)
    return "period:".toList ++ [','].intercalate parts

/-- `parse_schedule_to_spec`, of a value that may not parse as a call. -/
def parseScheduleToSpec (std : Std) : Option ExprCall → Except Text Text
  | none => .error
    "`schedule` must be `Cron(\"expr\"[, \"tz\"])` or `Period(days = 1, ..)`".toList
  | some call =>
    match call.func with
    | .path p =>
      if p.lastIdent = "Cron".toList then parseCron call.args
      else if p.lastIdent = "Period".toList then parsePeriodComponents std call
      else .error ("unknown schedule kind ".toList ++ std.debug p.lastIdent ++
        "; expected `Cron` or `Period`".toList)
    | _ => .error "`schedule` must call `Cron(..)` or `Period(..)`".toList

end ModalRust.Macros
