import ModalRust.Text

/-!
# The arguments of an attribute

What the attribute macros see of a value such as `Image(base = "..", apt = ["..", ".."])`: the
literals, paths, assignments and arrays of `syn`, and the readers that several values share. A
refused value is the text of its `compile_error!`.
-/

namespace ModalRust.Macros

/-- A literal, without its suffix and its underscores. -/
inductive Lit
  /-- A string literal's value. -/
  | str (value : Text)
  /-- An integer literal's `base10_digits`. -/
  | int (digits : Text)
  /-- A floating-point literal's `base10_digits`. -/
  | float (digits : Text)
  /-- A Boolean literal. -/
  | bool (value : Bool)
  /-- A byte string, a byte or a character. -/
  | other

/-- A segment of a path. -/
structure PathSegment where
  /-- The identifier. -/
  ident : Text
  /-- Whether it has generic arguments. -/
  hasArguments : Bool

/-- A path. -/
structure Path where
  /-- Whether it starts with `::`. -/
  leadingColon : Bool
  /-- Its segments. -/
  segments : List PathSegment

/-- An expression, as far as the macros look into it. -/
inductive Expr
  /-- A literal. -/
  | lit (value : Lit)
  /-- A path. -/
  | path (value : Path)
  /-- `left = right`. -/
  | assign (left right : Expr)
  /-- `[a, b, c]`. -/
  | array (elems : List Expr)
  /-- Any other expression. -/
  | other

/-- `func(args)`. -/
structure ExprCall where
  /-- What is called. -/
  func : Expr
  /-- The arguments. -/
  args : List Expr

/-- `Path::get_ident`: the path is one plain identifier. -/
def Path.getIdent (p : Path) : Option Text :=
  match p.leadingColon, p.segments with
  | false, [⟨ident, false⟩] => some ident
  | _, _ => none

/-- The identifier of the last segment, which names the kind of a call. -/
def Path.lastIdent (p : Path) : Text := (p.segments.getLast?.map PathSegment.ident).getD []

/-- The name and the value of an argument `name = value`. The texts say which arguments are
refused: no assignment, no path on its left, no plain identifier. -/
def namedArg (noAssign noPath noIdent : Text) : Expr → Except Text (Text × Expr)
  | .assign (.path p) right =>
    match p.getIdent with
    | some name => .ok (name, right)
    | none => .error noIdent
  | .assign _ _ => .error noPath
  | _ => .error noAssign

/-- The name and the value of an argument that assigns to a plain identifier. -/
def assigned : Expr → Option (Text × Expr)
  | .assign (.path p) right => p.getIdent.map fun name => (name, right)
  | _ => none

/-- The value that was last given to a name. -/
def lastValue (name : Text) (args : List Expr) : Option Expr :=
  ((args.filterMap assigned).filter fun a => a.1 = name).getLast?.map Prod.snd

/-- The path that is the identifier `name`. -/
def identPath (name : Text) : Expr := .path ⟨false, [⟨name, false⟩]⟩

/-- A string literal's value. -/
def Expr.strValue : Expr → Option Text
  | .lit (.str s) => some s
  | _ => none

/-- A Boolean literal's value. -/
def Expr.boolValue : Expr → Option Bool
  | .lit (.bool b) => some b
  | _ => none

/-- The strings of an array. -/
def Expr.strValues : Expr → List Text
  | .array elems => elems.filterMap Expr.strValue
  | _ => []

/-- An argument that is accepted assigns to a plain identifier. -/
theorem assigned_of_namedArg {noAssign noPath noIdent name : Text} {arg value : Expr}
    (harg : namedArg noAssign noPath noIdent arg = .ok (name, value)) :
    assigned arg = some (name, value) := by
  unfold namedArg at harg
  split at harg
  · next p right =>
    split at harg
    · next n hident =>
      cases harg
      rw [assigned, hident, Option.map_some]
    · cases harg
  · cases harg
  · cases harg

/-- A further argument gives a value to its own name and to no other. -/
theorem lastValue_append {arg value : Expr} {name : Text} (harg : assigned arg = some (name, value))
    (other : Text) (args : List Expr) :
    lastValue other (args ++ [arg]) =
      if name = other then some value else lastValue other args := by
  unfold lastValue
  rw [List.filterMap_append, List.filterMap_cons, harg, List.filterMap_nil, List.filter_append]
  by_cases hname : name = other
  · rw [if_pos hname]
    simp [hname]
  · rw [if_neg hname]
    simp [hname]

/-- The value that was last given to a name was given to it. -/
theorem mem_of_lastValue {name : Text} {args : List Expr} {value : Expr}
    (hlast : lastValue name args = some value) : (name, value) ∈ args.filterMap assigned := by
  obtain ⟨pair, hpair, rfl⟩ := Option.map_eq_some_iff.mp hlast
  obtain ⟨hmem, hname⟩ := List.mem_filter.mp (List.mem_of_getLast? hpair)
  rw [← of_decide_eq_true hname]
  exact hmem

/-- A name that was given a value has a last one. -/
theorem exists_lastValue {name : Text} {args : List Expr} {value : Expr}
    (hmem : (name, value) ∈ args.filterMap assigned) : ∃ last, lastValue name args = some last := by
  have hne : (args.filterMap assigned).filter (fun a => a.1 = name) ≠ [] :=
    List.ne_nil_of_mem (List.mem_filter.mpr ⟨hmem, decide_eq_true rfl⟩)
  unfold lastValue
  rw [List.getLast?_eq_some_getLast hne]
  exact ⟨_, rfl⟩

end ModalRust.Macros
