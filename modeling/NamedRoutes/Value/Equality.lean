import NamedRoutes.Value.Basic

/-!
# Equality of values

Truth values, whole numbers and floating-point numbers are equal when they are the same number, true
being one and false zero. Lists are equal item by item; dictionaries are equal when they hold equal
values under the same names, in whatever order.
-/
namespace NamedRoutes

/-- The exact size of a number, in units of the least positive floating-point number. -/
inductive Magnitude where
  | finite (units : Int)
  | infinite (negative : Bool)
  deriving DecidableEq

namespace Value

def magnitudeOfFloat (x : Binary64) : Magnitude :=
  match x.units? with
  | some units => .finite units
  | none => .infinite x.isNegative

def magnitude? : Value → Option Magnitude
  | .bool b => some (.finite (if b then Binary64.unitsPerOne else 0))
  | .int n => some (.finite (n * Binary64.unitsPerOne))
  | .float x => some (magnitudeOfFloat x)
  | _ => none

mutual

def equal : Value → Value → Bool
  | .null, .null => true
  | .str s, .str t => s == t
  | .list xs, .list ys => equalItems xs ys
  | .dict xs, .dict ys => xs.length == ys.length && equalEntries xs ys
  | v, w =>
    match v.magnitude?, w.magnitude? with
    | some a, some b => a == b
    | _, _ => false

def equalItems : List Value → List Value → Bool
  | [], [] => true
  | v :: vs, w :: ws => equal v w && equalItems vs ws
  | _, _ => false

/-- Each name of the first dictionary has an equal value in the second. -/
def equalEntries : List (String × Value) → List (String × Value) → Bool
  | [], _ => true
  | (k, v) :: rest, ys =>
    (match ys.lookup k with
      | some w => equal v w
      | none => false) && equalEntries rest ys

end

end Value

end NamedRoutes
