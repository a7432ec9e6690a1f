/-!
# Binary floating-point numbers of 64 bits

A finite number is counted in units of `2 ^ (-1074)`, the least positive one: it is
`significand * 2 ^ scale` units, with a significand below `2 ^ 53` that reaches `2 ^ 52` unless the
scale is zero. Not-a-number is left out.
-/
namespace NamedRoutes

inductive Binary64 where
  | finite (negative : Bool) (significand scale : Nat)
  | infinite (negative : Bool)
  deriving DecidableEq

namespace Binary64

def unitsPerOne : Nat := Nat.pow 2 1074

def maxScale : Nat := 2045

def isNegative : Binary64 → Bool
  | finite negative _ _ => negative
  | infinite negative => negative

def isZero : Binary64 → Bool
  | finite _ significand _ => significand == 0
  | infinite _ => false

/-- Both zeros count as zero units. -/
def units? : Binary64 → Option Int
  | finite negative significand scale =>
    let size : Int := (significand * Nat.pow 2 scale : Nat)
    some (if negative then -size else size)
  | infinite _ => none

/-- The quotient, rounded to the nearest whole number; a half goes to the even one. -/
def roundDiv (num den : Nat) : Nat :=
  if 2 * (num % den) < den ∨ (2 * (num % den) = den ∧ num / den % 2 = 0) then num / den
  else num / den + 1

/-- The number nearest to `num / den` units; beyond the largest finite one it is infinite. -/
def nearest (negative : Bool) (num den : Nat) : Binary64 :=
  let scale := (num / den).log2 - 52
  let significand := roundDiv num (den * Nat.pow 2 scale)
  if significand = Nat.pow 2 53 then bounded (Nat.pow 2 52) (scale + 1)
  else bounded significand scale
where
  bounded (significand scale : Nat) : Binary64 :=
    if scale ≤ maxScale then finite negative significand scale else infinite negative

/-- The number nearest to `digits * 10 ^ exponent`. The bounds keep the powers small: beyond them
the answer is infinite, or zero, in any case. -/
def ofDecimal (negative : Bool) (digits : Nat) (exponent : Int) : Binary64 :=
  if digits = 0 then finite negative 0 0
  else if 400 < exponent then infinite negative
  else if exponent + (digits.log2 + 1) < -1200 then finite negative 0 0
  else nearest negative (digits * Nat.pow 10 exponent.toNat * unitsPerOne)
    (Nat.pow 10 (-exponent).toNat)

end Binary64

end NamedRoutes
