import NamedRoutes.Binary64.Basic

/-!
# Shortest decimals

The decimal of a positive finite number is the one with the fewest digits that reads back as the
number. Of two such decimals the nearer is taken, and of two equally near ones the even. The search
tries, for each count of digits, the number's two neighbours among the decimals of that count.
-/
namespace NamedRoutes.Binary64

structure Decimal where
  coefficient : Nat
  exponent : Int

/-- Finer than every finite number's spacing: one part in `10 ^ 324`. -/
def finestPlace : Nat := 324

def inFinestPlace (significand scale : Nat) : Nat :=
  significand * Nat.pow 2 scale * Nat.pow 10 finestPlace / unitsPerOne

def Decimal.readsAs (d : Decimal) (significand scale : Nat) : Bool :=
  ofDecimal false d.coefficient d.exponent == finite false significand scale

/-- The neighbour, among multiples of `10 ^ place` of the finest place, that reads back; the nearer
of two, and of two equally near the even one. -/
def neighbour? (significand scale place : Nat) : Option Decimal :=
  let size := significand * Nat.pow 2 scale * Nat.pow 10 finestPlace
  let step := Nat.pow 10 place * unitsPerOne
  let exponent : Int := (place : Int) - finestPlace
  let below : Decimal := ⟨size / step, exponent⟩
  let above : Decimal := ⟨size / step + 1, exponent⟩
  match below.readsAs significand scale, above.readsAs significand scale with
  | true, true => some ⟨roundDiv size step, exponent⟩
  | true, false => some below
  | false, true => some above
  | false, false => none

def searchFrom (significand scale : Nat) : Nat → Decimal
  | 0 => (neighbour? significand scale 0).getD ⟨0, 0⟩
  | place + 1 =>
    (neighbour? significand scale (place + 1)).getD (searchFrom significand scale place)

def shortest (significand scale : Nat) : Decimal :=
  searchFrom significand scale
    ((Nat.toDigits 10 (inFinestPlace significand scale)).length - 1)

/-- Digits without trailing zeros, and the power of ten that the first of them counts. -/
def Decimal.scientific (d : Decimal) : List Char × Int :=
  let digits := Nat.toDigits 10 d.coefficient
  ((digits.reverse.dropWhile (· == '0')).reverse, d.exponent + (digits.length - 1 : Nat))

end NamedRoutes.Binary64
