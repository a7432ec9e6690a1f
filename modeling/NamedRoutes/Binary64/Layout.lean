import NamedRoutes.Binary64.Shortest

/-!
# Layouts of floating-point text

A layout says which powers of ten are written positionally and how wide an exponent is at least;
everything else about the text of a number is fixed here.
-/
namespace NamedRoutes.Binary64

structure Layout where
  /-- The least power of the first digit that is written positionally. -/
  lowest : Int
  highest : Int
  exponentWidth : Nat

namespace Layout

/-- A point always has a digit on both sides. -/
def positional (digits : List Char) (power : Int) : List Char :=
  if power < 0 then
    '0' :: '.' :: (List.replicate ((-power).toNat - 1) '0' ++ digits)
  else
    let places := power.toNat + 1
    let fraction := digits.drop places
    digits.take places ++ List.replicate (places - digits.length) '0' ++
      '.' :: (if fraction.isEmpty then ['0'] else fraction)

def exponential (width : Nat) (digits : List Char) (power : Int) : List Char :=
  let exponent := Nat.toDigits 10 power.natAbs
  digits.take 1 ++ (if digits.length ≤ 1 then [] else '.' :: digits.drop 1) ++
    'e' :: (if power < 0 then '-' else '+') ::
      (List.replicate (width - exponent.length) '0' ++ exponent)

def digitsText (layout : Layout) (digits : List Char) (power : Int) : List Char :=
  if layout.lowest ≤ power ∧ power ≤ layout.highest then positional digits power
  else exponential layout.exponentWidth digits power

def magnitudeText (layout : Layout) : Binary64 → List Char
  | infinite _ => ['i', 'n', 'f']
  | finite _ significand scale =>
    if significand = 0 then ['0', '.', '0']
    else
      let (digits, power) := (shortest significand scale).scientific
      layout.digitsText digits power

def text (layout : Layout) (x : Binary64) : String :=
  String.ofList ((if x.isNegative then ['-'] else []) ++ layout.magnitudeText x)

end Layout

end NamedRoutes.Binary64
