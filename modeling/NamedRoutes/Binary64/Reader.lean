import NamedRoutes.Binary64.Basic
import NamedRoutes.Text.Decimal

/-!
# Reading floating-point text

Text is read after its surrounding blanks are dropped and its digits, of whatever script, are taken
as ASCII ones. An underscore may stand between two digits. What remains is a sign, then `inf` or
`infinity` in any case, or digits with at most one point and an optional exponent.
-/
namespace NamedRoutes.Binary64

open Text

/-- Refuses an underscore that does not stand between two digits. -/
def dropUnderscores (afterDigit : Bool) : List Char → Option (List Char)
  | [] => some []
  | ['_'] => none
  | '_' :: c :: rest =>
    if afterDigit && c.isDigit then (dropUnderscores true rest).map (c :: ·) else none
  | c :: rest => (dropUnderscores c.isDigit rest).map (c :: ·)

/-- Splits off a sign; the flag tells a minus. -/
def readSign : List Char → Bool × List Char
  | '-' :: rest => (true, rest)
  | '+' :: rest => (false, rest)
  | s => (false, s)

def readExponent? : List Char → Option Int
  | [] => some 0
  | c :: rest =>
    let (negative, digits) := readSign rest
    if (c == 'e' || c == 'E') && !digits.isEmpty && digits.all Char.isDigit then
      some (if negative then -(decimalNumber digits : Int) else decimalNumber digits)
    else none

def readDigits? (negative : Bool) (s : List Char) : Option Binary64 :=
  let whole := s.takeWhile Char.isDigit
  let (fraction, rest) := match s.dropWhile Char.isDigit with
    | '.' :: rest => (rest.takeWhile Char.isDigit, rest.dropWhile Char.isDigit)
    | rest => ([], rest)
  if (whole ++ fraction).isEmpty then none
  else (readExponent? rest).map fun exponent =>
    ofDecimal negative (decimalNumber (whole ++ fraction)) (exponent - fraction.length)

def readPlain? (s : List Char) : Option Binary64 :=
  let (negative, rest) := readSign s
  let word := String.ofList (rest.map Char.toLower)
  if word = "inf" ∨ word = "infinity" then some (infinite negative)
  else readDigits? negative rest

def read? (s : String) : Option Binary64 := do
  let plain ← s.toList.mapM plainForm?
  let digits ← dropUnderscores false (trimBlanks plain)
  readPlain? digits

end NamedRoutes.Binary64
