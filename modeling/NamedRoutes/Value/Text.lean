import NamedRoutes.Binary64.Layout
import NamedRoutes.Text.Quoted
import NamedRoutes.Value.Basic

/-!
# The text of a value

`display` is the text of a value inside a container, where text is quoted. `plain` differs on text,
which stands as it is. `inUrl` differs from `plain` on null and the truth values, which are spelled
in lower case.
-/
namespace NamedRoutes.Value

open Text

/-- Powers of ten from `-4` to `15` are written positionally, exponents with two digits. -/
def floatLayout : Binary64.Layout := ⟨-4, 15, 2⟩

def intText (n : Int) : List Char :=
  (if n < 0 then ['-'] else []) ++ Nat.toDigits 10 n.natAbs

def nullText : List Char := ['N', 'o', 'n', 'e']

def boolText (b : Bool) : List Char :=
  if b then ['T', 'r', 'u', 'e'] else ['F', 'a', 'l', 's', 'e']

mutual

def display : Value → List Char
  | .null => nullText
  | .bool b => boolText b
  | .int n => intText n
  | .float x => (floatLayout.text x).toList
  | .str s => quotedChars s.toList
  | .list items => '[' :: displayItems items ++ [']']
  | .dict entries => '\x7b' :: displayEntries entries ++ ['\x7d']

def displayItems : List Value → List Char
  | [] => []
  | [v] => display v
  | v :: w :: rest => display v ++ ',' :: ' ' :: displayItems (w :: rest)

def displayEntries : List (String × Value) → List Char
  | [] => []
  | [(k, v)] => quotedChars k.toList ++ ':' :: ' ' :: display v
  | (k, v) :: e :: rest =>
    quotedChars k.toList ++ ':' :: ' ' :: display v ++ ',' :: ' ' :: displayEntries (e :: rest)

end

def plain : Value → List Char
  | .str s => s.toList
  | v => display v

def inUrl : Value → List Char
  | .null => ['n', 'u', 'l', 'l']
  | .bool true => ['t', 'r', 'u', 'e']
  | .bool false => ['f', 'a', 'l', 's', 'e']
  | v => plain v

def displayText (v : Value) : String := String.ofList v.display

@[simp] theorem plain_str (s : String) : (str s).plain = s.toList := rfl

@[simp] theorem inUrl_str (s : String) : (str s).inUrl = s.toList := rfl

end NamedRoutes.Value
