/-!
# Names derived from paths

A route that is given without a name is named after its path: separators become dots, every colon
goes, and so do a dot at the beginning and one at the end. The end of a text is also the place just
before a last line end.
-/
namespace NamedRoutes.RouteName

def endsText (s : List Char) : Bool := s.isEmpty || s == ['\n']

/-- Drops the colons and the outer dots; the flag tells the beginning of the text. -/
def tidy : Bool → List Char → List Char
  | _, [] => []
  | atStart, c :: s =>
    if c == ':' || (c == '.' && (atStart || endsText s)) then tidy false s else c :: tidy false s

def dotted (c : Char) : Char := if c = '/' then '.' else c

def ofPath (path : String) : String := String.ofList (tidy true (path.toList.map dotted))

example : tidy true ['.', 'a', '.', ':', 'b', '.'] = ['a', '.', 'b'] := by decide

end NamedRoutes.RouteName
