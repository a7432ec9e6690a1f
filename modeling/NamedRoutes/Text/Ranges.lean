/-!
# Sets of code points

A set of code points is a list of closed ranges in ascending order. A search stops at the first
range that begins beyond the code point, so common characters cost little in a long table.
-/
namespace NamedRoutes.Text

abbrev Ranges := List (Nat × Nat)

namespace Ranges

def holds : Ranges → Nat → Bool
  | [], _ => false
  | (first, last) :: rest, n => first ≤ n && (n ≤ last || holds rest n)

end Ranges

end NamedRoutes.Text
