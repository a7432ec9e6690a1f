import NamedRoutes.Binary64.Basic
import NamedRoutes.OrderedMap

/-!
# Values

The values that parameters, callbacks and lifecycles carry. A dictionary lists its pairs in order,
its names being distinct. Parameters are an ordered map from names to values.
-/
namespace NamedRoutes

inductive Value where
  | null
  | bool (b : Bool)
  | int (n : Int)
  | float (x : Binary64)
  | str (s : String)
  | list (items : List Value)
  | dict (entries : List (String × Value))
  deriving Inhabited

abbrev Params := OrderedMap Value

namespace Value

/-- Null, false, the zeros, and empty text, lists and dictionaries are not truthy. -/
def isTruthy : Value → Bool
  | null => false
  | bool b => b
  | int n => n != 0
  | float x => !x.isZero
  | str s => !s.isEmpty
  | list items => !items.isEmpty
  | dict entries => !entries.isEmpty

def kindName : Value → String
  | null => "NoneType"
  | bool _ => "bool"
  | int _ => "int"
  | float _ => "float"
  | str _ => "str"
  | list _ => "list"
  | dict _ => "dict"

end Value

namespace OrderedMap

def toValue (p : OrderedMap Value) : Value := .dict p.entries

/-- Fills in the names that are missing. What is not a dictionary has nothing to add. -/
def mergeDefaults (p : OrderedMap Value) : Value → OrderedMap Value
  | .dict entries => p.insertAllNew entries
  | _ => p

/-- The parameters after each of the defaults in turn. -/
def mergeEach (p : OrderedMap Value) : List Value → List (OrderedMap Value)
  | [] => []
  | v :: rest => p.mergeDefaults v :: (p.mergeDefaults v).mergeEach rest

end OrderedMap

end NamedRoutes
