import NamedRoutes.Template.Basic

/-!
# Matching text of templates

The source of a template is the regular expression it stands for, anchored at both ends. Its weight
is the length of the source, plus one, plus the number of parameters that something follows, less
the number of wildcards.
-/
namespace NamedRoutes

/-- Characters that have a meaning of their own in a regular expression. -/
def isMeta (c : Char) : Bool :=
  ['(', ')', '[', ']', '\x7b', '\x7d', '?', '*', '+', '-', '|', '^', '$', '\\', '.', '&', '~', '#',
    ' ', '\t', '\n', '\r', '\x0b', '\x0c'].contains c

def escapeMeta (c : Char) : List Char := if isMeta c then ['\\', c] else [c]

namespace Hole

def source : Hole → List Char
  | param => ['(', '[', '^', '\\', '/', ']', '+', ')']
  | paramBeforeQuery => ['(', '[', '^', '\\', '/', '?', ']', '+', ')']
  | wildcard => ['(', '[', '\\', 'w', '\\', '/', '.', '-', ']', '+', ')']

end Hole

namespace Item

def source : Item → List Char
  | separator => ['\\', '/']
  | literal c => escapeMeta c
  | hole kind _ => kind.source
  | query => ['(', '?', ':', '\\', '?', '(', '.', '*', ')', ')', '?']

end Item

namespace Template

def sourceChars (t : Template) : List Char := '^' :: (t.items.flatMap Item.source ++ ['$'])

def source (t : Template) : String := String.ofList t.sourceChars

/-- Counts the parameters that do not end the template. -/
def followedParams : List Item → Nat
  | [] => 0
  | .hole .wildcard _ :: rest => followedParams rest
  | .hole _ _ :: rest => followedParams rest + (if rest = [] then 0 else 1)
  | _ :: rest => followedParams rest

def weight (t : Template) : Nat :=
  t.sourceChars.length + (followedParams t.items + 1) - t.items.countP Item.isWildcard

end Template

end NamedRoutes
