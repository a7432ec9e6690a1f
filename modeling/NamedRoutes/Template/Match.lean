import NamedRoutes.Template.Basic
import NamedRoutes.Text.CaseFold
import NamedRoutes.Value.Basic

/-!
# Matching paths

A path matches a template when it can be cut, end to end, into pieces that fit the items in order.
Of several cuts the one is taken whose captures, from the left, are longest. A query marker fits
nothing at all, or a `?` and a text without line ends.
-/
namespace NamedRoutes

variable {β : Type}

/-- The longest non-empty run of allowed characters after which `next` succeeds. -/
def longestRun (allowed : Char → Bool) (next : List Char → Option β) :
    List Char → Option (List Char × β)
  | [] => none
  | c :: s =>
    if allowed c then
      match longestRun allowed next s with
      | some (run, b) => some (c :: run, b)
      | none => (next s).map (([c], ·))
    else none

def longestRunOrNone (allowed : Char → Bool) (next : List Char → Option β) (s : List Char) :
    Option (List Char × β) :=
  match longestRun allowed next s with
  | some r => some r
  | none => (next s).map (([], ·))

namespace Template

/-- The captures of the cut that is taken, by ordinal. The query has none when it is absent. -/
def captures? : List Item → List Char → Option (List (Option (List Char)))
  | [], s => if s = [] then some [] else none
  | .separator :: items, s =>
    match s with
    | [] => none
    | c :: s => if c = '/' then captures? items s else none
  | .literal a :: items, s =>
    match s with
    | [] => none
    | c :: s => if Text.sameLetter a c then captures? items s else none
  | .hole kind _ :: items, s =>
    (longestRun kind.allows (captures? items) s).map fun (run, rest) => some run :: rest
  | .query :: items, s =>
    match withQuery (captures? items) s with
    | some (run, rest) => some (some run :: rest)
    | none => (captures? items s).map (none :: ·)
where
  withQuery (next : List Char → Option (List (Option (List Char)))) :
      List Char → Option (List Char × List (Option (List Char)))
    | [] => none
    | c :: s => if c = '?' then longestRunOrNone (· != '\n') next s else none

/-- Gives the captures to the names; a repeated name keeps its place and takes the last. -/
def bind (names : List String) (captures : List (Option (List Char))) : Params :=
  .ofList ((names.zip captures).filterMap fun (name, capture) =>
    capture.map fun run => (name, .str (String.ofList run)))

def match? (t : Template) (path : String) : Option Params :=
  (captures? t.items path.toList).map (bind t.names)

end Template

end NamedRoutes
