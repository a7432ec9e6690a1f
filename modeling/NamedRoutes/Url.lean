import NamedRoutes.Template.Basic
import NamedRoutes.Text.Percent
import NamedRoutes.Value.Text

/-!
# Building URLs

Each parameter in turn replaces the first placeholder of its name in the path written so far. A
placeholder is `:` or `*` and the name, and it ends at `/`, at `?` or with the text, which also ends
just before a last line end; a lone `*` is a placeholder of the unnamed wildcard. A parameter
without placeholder becomes a percent-encoded pair after `?`. A template with a query marker takes
the query verbatim, before all pairs.
-/
namespace NamedRoutes

def endsPlaceholder : List Char → Bool
  | [] => true
  | c :: s => c == '/' || c == '?' || (c == '\n' && s.isEmpty)

def afterKey? : List Char → List Char → Option (List Char)
  | [], s => some s
  | _ :: _, [] => none
  | k :: key, c :: s => if k = c then afterKey? key s else none

/-- What follows the placeholder at the beginning of a text. -/
def afterPlaceholder? (key : List Char) : List Char → Option (List Char)
  | [] => none
  | c :: s =>
    if c = ':' ∨ c = '*' then
      match (afterKey? key s).filter endsPlaceholder with
      | some rest => some rest
      | none =>
        if c = '*' ∧ key = wildcardName.toList ∧ endsPlaceholder s then some s else none
    else none

/-- Puts text in the place of the first placeholder, if there is one. -/
def fill? (key text : List Char) : List Char → Option (List Char)
  | [] => none
  | c :: s =>
    match afterPlaceholder? key (c :: s) with
    | some rest => some (text ++ rest)
    | none => (fill? key text s).map (c :: ·)

structure UrlDraft where
  path : List Char
  query : List (List Char)
  deriving DecidableEq

namespace UrlDraft

def pair (key : String) (value : Value) : List Char :=
  Text.Percent.encode key.toList ++ '=' :: Text.Percent.encode value.inUrl

/-- Takes in one parameter. `marked` tells that the template has a query marker. -/
def give (marked : Bool) (d : UrlDraft) (key : String) (value : Value) : UrlDraft :=
  if marked ∧ key = queryName then
    if value.isTruthy then ⟨d.path, value.plain :: d.query⟩ else d
  else
    match fill? key.toList value.inUrl d.path with
    | some path => ⟨path, d.query⟩
    | none => ⟨d.path, d.query ++ [pair key value]⟩

def giveAll (marked : Bool) (d : UrlDraft) (es : List (String × Value)) : UrlDraft :=
  es.foldl (fun d e => d.give marked e.1 e.2) d

@[simp] theorem giveAll_nil (marked : Bool) (d : UrlDraft) : d.giveAll marked [] = d := rfl

@[simp] theorem giveAll_cons (marked : Bool) (d : UrlDraft) (e : String × Value)
    (es : List (String × Value)) :
    d.giveAll marked (e :: es) = (d.give marked e.1 e.2).giveAll marked es := rfl

def text (d : UrlDraft) : List Char :=
  if d.query = [] then d.path else d.path ++ '?' :: List.intercalate ['&'] d.query

end UrlDraft

namespace Template

/-- The path without its query marker. -/
def basePath (t : Template) : List Char :=
  if t.hasQueryMarker then (writtenItems t.items).dropLast else writtenItems t.items

def urlDraft (t : Template) (params : Params) : UrlDraft :=
  UrlDraft.giveAll t.hasQueryMarker ⟨t.basePath, []⟩ params.entries

def url (t : Template) (params : Params) : String := String.ofList (t.urlDraft params).text

end Template

end NamedRoutes
