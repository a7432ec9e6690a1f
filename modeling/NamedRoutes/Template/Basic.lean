import NamedRoutes.Text.Word

/-!
# Path templates

A template is a list of items: separators, literal characters, holes to be filled by a piece of a
path, and a final query marker. A hole ends its segment, and what a hole may be named and what may
follow an item is part of the type. The path of a template is what its items were written as.
-/
namespace NamedRoutes

/-- Neither a separator nor a mark. Literal text and the names of parameters are made of these. -/
def isOrdinary (c : Char) : Bool := c != '/' && c != '?' && c != ':' && c != '*'

theorem isOrdinary_iff {c : Char} : isOrdinary c ↔ c ≠ '/' ∧ c ≠ '?' ∧ c ≠ ':' ∧ c ≠ '*' := by
  simp [isOrdinary, and_assoc]

def isWildcardNameChar (c : Char) : Bool := Text.isWord c || c == '-'

theorem isOrdinary_of_isWildcardNameChar {c : Char} (h : isWildcardNameChar c) :
    isOrdinary c := by
  rw [isOrdinary_iff]
  refine ⟨?_, ?_, ?_, ?_⟩ <;> rintro rfl <;> simp [isWildcardNameChar] at h

/-- What may fill a hole. A parameter directly before the query marker leaves `?` to the marker. -/
inductive Hole where
  | param
  | paramBeforeQuery
  | wildcard
  deriving DecidableEq

namespace Hole

open Text

def allows : Hole → Char → Bool
  | param, c => c != '/'
  | paramBeforeQuery, c => c != '/' && c != '?'
  | wildcard, c => isWord c || c == '/' || c == '.' || c == '-'

def marker : Hole → Char
  | wildcard => '*'
  | _ => ':'

/-- What may be written as its name. -/
def AllowsName : Hole → List Char → Prop
  | wildcard, name => ∀ c ∈ name, isWildcardNameChar c
  | _, name => name ≠ [] ∧ ∀ c ∈ name, isOrdinary c

-- Only the characters of the name are gone through; there are instances that go through all.
instance : (kind : Hole) → (name : List Char) → Decidable (kind.AllowsName name)
  | wildcard, name => List.decidableBAll (isWildcardNameChar ·) name
  | param, name =>
    have := List.decidableBAll (isOrdinary ·) name
    inferInstanceAs (Decidable (_ ∧ _))
  | paramBeforeQuery, name =>
    have := List.decidableBAll (isOrdinary ·) name
    inferInstanceAs (Decidable (_ ∧ _))

theorem AllowsName.isOrdinary {kind : Hole} {name : List Char} (h : kind.AllowsName name) :
    ∀ c ∈ name, isOrdinary c := by
  cases kind with
  | wildcard => exact fun c hc => isOrdinary_of_isWildcardNameChar (h c hc)
  | param => exact h.2
  | paramBeforeQuery => exact h.2

end Hole

inductive Item where
  | separator
  | literal (c : Char)
  | hole (kind : Hole) (name : String)
  | query
  deriving DecidableEq

/-- The name of a wildcard that is written without one. -/
def wildcardName : String := "wildcard"

def queryName : String := "query"

/-- The name that a hole goes by when this is written after its marker. -/
def knownAs (written : String) : String := if written = "" then wildcardName else written

/-- The items, or the end, that may come next after a hole. -/
def Hole.followers : Hole → List (Option Item)
  | param => [none, some .separator]
  | paramBeforeQuery => [some .query]
  | wildcard => [none, some .separator, some .query]

namespace Item

def written : Item → List Char
  | separator => ['/']
  | literal c => [c]
  | hole kind name => kind.marker :: name.toList
  | query => ['?']

/-- The name under which the item's capture is known. -/
def captureName? : Item → Option String
  | hole _ name => some (knownAs name)
  | query => some queryName
  | _ => none

def isHole : Item → Bool
  | hole _ _ => true
  | _ => false

def isWildcard : Item → Bool
  | hole .wildcard _ => true
  | _ => false

/-- Whether the item may stand before these. -/
def StandsBefore : Item → List Item → Prop
  | separator, _ => True
  | literal c, _ => isOrdinary c
  | hole kind name, rest => kind.AllowsName name.toList ∧ rest.head? ∈ kind.followers
  | query, rest => rest = []

instance : (item : Item) → (rest : List Item) → Decidable (item.StandsBefore rest)
  | separator, _ => inferInstanceAs (Decidable True)
  | literal c, _ => inferInstanceAs (Decidable (isOrdinary c = true))
  | hole kind name, rest =>
    inferInstanceAs (Decidable (kind.AllowsName name.toList ∧ rest.head? ∈ kind.followers))
  | query, rest => inferInstanceAs (Decidable (rest = []))

/-- Every item may stand before those after it. -/
def WellFormed : List Item → Prop
  | [] => True
  | item :: rest => item.StandsBefore rest ∧ WellFormed rest

instance decidableWellFormed : (items : List Item) → Decidable (WellFormed items)
  | [] => inferInstanceAs (Decidable True)
  | item :: rest =>
    have := decidableWellFormed rest
    inferInstanceAs (Decidable (item.StandsBefore rest ∧ WellFormed rest))

@[simp] theorem wellFormed_nil : WellFormed [] := trivial

@[simp] theorem wellFormed_separator {rest : List Item} :
    WellFormed (separator :: rest) ↔ WellFormed rest :=
  ⟨And.right, And.intro trivial⟩

@[simp] theorem wellFormed_literal {c : Char} {rest : List Item} :
    WellFormed (literal c :: rest) ↔ isOrdinary c ∧ WellFormed rest := Iff.rfl

@[simp] theorem wellFormed_hole {kind : Hole} {name : String} {rest : List Item} :
    WellFormed (hole kind name :: rest) ↔
      (kind.AllowsName name.toList ∧ rest.head? ∈ kind.followers) ∧ WellFormed rest := Iff.rfl

@[simp] theorem wellFormed_query {rest : List Item} :
    WellFormed (query :: rest) ↔ rest = [] :=
  ⟨And.left, fun h => ⟨h, h ▸ trivial⟩⟩

theorem WellFormed.tail {item : Item} {rest : List Item} (h : WellFormed (item :: rest)) :
    WellFormed rest := h.2

end Item

@[ext] structure Template where
  items : List Item
  wellFormed : Item.WellFormed items
  deriving DecidableEq

namespace Template

def writtenItems (items : List Item) : List Char := items.flatMap Item.written

@[simp] theorem writtenItems_nil : writtenItems [] = [] := rfl

@[simp] theorem writtenItems_cons (item : Item) (items : List Item) :
    writtenItems (item :: items) = item.written ++ writtenItems items := rfl

def path (t : Template) : String := String.ofList (writtenItems t.items)

/-- The names of the captures, by ordinal. -/
def captureNames (items : List Item) : List String := items.filterMap Item.captureName?

@[simp] theorem captureNames_nil : captureNames [] = [] := rfl

@[simp] theorem captureNames_separator (items : List Item) :
    captureNames (.separator :: items) = captureNames items := rfl

@[simp] theorem captureNames_literal (c : Char) (items : List Item) :
    captureNames (.literal c :: items) = captureNames items := rfl

@[simp] theorem captureNames_hole (kind : Hole) (name : String) (items : List Item) :
    captureNames (.hole kind name :: items) = knownAs name :: captureNames items := rfl

@[simp] theorem captureNames_query (items : List Item) :
    captureNames (.query :: items) = queryName :: captureNames items := rfl

def names (t : Template) : List String := captureNames t.items

def hasQueryMarker (t : Template) : Bool := t.items.getLast? == some .query

end Template

end NamedRoutes
