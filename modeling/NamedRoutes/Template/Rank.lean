import NamedRoutes.Template.Source

/-!
# Ranks

Each segment of a template scores by its broadest item: two for literal text, one for a parameter,
none for a wildcard. The scores in order are the specificity. A rank compares specificities in
lexicographic order, a proper beginning being smaller, then exactness, then weight.
-/
namespace NamedRoutes

namespace Item

def score : Item → Nat
  | hole .wildcard _ => 0
  | hole _ _ => 1
  | _ => 2

end Item

namespace Template

/-- The score of each segment, the first of which is still to be completed on the left. -/
def scores : List Item → List Nat
  | [] => [2]
  | .separator :: rest => 2 :: scores rest
  | item :: rest => (scores rest).modifyHead (min item.score)

def specificity (t : Template) : List Nat := scores t.items

end Template

structure Rank where
  specificity : List Nat
  exact : Bool
  weight : Nat
  deriving DecidableEq

namespace Rank

def Below (a b : Rank) : Prop :=
  a.specificity < b.specificity ∨
    a.specificity = b.specificity ∧
      (a.exact < b.exact ∨ a.exact = b.exact ∧ a.weight < b.weight)

instance : LT Rank := ⟨Below⟩

instance (a b : Rank) : Decidable (a < b) :=
  inferInstanceAs (Decidable (a.specificity < b.specificity ∨
    a.specificity = b.specificity ∧
      (a.exact < b.exact ∨ a.exact = b.exact ∧ a.weight < b.weight)))

theorem lt_iff {a b : Rank} :
    a < b ↔ a.specificity < b.specificity ∨
      a.specificity = b.specificity ∧
        (a.exact < b.exact ∨ a.exact = b.exact ∧ a.weight < b.weight) :=
  Iff.rfl

end Rank

end NamedRoutes
