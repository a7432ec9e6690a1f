import NamedRoutes.Config
import NamedRoutes.Template.Match
import NamedRoutes.Template.Rank

/-!
# Routers

A router registers routes by name, in the order in which the names first came; what stands under a
name bears that name. Registering a name again replaces its route, callbacks and all, and keeps its
place. A path is resolved to the routes that match it, by falling rank; equals stay in the order of
the registry. The root path stands for the index route alone, when that is registered.
-/
namespace NamedRoutes

variable {κ : Type}

structure Route (κ : Type) where
  name : String
  template : Template
  callbacks : List κ

structure Candidate where
  name : String
  params : Params
  template : Template

namespace Candidate

/-- Without a query, a template with a query marker is not an exact fit. -/
def isExact (c : Candidate) : Bool :=
  !c.template.hasQueryMarker || c.params.contains queryName

def rank (c : Candidate) : Rank := ⟨c.template.specificity, c.isExact, c.template.weight⟩

/-- Puts a candidate before the first one that does not rank above it. -/
def place (c : Candidate) : List Candidate → List Candidate
  | [] => [c]
  | d :: rest => if c.rank < d.rank then d :: place c rest else c :: d :: rest

/-- Sorts by falling rank; equals keep their order. -/
def sort (cs : List Candidate) : List Candidate := cs.foldr place []

end Candidate

structure Router (κ : Type) where
  routes : OrderedMap (Route κ)
  named : ∀ {name route}, routes.get? name = some route → route.name = name
  config : Config
  supportsHistory : Bool

namespace Router

def empty (config : Config) (supportsHistory : Bool) : Router κ :=
  ⟨.empty, by simp, config, supportsHistory⟩

def register (r : Router κ) (route : Route κ) : Router κ :=
  { r with
    routes := r.routes.insert route.name route
    named := by
      intro name found h
      rw [OrderedMap.get?_insert] at h
      split at h
      · next hn => exact (Option.some.inj h ▸ hn.symm)
      · exact r.named h }

/-- Stores a route anew with one more callback, behind those it has. -/
def observe (r : Router κ) (route : Route κ) (callback : κ) : Router κ :=
  r.register { route with callbacks := route.callbacks ++ [callback] }

def candidate? (path : String) (route : Route κ) : Option Candidate :=
  (route.template.match? path).map fun params => ⟨route.name, params, route.template⟩

/-- The index route, when the path is the root path. -/
def rootCandidate? (r : Router κ) (path : String) : Option Candidate :=
  if path = r.config.rootPath then
    (r.routes.get? r.config.indexRoute).map fun route => ⟨route.name, .empty, route.template⟩
  else none

def resolve (r : Router κ) (path : String) : List Candidate :=
  match r.rootCandidate? path with
  | some c => [c]
  | none => Candidate.sort (r.routes.values.filterMap (candidate? path))

end Router

end NamedRoutes
