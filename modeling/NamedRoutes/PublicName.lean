import NamedRoutes.Text.Quoted

/-!
# Public names

The names that the library offers to its users, each with the module that defines it.
-/
namespace NamedRoutes.PublicName

def packageName : String := "waypoint"

def homes : List (String × String) :=
  [("Candidate", "waypoint.routing.route"),
   ("InvalidPatternError", "waypoint.errors"),
   ("Navigation", "waypoint.routing.route"),
   ("NavigationHost", "waypoint.host"),
   ("NavigationState", "waypoint.host"),
   ("NullHost", "waypoint.host"),
   ("RouteEntry", "waypoint.routing.route"),
   ("RouteInitializationError", "waypoint.errors"),
   ("RouteLifecycle", "waypoint.lifecycle"),
   ("RouteNotFound", "waypoint.errors"),
   ("RoutePattern", "waypoint.routing.pattern"),
   ("RouteRegistry", "waypoint.lifecycle"),
   ("Router", "waypoint.routing.router"),
   ("RouterConfig", "waypoint.config"),
   ("WaypointError", "waypoint.errors"),
   ("compile_path", "waypoint.routing.pattern"),
   ("route_name_from_path", "waypoint.routing.router")]

/-- The module that defines a public name. -/
def home? (name : String) : Option String := homes.lookup name

def missingMessage (name : String) : String :=
  "module " ++ Text.quoted packageName ++ " has no attribute " ++ Text.quoted name

end NamedRoutes.PublicName
