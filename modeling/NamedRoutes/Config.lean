/-!
# Configuration of a router
-/
namespace NamedRoutes

structure Config where
  /-- Whether a name or path without a route is a fault; otherwise it is passed over. -/
  strict : Bool := false
  /-- The route that the root path stands for. Visiting it is never pushed. -/
  indexRoute : String := "index"
  rootPath : String := "/"
  deriving DecidableEq

end NamedRoutes
