import NamedRoutes.Action
import NamedRoutes.Host
import NamedRoutes.RouteName
import NamedRoutes.Router
import NamedRoutes.Url

/-!
# Navigation

An application joins a router to its host and to whatever else the callbacks read and change. What
calls a callback is a parameter of every navigation, so that callbacks may in turn register routes,
observe them, or navigate.
-/
namespace NamedRoutes

structure App (κ ω : Type) where
  router : Router κ
  host : Host
  stage : ω

/-- What a navigation came to. There is a URL only where history is supported. -/
structure Navigation where
  route : String
  params : Params
  url : Option String
  pushed : Bool

namespace App

variable {κ ω : Type}

/-- Calls a callback with the parameters so far. It may change them, and it returns a value. -/
abbrev Caller (κ ω : Type) := κ → Params → Action (App κ ω) (Params × Value)

/-- Asks the host, once and for all, whether it supports history. -/
def start (host : Host) (config : Config) (stage : ω) : App κ ω :=
  ⟨.empty config host.supportsHistory, host.afterAsking, stage⟩

def addRoute (name path : String) (callbacks : List κ) : Action (App κ ω) (Route κ) := do
  let route : Route κ := ⟨name, ← Action.ofExcept (Template.ofPath path), callbacks⟩
  modify fun app => { app with router := app.router.register route }
  return route

def addRoutes : List (String × List κ) → Action (App κ ω) Unit
  | [] => pure ()
  | (path, callbacks) :: rest => do
    let _ ← addRoute (RouteName.ofPath path) path callbacks
    addRoutes rest

def observe (name : String) (callback : κ) : Action (App κ ω) Unit := do
  let app ← get
  match app.router.routes.get? name with
  | some route => set { app with router := app.router.observe route callback }
  | none => Action.failWith (if app.router.config.strict then some (.cannotObserve name) else none)

def urlFor (name : String) (params : Params) : Action (App κ ω) String := do
  match (← get).router.routes.get? name with
  | some route => return route.template.url params
  | none => throw (.noRoute name "")

def push (visit : Visit) : Action (App κ ω) Unit := do
  let app ← get
  let host ← Action.ofExcept (app.host.push visit)
  set { app with host }

/-- Calls the callbacks in turn. What one returns fills in the parameters that are missing. -/
def runCallbacks (call : Caller κ ω) : List κ → Params → Action (App κ ω) Params
  | [], params => pure params
  | callback :: rest, params => do
    let (changed, returned) ← call callback params
    runCallbacks call rest (changed.mergeDefaults returned)

/-- Ends a navigation: builds the URL and pushes it, where history is supported. Visits of the index
route are not pushed. -/
def arrive (router : Router κ) (route : Route κ) (updateUrl : Bool) (params : Params) :
    Action (App κ ω) Navigation :=
  if router.supportsHistory then do
    let url := route.template.url params
    let pushed := updateUrl && route.name != router.config.indexRoute
    if pushed then push ⟨url, route.name, params⟩
    return ⟨route.name, params, some url, pushed⟩
  else
    return ⟨route.name, params, none, false⟩

/-- Visits the route of this name, if there is one, as it stands when the visit begins. -/
def visit (call : Caller κ ω) (name : String) (params : Params) (updateUrl : Bool) :
    Action (App κ ω) (Option Navigation) := do
  let router := (← get).router
  match router.routes.get? name with
  | none => return none
  | some route =>
    let params ← runCallbacks call route.callbacks params
    return some (← arrive router route updateUrl params)

/-- Navigates to a name or, where it is none, to a path: the best route that matches it is visited
without a push. -/
def go (call : Caller κ ω) (target : String) (params : Params) (updateUrl : Bool) :
    Action (App κ ω) (Option Navigation) := do
  match ← visit call target params updateUrl with
  | some navigation => return some navigation
  | none =>
    let router := (← get).router
    match router.resolve target with
    | best :: _ => visit call best.name best.params false
    | [] =>
      Action.failWith (if router.config.strict then some (.noRoute target "") else none)
      return none

variable {call : Caller κ ω} {app : App κ ω} {name : String} {route : Route κ}

theorem addRoute_apply (name path : String) (callbacks : List κ) (app : App κ ω) :
    addRoute name path callbacks app =
      match Template.ofPath path with
      | .ok template =>
        (.ok ⟨name, template, callbacks⟩,
          { app with router := app.router.register ⟨name, template, callbacks⟩ })
      | .error fault => (.error fault, app) := by
  rw [addRoute, Action.bind_apply, Action.ofExcept_apply]
  cases Template.ofPath path <;> rfl

theorem observe_apply (name : String) (callback : κ) (app : App κ ω) :
    observe name callback app =
      match app.router.routes.get? name with
      | some route => (.ok (), { app with router := app.router.observe route callback })
      | none =>
        (if app.router.config.strict then .error (.cannotObserve name) else .ok (), app) := by
  rw [observe, Action.get_bind_apply]
  cases app.router.routes.get? name with
  | some route => rfl
  | none =>
    dsimp only
    rw [Action.failWith_apply]
    split <;> rfl

theorem push_apply (visit : Visit) (app : App κ ω) :
    push visit app =
      match app.host.push visit with
      | .ok host => (.ok (), { app with host })
      | .error fault => (.error fault, app) := by
  rw [push, Action.get_bind_apply, Action.bind_apply, Action.ofExcept_apply]
  cases app.host.push visit <;> rfl

theorem urlFor_of_get? (params : Params) (h : app.router.routes.get? name = some route) :
    urlFor name params app = (.ok (route.template.url params), app) := by
  rw [urlFor, Action.bind_apply, Action.get_apply]
  simp only [h, Action.pure_apply]

theorem visit_of_get? (params : Params) (updateUrl : Bool)
    (h : app.router.routes.get? name = some route) :
    visit call name params updateUrl app =
      (do
        let params ← runCallbacks call route.callbacks params
        return some (← arrive app.router route updateUrl params) : Action _ _) app := by
  rw [visit, Action.bind_apply, Action.get_apply]
  simp only [h]

theorem visit_of_get?_eq_none (params : Params) (updateUrl : Bool)
    (h : app.router.routes.get? name = none) :
    visit call name params updateUrl app = (.ok none, app) := by
  rw [visit, Action.bind_apply, Action.get_apply]
  simp only [h, Action.pure_apply]

theorem go_of_resolve {path : String} {best : Candidate} {args : Params}
    {updateUrl : Bool} (hname : app.router.routes.get? path = none)
    (hbest : (app.router.resolve path).head? = some best) :
    go call path args updateUrl app = visit call best.name best.params false app := by
  obtain ⟨rest, hres⟩ := List.head?_eq_some_iff.1 hbest
  rw [go, Action.bind_apply, visit_of_get?_eq_none args updateUrl hname]
  simp only [Action.bind_apply, Action.get_apply, hres]

theorem arrive_false (router : Router κ) (route : Route κ) (params : Params) (app : App κ ω) :
    arrive router route false params app =
      (.ok ⟨route.name, params,
        if router.supportsHistory then some (route.template.url params) else none, false⟩,
        app) := by
  rw [arrive]
  split <;> rfl

end App

end NamedRoutes
