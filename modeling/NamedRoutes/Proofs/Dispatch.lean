import NamedRoutes.Proofs.Navigation

/-!
# Handing a path on

A navigation to a path is handed on to the name of its best candidate. Candidates bear the names of
registered routes, so the path is resolved once and never again, whatever was to be done if it were:
a navigation that hands on to itself comes to the same. A navigation to what is neither a name nor a
path of a route is refused by a strict router; all other faults are raised by callbacks or by the
host.
-/
namespace NamedRoutes

namespace App

variable {κ ω : Type} {call : Caller κ ω} {app app' : App κ ω} {target : String} {params : Params}
  {updateUrl : Bool}

abbrev Navigator (κ ω : Type) := String → Params → Bool → Action (App κ ω) (Option Navigation)

/-- Visits the target if it is a name. Otherwise its best candidate is handed on to `next`. -/
def dispatch (call : Caller κ ω) (next : Navigator κ ω) : Navigator κ ω :=
  fun target params updateUrl => do
    match ← visit call target params updateUrl with
    | some navigation => return some navigation
    | none =>
      let router := (← get).router
      match router.resolve target with
      | best :: _ => next best.name best.params false
      | [] =>
        Action.failWith (if router.config.strict then some (.noRoute target "") else none)
        return none

theorem go_eq_dispatch_visit (call : Caller κ ω) : go call = dispatch call (visit call) := rfl

theorem dispatch_of_get? {route : Route κ} (next : Navigator κ ω)
    (hroute : app.router.routes.get? target = some route) :
    dispatch call next target params updateUrl app = visit call target params updateUrl app := by
  obtain ⟨called, outcome, app', hcalls⟩ := exists_callsInTurn call route.callbacks params app
  rw [dispatch, Action.bind_apply, visit_of_callsInTurn hroute hcalls]
  cases outcome with
  | error fault => rfl
  | ok arrived =>
    rw [conclude_ok]
    rcases arrive app.router route updateUrl arrived app' with ⟨r | r, app''⟩ <;> rfl

theorem dispatch_of_get?_eq_none (next : Navigator κ ω)
    (hname : app.router.routes.get? target = none) :
    dispatch call next target params updateUrl app =
      match app.router.resolve target with
      | best :: _ => next best.name best.params false app
      | [] =>
        (if app.router.config.strict then .error (.noRoute target "") else .ok none, app) := by
  rw [dispatch, Action.bind_apply, visit_of_get?_eq_none params updateUrl hname]
  dsimp only
  rw [Action.get_bind_apply]
  cases app.router.resolve target with
  | cons best rest => rfl
  | nil =>
    dsimp only
    cases app.router.config.strict <;> rfl

theorem dispatch_congr {next next' : Navigator κ ω}
    (h : ∀ name route, app.router.routes.get? name = some route → ∀ params,
      next name params false app = next' name params false app) :
    dispatch call next target params updateUrl app =
      dispatch call next' target params updateUrl app := by
  cases hname : app.router.routes.get? target with
  | some route => rw [dispatch_of_get? next hname, dispatch_of_get? next' hname]
  | none =>
    rw [dispatch_of_get?_eq_none next hname, dispatch_of_get?_eq_none next' hname]
    cases hres : app.router.resolve target with
    | nil => rfl
    | cons best rest =>
      obtain ⟨route, hroute⟩ := Router.exists_get?_of_mem_resolve (hres ▸ List.mem_cons_self)
      exact h best.name route hroute best.params

theorem go_eq_dispatch_dispatch (call : Caller κ ω) (otherwise : Navigator κ ω) :
    go call = dispatch call (dispatch call otherwise) := by
  funext target params updateUrl app
  rw [go_eq_dispatch_visit]
  exact dispatch_congr fun name route hroute params => (dispatch_of_get? otherwise hroute).symm

theorem go_eq_dispatch_go (call : Caller κ ω) : go call = dispatch call (go call) :=
  go_eq_dispatch_dispatch call (visit call)

theorem arrive_eq_error {router : Router κ} {route : Route κ} {push : Bool} {fault : Fault}
    (h : arrive router route push params app = (.error fault, app')) :
    app' = app ∧ app.host.push ⟨route.template.url params, route.name, params⟩ = .error fault := by
  rw [arrive_apply] at h
  split at h
  · split at h
    · split at h
      · cases h
      · next hpush =>
        cases h
        exact ⟨rfl, hpush⟩
    · cases h
  · cases h

/-- The fault that a navigation to a route ends in was raised by the callback that was called last,
or by the host when all callbacks had returned. -/
inductive RaisedOnTheWay (call : Caller κ ω) (route : Route κ) (given : Params) (app : App κ ω)
    (fault : Fault) (app' : App κ ω) : Prop
  | callback {called : List κ}
      (hcalls : CallsInTurn call route.callbacks given app called (.error fault) app')
  | host {arrived : Params}
      (hcalls : CallsInTurn call route.callbacks given app route.callbacks (.ok arrived) app')
      (hpush : app'.host.push ⟨route.template.url arrived, route.name, arrived⟩ = .error fault)

theorem raisedOnTheWay_of_go {route : Route κ} {given : Params} {push : Bool} {fault : Fault}
    (h : Destination app.router target params updateUrl route given push)
    (hgo : go call target params updateUrl app = (.error fault, app')) :
    RaisedOnTheWay call route given app fault app' := by
  obtain ⟨called, outcome, app₁, hcalls⟩ := exists_callsInTurn call route.callbacks given app
  rw [go_of_callsInTurn h hcalls] at hgo
  cases outcome with
  | error raised =>
    cases hgo
    exact .callback hcalls
  | ok arrived =>
    rw [conclude_ok] at hgo
    rcases harrive : arrive app.router route push arrived app₁ with ⟨r | r, app₂⟩ <;>
      rw [harrive] at hgo
    · cases hgo
      obtain ⟨rfl, hpush⟩ := arrive_eq_error harrive
      exact .host (hcalls.called_eq ▸ hcalls) hpush
    · cases hgo

/-- A navigation that fails was refused by a strict router, since nothing is registered for its
target, or it failed on the way to its destination. -/
theorem fault_of_go {fault : Fault}
    (hgo : go call target params updateUrl app = (.error fault, app')) :
    (app.router.config.strict ∧ app.router.routes.get? target = none ∧
        app.router.resolve target = [] ∧ fault = .noRoute target "" ∧ app' = app) ∨
      ∃ route given push, Destination app.router target params updateUrl route given push ∧
        RaisedOnTheWay call route given app fault app' := by
  cases hname : app.router.routes.get? target with
  | some route =>
    have h : Destination app.router target params updateUrl route params updateUrl := .named hname
    exact .inr ⟨route, params, updateUrl, h, raisedOnTheWay_of_go h hgo⟩
  | none =>
    rcases go_cases call target params updateUrl app with ⟨route, given, push, h⟩ | ⟨hres, hnone⟩
    · exact .inr ⟨route, given, push, h, raisedOnTheWay_of_go h hgo⟩
    · left
      rw [hnone] at hgo
      cases hstrict : app.router.config.strict <;> rw [hstrict] at hgo <;> cases hgo
      exact ⟨rfl, rfl, hres, rfl, rfl⟩

end App

end NamedRoutes
