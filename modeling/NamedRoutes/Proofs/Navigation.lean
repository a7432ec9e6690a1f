import NamedRoutes.App
import NamedRoutes.Proofs.Resolution

/-!
# The callbacks of a navigation

A navigation calls the callbacks that its route has when the visit begins, one after another, up to
the first that fails. Whatever they do meanwhile to the routes, to the history or to anything else,
no other callback is called for this visit, and a fault ends it there.
-/
namespace NamedRoutes

/-- What the history gains by a visit that is pushed and not refused. -/
def Host.kept (h : Host) (visit : Visit) : List Visit :=
  match h.behaviour with
  | .silent => []
  | _ => [visit]

theorem Host.eq_of_push_eq_ok {h h' : Host} {visit : Visit} (hpush : h.push visit = .ok h') :
    h' = { h with history := h.history ++ h.kept visit } := by
  obtain ⟨behaviour, asked, history⟩ := h
  cases behaviour with
  | memory _ =>
    cases hpush
    rfl
  | silent =>
    cases hpush
    simp only [kept, List.append_nil]
  | scripted _ refusal =>
    cases refusal with
    | none =>
      cases hpush
      rfl
    | some _ => cases hpush

theorem Host.kept_cases (h : Host) (visit : Visit) :
    h.kept visit = [] ∨ h.kept visit = [visit] := by
  rw [kept]
  split
  · exact .inl rfl
  · exact .inr rfl

namespace App

variable {κ ω : Type} {call : Caller κ ω}

/-- `CallsInTurn call callbacks params app called outcome app'`: of `callbacks` in turn, `called`
are called, the first one with `params` and the others with the parameters that were left by the one
before, filled in with what it returned. A fault ends the calls. -/
inductive CallsInTurn (call : Caller κ ω) :
    List κ → Params → App κ ω → List κ → Except Fault Params → App κ ω → Prop
  | done {params app} : CallsInTurn call [] params app [] (.ok params) app
  | fails {callback rest params app fault app'}
      (hcall : call callback params app = (.error fault, app')) :
      CallsInTurn call (callback :: rest) params app [callback] (.error fault) app'
  | returns {callback rest params app changed returned app₁ called outcome app'}
      (hcall : call callback params app = (.ok (changed, returned), app₁))
      (hrest : CallsInTurn call rest (changed.mergeDefaults returned) app₁ called outcome app') :
      CallsInTurn call (callback :: rest) params app (callback :: called) outcome app'

variable {callbacks called : List κ} {params : Params} {outcome : Except Fault Params}
  {app app' : App κ ω}

theorem CallsInTurn.runCallbacks_eq
    (h : CallsInTurn call callbacks params app called outcome app') :
    runCallbacks call callbacks params app = (outcome, app') := by
  induction h with
  | done => rfl
  | fails hcall => rw [runCallbacks, Action.bind_apply, hcall]
  | returns hcall _ ih =>
    rw [runCallbacks, Action.bind_apply, hcall]
    exact ih

theorem exists_callsInTurn (call : Caller κ ω) (callbacks : List κ) (params : Params)
    (app : App κ ω) :
    ∃ called outcome app', CallsInTurn call callbacks params app called outcome app' := by
  induction callbacks generalizing params app with
  | nil => exact ⟨[], _, _, .done⟩
  | cons callback rest ih =>
    rcases hcall : call callback params app with ⟨r, app₁⟩
    cases r with
    | error fault => exact ⟨[callback], _, _, .fails hcall⟩
    | ok answer =>
      obtain ⟨called, outcome, app', h⟩ := ih (answer.1.mergeDefaults answer.2) app₁
      exact ⟨callback :: called, outcome, app', .returns hcall h⟩

theorem CallsInTurn.isPrefix (h : CallsInTurn call callbacks params app called outcome app') :
    called <+: callbacks := by
  induction h with
  | done => exact List.prefix_rfl
  | fails _ => exact List.prefix_append [_] _
  | returns _ _ ih => exact (List.prefix_cons_inj _).2 ih

theorem CallsInTurn.called_eq {arrived : Params}
    (h : CallsInTurn call callbacks params app called (.ok arrived) app') :
    called = callbacks := by
  generalize houtcome : Except.ok arrived = outcome at h
  induction h with
  | done => rfl
  | fails _ => cases houtcome
  | returns _ _ ih => rw [ih houtcome]

theorem CallsInTurn.append {before finished rest : List κ} {arrived : Params} {app₁ : App κ ω}
    (h : CallsInTurn call before params app finished (.ok arrived) app₁)
    (hrest : CallsInTurn call rest arrived app₁ called outcome app') :
    CallsInTurn call (before ++ rest) params app (finished ++ called) outcome app' := by
  generalize hfirst : Except.ok arrived = first at h
  induction h with
  | done =>
    cases hfirst
    exact hrest
  | fails _ => cases hfirst
  | returns hcall _ ih => exact .returns hcall (ih hrest hfirst)

theorem CallsInTurn.exists_of_error {fault : Fault}
    (h : CallsInTurn call callbacks params app called (.error fault) app') :
    ∃ before callback after arrived app₁, callbacks = before ++ callback :: after ∧
      called = before ++ [callback] ∧
      CallsInTurn call before params app before (.ok arrived) app₁ ∧
      call callback arrived app₁ = (.error fault, app') := by
  generalize houtcome : Except.error fault = outcome at h
  induction h with
  | done => cases houtcome
  | @fails callback rest params app _ _ hcall =>
    cases houtcome
    exact ⟨[], callback, rest, params, app, rfl, rfl, .done, hcall⟩
  | returns hcall _ ih =>
    obtain ⟨before, last, after, arrived, app₁, rfl, rfl, hbefore, hlast⟩ := ih houtcome
    exact ⟨_ :: before, last, after, arrived, app₁, rfl, rfl, .returns hcall hbefore, hlast⟩

def noted (app : App κ ω) (log : List κ) : App κ (ω × List κ) :=
  ⟨app.router, app.host, app.stage, log⟩

/-- Calls as before, and notes down what is called. -/
def noting (call : Caller κ ω) : Caller κ (ω × List κ) := fun callback params app =>
  let (result, app') := call callback params ⟨app.router, app.host, app.stage.1⟩
  (result, app'.noted (app.stage.2 ++ [callback]))

theorem CallsInTurn.noting (h : CallsInTurn call callbacks params app called outcome app')
    (log : List κ) :
    CallsInTurn (noting call) callbacks params (app.noted log) called outcome
      (app'.noted (log ++ called)) := by
  induction h generalizing log with
  | done =>
    rw [List.append_nil]
    exact .done
  | @fails callback _ params app fault app' hcall =>
    refine .fails ?_
    change ((call callback params app).1,
      (call callback params app).2.noted (log ++ [callback])) = _
    rw [hcall]
  | @returns callback _ params app changed returned app₁ called _ _ hcall _ ih =>
    have hnoted : App.noting call callback params (app.noted log) =
        (.ok (changed, returned), app₁.noted (log ++ [callback])) := by
      change ((call callback params app).1,
        (call callback params app).2.noted (log ++ [callback])) = _
      rw [hcall]
    refine .returns hnoted ?_
    rw [List.append_cons log callback called]
    exact ih _

theorem arrive_apply (router : Router κ) (route : Route κ) (updateUrl : Bool) (params : Params)
    (app : App κ ω) :
    arrive router route updateUrl params app =
      if router.supportsHistory then
        if updateUrl && route.name != router.config.indexRoute then
          match app.host.push ⟨route.template.url params, route.name, params⟩ with
          | .ok host =>
            (.ok ⟨route.name, params, some (route.template.url params), true⟩, { app with host })
          | .error fault => (.error fault, app)
        else (.ok ⟨route.name, params, some (route.template.url params), false⟩, app)
      else (.ok ⟨route.name, params, none, false⟩, app) := by
  rw [arrive]
  split
  · dsimp only
    cases updateUrl && route.name != router.config.indexRoute with
    | true =>
      rw [if_pos rfl, Action.bind_apply, push_apply]
      cases app.host.push ⟨route.template.url params, route.name, params⟩ <;> rfl
    | false => rfl
  · rfl

def keeping (app : App κ ω) (visits : List Visit) : App κ ω :=
  { app with host := { app.host with history := app.host.history ++ visits } }

theorem keeping_nil (app : App κ ω) : app.keeping [] = app := by
  simp only [keeping, List.append_nil]

def pushesOnArrival (router : Router κ) (route : Route κ) (updateUrl : Bool) : Bool :=
  router.supportsHistory && (updateUrl && route.name != router.config.indexRoute)

theorem supportsHistory_of_pushesOnArrival {router : Router κ} {route : Route κ} {updateUrl : Bool}
    (h : pushesOnArrival router route updateUrl) : router.supportsHistory := by
  rw [pushesOnArrival, Bool.and_eq_true] at h
  exact h.1

/-- An arrival is refused by the host, or it is told with its URL and pushed if it is to be. -/
theorem arrive_cases (router : Router κ) (route : Route κ) (updateUrl : Bool) (params : Params)
    (app : App κ ω) :
    (∃ fault, arrive router route updateUrl params app = (.error fault, app)) ∨
      arrive router route updateUrl params app =
        (.ok ⟨route.name, params,
          if router.supportsHistory then some (route.template.url params) else none,
          pushesOnArrival router route updateUrl⟩,
          app.keeping (if pushesOnArrival router route updateUrl then
            app.host.kept ⟨route.template.url params, route.name, params⟩ else [])) := by
  rw [arrive_apply, pushesOnArrival]
  cases router.supportsHistory with
  | false => exact .inr (by simp [keeping_nil])
  | true =>
    rw [Bool.true_and]
    cases updateUrl && route.name != router.config.indexRoute with
    | false => exact .inr (by simp [keeping_nil])
    | true =>
      cases hpush : app.host.push ⟨route.template.url params, route.name, params⟩ with
      | error fault => exact .inl ⟨fault, rfl⟩
      | ok host =>
        right
        rw [Host.eq_of_push_eq_ok hpush]
        rfl

theorem arrive_noted (router : Router κ) (route : Route κ) (updateUrl : Bool) (params : Params)
    (app : App κ ω) (log : List κ) :
    arrive router route updateUrl params (app.noted log) =
      ((arrive router route updateUrl params app).1,
        (arrive router route updateUrl params app).2.noted log) := by
  rw [arrive_apply, arrive_apply, noted]
  split
  · split
    · cases app.host.push ⟨route.template.url params, route.name, params⟩ <;> rfl
    · rfl
  · rfl

/-- What a navigation visits: the route of that name, or else the route of the best candidate for
the path, with the parameters of the path and without a push. -/
inductive Destination (router : Router κ) (target : String) (params : Params) (updateUrl : Bool) :
    Route κ → Params → Bool → Prop
  | named {route} (hroute : router.routes.get? target = some route) :
      Destination router target params updateUrl route params updateUrl
  | resolved {best route} (hname : router.routes.get? target = none)
      (hbest : (router.resolve target).head? = some best)
      (hroute : router.routes.get? best.name = some route) :
      Destination router target params updateUrl route best.params false

theorem Destination.get?_name {router : Router κ} {target : String} {params given : Params}
    {updateUrl push : Bool} {route : Route κ}
    (h : Destination router target params updateUrl route given push) :
    router.routes.get? route.name = some route := by
  cases h with
  | named hroute => rw [router.named hroute, hroute]
  | resolved _ _ hroute => rw [router.named hroute, hroute]

def conclude (router : Router κ) (route : Route κ) (push : Bool) (outcome : Except Fault Params) :
    Action (App κ ω) (Option Navigation) := do
  let arrived ← Action.ofExcept outcome
  return some (← arrive router route push arrived)

theorem conclude_error (router : Router κ) (route : Route κ) (push : Bool) (fault : Fault)
    (app : App κ ω) : conclude router route push (.error fault) app = (.error fault, app) :=
  rfl

theorem conclude_ok (router : Router κ) (route : Route κ) (push : Bool) (arrived : Params)
    (app : App κ ω) :
    conclude router route push (.ok arrived) app =
      ((arrive router route push arrived app).1.map some,
        (arrive router route push arrived app).2) := by
  change (arrive router route push arrived >>= fun navigation => pure (some navigation)) app = _
  rw [Action.bind_apply]
  rcases arrive router route push arrived app with ⟨r | r, app'⟩ <;> rfl

theorem conclude_noted (router : Router κ) (route : Route κ) (push : Bool)
    (outcome : Except Fault Params) (app : App κ ω) (log : List κ) :
    (conclude router route push outcome (app.noted log)).2.stage.2 = log := by
  cases outcome with
  | error fault => rfl
  | ok arrived =>
    rw [conclude_ok, arrive_noted]
    rfl

variable {target : String} {updateUrl push : Bool} {route : Route κ} {given : Params}

theorem visit_of_callsInTurn {name : String} (hroute : app.router.routes.get? name = some route)
    (h : CallsInTurn call route.callbacks params app called outcome app') :
    visit call name params updateUrl app = conclude app.router route updateUrl outcome app' := by
  rw [visit_of_get? params updateUrl hroute, Action.bind_apply, h.runCallbacks_eq]
  cases outcome with
  | error fault => rfl
  | ok arrived => rfl

theorem go_of_callsInTurn
    (h : Destination app.router target params updateUrl route given push)
    (hcalls : CallsInTurn call route.callbacks given app called outcome app') :
    go call target params updateUrl app = conclude app.router route push outcome app' := by
  cases h with
  | named hroute =>
    rw [go, Action.bind_apply, visit_of_callsInTurn hroute hcalls]
    cases outcome with
    | error fault => rfl
    | ok arrived =>
      rw [conclude_ok]
      rcases arrive app.router route updateUrl arrived app' with ⟨r | r, app''⟩ <;> rfl
  | resolved hname hbest hroute =>
    rw [go_of_resolve hname hbest, visit_of_callsInTurn hroute hcalls]

/-- When the callbacks of its destination are through, a navigation has failed there, or it arrives
with what they have come to. -/
theorem go_fails_or_arrives
    (h : Destination app.router target params updateUrl route given push)
    (hcalls : CallsInTurn call route.callbacks given app called outcome app') :
    (∃ fault, go call target params updateUrl app = (.error fault, app')) ∨
      ∃ arrived, outcome = .ok arrived ∧ go call target params updateUrl app =
        (.ok (some ⟨route.name, arrived,
          if app.router.supportsHistory then some (route.template.url arrived) else none,
          pushesOnArrival app.router route push⟩),
          app'.keeping (if pushesOnArrival app.router route push then
            app'.host.kept ⟨route.template.url arrived, route.name, arrived⟩ else [])) := by
  rw [go_of_callsInTurn h hcalls]
  cases outcome with
  | error fault => exact .inl ⟨fault, rfl⟩
  | ok arrived =>
    rw [conclude_ok]
    rcases arrive_cases app.router route push arrived app' with ⟨fault, harrive⟩ | harrive <;>
      rw [harrive]
    · exact .inl ⟨fault, rfl⟩
    · exact .inr ⟨arrived, rfl, rfl⟩

theorem eq_of_go {navigation : Navigation} {app'' : App κ ω}
    (h : Destination app.router target params updateUrl route given push)
    (hgo : go call target params updateUrl app = (.ok (some navigation), app'')) :
    ∃ arrived app',
      CallsInTurn call route.callbacks given app route.callbacks (.ok arrived) app' ∧
      navigation = ⟨route.name, arrived,
        if app.router.supportsHistory then some (route.template.url arrived) else none,
        pushesOnArrival app.router route push⟩ ∧
      app'' = app'.keeping (if pushesOnArrival app.router route push then
        app'.host.kept ⟨route.template.url arrived, route.name, arrived⟩ else []) := by
  obtain ⟨called, outcome, app', hcalls⟩ := exists_callsInTurn call route.callbacks given app
  rcases go_fails_or_arrives h hcalls with ⟨fault, hgo'⟩ | ⟨arrived, rfl, hgo'⟩ <;>
    cases hgo'.symm.trans hgo
  exact ⟨arrived, app', hcalls.called_eq ▸ hcalls, rfl, rfl⟩

theorem eq_of_go_named {name : String} {navigation : Navigation} {app'' : App κ ω}
    (hroute : app.router.routes.get? name = some route)
    (hgo : go call name params updateUrl app = (.ok (some navigation), app'')) :
    ∃ arrived app',
      CallsInTurn call route.callbacks params app route.callbacks (.ok arrived) app' ∧
      navigation = ⟨name, arrived,
        if app.router.supportsHistory then some (route.template.url arrived) else none,
        pushesOnArrival app.router route updateUrl⟩ ∧
      app'' = app'.keeping (if pushesOnArrival app.router route updateUrl then
        app'.host.kept ⟨route.template.url arrived, name, arrived⟩ else []) := by
  have h := eq_of_go (.named hroute) hgo
  rwa [app.router.named hroute] at h

/-- A navigation that has no destination fails if the router is strict, and changes nothing. -/
theorem go_cases (call : Caller κ ω) (target : String) (params : Params) (updateUrl : Bool)
    (app : App κ ω) :
    (∃ route given push, Destination app.router target params updateUrl route given push) ∨
      (app.router.resolve target = [] ∧
        go call target params updateUrl app =
          (if app.router.config.strict then .error (.noRoute target "") else .ok none, app)) := by
  cases hname : app.router.routes.get? target with
  | some route => exact .inl ⟨route, params, updateUrl, .named hname⟩
  | none =>
    cases hres : app.router.resolve target with
    | cons best rest =>
      obtain ⟨route, hroute⟩ := Router.exists_get?_of_mem_resolve (hres ▸ List.mem_cons_self)
      exact .inl ⟨route, best.params, false, .resolved hname (by rw [hres, List.head?_cons]) hroute⟩
    | nil =>
      refine .inr ⟨rfl, ?_⟩
      rw [go, Action.bind_apply, visit_of_get?_eq_none params updateUrl hname]
      dsimp only
      rw [Action.get_bind_apply, hres]
      dsimp only
      cases app.router.config.strict <;> rfl

theorem destination_of_go {navigation : Navigation} {app'' : App κ ω}
    (hgo : go call target params updateUrl app = (.ok (some navigation), app'')) :
    ∃ route given push, Destination app.router target params updateUrl route given push := by
  rcases go_cases call target params updateUrl app with h | ⟨-, hnone⟩
  · exact h
  · rw [hnone] at hgo
    split at hgo <;> cases hgo

/-- A navigation calls, one after another, the callbacks that its route had when it began, up to the
first that fails; these it calls, and no others. A fault of one of them ends the navigation as it
stands then. Otherwise what is left is to arrive. -/
theorem go_calls_in_turn (call : Caller κ ω)
    (h : Destination app.router target params updateUrl route given push) :
    ∃ called outcome app', CallsInTurn call route.callbacks given app called outcome app' ∧
      called <+: route.callbacks ∧
      (go (noting call) target params updateUrl (app.noted [])).2.stage.2 = called ∧
      (∀ fault, outcome = .error fault →
        go call target params updateUrl app = (.error fault, app')) ∧
      ∀ arrived, outcome = .ok arrived → called = route.callbacks ∧
        go call target params updateUrl app =
          ((arrive app.router route push arrived app').1.map some,
            (arrive app.router route push arrived app').2) := by
  obtain ⟨called, outcome, app', hcalls⟩ := exists_callsInTurn call route.callbacks given app
  refine ⟨called, outcome, app', hcalls, hcalls.isPrefix, ?_, ?_, ?_⟩
  · have hgo : go (noting call) target params updateUrl (app.noted []) =
        conclude app.router route push outcome (app'.noted called) :=
      go_of_callsInTurn h (hcalls.noting [])
    rw [hgo, conclude_noted]
  · rintro fault rfl
    rw [go_of_callsInTurn h hcalls, conclude_error]
  · rintro arrived rfl
    rw [go_of_callsInTurn h hcalls, conclude_ok]
    exact ⟨hcalls.called_eq, rfl⟩

def tour (faults : List (Option Fault)) : Route (Option Fault) :=
  ⟨"tour", ⟨[.separator, .literal 't', .literal 'o', .literal 'u', .literal 'r'], by decide⟩,
    faults⟩

/-- Pushes a visit and registers the tour anew, without callbacks, before it raises its fault. -/
def unsettle : Caller (Option Fault) Unit := fun fault params => do
  App.push ⟨"/aside", "aside", params⟩
  modify fun app => { app with router := app.router.register (tour []) }
  Action.failWith fault
  return (params, .null)

def tourApp : App (Option Fault) Unit :=
  ⟨(Router.empty {} true).register (tour [none, some (.noRoute "x" ""), none]),
    { behaviour := .memory true }, ()⟩

theorem go_calls_in_turn_tour :
    ∃ app', go unsettle "tour" .empty true tourApp = (.error (.noRoute "x" ""), app') ∧
      CallsInTurn unsettle [none, some (.noRoute "x" ""), none] .empty tourApp
        [none, some (.noRoute "x" "")] (.error (.noRoute "x" "")) app' ∧
      app'.host.urls = ["/aside", "/aside"] := by
  have h : Destination tourApp.router "tour" .empty true
      (tour [none, some (.noRoute "x" ""), none]) .empty true := .named rfl
  obtain ⟨called, outcome, app', hcalls, -, hnoted, hfails, -⟩ := go_calls_in_turn unsettle h
  cases hnoted
  cases hcalls.runCallbacks_eq
  exact ⟨_, hfails _ rfl, hcalls, rfl⟩

end App

end NamedRoutes
