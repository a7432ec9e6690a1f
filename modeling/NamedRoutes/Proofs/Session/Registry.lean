import NamedRoutes.Proofs.Dispatch
import NamedRoutes.Proofs.Session.Telling
import NamedRoutes.Proofs.Template.Grammar

/-!
# What is registered

The answers of a session tell which paths have been registered, and under which names, in the order
of time. At any moment, be it within a step that is running or after one that has failed, the
registry is what these registrations make of an empty one: a name stands where it first came, and
has the template of the path that was last given for it. So names are never lost and never change
places, and a path is handed on to a name that is registered.
-/
namespace NamedRoutes

/-- The paths up to the first one that is no template, under the names that they give. -/
def underOwnNames (paths : List String) : List (String × String) :=
  (paths.takeWhile fun path => (Template.ofPath path).isOk).map
    fun path => (RouteName.ofPath path, path)

/-- What a step with this result has registered itself: names, each with its path. -/
def Step.registrations : Step → Except Fault Reply → List (String × String)
  | addRoute name path _, .ok _ => [(name, path)]
  | addRoutes entries, .ok _ => underOwnNames (entries.map Prod.fst)
  | addRoutes entries, .error (.invalidTemplate _ _) => underOwnNames (entries.map Prod.fst)
  | _, _ => []

def Answer.registrations (answer : Answer) : List (String × String) :=
  answer.collect Step.registrations

theorem underOwnNames_map_fst {κ : Type} (entries : List (String × List κ)) :
    underOwnNames (entries.map Prod.fst) =
      (App.compile entries).1.map fun route => (route.name, route.template.path) := by
  induction entries with
  | nil => rfl
  | cons e rest ih =>
    obtain ⟨path, callbacks⟩ := e
    rw [underOwnNames, List.map_cons, List.takeWhile_cons]
    cases htemplate : Template.ofPath path with
    | ok template =>
      rw [App.compile_cons_ok htemplate, List.map_cons, ← ih,
        Template.path_of_ofPath htemplate]
      rfl
    | error fault =>
      rw [App.compile_cons_error htemplate]
      rfl

namespace Router

variable {κ : Type}

def paths (r : Router κ) : OrderedMap String := r.routes.map fun route => route.template.path

theorem keys_paths (r : Router κ) : r.paths.keys = r.routes.keys := OrderedMap.keys_map _ _

theorem paths_register {r : Router κ} {route : Route κ} {path : String}
    (h : Template.ofPath path = .ok route.template) :
    (r.register route).paths = r.paths.insert route.name path := by
  rw [paths, register, OrderedMap.map_insert, Template.path_of_ofPath h]
  rfl

theorem paths_observe {r : Router κ} {name : String} {route : Route κ} (callback : κ)
    (h : r.routes.get? name = some route) : (r.observe route callback).paths = r.paths := by
  have hget : r.paths.get? route.name = some route.template.path := by
    rw [paths, OrderedMap.get?_map, r.named h, h, Option.map_some]
  have hsame : (r.observe route callback).paths =
      r.paths.insert route.name route.template.path :=
    paths_register (Template.ofPath_path _)
  rw [hsame, OrderedMap.insert_of_get? hget]

/-- The registry is that of the registrations: the names stand in the order in which they first
came, and each is that of a route, whose template is that of the path given last for the name. -/
structure Holds (r : Router κ) (told : List (String × String)) : Prop where
  nodup : r.routes.keys.Nodup
  keys : r.routes.keys = (told.map Prod.fst).eraseDups
  named : ∀ {name route}, r.routes.get? name = some route → route.name = name
  path : ∀ {name route}, r.routes.get? name = some route →
    told.reverse.lookup name = some route.template.path
  compiled : ∀ {name route}, r.routes.get? name = some route →
    Template.ofPath route.template.path = .ok route.template

theorem holds_of_paths {r : Router κ} {told : List (String × String)}
    (h : r.paths = .ofList told) : r.Holds told where
  nodup := r.routes.nodup_keys
  keys := by rw [← keys_paths, h, OrderedMap.keys_ofList]
  named := r.named
  path := by
    intro name route hroute
    rw [← OrderedMap.get?_ofList, ← h, paths, OrderedMap.get?_map, hroute, Option.map_some]
  compiled _ := Template.ofPath_path _

theorem Holds.keys_prefix_keys {r r' : Router κ} {told told' : List (String × String)}
    (h : r.Holds told) (h' : r'.Holds told') (hfirst : told <+: told') :
    r.routes.keys <+: r'.routes.keys := by
  obtain ⟨later, rfl⟩ := hfirst
  rw [h.keys, h'.keys, List.map_append, List.eraseDups_append]
  exact List.prefix_append _ _

end Router

namespace Session

open NamedRoutes.Action

variable {s t u : Session} {es fs : List (String × String)}

structure Registers (s : Session) (es : List (String × String)) (t : Session) : Prop where
  precedes : Precedes s t
  paths : t.router.paths = s.router.paths.insertAll es

theorem Registers.nothing (h : Precedes s t) (hroutes : t.router.routes = s.router.routes) :
    Registers s [] t :=
  ⟨h, by rw [Router.paths, hroutes]; rfl⟩

theorem registers_refl (s : Session) : Registers s [] s := .nothing (.refl s) rfl

theorem Registers.trans (h : Registers s es t) (h' : Registers t fs u) :
    Registers s (es ++ fs) u :=
  ⟨h.precedes.trans h'.precedes, by rw [h'.paths, h.paths, OrderedMap.insertAll_append]⟩

theorem Registers.restage (h : Registers s es t) (stage : Stage) :
    Registers s es { t with stage } :=
  ⟨h.precedes.trans (precedes_restage t stage), h.paths⟩

theorem Registers.holds {host : Host} {config : Config}
    (h : Registers (start host config) es t) : t.router.Holds es :=
  Router.holds_of_paths h.paths

theorem registers_register {name path : String} {template : Template}
    (h : Template.ofPath path = .ok template) (callbacks : List (Callback Step)) (s : Session) :
    Registers s [(name, path)]
      { s with router := s.router.register ⟨name, template, callbacks⟩ } :=
  ⟨(quietly_register s _).precedes, Router.paths_register h⟩

theorem registers_observe {name : String} {route : Route (Callback Step)}
    (callback : Callback Step) (h : s.router.routes.get? name = some route) :
    Registers s [] { s with router := s.router.observe route callback } :=
  ⟨(quietly_register s _).precedes, Router.paths_observe callback h⟩

theorem registers_keeping (s : Session) (visits : List Visit) :
    Registers s [] (s.keeping visits) :=
  .nothing ⟨rfl, rfl, rfl, rfl, List.prefix_rfl, List.prefix_append _ _⟩ rfl

theorem registers_registerAll (routes : List (Route (Callback Step))) (s : Session) :
    Registers s (routes.map fun route => (route.name, route.template.path))
      { s with router := routes.foldl Router.register s.router } := by
  induction routes generalizing s with
  | nil => exact registers_refl s
  | cons route rest ih =>
    exact (registers_register (Template.ofPath_path _) route.callbacks s).trans (ih _)

theorem map_fst_of_forall₂_preparedFor {handles : OrderedMap String}
    {entries : List (String × CallbackSpec Step)} {routes : List (String × List (Callback Step))}
    (h : List.Forall₂ (PreparedFor handles) entries routes) :
    routes.map Prod.fst = entries.map Prod.fst := by
  induction h with
  | nil => rfl
  | cons hfirst _ ih => rw [List.map_cons, List.map_cons, hfirst.1, ih]

theorem registrations_of_sparesRoutes {step : Step} {result : Except Fault Reply}
    (h : sparesRoutes step result) : step.registrations result = [] := by
  unfold Step.registrations
  split <;> first | rfl | cases h

theorem registrations_addRoutes {handles : OrderedMap String}
    {entries : List (String × CallbackSpec Step)} {routes : List (String × List (Callback Step))}
    (h : List.Forall₂ (PreparedFor handles) entries routes) :
    (Step.addRoutes entries).registrations ((App.compile routes).2.elim (.ok .nothing) .error) =
      (App.compile routes).1.map fun route => (route.name, route.template.path) := by
  rw [← underOwnNames_map_fst, map_fst_of_forall₂_preparedFor h]
  cases hfault : (App.compile routes).2 with
  | none => rfl
  | some fault =>
    obtain ⟨path, reason, rfl⟩ := App.compile_fault hfault
    rfl

theorem tells_registers : Tells Step.registrations Registers where
  refl := registers_refl
  trans := Registers.trans
  restage stage h := h.restage stage
  effect h := by
    cases h with
    | register htemplate _ => exact registers_register htemplate _ _
    | registerAll hroutes =>
      rw [registrations_addRoutes hroutes]
      exact registers_registerAll _ _
    | attach hroute _ => exact registers_observe _ hroute
    | ignore _ _ _ => exact registers_refl _
    | keep hspares visits =>
      rw [registrations_of_sparesRoutes hspares]
      exact registers_keeping _ visits

/-- A moment in the run from `s` to `t`, with what has been told by then: a step begins, however
deep it is nested, or it is over, or the whole run is. -/
inductive Moment (s t : Session) (told : List (String × String)) :
    List (String × String) → Session → Prop
  | begins {d : Nat} {u : Session} {b : Answer} {before after : List (String × String)}
      (hran : RanIn (exec d) s t u b) (hbefore : Registers s before u)
      (htold : told = before ++ b.registrations ++ after) : Moment s t told before u
  | ended {d : Nat} {u : Session} {b : Answer} {before after : List (String × String)}
      (hran : RanIn (exec d) s t u b) (hbefore : Registers s before u)
      (htold : told = before ++ b.registrations ++ after) :
      Moment s t told (before ++ b.registrations) (exec d b.step u).2
  | last : Moment s t told told t

variable {told : List (String × String)}

theorem Moment.registers (h : Moment s t told es u) (hrun : Registers s told t) :
    Registers s es u := by
  cases h with
  | begins _ hbefore _ => exact hbefore
  | ended hran hbefore _ => exact hbefore.trans (hran.told tells_registers)
  | last => exact hrun

theorem Moment.prefix_told (h : Moment s t told es u) : es <+: told := by
  cases h with
  | begins _ _ htold =>
    rw [htold, List.append_assoc]
    exact List.prefix_append _ _
  | ended _ _ htold =>
    rw [htold]
    exact List.prefix_append _ _
  | last => exact List.prefix_rfl

/-- Of any two moments of a session one is the earlier: what has been told by then is a beginning of
what has been told by the other, and so are the names that are registered. Every step that is
answered, however deep it is nested, has its two moments. -/
theorem names_of_moments (host : Host) (config : Config) (depth : Nat) (steps : List Step) :
    let answers := (execAll depth steps (start host config)).1
    let t := (execAll depth steps (start host config)).2
    let told := answers.flatMap Answer.registrations
    (∀ a ∈ answers, ∀ b, b.Within a → ∃ d u before, RanIn (exec d) (start host config) t u b ∧
      Moment (start host config) t told before u ∧
      Moment (start host config) t told (before ++ b.registrations) (exec d b.step u).2) ∧
    ∀ {es u fs v}, Moment (start host config) t told es u →
      Moment (start host config) t told fs v →
      es <+: fs ∧ u.router.routes.keys <+: v.router.routes.keys ∨
        fs <+: es ∧ v.router.routes.keys <+: u.router.routes.keys := by
  intro answers t told
  obtain ⟨htold, hamid⟩ := tells_registers.execAll depth steps (start host config)
  constructor
  · intro a ha b hb
    obtain ⟨d, u, before, after, hu, hbefore, hsplit⟩ := hamid a ha b hb
    exact ⟨d, u, before, hu, .begins hu hbefore hsplit, .ended hu hbefore hsplit⟩
  · intro es u fs v hu hv
    have hues : u.router.Holds es := (hu.registers htold).holds
    have hvfs : v.router.Holds fs := (hv.registers htold).holds
    rcases List.prefix_or_prefix_of_prefix hu.prefix_told hv.prefix_told with hfirst | hfirst
    · exact .inl ⟨hfirst, hues.keys_prefix_keys hvfs hfirst⟩
    · exact .inr ⟨hfirst, hvfs.keys_prefix_keys hues hfirst⟩

/-- At any moment of a session the registry is that of the registrations told so far: when it is
over, and before and after each of its steps, however deep it is nested and whether it fails. Names
that are registered stay, in their places. Every candidate for a path is taken from the route
registered under its name, so a navigation resolves at most one path, and hands it on to itself. If
it fails, then its target is neither a name nor has candidates and the router is strict, or the
fault was raised by a callback or by the host. -/
theorem registry_told (host : Host) (config : Config) (depth : Nat) (steps : List Step) :
    let answers := (execAll depth steps (start host config)).1
    let t := (execAll depth steps (start host config)).2
    let told := answers.flatMap Answer.registrations
    t.router.Holds told ∧
    (∀ a ∈ answers, ∀ b, b.Within a → ∃ d u before after,
      let u' := (exec d b.step u).2
      RanIn (exec d) (start host config) t u b ∧ told = before ++ b.registrations ++ after ∧
      u.router.Holds before ∧ u'.router.Holds (before ++ b.registrations) ∧
      u.router.routes.keys <+: u'.router.routes.keys ∧
      u'.router.routes.keys <+: t.router.routes.keys) ∧
    ∀ (u : Session) (call : App.Caller (Callback Step) Stage) target params updateUrl,
      (∀ c ∈ u.router.resolve target, ∃ route,
        u.router.routes.get? c.name = some route ∧ c.template = route.template) ∧
      App.go call target params updateUrl u =
        App.dispatch call (App.go call) target params updateUrl u ∧
      (∀ otherwise, App.go call target params updateUrl u =
        App.dispatch call (App.dispatch call otherwise) target params updateUrl u) ∧
      ∀ fault u', App.go call target params updateUrl u = (.error fault, u') →
        (u.router.config.strict ∧ u.router.routes.get? target = none ∧
          u.router.resolve target = [] ∧ fault = .noRoute target "" ∧ u' = u) ∨
        ∃ route given push, App.Destination u.router target params updateUrl route given push ∧
          App.RaisedOnTheWay call route given u fault u' := by
  intro answers t told
  obtain ⟨htold, hamid⟩ := tells_registers.execAll depth steps (start host config)
  refine ⟨htold.holds, ?_, ?_⟩
  · intro a ha b hb
    obtain ⟨d, u, before, after, hu, hbefore, hsplit⟩ := hamid a ha b hb
    have hstep := hu.told tells_registers
    exact ⟨d, u, before, after, hu, hsplit, hbefore.holds, (hbefore.trans hstep).holds,
      hstep.precedes.names, hu.after.names⟩
  · intro u call target params updateUrl
    refine ⟨fun c hc => Router.exists_template_of_mem_resolve hc, ?_, fun otherwise => ?_,
      fun fault u' hgo => App.fault_of_go hgo⟩
    · rw [← App.go_eq_dispatch_go]
    · rw [← App.go_eq_dispatch_dispatch]

/-- The callback of a route registers others, up to a path that is no template, and gives its own
route another path. -/
example :
    let script : Script Step := ⟨"x", [], [],
      [.addRoutes [("/b", .value .null), ("/:", .value .null), ("/c", .value .null)],
        .addRoute "a" "/d" (.value .null)], false, false, none, .null⟩
    let steps : List Step := [.addRoutes [("/a", .script script)], .go "a" .empty true]
    let r := execAll 2 steps (start { behaviour := .silent } {})
    r.1.flatMap Answer.registrations = [("a", "/a"), ("b", "/b"), ("a", "/d")] ∧
      r.2.router.paths.entries = [("a", "/d"), ("b", "/b")] :=
  by decide +kernel

end Session

end NamedRoutes
