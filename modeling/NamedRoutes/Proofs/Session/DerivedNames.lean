import NamedRoutes.Proofs.Session.Registry

/-!
# Names derived from paths

A name that is derived from a path holds neither a slash nor a colon. So as long as no route is
given a name of its own, whatever holds a slash is no name of a route: navigations to it go by what
it is resolved to, and push nothing themselves.
-/
namespace NamedRoutes

namespace RouteName

def IsPlain (name : String) : Prop := '/' ∉ name.toList ∧ ':' ∉ name.toList

theorem mem_of_mem_tidy {atStart : Bool} {s : List Char} {c : Char} (h : c ∈ tidy atStart s) :
    c ∈ s ∧ c ≠ ':' := by
  induction s generalizing atStart with
  | nil => cases h
  | cons d s ih =>
    unfold tidy at h
    split at h
    · obtain ⟨hmem, hne⟩ := ih h
      exact ⟨List.mem_cons_of_mem _ hmem, hne⟩
    · next hkept =>
      rcases List.mem_cons.1 h with rfl | h
      · refine ⟨List.mem_cons_self, ?_⟩
        rintro rfl
        exact hkept rfl
      · obtain ⟨hmem, hne⟩ := ih h
        exact ⟨List.mem_cons_of_mem _ hmem, hne⟩

theorem dotted_ne_slash (c : Char) : dotted c ≠ '/' := by
  unfold dotted
  split
  · decide
  · assumption

theorem isPlain_ofPath (path : String) : IsPlain (ofPath path) := by
  rw [IsPlain, ofPath, String.toList_ofList]
  refine ⟨fun h => ?_, fun h => (mem_of_mem_tidy h).2 rfl⟩
  obtain ⟨c, -, hc⟩ := List.mem_map.1 (mem_of_mem_tidy h).1
  exact dotted_ne_slash c hc

end RouteName

/-- The name that a step with this result has registered a route under, if it was given one. -/
def Step.givenNames : Step → Except Fault Reply → List String
  | addRoute name _ _, .ok _ => [name]
  | _, _ => []

def Answer.givenNames (answer : Answer) : List String := answer.collect Step.givenNames

theorem Step.eq_ofPath_of_mem_registrations {step : Step} {result : Except Fault Reply}
    {e : String × String} (h : e ∈ step.registrations result) :
    e.1 ∈ step.givenNames result ∨ e.1 = RouteName.ofPath e.2 := by
  have hderived : ∀ paths, e ∈ underOwnNames paths → e.1 = RouteName.ofPath e.2 := by
    intro paths he
    obtain ⟨path, -, rfl⟩ := List.mem_map.1 he
    rfl
  unfold Step.registrations at h
  split at h
  · rw [List.mem_singleton.1 h]
    exact .inl List.mem_cons_self
  · exact .inr (hderived _ h)
  · exact .inr (hderived _ h)
  · cases h

theorem isPlain_of_mem_registrations {answers : List Answer}
    (hgiven : answers.flatMap Answer.givenNames = []) {e : String × String}
    (he : e ∈ answers.flatMap Answer.registrations) : RouteName.IsPlain e.1 := by
  obtain ⟨a, ha, he⟩ := List.mem_flatMap.1 he
  obtain ⟨b, hb, he⟩ := Answer.mem_collect_iff.1 he
  rcases Step.eq_ofPath_of_mem_registrations he with hname | hname
  · have hmem : e.1 ∈ answers.flatMap Answer.givenNames :=
      List.mem_flatMap.2 ⟨a, ha, Answer.mem_collect_iff.2 ⟨b, hb, hname⟩⟩
    rw [hgiven] at hmem
    cases hmem
  · rw [hname]
    exact RouteName.isPlain_ofPath e.2

theorem Router.Holds.isPlain {κ : Type} {r : Router κ} {told : List (String × String)}
    (h : r.Holds told) (htold : ∀ e ∈ told, RouteName.IsPlain e.1) {name : String}
    (hname : name ∈ r.routes.keys) : RouteName.IsPlain name := by
  rw [h.keys, List.mem_eraseDups] at hname
  obtain ⟨e, he, rfl⟩ := List.mem_map.1 hname
  exact htold e he

namespace App

variable {κ ω : Type} {call : Caller κ ω} {app : App κ ω} {path : String}

/-- A navigation to what is no name of a route: it finds no match, or it comes to what the callbacks
of the best candidate come to, with the parameters of the candidate, and leaves what they leave. -/
inductive TakenAsPath (call : Caller κ ω) (path : String) (app : App κ ω) :
    Except Fault (Option Navigation) × App κ ω → Prop
  | noMatch (hname : app.router.routes.get? path = none) (hnone : app.router.resolve path = []) :
    TakenAsPath call path app
      (if app.router.config.strict then .error (.noRoute path "") else .ok none, app)
  | dispatched {best rest route called outcome app'} (hname : app.router.routes.get? path = none)
      (hbest : app.router.resolve path = best :: rest)
      (hroute : app.router.routes.get? best.name = some route)
      (htemplate : best.template = route.template)
      (hcalls : CallsInTurn call route.callbacks best.params app called outcome app') :
      TakenAsPath call path app
        (outcome.map fun arrived => some ⟨best.name, arrived,
          if app.router.supportsHistory then some (route.template.url arrived) else none, false⟩,
          app')

theorem takenAsPath_go (call : Caller κ ω) (params : Params) (updateUrl : Bool)
    (hname : app.router.routes.get? path = none) :
    TakenAsPath call path app (go call path params updateUrl app) := by
  rw [go_eq_dispatch_visit, dispatch_of_get?_eq_none _ hname]
  cases hres : app.router.resolve path with
  | nil => exact .noMatch hname hres
  | cons best rest =>
    obtain ⟨route, hroute, htemplate⟩ :=
      Router.exists_template_of_mem_resolve (hres ▸ List.mem_cons_self)
    obtain ⟨called, outcome, app', hcalls⟩ :=
      exists_callsInTurn call route.callbacks best.params app
    have hdone := TakenAsPath.dispatched hname hres hroute htemplate hcalls
    dsimp only
    rw [visit_of_callsInTurn hroute hcalls]
    cases outcome with
    | error fault => exact hdone
    | ok arrived =>
      rw [conclude_ok, arrive_false, app.router.named hroute]
      exact hdone

end App

namespace Session

variable {s t u : Session} {path : String}

/-- No name of a route holds a slash or a colon, and what holds a slash is taken as a path. -/
structure TakesPaths (s : Session) : Prop where
  plain : ∀ name ∈ s.router.routes.keys, RouteName.IsPlain name
  taken : ∀ call path params updateUrl, '/' ∈ path.toList →
    App.TakenAsPath call path s (App.go call path params updateUrl s)

theorem get?_eq_none_of_isPlain (hplain : ∀ name ∈ s.router.routes.keys, RouteName.IsPlain name)
    (hpath : '/' ∈ path.toList) : s.router.routes.get? path = none :=
  OrderedMap.get?_eq_none_iff.2 fun hmem => (hplain path hmem).1 hpath

theorem takesPaths_of_isPlain (h : ∀ name ∈ s.router.routes.keys, RouteName.IsPlain name) :
    TakesPaths s :=
  ⟨h, fun call _ params updateUrl hpath =>
    App.takenAsPath_go call params updateUrl (get?_eq_none_of_isPlain h hpath)⟩

theorem pushes_of_takesPaths {depth : Nat} {b : Answer} (hb : RanIn (exec depth) s t u b)
    (hu : TakesPaths u) {params : Params} {updateUrl : Bool}
    (hgo : b.step = .go path params updateUrl) (hpath : '/' ∈ path.toList) :
    b.pushes = b.nested.flatMap Answer.pushes := by
  obtain ⟨own, hpushes, hown⟩ := pushes_exec depth b.step u
  rw [hb.answer_eq] at hpushes hown
  rw [hgo] at hown
  generalize b.result = result at hown
  cases hown with
  | nothing => rw [hpushes, List.append_nil]
  | onArrival hroute _ _ =>
    rw [get?_eq_none_of_isPlain hu.plain hpath] at hroute
    cases hroute

theorem result_of_takesPaths {depth : Nat} {b : Answer} (hb : RanIn (exec depth) s t u b)
    (hu : TakesPaths u) {params : Params} {updateUrl : Bool}
    (hgo : b.step = .go path params updateUrl) (hpath : '/' ∈ path.toList) :
    depth = 0 ∧ b.result = .error .tooDeep ∨ ∃ d r, depth = d + 1 ∧
      App.TakenAsPath (call (exec d)) path { u with stage.calls := [] } r ∧
      b.result = r.1.map .navigation ∧
      (exec depth b.step u).2 = { r.2 with stage.calls := u.stage.calls } := by
  cases depth with
  | zero =>
    left
    rw [← hb.answer_eq, exec_zero]
    exact ⟨rfl, rfl⟩
  | succ d =>
    have hname := get?_eq_none_of_isPlain hu.plain hpath
    refine .inr ⟨d, _, rfl, App.takenAsPath_go _ params updateUrl hname, ?_, ?_⟩
    · rw [← hb.answer_eq, hgo, exec_succ, answer_apply, perform_go]
    · rw [hgo, exec_succ, answer_apply, perform_go]

/-- While no route is given a name of its own, no name holds a slash or a colon, at any moment of
the session. So every navigation to a path that holds a slash goes by what the path is resolved to
when it begins, however deep it is nested: if there is no match, it fails on a strict router and
changes nothing; otherwise it comes to what the callbacks of the best candidate come to, with the
parameters of the candidate, and pushes nothing but what they push. -/
theorem slashed_paths_resolved (host : Host) (config : Config) (depth : Nat) (steps : List Step)
    (hgiven : (execAll depth steps (start host config)).1.flatMap Answer.givenNames = []) :
    let answers := (execAll depth steps (start host config)).1
    let t := (execAll depth steps (start host config)).2
    TakesPaths t ∧
    ∀ a ∈ answers, ∀ b, b.Within a → ∃ d u,
      RanIn (exec d) (start host config) t u b ∧ TakesPaths u ∧
      ∀ path params updateUrl, b.step = .go path params updateUrl → '/' ∈ path.toList →
        b.pushes = b.nested.flatMap Answer.pushes ∧
        (d = 0 ∧ b.result = .error .tooDeep ∨ ∃ d' r, d = d' + 1 ∧
          App.TakenAsPath (call (exec d')) path { u with stage.calls := [] } r ∧
          b.result = r.1.map .navigation ∧
          (exec d b.step u).2 = { r.2 with stage.calls := u.stage.calls }) := by
  intro answers t
  obtain ⟨htold, hamid⟩ := tells_registers.execAll depth steps (start host config)
  have hplain : ∀ e ∈ answers.flatMap Answer.registrations, RouteName.IsPlain e.1 :=
    fun e he => isPlain_of_mem_registrations hgiven he
  have htakes : ∀ {es u}, Registers (start host config) es u →
      (∀ e ∈ es, RouteName.IsPlain e.1) → TakesPaths u := by
    intro es u hes hplain
    exact takesPaths_of_isPlain fun name hname => hes.holds.isPlain hplain hname
  refine ⟨htakes htold hplain, ?_⟩
  intro a ha b hb
  obtain ⟨d, u, before, after, hran, hbefore, hsplit⟩ := hamid a ha b hb
  have hu : TakesPaths u := by
    refine htakes hbefore fun e he => hplain e ?_
    change e ∈ answers.flatMap (Answer.collect Step.registrations)
    rw [hsplit, List.append_assoc]
    exact List.mem_append_left _ he
  refine ⟨d, u, hran, hu, fun path params updateUrl hgo hpath => ⟨?_, ?_⟩⟩
  · exact pushes_of_takesPaths hran hu hgo hpath
  · exact result_of_takesPaths hran hu hgo hpath

/-- A route whose callback registers another one, up to a path that is no template, and goes there
by its name, and a navigation to a path of the first route. -/
def pageSteps : List Step :=
  [.addRoutes [("/:page", .script ⟨"x", [], [],
      [.addRoutes [("/b/:x/", .value .null), ("/:", .value .null)],
        .go "b.x" (.ofList [("x", .int 1)]) true], false, false, none, .null⟩)],
    .go "/a" .empty true]

theorem slashed_paths_resolved_page :
    let r := execAll 3 pageSteps (start { behaviour := .memory true } {})
    r.1.flatMap Answer.givenNames = [] ∧ r.2.router.routes.keys = ["page", "b.x"] ∧
      r.2.host.urls = ["/b/1/"] ∧ TakesPaths r.2 ∧
      ∀ a ∈ r.1, ∀ b : Answer, b.Within a → b.step = .go "/a" .empty true →
        b.pushes = b.nested.flatMap Answer.pushes := by
  intro r
  have hgiven : r.1.flatMap Answer.givenNames = [] := by decide +kernel
  obtain ⟨htakes, hwithin⟩ :=
    slashed_paths_resolved { behaviour := .memory true } {} 3 pageSteps hgiven
  refine ⟨hgiven, by decide +kernel, by decide +kernel, htakes, ?_⟩
  intro a ha b hb hgo
  obtain ⟨d, u, -, -, htaken⟩ := hwithin a ha b hb
  exact (htaken "/a" .empty true hgo (by decide)).1

end Session

end NamedRoutes
