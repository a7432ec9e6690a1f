import NamedRoutes.Proofs.Session.Registry

/-!
# What cannot be called

A route is registered with what can be called, if anything. But whatever is attached to it later is
kept, whether it can be called or not, until the route is registered anew. A navigation that comes
to what cannot be called fails there; it can fail of nothing else but the callbacks' own doing and
the host's.
-/
namespace NamedRoutes

namespace Callback

variable {σ : Type}

def uncallable : Callback σ → List Value
  | value v => [v]
  | invoker _ | script _ _ => []

theorem uncallable_eq_nil_iff {c : Callback σ} : c.uncallable = [] ↔ c.isCallable := by
  cases c <;> simp [uncallable, isCallable]

theorem flatMap_uncallable_callables (c : Callback σ) : c.callables.flatMap uncallable = [] := by
  cases c <;> rfl

theorem flatMap_uncallable_eq_nil_iff {cs : List (Callback σ)} :
    cs.flatMap uncallable = [] ↔ ∀ c ∈ cs, c.isCallable := by
  simp only [List.flatMap_eq_nil_iff, uncallable_eq_nil_iff]

end Callback

namespace Router

variable {r : Router (Callback Step)} {route : Route (Callback Step)} {name : String}

def uncallable? (r : Router (Callback Step)) (name : String) : Option (List Value) :=
  (r.routes.get? name).map fun route => route.callbacks.flatMap Callback.uncallable

theorem uncallable?_of_get? (h : r.routes.get? name = some route) :
    r.uncallable? name = some (route.callbacks.flatMap Callback.uncallable) := by
  rw [uncallable?, h, Option.map_some]

theorem uncallable?_of_get?_eq_none (h : r.routes.get? name = none) :
    r.uncallable? name = none := by
  rw [uncallable?, h, Option.map_none]

theorem uncallable?_register :
    (r.register route).uncallable? name =
      if route.name = name then some (route.callbacks.flatMap Callback.uncallable)
      else r.uncallable? name := by
  rw [uncallable?, register, OrderedMap.get?_insert]
  by_cases h : route.name = name
  · rw [if_pos h, if_pos h.symm, Option.map_some]
  · rw [if_neg h, if_neg (Ne.symm h), uncallable?]

end Router

inductive Attachment where
  /-- A route has been registered under the name, be it anew. -/
  | renewed (name : String)
  /-- A value that cannot be called was given to be attached to the route of that name. -/
  | attached (name : String) (value : Value)

namespace Attachment

def note (name : String) (values : Option (List Value)) : Attachment → Option (List Value)
  | renewed n => if n = name then some [] else values
  | attached n v => if n = name then values.map (· ++ [v]) else values

/-- The values that were attached to the name since a route was last registered under it. -/
def standing (told : List Attachment) (name : String) : Option (List Value) :=
  told.foldl (note name) none

end Attachment

/-- What a step with this result has itself renewed or attached. -/
def Step.attachments : Step → Except Fault Reply → List Attachment
  | observe name (.value v), .ok _ => [.attached name v]
  | step, result => (step.registrations result).map fun e => .renewed e.1

def Answer.attachments (answer : Answer) : List Attachment := answer.collect Step.attachments

namespace Session

variable {s t u : Session} {es fs : List Attachment}

def Attaches (s : Session) (es : List Attachment) (t : Session) : Prop :=
  ∀ name, t.router.uncallable? name = es.foldl (Attachment.note name) (s.router.uncallable? name)

theorem Attaches.trans (h : Attaches s es t) (h' : Attaches t fs u) : Attaches s (es ++ fs) u := by
  intro name
  rw [h' name, h name, List.foldl_append]

theorem attaches_register {route : Route (Callback Step)}
    (h : route.callbacks.flatMap Callback.uncallable = []) (s : Session) :
    Attaches s [.renewed route.name] { s with router := s.router.register route } := by
  intro name
  rw [Router.uncallable?_register, h]
  rfl

theorem attaches_registerAll {routes : List (Route (Callback Step))}
    (h : ∀ route ∈ routes, route.callbacks.flatMap Callback.uncallable = []) (s : Session) :
    Attaches s (routes.map fun route => .renewed route.name)
      { s with router := routes.foldl Router.register s.router } := by
  induction routes generalizing s with
  | nil => exact fun name => rfl
  | cons route rest ih =>
    obtain ⟨hroute, hrest⟩ := List.forall_mem_cons.1 h
    exact (attaches_register hroute s).trans (ih hrest _)

theorem uncallable_of_mem_compile {handles : OrderedMap String}
    {entries : List (String × CallbackSpec Step)} {routes : List (String × List (Callback Step))}
    (h : List.Forall₂ (PreparedFor handles) entries routes) {route : Route (Callback Step)}
    (hroute : route ∈ (App.compile routes).1) :
    route.callbacks.flatMap Callback.uncallable = [] := by
  induction h with
  | nil => cases hroute
  | @cons e r entries routes hfirst hrest ih =>
    obtain ⟨path, callbacks⟩ := r
    obtain ⟨-, callback, -, hcallbacks⟩ := hfirst
    cases htemplate : Template.ofPath path with
    | error fault =>
      rw [App.compile_cons_error htemplate] at hroute
      cases hroute
    | ok template =>
      rw [App.compile_cons_ok htemplate] at hroute
      rcases List.mem_cons.1 hroute with rfl | hroute
      · change callbacks = _ at hcallbacks
        rw [hcallbacks]
        exact Callback.flatMap_uncallable_callables callback
      · exact ih hroute

theorem attaches_observe {name : String} {route : Route (Callback Step)}
    (callback : Callback Step) (h : s.router.routes.get? name = some route) :
    Attaches s (callback.uncallable.map (.attached name))
      { s with router := s.router.observe route callback } := by
  intro n
  rw [Router.observe, Router.uncallable?_register, List.flatMap_append, List.flatMap_singleton,
    s.router.named h]
  by_cases hn : name = n
  · subst hn
    rw [if_pos rfl, Router.uncallable?_of_get? h]
    cases callback <;> simp [Callback.uncallable, Attachment.note]
  · rw [if_neg hn]
    cases callback <;> simp [Callback.uncallable, Attachment.note, hn]

theorem attaches_ignored {name : String} (values : List Value)
    (h : s.router.routes.get? name = none) : Attaches s (values.map (.attached name)) s := by
  intro n
  induction values with
  | nil => rfl
  | cons v values ih =>
    have hnote : Attachment.note n (s.router.uncallable? n) (.attached name v) =
        s.router.uncallable? n := by
      rw [Attachment.note]
      split
      · next hn => rw [← hn, Router.uncallable?_of_get?_eq_none h, Option.map_none]
      · rfl
    rw [List.map_cons, List.foldl_cons, hnote]
    exact ih

theorem attachments_observe {handles : OrderedMap String} {spec : CallbackSpec Step}
    {callback : Callback Step} (h : Prepared handles spec callback) (name : String)
    (reply : Reply) :
    (Step.observe name spec).attachments (.ok reply) =
      callback.uncallable.map (.attached name) := by
  cases h <;> rfl

theorem attachments_addRoutes {handles : OrderedMap String}
    {entries : List (String × CallbackSpec Step)} {routes : List (String × List (Callback Step))}
    (h : List.Forall₂ (PreparedFor handles) entries routes) :
    (Step.addRoutes entries).attachments ((App.compile routes).2.elim (.ok .nothing) .error) =
      (App.compile routes).1.map fun route => .renewed route.name := by
  change ((Step.addRoutes entries).registrations _).map _ = _
  rw [registrations_addRoutes h, List.map_map]
  rfl

theorem attachments_of_sparesRoutes {step : Step} {result : Except Fault Reply}
    (h : sparesRoutes step result) : step.attachments result = [] := by
  unfold Step.attachments
  split
  · cases h
  · rw [registrations_of_sparesRoutes h, List.map_nil]

theorem tells_attaches : Tells Step.attachments Attaches where
  refl _ _ := rfl
  trans := Attaches.trans
  restage _ h := h
  effect h := by
    cases h with
    | register _ _ => exact attaches_register (Callback.flatMap_uncallable_callables _) _
    | registerAll hroutes =>
      rw [attachments_addRoutes hroutes]
      exact attaches_registerAll (fun route hroute => uncallable_of_mem_compile hroutes hroute) _
    | attach hroute hspec =>
      rw [attachments_observe hspec]
      exact attaches_observe _ hroute
    | ignore hname _ hspec =>
      rw [attachments_observe hspec]
      exact attaches_ignored _ hname
    | keep hspares visits =>
      rw [attachments_of_sparesRoutes hspares]
      exact fun name => rfl

/-- How a navigation to the route fails: in the body of a callback, at the host, or where it comes
to what cannot be called. In each case the callbacks before had returned. -/
inductive FailsOf (run : Runner) (route : Route (Callback Step)) (given : Params) (s : Session)
    (fault : Fault) (t : Session) : Prop
  | body {before callback after arrived u}
      (hsplit : route.callbacks = before ++ callback :: after) (hcallable : callback.isCallable)
      (hbefore : App.CallsInTurn (call run) before given s before (.ok arrived) u)
      (hbody : call run callback arrived u = (.error fault, t))
  | host {arrived}
      (hcalls : App.CallsInTurn (call run) route.callbacks given s route.callbacks (.ok arrived) t)
      (hpush : t.host.push ⟨route.template.url arrived, route.name, arrived⟩ = .error fault)
  | uncallable {before v after arrived values}
      (hsplit : route.callbacks = before ++ .value v :: after)
      (hbefore : App.CallsInTurn (call run) before given s before (.ok arrived) t)
      (hfault : fault = .notCallable v)
      (hstored : s.router.uncallable? route.name = some values) (hv : v ∈ values)

theorem failsOf_of_raisedOnTheWay {run : Runner} {route : Route (Callback Step)} {given : Params}
    {fault : Fault} (hroute : s.router.routes.get? route.name = some route)
    (h : App.RaisedOnTheWay (call run) route given s fault t) :
    FailsOf run route given s fault t := by
  cases h with
  | host hcalls hpush => exact .host hcalls hpush
  | callback hcalls =>
    obtain ⟨before, callback, after, arrived, u, hsplit, -, hbefore, hcall⟩ :=
      hcalls.exists_of_error
    cases callback with
    | value v =>
      cases hcall
      refine .uncallable hsplit hbefore rfl (Router.uncallable?_of_get? hroute) ?_
      rw [hsplit]
      exact List.mem_flatMap.2 ⟨.value v, by simp, List.mem_cons_self⟩
    | invoker name => exact .body hsplit rfl hbefore hcall
    | script serial script => exact .body hsplit rfl hbefore hcall

/-- What is stored under a name and cannot be called is what was attached to it since a route was
last registered there. So all callbacks of a route can be called just when there is none, and a
navigation to it fails of nothing but the bodies of its callbacks, the host, and what was attached
in this way. -/
structure StoresAttached (s : Session) (told : List Attachment) : Prop where
  stored : ∀ name, s.router.uncallable? name = Attachment.standing told name
  callable_iff : ∀ name route, s.router.routes.get? name = some route →
    ((∀ c ∈ route.callbacks, c.isCallable) ↔ Attachment.standing told name = some [])
  fails : ∀ run target params updateUrl route given push fault t,
    App.Destination s.router target params updateUrl route given push →
    App.go (call run) target params updateUrl s = (.error fault, t) →
    FailsOf run route given s fault t

theorem storesAttached_of_stored {told : List Attachment}
    (h : ∀ name, s.router.uncallable? name = Attachment.standing told name) :
    StoresAttached s told where
  stored := h
  callable_iff name route hroute := by
    rw [← h name, Router.uncallable?_of_get? hroute, Option.some_inj,
      Callback.flatMap_uncallable_eq_nil_iff]
  fails run target params updateUrl route given push fault t hdest hgo :=
    failsOf_of_raisedOnTheWay hdest.get?_name (App.raisedOnTheWay_of_go hdest hgo)

/-- At any moment of a session, be it within a step that is running or after one that has failed,
what is stored and cannot be called is what the answers tell to have been attached, and nothing
else. -/
theorem uncallable_told (host : Host) (config : Config) (depth : Nat) (steps : List Step) :
    let answers := (execAll depth steps (start host config)).1
    let t := (execAll depth steps (start host config)).2
    let told := answers.flatMap Answer.attachments
    StoresAttached t told ∧
    ∀ a ∈ answers, ∀ b, b.Within a → ∃ d u before after,
      RanIn (exec d) (start host config) t u b ∧ told = before ++ b.attachments ++ after ∧
      StoresAttached u before ∧
      StoresAttached (exec d b.step u).2 (before ++ b.attachments) := by
  intro answers t told
  obtain ⟨htold, hamid⟩ := tells_attaches.execAll depth steps (start host config)
  have hstores : ∀ {es u}, Attaches (start host config) es u → StoresAttached u es :=
    fun h => storesAttached_of_stored h
  refine ⟨hstores htold, ?_⟩
  intro a ha b hb
  obtain ⟨d, u, before, after, hran, hbefore, hsplit⟩ := hamid a ha b hb
  exact ⟨d, u, before, after, hran, hsplit, hstores hbefore,
    hstores (hbefore.trans (hran.told tells_attaches))⟩

def plainTemplate : Template := ⟨[.separator, .literal 'n'], by decide⟩

/-- A value that cannot be called is left out when a route is registered with it, but kept when it
is attached to the route, and ends a navigation there. -/
theorem not_callable_of_attached :
    let steps : List Step := [.addRoute "n" "/n" (.value (.int 7)), .observe "n" (.value (.int 7)),
      .go "n" .empty true]
    let r := execAll nestingLimit steps (start { behaviour := .memory true } {})
    r.1.map Answer.result =
        [.ok (.route ⟨"n", plainTemplate, []⟩), .ok .nothing, .error (.notCallable (.int 7))] ∧
      r.2.router.uncallable? "n" = some [.int 7] := by
  intro steps r
  let s : Session := start { behaviour := .memory true } {}
  let registered : Session :=
    { s with router := s.router.register ⟨"n", plainTemplate, []⟩ }
  have htemplate : Template.ofPath "/n" = .ok plainTemplate := Template.ofPath_path plainTemplate
  have hadd : App.addRoute "n" "/n" [] s = (.ok ⟨"n", plainTemplate, []⟩, registered) := by
    rw [App.addRoute_apply, htemplate]
  have hperform : perform (exec 999) (.addRoute "n" "/n" (.value (.int 7))) s =
      (.ok (.route ⟨"n", plainTemplate, []⟩), registered) := by
    change (App.addRoute "n" "/n" [] >>= fun route => pure (Reply.route route)) s = _
    rw [Action.bind_apply, hadd]
    rfl
  have hexec : exec nestingLimit (.addRoute "n" "/n" (.value (.int 7))) s =
      (⟨.addRoute "n" "/n" (.value (.int 7)), .ok (.route ⟨"n", plainTemplate, []⟩), [], []⟩,
        registered) := by
    have hfresh : ({ s with stage.calls := [] } : Session) = s := rfl
    rw [nestingLimit, exec_succ, answer_apply, hfresh, hperform]
    rfl
  have hr : r = execAll nestingLimit steps s := rfl
  rw [hr, execAll_cons, hexec]
  exact ⟨rfl, rfl⟩

end Session

end NamedRoutes
