import NamedRoutes.Proofs.Simulation
import NamedRoutes.Session.Run

/-!
# Congruences of sessions

Apart from what it asks of the host, a step only depends on the routes, on the configuration and on
the stage of its session, and it changes them by registering routes and by rewriting the stage. So a
relation between sessions that agree on these parts, and go on being related when both of them are
changed alike, relates what a step does to them: `simulates_perform` says so for every step but
those that concern the host, and `simulates_call` for every callback. Only how calls are carried
out, with the steps nested in them, is left to be shown of the relation at hand.
-/
namespace NamedRoutes

section

variable {σ : Type}

def CallbackSpec.steps : CallbackSpec σ → List σ
  | .script s => s.steps
  | _ => []

def Callback.steps : Callback σ → List σ
  | .script _ s => s.steps
  | _ => []

def Lifecycle.steps (l : Lifecycle σ) : List σ := l.first.steps ++ l.later.steps

theorem Lifecycle.mem_steps_of_plan {l : Lifecycle σ} {hook : Hook} {step : σ}
    (h : step ∈ (l.plan hook).steps) : step ∈ l.steps := by
  cases hook with
  | firstVisit => exact List.mem_append_left _ h
  | revisit => exact List.mem_append_right _ h

theorem Lifecycle.mem_steps_setPlan {l : Lifecycle σ} {hook : Hook} {plan : HookPlan σ} {step : σ}
    (hplan : plan.steps ⊆ (l.plan hook).steps) (h : step ∈ (l.setPlan hook plan).steps) :
    step ∈ l.steps := by
  cases hook with
  | firstVisit =>
    rcases List.mem_append.1 h with h | h
    · exact List.mem_append_left _ (hplan h)
    · exact List.mem_append_right _ h
  | revisit =>
    rcases List.mem_append.1 h with h | h
    · exact List.mem_append_left _ h
    · exact List.mem_append_right _ (hplan h)

theorem Callback.mem_steps_callables {c d : Callback σ} (h : d ∈ c.callables) : d = c := by
  rw [callables] at h
  split at h
  · exact List.mem_singleton.1 h
  · cases h

end

/-- The steps that a step gives to callbacks and lifecycles, for them to run. -/
def Step.nested : Step → List Step
  | addRoute _ _ spec => spec.steps
  | addRoutes entries => entries.flatMap fun e => e.2.steps
  | observe _ spec => spec.steps
  | enroll _ _ l => (l.getD .blank).steps
  | _ => []

/-- A property of a step, of the steps nested in it, and so on. -/
inductive Step.Throughout (P : Step → Prop) : Step → Prop
  | intro {step} (self : P step) (nested : ∀ sub ∈ step.nested, Throughout P sub) :
    Throughout P step

/-- Neither touches the host nor tells anything of it. -/
def Step.isPlain : Step → Bool
  | go .. | supportsHistory | host | push _ | expectPushed .. | expectNoPush => false
  | _ => true

theorem Router.resolve_congr {κ : Type} {r r' : Router κ} (hroutes : r.routes = r'.routes)
    (hconfig : r.config = r'.config) (path : String) : r.resolve path = r'.resolve path := by
  rw [resolve, resolve, rootCandidate?, rootCandidate?, hroutes, hconfig]

def Stage.unlogged (stage : Stage) : Stage := { stage with calls := [] }

theorem Stage.ext_unlogged {a b : Stage} (h : a.unlogged = b.unlogged)
    (hcalls : a.calls = b.calls) : a = b := by
  cases a
  cases b
  cases hcalls
  cases h
  rfl

namespace Session

open NamedRoutes.Action

/-- All steps that are kept for later have the property. -/
structure Keeps (P : Step → Prop) (s : Session) : Prop where
  callbacks : ∀ {name route}, s.router.routes.get? name = some route →
    ∀ callback ∈ route.callbacks, ∀ step ∈ callback.steps, P step
  lifecycles : ∀ {name l}, s.stage.lifecycles.get? name = some l → ∀ step ∈ l.steps, P step

structure Agree (s t : Session) : Prop where
  routes : s.router.routes = t.router.routes
  config : s.router.config = t.router.config
  stage : s.stage.unlogged = t.stage.unlogged

structure Congruence (R : Session → Session → Prop) : Prop where
  agree : ∀ {s t}, R s t → Agree s t
  register : ∀ {s t}, R s t → ∀ route,
    R { s with router := s.router.register route } { t with router := t.router.register route }
  restage : ∀ {s t}, R s t → ∀ {stage stage' : Stage}, stage.unlogged = stage'.unlogged →
    stage.calls = s.stage.calls → stage'.calls = t.stage.calls →
    R { s with stage } { t with stage := stage' }

/-- Related sessions that only keep steps with a property. -/
def Within (P : Step → Prop) (R : Session → Session → Prop) (s t : Session) : Prop :=
  R s t ∧ s.Keeps P

/-- An action that every congruence is respected by. -/
def Respectful (P : Step → Prop) (a : Action Session Unit) : Prop :=
  ∀ R, Congruence R → Simulates (Within P R) Eq a a

variable {P : Step → Prop} {R : Session → Session → Prop} {s t : Session}

theorem Agree.lifecycles (h : Agree s t) : s.stage.lifecycles = t.stage.lifecycles :=
  show s.stage.unlogged.lifecycles = t.stage.unlogged.lifecycles by rw [h.stage]

theorem Agree.handles (h : Agree s t) : s.stage.handles = t.stage.handles :=
  show s.stage.unlogged.handles = t.stage.unlogged.handles by rw [h.stage]

theorem Agree.serials (h : Agree s t) : s.stage.serials = t.stage.serials :=
  show s.stage.unlogged.serials = t.stage.unlogged.serials by rw [h.stage]

theorem Agree.called (h : Agree s t) : s.stage.called = t.stage.called :=
  show s.stage.unlogged.called = t.stage.unlogged.called by rw [h.stage]

theorem keeps_start (host : Host) (config : Config) : (start host config).Keeps P where
  callbacks h := by cases h
  lifecycles h := by cases h

theorem Keeps.register (h : s.Keeps P) {route : Route (Callback Step)}
    (hroute : ∀ callback ∈ route.callbacks, ∀ step ∈ callback.steps, P step) :
    Keeps P { s with router := s.router.register route } where
  callbacks := by
    intro name found hfound
    rw [Router.register, OrderedMap.get?_insert] at hfound
    split at hfound
    · cases hfound
      exact hroute
    · exact h.callbacks hfound
  lifecycles := h.lifecycles

theorem Keeps.restage (h : s.Keeps P) {stage : Stage}
    (hstage : ∀ {name l}, stage.lifecycles.get? name = some l → ∀ step ∈ l.steps, P step) :
    Keeps P { s with stage } where
  callbacks := h.callbacks
  lifecycles := hstage

theorem Keeps.insert (h : s.Keeps P) {route : String} {l : Lifecycle Step}
    (hl : ∀ step ∈ l.steps, P step) {name : String} {found : Lifecycle Step}
    (hfound : (s.stage.lifecycles.insert route l).get? name = some found) :
    ∀ step ∈ found.steps, P step := by
  rw [OrderedMap.get?_insert] at hfound
  split at hfound
  · cases hfound
    exact hl
  · exact h.lifecycles hfound

theorem Congruence.within_register (hR : Congruence R) (h : Within P R s t)
    {route : Route (Callback Step)}
    (hroute : ∀ callback ∈ route.callbacks, ∀ step ∈ callback.steps, P step) :
    Within P R { s with router := s.router.register route }
      { t with router := t.router.register route } :=
  ⟨hR.register h.1 route, h.2.register hroute⟩

theorem simulates_setLifecycle (hR : Congruence R) (route : String) {l : Lifecycle Step}
    (hl : ∀ step ∈ l.steps, P step) :
    Simulates (Within P R) Eq (setLifecycle route l) (setLifecycle route l) := by
  apply simulates_modify
  intro s t h
  refine ⟨hR.restage h.1 ?_ rfl rfl, h.2.restage (h.2.insert hl)⟩
  exact congrArg (fun st : Stage => { st with lifecycles := st.lifecycles.insert route l })
    (hR.agree h.1).stage

theorem simulates_lifecycle? (hR : Congruence R) (route : String) :
    Simulates (Within P R) (fun l l' => l = l' ∧ ∀ m ∈ l, ∀ step ∈ m.steps, P step)
      (lifecycle? route) (lifecycle? route) := by
  apply simulates_get_bind
  intro s t h
  refine ⟨.ok ⟨?_, ?_⟩, h⟩
  · rw [(hR.agree h.1).lifecycles]
  · intro m hm
    exact h.2.lifecycles hm

theorem simulates_takeOutcome (hR : Congruence R) (hook : Hook) (route : String) :
    Simulates (Within P R) Eq (takeOutcome hook route) (takeOutcome hook route) := by
  refine (simulates_lifecycle? hR route).bind ?_
  rintro found _ ⟨rfl, hfound⟩
  cases found with
  | none => exact simulates_pure rfl
  | some l =>
    cases houtcomes : (l.plan hook).outcomes with
    | nil =>
      simp only [houtcomes]
      exact simulates_pure rfl
    | cons outcome rest =>
      simp only [houtcomes]
      refine (simulates_setLifecycle hR route ?_).bind fun _ _ _ => simulates_failWith _
      intro step hstep
      exact hfound l rfl step (Lifecycle.mem_steps_setPlan (by exact List.Subset.refl _) hstep)

theorem simulates_markInitialized (hR : Congruence R) (route : String) :
    Simulates (Within P R) Eq (markInitialized route) (markInitialized route) := by
  refine (simulates_lifecycle? hR route).bind ?_
  rintro found _ ⟨rfl, hfound⟩
  cases found with
  | none => exact simulates_pure rfl
  | some l => exact simulates_setLifecycle hR route (hfound l rfl)

theorem simulates_routeOf (hR : Congruence R) (handle : String) :
    Simulates (Within P R) Eq (routeOf handle) (routeOf handle) := by
  apply simulates_get_bind
  intro s t h
  rw [(hR.agree h.1).handles]
  cases t.stage.handles.get? handle with
  | some route => exact ⟨.ok rfl, h⟩
  | none => exact ⟨.error _, h⟩

theorem simulates_prepare (hR : Congruence R) {spec : CallbackSpec Step}
    (hspec : ∀ step ∈ spec.steps, P step) :
    Simulates (Within P R) (fun c d => c = d ∧ ∀ step ∈ c.steps, P step)
      (prepare spec) (prepare spec) := by
  cases spec with
  | value v =>
    refine simulates_pure ⟨rfl, ?_⟩
    intro step hstep
    cases hstep
  | handle handle =>
    refine (simulates_routeOf hR handle).bind ?_
    rintro route _ rfl
    refine simulates_pure ⟨rfl, ?_⟩
    intro step hstep
    cases hstep
  | script script =>
    apply simulates_get_bind
    intro s t h
    refine ⟨.ok ⟨?_, hspec⟩, hR.restage h.1 ?_ rfl rfl, h.2.restage h.2.lifecycles⟩
    · rw [(hR.agree h.1).serials]
    · rw [(hR.agree h.1).serials]
      exact congrArg (fun st : Stage => { st with serials := t.stage.serials + 1 })
        (hR.agree h.1).stage

theorem simulates_prepareAll (hR : Congruence R) {routes : List (String × CallbackSpec Step)}
    (hroutes : ∀ e ∈ routes, ∀ step ∈ e.2.steps, P step) :
    Simulates (Within P R)
      (fun es fs => es = fs ∧ ∀ e ∈ es, ∀ callback ∈ e.2, ∀ step ∈ callback.steps, P step)
      (prepareAll routes) (prepareAll routes) := by
  induction routes with
  | nil => exact simulates_pure ⟨rfl, by simp⟩
  | cons e rest ih =>
    obtain ⟨he, hrest⟩ := List.forall_mem_cons.1 hroutes
    refine (simulates_prepare hR he).bind ?_
    rintro callback _ ⟨rfl, hcallback⟩
    refine (ih hrest).bind ?_
    rintro es _ ⟨rfl, hes⟩
    refine simulates_pure ⟨rfl, List.forall_mem_cons.2 ⟨?_, hes⟩⟩
    intro c hc
    rw [Callback.mem_steps_callables hc]
    exact hcallback

theorem simulates_addRoute (hR : Congruence R) (name path : String)
    {callbacks : List (Callback Step)}
    (hcallbacks : ∀ callback ∈ callbacks, ∀ step ∈ callback.steps, P step) :
    Simulates (Within P R) Eq (App.addRoute name path callbacks)
      (App.addRoute name path callbacks) := by
  intro s t h
  rw [App.addRoute_apply, App.addRoute_apply]
  cases Template.ofPath path with
  | ok template => exact ⟨.ok rfl, hR.within_register h hcallbacks⟩
  | error fault => exact ⟨.error fault, h⟩

theorem simulates_addRoutes (hR : Congruence R) {routes : List (String × List (Callback Step))}
    (hroutes : ∀ e ∈ routes, ∀ callback ∈ e.2, ∀ step ∈ callback.steps, P step) :
    Simulates (Within P R) Eq (App.addRoutes routes) (App.addRoutes routes) := by
  induction routes with
  | nil => exact simulates_pure rfl
  | cons e rest ih =>
    obtain ⟨he, hrest⟩ := List.forall_mem_cons.1 hroutes
    exact (simulates_addRoute hR _ e.1 he).bind fun _ _ _ => ih hrest

theorem simulates_observe (hR : Congruence R) (name : String) {callback : Callback Step}
    (hcallback : ∀ step ∈ callback.steps, P step) :
    Simulates (Within P R) Eq (App.observe name callback) (App.observe name callback) := by
  intro s t h
  rw [App.observe_apply, App.observe_apply, (hR.agree h.1).routes, (hR.agree h.1).config]
  cases hfound : t.router.routes.get? name with
  | none =>
    refine ⟨?_, h⟩
    dsimp only
    split
    · exact .error _
    · exact .ok rfl
  | some route =>
    refine ⟨.ok rfl, hR.within_register h ?_⟩
    rw [← (hR.agree h.1).routes] at hfound
    intro c hc
    rcases List.mem_append.1 hc with hc | hc
    · exact h.2.callbacks hfound c hc
    · exact List.mem_singleton.1 hc ▸ hcallback

theorem simulates_urlFor (hR : Congruence R) (name : String) (params : Params) :
    Simulates (Within P R) Eq (App.urlFor name params) (App.urlFor name params) := by
  apply simulates_get_bind
  intro s t h
  rw [(hR.agree h.1).routes]
  cases t.router.routes.get? name with
  | some route => exact ⟨.ok rfl, h⟩
  | none => exact ⟨.error _, h⟩

theorem simulates_enroll (hR : Congruence R) (name handle : String) {lifecycle : Lifecycle Step}
    (hlifecycle : ∀ step ∈ lifecycle.steps, P step) :
    Simulates (Within P R) Eq (enroll name handle lifecycle) (enroll name handle lifecycle) := by
  refine (simulates_modify ?_).bind fun _ _ _ =>
    (simulates_lifecycle? hR name).mono fun _ _ h => h.1
  intro s t h
  refine ⟨hR.restage h.1 ?_ rfl rfl, h.2.restage ?_⟩
  · exact congrArg (fun st : Stage => { st with
      lifecycles := st.lifecycles.insertIfNew name lifecycle
      handles := st.handles.insert handle name }) (hR.agree h.1).stage
  · intro route l hl
    rw [OrderedMap.insertIfNew] at hl
    split at hl
    · exact h.2.lifecycles hl
    · exact h.2.insert hlifecycle hl

theorem simulates_reading (hR : Congruence R) {f : Session → Reply}
    (hf : ∀ {s t}, Agree s t → f s = f t) :
    Simulates (Within P R) Eq (do return f (← get)) (do return f (← get)) :=
  simulates_get_bind fun _ _ h => ⟨.ok (hf (hR.agree h.1)), h⟩

/-- However the nested steps are run, carrying out calls respects the relation. -/
def Carries (P : Step → Prop) (R : Session → Session → Prop) (run run' : Runner) : Prop :=
  ∀ stopAtFault invocation steps ending, (∀ step ∈ steps, P step) → Respectful P ending →
    Simulates (Within P R) Eq (carryOut run stopAtFault invocation steps ending)
      (carryOut run' stopAtFault invocation steps ending)

variable {run run' : Runner}

theorem simulates_callScript (hR : Congruence R) (hcarry : Carries P R run run') (serial : Nat)
    {script : Script Step} (hscript : ∀ step ∈ script.steps, P step) (params : Params) :
    Simulates (Within P R) Eq (callScript run serial script params)
      (callScript run' serial script params) := by
  apply simulates_get_bind
  intro s t h
  have hdue : ∀ step ∈ dueSteps t.stage.called serial script, P step := by
    intro step hstep
    rw [dueSteps] at hstep
    split at hstep
    · cases hstep
    · exact hscript step hstep
  rw [(hR.agree h.1).called]
  refine (((simulates_modify ?_).bind fun _ _ _ => ?_) : Simulates (Within P R) Eq _ _) h
  · intro s t h
    refine ⟨hR.restage h.1 ?_ rfl rfl, h.2.restage h.2.lifecycles⟩
    exact congrArg (fun st : Stage => { st with called := serial :: st.called })
      (hR.agree h.1).stage
  · refine (hcarry _ _ _ _ hdue fun _ _ => simulates_failWith _).bind fun _ _ _ => ?_
    exact simulates_pure rfl

theorem simulates_callHook (hR : Congruence R) (hcarry : Carries P R run run') (hook : Hook)
    (route : String) (params : Value) :
    Simulates (Within P R) Eq (callHook run hook route params)
      (callHook run' hook route params) := by
  refine (simulates_lifecycle? hR route).bind ?_
  rintro found _ ⟨rfl, hfound⟩
  cases found with
  | none => exact simulates_pure rfl
  | some l =>
    have hl := hfound l rfl
    cases hid : l.id with
    | none =>
      simp only [hid]
      exact simulates_pure rfl
    | some id =>
      simp only [hid]
      refine (simulates_setLifecycle hR route ?_).bind fun _ _ _ =>
        hcarry _ _ _ _ (fun step h => hl step (Lifecycle.mem_steps_of_plan h))
          fun R' hR' => simulates_takeOutcome hR' hook route
      exact fun step h => hl step (Lifecycle.mem_steps_setPlan (List.nil_subset _) h)

theorem simulates_invoke (hR : Congruence R) (hcarry : Carries P R run run') (route : String)
    (params : Value) :
    Simulates (Within P R) Eq (invoke run route params) (invoke run' route params) := by
  refine (simulates_lifecycle? hR route).bind ?_
  rintro found _ ⟨rfl, -⟩
  cases found with
  | none => exact simulates_pure rfl
  | some l =>
    cases hl : l.initialized with
    | true =>
      simp only [hl, if_true]
      exact simulates_callHook hR hcarry .revisit route params
    | false =>
      simp only [hl]
      exact ((simulates_callHook hR hcarry .firstVisit route params).mapFault _).bind
        fun _ _ _ => simulates_markInitialized hR route

theorem simulates_call (hR : Congruence R) (hcarry : Carries P R run run')
    {callback : Callback Step} (hcallback : ∀ step ∈ callback.steps, P step) (params : Params) :
    Simulates (Within P R) Eq (call run callback params) (call run' callback params) := by
  cases callback with
  | value v => exact simulates_throw _
  | invoker route =>
    exact (simulates_invoke hR hcarry route params.toValue).bind fun _ _ _ => simulates_pure rfl
  | script serial script => exact simulates_callScript hR hcarry serial hcallback params

/-- Callbacks that are called for a route of related sessions leave related sessions. -/
theorem simulates_runCallbacks (hR : Congruence R) (hcarry : Carries P R run run')
    {callbacks : List (Callback Step)}
    (hcallbacks : ∀ callback ∈ callbacks, ∀ step ∈ callback.steps, P step) (params : Params) :
    Simulates (Within P R) Eq (App.runCallbacks (call run) callbacks params)
      (App.runCallbacks (call run') callbacks params) :=
  App.simulates_runCallbacks
    (fun callback h params => simulates_call hR hcarry (hcallbacks callback h) params) params

/-- A step that does not concern the host is performed alike in related sessions. -/
theorem simulates_perform (hR : Congruence R) (hcarry : Carries P R run run') {step : Step}
    (hplain : step.isPlain) (hnested : ∀ sub ∈ step.nested, P sub) :
    Simulates (Within P R) Eq (perform run step) (perform run' step) := by
  cases step with
  | addRoute name path spec =>
    refine (simulates_prepare hR hnested).bind ?_
    rintro callback _ ⟨rfl, hcallback⟩
    refine (simulates_addRoute hR name path fun c hc => ?_).bind ?_
    · rw [Callback.mem_steps_callables hc]
      exact hcallback
    · rintro route _ rfl
      exact simulates_pure rfl
  | addRoutes routes =>
    refine (simulates_prepareAll hR fun e he step hstep => ?_).bind ?_
    · exact hnested step (List.mem_flatMap.2 ⟨e, he, hstep⟩)
    · rintro es _ ⟨rfl, hes⟩
      exact (simulates_addRoutes hR hes).bind fun _ _ _ => simulates_pure rfl
  | observe name spec =>
    refine (simulates_prepare hR hnested).bind ?_
    rintro callback _ ⟨rfl, hcallback⟩
    exact (simulates_observe hR name hcallback).bind fun _ _ _ => simulates_pure rfl
  | resolve path =>
    exact simulates_reading hR fun h => by rw [Router.resolve_congr h.routes h.config]
  | urlFor name params =>
    refine (simulates_urlFor hR name params).bind ?_
    rintro url _ rfl
    exact simulates_pure rfl
  | contains name => exact simulates_reading hR fun h => by rw [h.routes]
  | count => exact simulates_reading hR fun h => by rw [h.routes]
  | routes => exact simulates_reading hR fun h => by rw [h.routes]
  | config => exact simulates_reading hR fun h => by rw [h.config]
  | enroll name handle lifecycle =>
    refine (simulates_enroll hR name handle hnested).bind ?_
    rintro stored _ rfl
    exact simulates_pure rfl
  | lifecycle name =>
    refine (simulates_lifecycle? hR name).bind ?_
    rintro found _ ⟨rfl, -⟩
    exact simulates_pure rfl
  | hasLifecycle name => exact simulates_reading hR fun h => by rw [h.lifecycles]
  | invoke handle params =>
    refine (simulates_routeOf hR handle).bind ?_
    rintro route _ rfl
    exact (simulates_invoke hR hcarry route params).bind fun _ _ _ => simulates_pure rfl
  | _ => cases hplain

end Session

end NamedRoutes
