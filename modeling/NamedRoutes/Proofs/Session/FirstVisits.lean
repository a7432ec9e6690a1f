import NamedRoutes.Proofs.Session.History
import NamedRoutes.Proofs.Session.Passage
import NamedRoutes.Proofs.Session.Tracking

/-!
# First visits and revisits

However hooks, callbacks and navigations are nested in a session, and whatever fails, the hooks of a
lifecycle are called in lawful order. Only invocations call hooks. Between the return of a first
visit and the moment in which its lifecycle is marked as initialized nothing else can happen, so
that both count as one event; in all that happens within a call the law holds as well, since nested
steps are steps.
-/
namespace NamedRoutes

/-- Neither calls anything nor tells of lifecycles. -/
def Step.isCalm : Step → Bool
  | go .. | invoke .. | enroll .. | lifecycle _ => false
  | _ => true

/-- Gives a lifecycle to a route, or asks for the one that a route has. -/
def Step.concernsLifecycles : Step → Bool
  | enroll .. | lifecycle _ | hasLifecycle _ => true
  | _ => false

namespace Session

open NamedRoutes.Action Event

variable {s t u : Session} {route : String} {l : Lifecycle Step}

/-- From `s` to `t` calls have been recorded, and what they tell has happened. -/
def Logged (s t : Session) : Prop :=
  ∃ calls, t.stage.calls = s.stage.calls ++ calls ∧ Leads s (Call.eventsOfAll calls) t

structure Untouched (s t : Session) : Prop where
  lifecycles : t.stage.lifecycles = s.stage.lifecycles
  handles : t.stage.handles = s.stage.handles
  calls : t.stage.calls = s.stage.calls

theorem Untouched.refl (s : Session) : Untouched s s := ⟨rfl, rfl, rfl⟩

theorem Untouched.trans (h : Untouched s t) (h' : Untouched t u) : Untouched s u :=
  ⟨h'.lifecycles.trans h.lifecycles, h'.handles.trans h.handles, h'.calls.trans h.calls⟩

theorem Untouched.logged (h : Untouched s t) : Logged s t :=
  ⟨[], by rw [h.calls, List.append_nil], .nothing h.handles h.lifecycles⟩

theorem Logged.trans (h : Logged s t) (h' : Logged t u) : Logged s u := by
  obtain ⟨calls, hcalls, hleads⟩ := h
  obtain ⟨calls', hcalls', hleads'⟩ := h'
  refine ⟨calls ++ calls', by rw [hcalls', hcalls, List.append_assoc], ?_⟩
  rw [Call.eventsOfAll_append]
  exact hleads.trans hleads'

/-- A call is recorded behind what has happened in it. -/
theorem logged_record {invocation : Invocation} {answers : List Answer} {fault : Option Fault}
    (hcalls : t.stage.calls = s.stage.calls)
    (hleads : Leads s (invocation.enclose (Answer.eventsOfAll answers) fault) t) :
    Logged s (record ⟨invocation, answers, fault⟩ t).2 := by
  refine ⟨[⟨invocation, answers, fault⟩], by rw [record_apply, hcalls], ?_⟩
  rw [Call.eventsOfAll_singleton, Call.events, ← List.append_nil (invocation.enclose _ _)]
  exact hleads.trans (.nothing rfl rfl)

/-- What a run of a step tells is what has happened. -/
structure Chronicles (s : Session) (answer : Answer) (t : Session) : Prop where
  leads : Leads s answer.events t
  calls : t.stage.calls = s.stage.calls

variable {run : Runner} (hrun : ∀ step s, Chronicles s (run step s).1 (run step s).2)

include hrun in
theorem leads_runSteps (stopAtFault : Bool) (steps : List Step) (s : Session) :
    Leads s (Answer.eventsOfAll (runSteps run stopAtFault steps s).1.1)
        (runSteps run stopAtFault steps s).2 ∧
      (runSteps run stopAtFault steps s).2.stage.calls = s.stage.calls := by
  induction steps generalizing s with
  | nil => exact ⟨.nothing rfl rfl, rfl⟩
  | cons step rest ih =>
    have hstep := hrun step s
    obtain ⟨hleads, hcalls⟩ := ih (run step s).2
    rw [runSteps_cons]
    split
    · rw [Answer.eventsOfAll_singleton]
      exact ⟨hstep.leads, hstep.calls⟩
    · exact ⟨hstep.leads.trans hleads, hcalls.trans hstep.calls⟩

include hrun in
theorem logged_callScript (serial : Nat) (script : Script Step) (params : Params) (s : Session) :
    Logged s (callScript run serial script params s).2 := by
  let s₁ : Session := { s with stage.called := serial :: s.stage.called }
  let steps := dueSteps s.stage.called serial script
  have hstate : (callScript run serial script params s).2 =
      (carryOut run script.propagate (.callback script.id params) steps
        (Action.failWith (script.fault.map .raised)) s₁).2 := by
    rw [callScript, Action.get_bind_apply, Action.bind_apply, Action.modify_apply]
    dsimp only
    rw [Action.bind_apply]
    rcases carryOut run script.propagate (.callback script.id params) steps _ s₁ with ⟨r | r, t⟩
    · rfl
    · rfl
  have hcalled : Untouched s s₁ := ⟨rfl, rfl, rfl⟩
  obtain ⟨hleads, hcalls⟩ := leads_runSteps hrun script.propagate steps s₁
  refine hcalled.logged.trans ?_
  rw [hstate, carryOut_apply]
  rcases hr : runSteps run script.propagate steps s₁ with ⟨⟨answers, _ | fault⟩, t⟩ <;>
    rw [hr] at hleads hcalls
  · dsimp only
    rw [Action.failWith_apply]
    exact logged_record hcalls hleads
  · exact logged_record hcalls hleads

theorem lifecycle?_bind_apply {α : Type} (route : String)
    (f : Option (Lifecycle Step) → Action Session α) (s : Session) :
    (lifecycle? route >>= f) s = f (s.stage.lifecycles.get? route) s :=
  rfl

theorem leads_takeOutcome (hook : Hook) (route : String) (s : Session) :
    Leads s [] (takeOutcome hook route s).2 ∧
      (takeOutcome hook route s).2.stage.calls = s.stage.calls := by
  rw [takeOutcome, lifecycle?_bind_apply]
  cases hl : s.stage.lifecycles.get? route with
  | none => exact ⟨.nothing rfl rfl, rfl⟩
  | some l =>
    cases houtcomes : (l.plan hook).outcomes with
    | nil =>
      simp only [houtcomes]
      exact ⟨.nothing rfl rfl, rfl⟩
    | cons outcome rest =>
      simp only [houtcomes]
      have hrest : rest <:+ (l.plan hook).outcomes := houtcomes ▸ List.suffix_cons outcome rest
      rw [Action.bind_apply]
      dsimp only [setLifecycle, Action.modify_apply]
      rw [Action.failWith_apply]
      exact ⟨leads_setPlan hl List.suffix_rfl hrest, rfl⟩

theorem callHook_of_plain (run : Runner) (hook : Hook) (params : Value)
    (hl : s.stage.lifecycles.get? route = some l) (hid : l.id = none) :
    callHook run hook route params s = (.ok (), s) := by
  rw [callHook, lifecycle?_bind_apply, hl]
  simp only [hid]
  rfl

theorem callHook_of_id (run : Runner) (hook : Hook) (params : Value) {id : String}
    (hl : s.stage.lifecycles.get? route = some l) (hid : l.id = some id) :
    callHook run hook route params s =
      carryOut run true (.hook hook route id params) (l.plan hook).steps (takeOutcome hook route)
        (setLifecycle route (l.setPlan hook ⟨[], (l.plan hook).outcomes⟩) s).2 := by
  rw [callHook, lifecycle?_bind_apply, hl]
  simp only [hid]
  rfl

def settle (hook : Hook) (route : String) (s : Session) : Session :=
  match hook with
  | .firstVisit => (markInitialized route s).2
  | .revisit => s

theorem markInitialized_of_get? (hl : s.stage.lifecycles.get? route = some l) :
    markInitialized route s = setLifecycle route { l with initialized := true } s := by
  rw [markInitialized, lifecycle?_bind_apply, hl]

theorem calls_settle (hook : Hook) (hl : s.stage.lifecycles.get? route = some l) :
    (settle hook route s).stage.calls = s.stage.calls := by
  cases hook with
  | firstVisit =>
    rw [settle, markInitialized_of_get? hl]
    rfl
  | revisit => rfl

/-- A hook that returns is settled at once, before anything else happens. -/
theorem leads_settle {hook : Hook} (id : String) (hl : s.stage.lifecycles.get? route = some l) :
    Leads s [.ends hook route id none] (settle hook route s) := by
  cases hook with
  | firstVisit =>
    rw [settle, markInitialized_of_get? hl]
    exact leads_returns id hl
  | revisit => exact leads_ends id (.inl rfl) s

section

variable {hook : Hook} {id : String} {answers : List Answer}
  (hleads : Leads s (.begins hook route id :: Answer.eventsOfAll answers) t)
  (hcalls : t.stage.calls = s.stage.calls)

include hleads hcalls

theorem logged_failed_hook (params : Value) (fault : Fault) :
    Logged s (record ⟨.hook hook route id params, answers, some fault⟩ t).2 :=
  logged_record hcalls (hleads.trans (leads_ends id (.inr (Option.some_ne_none fault)) t))

theorem logged_returned_hook (params : Value) (hl : s.stage.lifecycles.get? route = some l) :
    Logged s (settle hook route (record ⟨.hook hook route id params, answers, none⟩ t).2) := by
  let call : Call Answer := ⟨.hook hook route id params, answers, none⟩
  have hrecord : Leads t [] (record call t).2 := .nothing rfl rfl
  obtain ⟨l', hl', -⟩ := (hleads.trans hrecord).persists route l hl
  refine ⟨[call], ?_, ?_⟩
  · rw [calls_settle hook hl', record_apply, hcalls]
  · rw [Call.eventsOfAll_singleton]
    exact hleads.trans (hrecord.trans (leads_settle id hl'))

end

include hrun in
/-- A hook is called in keeping with its lifecycle's flag. -/
theorem logged_callHook {hook : Hook} (params : Value)
    (hl : s.stage.lifecycles.get? route = some l) (hhook : l.initialized = (hook == .revisit)) :
    match callHook run hook route params s with
    | (.ok (), t) => Logged s (settle hook route t)
    | (.error _, t) => Logged s t := by
  cases hid : l.id with
  | none =>
    rw [callHook_of_plain run hook params hl hid]
    refine ⟨[], by rw [List.append_nil, calls_settle hook hl], ?_⟩
    cases hook with
    | firstVisit =>
      rw [settle, markInitialized_of_get? hl]
      exact leads_setLifecycle hl (.markInitialized l) fun _ => .inr hid
    | revisit => exact .nothing rfl rfl
  | some id =>
    let s₁ := (setLifecycle route (l.setPlan hook ⟨[], (l.plan hook).outcomes⟩) s).2
    have hbegins : Leads s [.begins hook route id] s₁ :=
      (leads_begins hl hid hhook).trans (leads_setPlan hl List.nil_suffix List.suffix_rfl)
    obtain ⟨hleads, hcalls⟩ := leads_runSteps hrun true (l.plan hook).steps s₁
    rw [callHook_of_id run hook params hl hid, carryOut_apply]
    rcases hr : runSteps run true (l.plan hook).steps s₁ with ⟨⟨answers, _ | fault⟩, t⟩ <;>
      rw [hr] at hleads hcalls
    · obtain ⟨htaken, hkept⟩ := leads_takeOutcome hook route t
      have hends := (hbegins.trans hleads).trans htaken
      rw [List.append_nil] at hends
      dsimp only
      rcases hend : takeOutcome hook route t with ⟨fault | ⟨⟩, u⟩ <;> rw [hend] at hends hkept
      · exact logged_failed_hook hends (hkept.trans hcalls) params fault
      · exact logged_returned_hook hends (hkept.trans hcalls) params hl
    · exact logged_failed_hook (hbegins.trans hleads) hcalls params fault

theorem invoke_of_vacant (run : Runner) (params : Value)
    (hl : s.stage.lifecycles.get? route = none) : invoke run route params s = (.ok (), s) := by
  rw [invoke, lifecycle?_bind_apply, hl]
  rfl

theorem invoke_of_initialized (run : Runner) (params : Value)
    (hl : s.stage.lifecycles.get? route = some l) (hflag : l.initialized) :
    invoke run route params s = callHook run .revisit route params s := by
  rw [invoke, lifecycle?_bind_apply, hl]
  simp only [hflag, if_true]

theorem invoke_of_not_initialized (run : Runner) (params : Value)
    (hl : s.stage.lifecycles.get? route = some l) (hflag : l.initialized = false) :
    invoke run route params s =
      match callHook run .firstVisit route params s with
      | (.ok (), t) => markInitialized route t
      | (.error fault, t) => (.error (.initialization route fault.message), t) := by
  rw [invoke, lifecycle?_bind_apply, hl]
  simp only [hflag, Bool.false_eq_true, if_false]
  rw [Action.bind_apply, Action.mapFault_apply]
  rcases callHook run .firstVisit route params s with ⟨r | r, t⟩ <;> rfl

include hrun in
theorem logged_invoke (route : String) (params : Value) (s : Session) :
    Logged s (invoke run route params s).2 := by
  cases hl : s.stage.lifecycles.get? route with
  | none =>
    rw [invoke_of_vacant run params hl]
    exact (Untouched.refl s).logged
  | some l =>
    cases hflag : l.initialized with
    | true =>
      have hhook : l.initialized = (Hook.revisit == .revisit) := hflag
      have h := logged_callHook hrun params hl hhook
      rw [invoke_of_initialized run params hl hflag]
      rcases hr : callHook run .revisit route params s with ⟨r | r, t⟩ <;> rw [hr] at h
      · exact h
      · exact h
    | false =>
      have hhook : l.initialized = (Hook.firstVisit == .revisit) := hflag
      have h := logged_callHook hrun params hl hhook
      rw [invoke_of_not_initialized run params hl hflag]
      rcases hr : callHook run .firstVisit route params s with ⟨r | r, t⟩ <;> rw [hr] at h
      · exact h
      · exact h

include hrun in
theorem logged_call (callback : Callback Step) (params : Params) (s : Session) :
    Logged s (call run callback params s).2 := by
  cases callback with
  | value v => exact (Untouched.refl s).logged
  | invoker route =>
    have h := logged_invoke hrun route params.toValue s
    rw [call, Action.bind_apply]
    rcases hr : invoke run route params.toValue s with ⟨r | r, t⟩ <;> rw [hr] at h
    · exact h
    · exact h
  | script serial script => exact logged_callScript hrun serial script params s

include hrun in
theorem logged_of_callsInTurn {callbacks called : List (Callback Step)} {params : Params}
    {outcome : Except Fault Params}
    (h : App.CallsInTurn (call run) callbacks params s called outcome t) : Logged s t := by
  induction h with
  | done => exact (Untouched.refl _).logged
  | @fails callback _ params s fault t hcall =>
    have hlogged := logged_call hrun callback params s
    rw [hcall] at hlogged
    exact hlogged
  | @returns callback _ params s changed returned t _ _ _ hcall _ ih =>
    have hlogged := logged_call hrun callback params s
    rw [hcall] at hlogged
    exact hlogged.trans ih

include hrun in
theorem logged_go (target : String) (params : Params) (updateUrl : Bool) (s : Session) :
    Logged s (App.go (call run) target params updateUrl s).2 := by
  rcases App.go_cases (call run) target params updateUrl s with ⟨route, given, push, h⟩ | ⟨-, hgo⟩
  · obtain ⟨called, outcome, t, hcalls⟩ :=
      App.exists_callsInTurn (call run) route.callbacks given s
    have ht := logged_of_callsInTurn hrun hcalls
    rcases App.go_fails_or_arrives h hcalls with ⟨fault, hgo⟩ | ⟨arrived, -, hgo⟩ <;> rw [hgo]
    · exact ht
    · exact ht.trans (Untouched.logged ⟨rfl, rfl, rfl⟩)
  · rw [hgo]
    exact (Untouched.refl s).logged

instance : IsPreorder Session Untouched where
  refl := Untouched.refl
  trans _ _ _ := Untouched.trans

theorem untouched_routeOf (handle : String) : Moves Untouched (routeOf handle) := by
  refine moves_get_bind fun s => ?_
  cases s.stage.handles.get? handle with
  | some route => exact moves_pure route
  | none => exact moves_throw _

theorem untouched_prepare (spec : CallbackSpec Step) : Moves Untouched (prepare spec) := by
  cases spec with
  | value v => exact moves_pure _
  | handle handle => exact (untouched_routeOf handle).bind fun _ => moves_pure _
  | script script =>
    refine moves_get_bind fun s => Moves.bind (fun t => ?_) fun _ => moves_pure _
    exact ⟨rfl, rfl, rfl⟩

theorem untouched_prepareAll (routes : List (String × CallbackSpec Step)) :
    Moves Untouched (prepareAll routes) := by
  induction routes with
  | nil => exact moves_pure _
  | cons e rest ih => exact (untouched_prepare e.2).bind fun _ => ih.bind fun _ => moves_pure _

theorem untouched_addRoute (name path : String) (callbacks : List (Callback Step)) :
    Moves Untouched (App.addRoute name path callbacks) := by
  intro s
  rw [App.addRoute_apply]
  cases Template.ofPath path with
  | ok template => exact ⟨rfl, rfl, rfl⟩
  | error fault => exact .refl s

theorem untouched_addRoutes (routes : List (String × List (Callback Step))) :
    Moves Untouched (App.addRoutes routes) := by
  induction routes with
  | nil => exact moves_pure _
  | cons e rest ih => exact (untouched_addRoute _ e.1 e.2).bind fun _ => ih

theorem untouched_observe (name : String) (callback : Callback Step) :
    Moves Untouched (App.observe name callback) := by
  intro s
  rw [App.observe_apply]
  cases s.router.routes.get? name with
  | some route => exact ⟨rfl, rfl, rfl⟩
  | none => exact .refl s

theorem untouched_urlFor (name : String) (params : Params) :
    Moves Untouched (App.urlFor name params : Action Session String) := by
  refine moves_get_bind fun s => ?_
  cases s.router.routes.get? name with
  | some route => exact moves_pure _
  | none => exact moves_throw _

theorem untouched_expect (result : Except Unmet Unit) : Moves Untouched (expect result) := by
  cases result with
  | ok _ => exact moves_pure _
  | error unmet => exact moves_throw _

theorem untouched_push (visit : Visit) :
    Moves Untouched (App.push visit : Action Session Unit) := by
  intro s
  rw [App.push_apply]
  cases s.host.push visit with
  | ok host => exact ⟨rfl, rfl, rfl⟩
  | error fault => exact .refl s

theorem untouched_perform (run : Runner) {step : Step} (h : step.isCalm) :
    Moves Untouched (perform run step) := by
  cases step with
  | addRoute name path spec =>
    exact (untouched_prepare spec).bind fun _ =>
      (untouched_addRoute _ _ _).bind fun _ => moves_pure _
  | addRoutes routes =>
    exact (untouched_prepareAll routes).bind fun _ =>
      (untouched_addRoutes _).bind fun _ => moves_pure _
  | observe name spec =>
    exact (untouched_prepare spec).bind fun _ =>
      (untouched_observe _ _).bind fun _ => moves_pure _
  | urlFor name params => exact (untouched_urlFor name params).bind fun _ => moves_pure _
  | push visit => exact (untouched_push visit).bind fun _ => moves_pure _
  | expectPushed url route params => exact moves_get_bind fun _ => untouched_expect _
  | expectNoPush => exact moves_get_bind fun _ => untouched_expect _
  | resolve path => exact moves_get_bind fun _ => moves_pure _
  | contains name => exact moves_get_bind fun _ => moves_pure _
  | count => exact moves_get_bind fun _ => moves_pure _
  | routes => exact moves_get_bind fun _ => moves_pure _
  | config => exact moves_get_bind fun _ => moves_pure _
  | supportsHistory => exact moves_get_bind fun _ => moves_pure _
  | host => exact moves_get_bind fun _ => moves_pure _
  | hasLifecycle name => exact moves_get_bind fun _ => moves_pure _
  | _ => cases h

def Performs (step : Step) (s : Session) (r : Except Fault Reply × Session) : Prop :=
  ∃ calls, r.2.stage.calls = s.stage.calls ++ calls ∧
    Leads s (Call.eventsOfAll calls ++ Event.ofResult step r.1) r.2

theorem Logged.performs {step : Step} {result : Except Fault Reply} (h : Logged s t)
    (hresult : Event.ofResult step result = []) : Performs step s (result, t) := by
  obtain ⟨calls, hcalls, hleads⟩ := h
  exact ⟨calls, hcalls, by rwa [hresult, List.append_nil]⟩

theorem perform_enroll (run : Runner) (name handle : String)
    (lifecycle : Option (Lifecycle Step)) (s : Session) :
    perform run (.enroll name handle lifecycle) s =
      let t := (enroll name handle (lifecycle.getD .blank) s).2
      (.ok (.lifecycle ((t.stage.lifecycles.get? name).map Lifecycle.view)), t) :=
  rfl

theorem perform_lifecycle (run : Runner) (name : String) (s : Session) :
    perform run (.lifecycle name) s =
      (.ok (.lifecycle ((s.stage.lifecycles.get? name).map Lifecycle.view)), s) :=
  rfl

theorem perform_invoke (run : Runner) (handle : String) (params : Value) (s : Session) :
    perform run (.invoke handle params) s =
      match s.stage.handles.get? handle with
      | some name =>
        ((invoke run name params s).1.map fun _ => .nothing, (invoke run name params s).2)
      | none => (.error (.unknownHandle handle), s) := by
  rw [perform, routeOf, Action.bind_apply, Action.get_bind_apply]
  cases s.stage.handles.get? handle with
  | none => rfl
  | some name =>
    dsimp only
    rw [Action.pure_apply]
    dsimp only
    rw [Action.bind_apply]
    rcases invoke run name params s with ⟨r | r, t⟩ <;> rfl

include hrun in
theorem performs_perform (step : Step) (s : Session) : Performs step s (perform run step s) := by
  cases hcalm : step.isCalm with
  | true =>
    refine (untouched_perform run hcalm s).logged.performs ?_
    cases step <;> first | rfl | cases hcalm
  | false =>
    cases step with
    | go target params updateUrl =>
      rw [perform_go]
      exact (logged_go hrun target params updateUrl s).performs rfl
    | invoke handle params =>
      rw [perform_invoke]
      cases s.stage.handles.get? handle with
      | none => exact (Untouched.refl s).logged.performs rfl
      | some name => exact (logged_invoke hrun name params s).performs rfl
    | enroll name handle lifecycle =>
      rw [perform_enroll]
      refine ⟨[], (List.append_nil _).symm, ?_⟩
      exact (leads_enrolled name handle (lifecycle.getD .blank) s).trans (leads_shown name _)
    | lifecycle name =>
      rw [perform_lifecycle]
      exact ⟨[], (List.append_nil _).symm, leads_shown name s⟩
    | _ => cases hcalm

theorem chronicles_exec (depth : Nat) (step : Step) (s : Session) :
    Chronicles s (exec depth step s).1 (exec depth step s).2 := by
  induction depth generalizing step s with
  | zero =>
    rw [exec_zero]
    refine ⟨?_, rfl⟩
    have hevents : Answer.events ⟨step, .error .tooDeep, [], []⟩ = [] := by
      cases step <;> rfl
    rw [hevents]
    exact .nothing rfl rfl
  | succ depth ih =>
    have h := performs_perform ih step { s with stage.calls := [] }
    rw [exec_succ, answer_apply]
    rcases hr : perform (exec depth) step { s with stage.calls := [] } with ⟨result, t⟩
    rw [hr] at h
    obtain ⟨calls, hcalls, hleads⟩ := h
    cases (hcalls : t.stage.calls = calls)
    refine ⟨?_, rfl⟩
    have hfresh : Leads s [] { s with stage.calls := [] } := .nothing rfl rfl
    have hlast : Leads t [] { t with stage.calls := s.stage.calls } := .nothing rfl rfl
    rw [Answer.events, ← List.append_nil (_ ++ _)]
    exact (hfresh.trans hleads).trans hlast

theorem leads_execAll (depth : Nat) (steps : List Step) (s : Session) :
    Leads s (Answer.eventsOfAll (execAll depth steps s).1) (execAll depth steps s).2 := by
  induction steps generalizing s with
  | nil => exact .nothing rfl rfl
  | cons step rest ih => exact (chronicles_exec depth step s).leads.trans (ih _)

theorem tracks_start (host : Host) (config : Config) : Tracks [] (start host config) where
  handles _ := rfl
  stored h := by cases h
  vacant _ := ⟨rfl, by simp [Told]⟩

/-- Neither enrolling a lifecycle nor asking for one calls a hook or changes what is stored. -/
theorem stored_of_concernsLifecycles (depth : Nat) {step : Step} (h : step.concernsLifecycles)
    (s : Session) :
    (exec depth step s).1.calls = [] ∧
      ∀ route l, s.stage.lifecycles.get? route = some l →
        (exec depth step s).2.stage.lifecycles.get? route = some l := by
  cases depth with
  | zero => exact ⟨rfl, fun _ _ hl => hl⟩
  | succ depth =>
    cases step with
    | enroll name handle lifecycle =>
      refine ⟨rfl, fun route l hl => ?_⟩
      change (enroll name handle (lifecycle.getD .blank) s).2.stage.lifecycles.get? route = some l
      rw [get?_enroll, hl, Option.some_or]
    | lifecycle name => exact ⟨rfl, fun _ _ hl => hl⟩
    | hasLifecycle name => exact ⟨rfl, fun _ _ hl => hl⟩
    | _ => cases h

/-- In every session, however its steps are nested, the hooks of the lifecycle that was the first to
be given to a route are called lawfully, and it is shown lawfully. It is never replaced, and once it
is initialized it stays so, whatever step is run. Enrolling a lifecycle and asking for one calls
nothing and changes none that is stored. Whatever is invoked through a handle, directly or as a
callback, is the lifecycle of the route that the handle was last given for. -/
theorem hooks_called_lawfully (host : Host) (config : Config) (depth : Nat)
    (steps : List Step) :
    let answers := (execAll depth steps (start host config)).1
    let t := (execAll depth steps (start host config)).2
    (∀ before e after, Answer.eventsOfAll answers = before ++ e :: after → e.Lawful before) ∧
    Tracks (Answer.eventsOfAll answers) t ∧
    (∀ d step s, Persists s (exec d step s).2) ∧
    (∀ d step s, step.concernsLifecycles → (exec d step s).1.calls = [] ∧
      ∀ route l, s.stage.lifecycles.get? route = some l →
        (exec d step s).2.stage.lifecycles.get? route = some l) ∧
    ∀ run handle name params (s : Session), s.stage.handles.get? handle = some name →
      perform run (.invoke handle params) s =
        ((invoke run name params s).1.map fun _ => .nothing, (invoke run name params s).2) ∧
      prepare (.handle handle) s = (.ok (.invoker name), s) := by
  intro answers t
  have hleads := leads_execAll depth steps (start host config)
  have htracks := tracks_start host config
  refine ⟨?_, hleads.tracks [] htracks, fun d step s => (chronicles_exec d step s).leads.persists,
    fun d step s h => stored_of_concernsLifecycles d h s, ?_⟩
  · intro before e after he
    exact (hleads.lawful [] htracks).lawful he
  · intro run handle name params s hhandle
    refine ⟨by rw [perform_invoke, hhandle], ?_⟩
    rw [prepare, Action.bind_apply, routeOf, Action.get_bind_apply, hhandle]
    rfl

/-- A first visit that invokes its own lifecycle is a first visit again, until one has returned. -/
example :
    (Answer.eventsOfAll (execAll 3
      [.enroll "a" "h" (some ⟨some "x", false, ⟨[.invoke "h" .null], []⟩, ⟨[], []⟩⟩),
        .invoke "h" .null, .invoke "h" .null] (start { behaviour := .silent } {})).1).drop 2 =
      [.begins .firstVisit "a" "x", .begins .firstVisit "a" "x", .ends .firstVisit "a" "x" none,
        .ends .firstVisit "a" "x" none, .begins .revisit "a" "x", .ends .revisit "a" "x" none] :=
  rfl

end Session

end NamedRoutes
