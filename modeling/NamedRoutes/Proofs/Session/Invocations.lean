import NamedRoutes.Proofs.Session.Courses

/-!
# Invocations in a run

Whatever a step invokes, directly or by the callbacks of a navigation, comes to what is laid down
for the place that the invocation has among all those of the route. No call of a hook stands in an
answer that does not belong to such an invocation.
-/
namespace NamedRoutes.Session

open NamedRoutes.Action

variable {s t u : Session} {run : Runner} {route id : String} {l : Lifecycle Step}

/-- When it is carried out in `u`, the step has the lifecycle of the route invoked with these
parameters, in `v`: directly, or by a callback of the route that it navigates to, when the callbacks
before it have returned. -/
inductive Invokes (run : Runner) (route : String) (u : Session) : Step → Value → Session → Prop
  | directly {handle params} (hhandle : u.stage.handles.get? handle = some route) :
    Invokes run route u (.invoke handle params) params u
  | asCallback {target params updateUrl r given push before after arrived v}
      (hdest : App.Destination u.router target params updateUrl r given push)
      (hcallbacks : r.callbacks = before ++ .invoker route :: after)
      (hbefore : App.CallsInTurn (call run) before given u before (.ok arrived) v) :
    Invokes run route u (.go target params updateUrl) arrived.toValue v

/-- An invocation in `v`, where this is what the lifecycle of the route has come to, as it shows in
the answer of the step that has made it. -/
structure InvokedAs (run : Runner) (route id : String) (l : Lifecycle Step) (params : Value)
    (v : Session) (b : Answer) : Prop where
  stored : v.stage.lifecycles.get? route = some l
  invoke_eq : invoke run route params v = (l.result route, v.invoked route id l params)
  calls : v.stage.calls ++ [l.attempt route id params] <+: b.calls
  raises : ∀ fault, l.result route = .error fault → b.result = .error fault ∧
    b.calls = v.stage.calls ++ [l.attempt route id params] ∧
    b.pushes = b.nested.flatMap Answer.pushes
  returns : l.result route = .ok () →
    ∀ handle given, b.step = .invoke handle given → b.result = .ok .nothing

theorem pushes_of_error {depth : Nat} {step : Step} {fault : Fault}
    (h : (exec depth step s).1.result = .error fault) :
    (exec depth step s).1.pushes = (exec depth step s).1.nested.flatMap Answer.pushes := by
  obtain ⟨own, hpushes, hown⟩ := pushes_exec depth step s
  rw [h] at hown
  cases hown with
  | nothing => rw [hpushes, List.append_nil]

theorem call_invoker_of_idle (run : Runner) (arrived : Params)
    (hl : s.stage.lifecycles.get? route = some l) (hidle : l.Idle) (hid : l.id = some id) :
    call run (.invoker route) arrived s =
      ((l.result route).map fun _ => (arrived, .null),
        s.invoked route id l arrived.toValue) := by
  rw [call, Action.bind_apply, invoke_of_idle run _ hl hidle hid]
  cases l.result route <;> rfl

theorem calls_go {target : String} {params given : Params} {updateUrl push : Bool}
    {r : Route (Callback Step)} {called : List (Callback Step)} {outcome : Except Fault Params}
    (hdest : App.Destination s.router target params updateUrl r given push)
    (hcalls : App.CallsInTurn (call run) r.callbacks given s called outcome t) :
    (App.go (call run) target params updateUrl s).2.stage.calls = t.stage.calls := by
  rcases App.go_fails_or_arrives hdest hcalls with ⟨fault, hgo⟩ | ⟨arrived, -, hgo⟩ <;> rw [hgo]
  rfl

theorem go_of_invoker (htally : ∀ step s, Tally step s (run step s).1 (run step s).2)
    {target : String} {params given arrived : Params} {updateUrl push : Bool}
    {r : Route (Callback Step)} {before after : List (Callback Step)}
    (hdest : App.Destination s.router target params updateUrl r given push)
    (hcallbacks : r.callbacks = before ++ .invoker route :: after)
    (hbefore : App.CallsInTurn (call run) before given s before (.ok arrived) t)
    (hl : t.stage.lifecycles.get? route = some l) (hidle : l.Idle) (hid : l.id = some id) :
    t.stage.calls ++ [l.attempt route id arrived.toValue] <+:
        (App.go (call run) target params updateUrl s).2.stage.calls ∧
      ∀ fault, l.result route = .error fault →
        App.go (call run) target params updateUrl s =
          (.error fault, t.invoked route id l arrived.toValue) := by
  have hcall := call_invoker_of_idle run arrived hl hidle hid
  cases hresult : l.result route with
  | error fault =>
    rw [hresult] at hcall
    rw [App.go_of_callsInTurn hdest (hcallbacks ▸ hbefore.append (.fails hcall)),
      App.conclude_error]
    refine ⟨List.prefix_rfl, fun _ hfault => ?_⟩
    cases hfault
    rfl
  | ok _ =>
    rw [hresult] at hcall
    refine ⟨?_, fun _ hfault => by cases hfault⟩
    -- the callbacks behind it may call more
    let v := t.invoked route id l arrived.toValue
    obtain ⟨called, outcome, u, hrest⟩ :=
      App.exists_callsInTurn (call run) after (arrived.mergeDefaults .null) v
    obtain ⟨calls, hcalls, -⟩ := recorded_runCallbacks (fun step s => (htally step s).calls) after
      (arrived.mergeDefaults .null) v
    rw [hrest.runCallbacks_eq] at hcalls
    rw [calls_go hdest (hcallbacks ▸ hbefore.append (.returns hcall hrest)), hcalls]
    exact List.prefix_append _ _

theorem follows_of_invokes {depth : Nat} {step : Step} {params : Value} {v : Session}
    (hu : u.stage.calls = []) (h : Invokes (exec depth) route u step params v) :
    Follows route id u (v.stage.calls.flatMap (Call.hookCalls route)) v := by
  cases h with
  | directly _ =>
    rw [hu]
    exact follows_refl u
  | asCallback _ _ hbefore =>
    intro l hl hidle hid
    obtain ⟨-, calls, hcalls, hcourse⟩ :=
      courses_of_callsInTurn (tally_exec depth)
        (fun step s => (follows_exec depth step s).stands) hbefore ⟨l, hl, hidle, hid⟩
    rw [hcalls, hu, List.nil_append]
    exact hcourse.follows (follows_exec depth) l hl hidle hid

theorem invokedAs_of_invokes {depth : Nat} {step : Step} {params : Value} {v : Session}
    (h : Invokes (exec depth) route { u with stage.calls := [] } step params v)
    (hl : v.stage.lifecycles.get? route = some l) (hidle : l.Idle) (hid : l.id = some id) :
    InvokedAs (exec depth) route id l params v (exec (depth + 1) step u).1 := by
  have hinvoke := invoke_of_idle (exec depth) params hl hidle hid
  have hstep : (exec (depth + 1) step u).1.step = step := (tally_exec (depth + 1) step u).step_eq
  -- The pushes of a step that fails are those of its nested steps, whatever the step is.
  suffices v.stage.calls ++ [l.attempt route id params] <+: (exec (depth + 1) step u).1.calls ∧
      (∀ fault, l.result route = .error fault →
        (exec (depth + 1) step u).1.result = .error fault ∧
          (exec (depth + 1) step u).1.calls = v.stage.calls ++ [l.attempt route id params]) ∧
      (l.result route = .ok () → ∀ handle given, step = .invoke handle given →
        (exec (depth + 1) step u).1.result = .ok .nothing) by
    obtain ⟨hcalls, hraises, hreturns⟩ := this
    refine ⟨hl, hinvoke, hcalls, fun fault hfault => ?_, by rwa [hstep]⟩
    obtain ⟨hresult, heq⟩ := hraises fault hfault
    exact ⟨hresult, heq, pushes_of_error hresult⟩
  rw [exec_succ, answer_apply]
  dsimp only
  cases h with
  | @directly handle _ hhandle =>
    rw [perform_invoke, hhandle]
    dsimp only
    rw [hinvoke]
    refine ⟨List.prefix_rfl, fun fault hfault => ?_, fun hok _ _ _ => ?_⟩
    · rw [hfault]
      exact ⟨rfl, rfl⟩
    · rw [hok]
      rfl
  | @asCallback target params updateUrl r given push before after arrived v hdest hcallbacks
      hbefore =>
    obtain ⟨hcalls, hfails⟩ :=
      go_of_invoker (tally_exec depth) hdest hcallbacks hbefore hl hidle hid
    rw [perform_go]
    refine ⟨hcalls, fun fault hfault => ?_, fun _ _ _ hstep => by cases hstep⟩
    rw [hfails fault hfault]
    exact ⟨rfl, rfl⟩

def RecordsOthers (route : String) (s t : Session) : Prop :=
  ∃ calls, t.stage.calls = s.stage.calls ++ calls ∧ ∀ c ∈ calls, c.invocation.isHookOf route = false

instance (route : String) : IsPreorder Session (RecordsOthers route) where
  refl s := ⟨[], (List.append_nil _).symm, fun _ hc => by cases hc⟩
  trans := by
    rintro s t u ⟨calls, hcalls, hothers⟩ ⟨calls', hcalls', hothers'⟩
    refine ⟨calls ++ calls', by rw [hcalls', hcalls, List.append_assoc], fun c hc => ?_⟩
    rcases List.mem_append.1 hc with hc | hc
    · exact hothers c hc
    · exact hothers' c hc

theorem recordsOthers_of_calls_eq (h : t.stage.calls = s.stage.calls) : RecordsOthers route s t :=
  ⟨[], by rw [h, List.append_nil], fun _ hc => by cases hc⟩

/-- Of these calls one of a hook of the route comes first, and only if `p` holds. -/
def OnlyFirst (route : String) (p : Prop) (calls : List (Call Answer)) : Prop :=
  ∀ before c after, calls = before ++ c :: after → c.invocation.isHookOf route → p ∧ before = []

theorem RecordsOthers.onlyFirst {p : Prop} (h : RecordsOthers route s t) :
    ∃ calls, t.stage.calls = s.stage.calls ++ calls ∧ OnlyFirst route p calls := by
  obtain ⟨calls, hcalls, hothers⟩ := h
  refine ⟨calls, hcalls, ?_⟩
  rintro before c after rfl hc
  have hother := hothers c (by simp)
  exact absurd hc (by simp [hother])

section

variable (hrun : ∀ step s, (run step s).2.stage.calls = s.stage.calls)

include hrun

theorem recordsOthers_carryOut (stopAtFault : Bool) {invocation : Invocation}
    (hother : invocation.isHookOf route = false) (steps : List Step)
    {ending : Action Session Unit} (hending : Moves Restaged ending) :
    Moves (RecordsOthers route) (carryOut run stopAtFault invocation steps ending) := by
  intro s
  obtain ⟨-, hcalls⟩ := passes_runSteps hrun stopAtFault steps s
  have hrecord : ∀ {t : Session} (answers : List Answer) (fault : Option Fault),
      t.stage.calls = s.stage.calls →
      RecordsOthers route s (record ⟨invocation, answers, fault⟩ t).2 := by
    intro t answers fault ht
    refine ⟨[⟨invocation, answers, fault⟩], by rw [record_apply, ht], fun c hc => ?_⟩
    cases List.mem_singleton.1 hc
    exact hother
  rw [carryOut_apply]
  rcases hr : runSteps run stopAtFault steps s with ⟨⟨answers, _ | fault⟩, t⟩ <;> rw [hr] at hcalls
  · obtain ⟨stage, hend, hstage⟩ := hending t
    exact hrecord _ _ (by rw [hend]; exact hstage.trans hcalls)
  · exact hrecord _ _ hcalls

theorem recordsOthers_invoke {name : String} (hname : name ≠ route) (params : Value) :
    Moves (RecordsOthers route) (invoke run name params) := by
  have hset : ∀ l, Moves (RecordsOthers route) (setLifecycle name l) :=
    fun l s => recordsOthers_of_calls_eq rfl
  refine moves_invoke hset fun hook => moves_callHook hset fun id steps => ?_
  exact recordsOthers_carryOut hrun true (by simpa [Invocation.isHookOf] using hname) steps
    (restaged_takeOutcome hook name)

theorem recordsOthers_callScript (serial : Nat) (script : Script Step) (params : Params) :
    Moves (RecordsOthers route) (callScript run serial script params) := by
  refine moves_callScript (fun s => recordsOthers_of_calls_eq rfl) fun steps ending hending => ?_
  refine recordsOthers_carryOut hrun _ rfl steps fun s => ?_
  rw [hending s]
  exact refl_of Restaged s

theorem calls_invoke (name : String) (params : Value) (hs : Stands route id s) :
    ∃ calls, (invoke run name params s).2.stage.calls = s.stage.calls ++ calls ∧
      OnlyFirst route (name = route) calls := by
  by_cases hname : name = route
  · subst hname
    obtain ⟨l, hl, hidle, hid⟩ := hs
    rw [invoke_of_idle run params hl hidle hid]
    refine ⟨[l.attempt name id params], rfl, fun before c after hone _ => ⟨rfl, ?_⟩⟩
    cases before with
    | nil => rfl
    | cons _ before => simp at hone
  · exact (recordsOthers_invoke hrun hname params s).onlyFirst

theorem calls_call (callback : Callback Step) (arrived : Params) (hs : Stands route id s) :
    ∃ calls, (call run callback arrived s).2.stage.calls = s.stage.calls ++ calls ∧
      OnlyFirst route (callback = .invoker route) calls := by
  cases callback with
  | value v => exact (refl_of (RecordsOthers route) s).onlyFirst
  | script serial script =>
    exact (recordsOthers_callScript hrun serial script arrived s).onlyFirst
  | invoker name =>
    have hsame : (call run (.invoker name) arrived s).2 =
        (invoke run name arrived.toValue s).2 := by
      rw [call, Action.bind_apply]
      rcases invoke run name arrived.toValue s with ⟨r | r, t⟩ <;> rfl
    obtain ⟨calls, hcalls, hfirst⟩ := calls_invoke hrun name arrived.toValue hs
    rw [hsame]
    exact ⟨calls, hcalls, fun before c after hsplit hc =>
      (hfirst before c after hsplit hc).imp_left (congrArg Callback.invoker)⟩

end

section

variable (htally : ∀ step s, Tally step s (run step s).1 (run step s).2)
  (hstands : ∀ step s, Stands route id s → Stands route id (run step s).2)

include htally hstands

theorem exists_invoker_of_calls {callbacks called : List (Callback Step)} {given : Params}
    {outcome : Except Fault Params}
    (h : App.CallsInTurn (call run) callbacks given s called outcome t) (hs : Stands route id s)
    {calls rest : List (Call Answer)} {c : Call Answer}
    (hcalls : t.stage.calls = s.stage.calls ++ (calls ++ c :: rest))
    (hc : c.invocation.isHookOf route) :
    ∃ before after arrived v, callbacks = before ++ .invoker route :: after ∧
      App.CallsInTurn (call run) before given s before (.ok arrived) v ∧
      v.stage.calls = s.stage.calls ++ calls := by
  have hrun : ∀ step s, (run step s).2.stage.calls = s.stage.calls :=
    fun step s => (htally step s).calls
  induction h generalizing calls with
  | done =>
    have hnil := List.self_eq_append_right.1 hcalls
    cases calls <;> cases hnil
  | @fails callback after given s fault t hcall =>
    obtain ⟨own, hown, hhook⟩ := calls_call hrun callback given hs
    rw [hcall] at hown
    obtain ⟨rfl, rfl⟩ :=
      hhook calls c rest (List.append_cancel_left (hown.symm.trans hcalls)) hc
    exact ⟨[], after, given, s, rfl, .done, (List.append_nil _).symm⟩
  | @returns callback after given s changed returned s₁ called outcome t hcall hrest ih =>
    obtain ⟨own, hown, hhook⟩ := calls_call hrun callback given hs
    obtain ⟨hs₁, -⟩ := moves_call (courses_invoke htally hstands)
      (courses_callScript htally hstands) callback given s hs
    obtain ⟨later, hlater, -⟩ :=
      recorded_runCallbacks hrun after (changed.mergeDefaults returned) s₁
    rw [hcall] at hown hs₁
    rw [hrest.runCallbacks_eq] at hlater
    have hbehind : ∀ calls', calls = own ++ calls' → later = calls' ++ c :: rest →
        ∃ before after' arrived v, callback :: after = before ++ .invoker route :: after' ∧
          App.CallsInTurn (call run) before given s before (.ok arrived) v ∧
          v.stage.calls = s.stage.calls ++ calls := by
      rintro calls' rfl rfl
      obtain ⟨before, after', arrived, v, rfl, hbefore, hv⟩ := ih hs₁ hlater
      refine ⟨callback :: before, after', arrived, v, rfl, .returns hcall hbefore, ?_⟩
      rw [hv, hown, List.append_assoc]
    have hsplit : calls ++ c :: rest = own ++ later := by
      rw [hlater, hown, List.append_assoc] at hcalls
      exact (List.append_cancel_left hcalls).symm
    rcases List.append_eq_append_iff.1 hsplit with ⟨own', rfl, htail⟩ | ⟨calls', hpre, hpost⟩
    · cases own' with
      | nil => exact hbehind [] (by simp) htail.symm
      | cons d own' =>
        -- the call is one of this callback
        cases htail
        obtain ⟨rfl, rfl⟩ := hhook calls c own' rfl hc
        exact ⟨[], after, given, s, rfl, .done, (List.append_nil _).symm⟩
    · exact hbehind calls' hpre hpost

end

theorem exists_invokes_of_calls (htally : ∀ step s, Tally step s (run step s).1 (run step s).2)
    (hstands : ∀ step s, Stands route id s → Stands route id (run step s).2) {step : Step}
    (hs : Stands route id s) (hnone : s.stage.calls = []) {calls rest : List (Call Answer)}
    {c : Call Answer} (hcalls : (perform run step s).2.stage.calls = calls ++ c :: rest)
    (hc : c.invocation.isHookOf route) :
    ∃ params v, Invokes run route s step params v ∧ v.stage.calls = calls := by
  have hkeeps : (perform run step s).2.stage.calls = s.stage.calls → False := by
    intro h
    rw [h, hnone] at hcalls
    cases calls <;> cases hcalls
  cases hcalm : step.isCalm with
  | true => exact (hkeeps (untouched_perform run hcalm s).calls).elim
  | false =>
    cases step with
    | enroll name handle lifecycle => exact (hkeeps rfl).elim
    | lifecycle name => exact (hkeeps rfl).elim
    | invoke handle params =>
      rw [perform_invoke] at hcalls hkeeps
      cases hhandle : s.stage.handles.get? handle with
      | none =>
        rw [hhandle] at hkeeps
        exact (hkeeps rfl).elim
      | some name =>
        rw [hhandle] at hcalls
        obtain ⟨own, hown, hfirst⟩ :=
          calls_invoke (fun step s => (htally step s).calls) name params hs
        rw [hnone, List.nil_append] at hown
        obtain ⟨rfl, rfl⟩ := hfirst calls c rest (hown.symm.trans hcalls) hc
        exact ⟨params, s, .directly hhandle, hnone⟩
    | go target params updateUrl =>
      rw [perform_go] at hcalls hkeeps
      rcases App.go_cases (call run) target params updateUrl s with
        ⟨r, given, push, hdest⟩ | ⟨-, hgo⟩
      · obtain ⟨called, outcome, t, hturn⟩ :=
          App.exists_callsInTurn (call run) r.callbacks given s
        have hmade : t.stage.calls = s.stage.calls ++ (calls ++ c :: rest) := by
          rw [← calls_go hdest hturn, hnone]
          exact hcalls
        obtain ⟨before, after, arrived, v, hcallbacks, hbefore, hv⟩ :=
          exists_invoker_of_calls htally hstands hturn hs hmade hc
        refine ⟨arrived.toValue, v, .asCallback hdest hcallbacks hbefore, ?_⟩
        rw [hv, hnone, List.nil_append]
      · rw [hgo] at hkeeps
        exact (hkeeps rfl).elim
    | _ => cases hcalm

/-- What an answer tells of the invocations of the route, when its step was carried out in `u` and
the lifecycle of the route had come to `l` there. -/
structure TellsInvocations (run : Runner) (route id : String) (l : Lifecycle Step) (u : Session)
    (b : Answer) : Prop where
  /-- An invocation that the step makes comes next after those that are told before it. -/
  invoked : ∀ params v, Invokes run route u b.step params v →
    InvokedAs run route id (l.after (v.stage.calls.flatMap (Call.hookCalls route)).length) params
      v b
  /-- Hooks of the route are called by invocations alone. -/
  called : ∀ before call after, b.calls = before ++ call :: after →
    call.invocation.isHookOf route →
    ∃ params v, Invokes run route u b.step params v ∧ v.stage.calls = before

theorem tellsInvocations_exec (depth : Nat) (step : Step)
    (hl : u.stage.lifecycles.get? route = some l) (hidle : l.Idle) (hid : l.id = some id) :
    TellsInvocations (exec depth) route id l { u with stage.calls := [] }
      (exec (depth + 1) step u).1 := by
  have hstep : (exec (depth + 1) step u).1.step = step := (tally_exec (depth + 1) step u).step_eq
  have hs : Stands route id { u with stage.calls := [] } := ⟨l, hl, hidle, hid⟩
  constructor
  · intro params v h
    rw [hstep] at h
    obtain ⟨l', hl', hturn⟩ := follows_of_invokes rfl h l hl hidle hid
    cases hturn.eq_after
    exact invokedAs_of_invokes h hl' (hidle.after _) ((l.id_after _).trans hid)
  · intro before call after hcalls hhook
    rw [hstep]
    exact exists_invokes_of_calls (tally_exec depth)
      (fun step s => (follows_exec depth step s).stands) hs rfl hcalls hhook

theorem prepare_handle {handle : String} (h : s.stage.handles.get? handle = some route) :
    prepare (.handle handle) s = (.ok (.invoker route), s) := by
  rw [prepare, Action.bind_apply, routeOf, Action.get_bind_apply, h]
  rfl

/-- In every run, the invocations of a lifecycle whose hooks run no steps come in turn, through
whatever handles they are made, directly or by the callbacks of navigations, and whatever else is
done between them. The calls of its hooks are those of the invocations, each with the parameters of
its own, and what each comes to is laid down for it: first visits fail as often as failures are laid
down before a success, the next one succeeds, and only revisits follow. What an invocation raises,
its step raises, and has not pushed anything itself. A lifecycle that has no hooks is invoked
without a call, and is initialized from then on. -/
theorem invocations_come_in_turn (hl : s.stage.lifecycles.get? route = some l) (hidle : l.Idle)
    (hid : l.id = some id) (depth : Nat) (steps : List Step) :
    let r := execAll depth steps s
    let told := r.1.flatMap (Answer.hookCalls route)
    l.Scheduled route ∧
    (∀ reason, (Fault.initialization route reason).message =
      "Unable to initialize route \"" ++ route ++ "\": " ++ reason) ∧
    (∀ k call, told[k]? = some call → ∃ params, call = (l.after k).attempt route id params) ∧
    r.2.stage.lifecycles.get? route = some (l.after told.length) ∧
    (∀ a ∈ r.1, ∀ b, b.Within a → ∃ d u before after,
      RanIn (exec d) s r.2 u b ∧ told = before ++ b.hookCalls route ++ after ∧
      u.stage.lifecycles.get? route = some (l.after before.length) ∧
      (d = 0 ∧ b.result = .error .tooDeep ∧ b.calls = [] ∨ ∃ d', d = d' + 1 ∧
        TellsInvocations (exec d') route id (l.after before.length) { u with stage.calls := [] }
          b)) ∧
    (∀ v handle, v.stage.handles.get? handle = some route →
      prepare (.handle handle) v = (.ok (.invoker route), v)) ∧
    ∀ (m : Lifecycle Step) v, v.stage.lifecycles.get? route = some m → m.id = none →
      (∀ run params, invoke run route params v =
        (.ok (), (setLifecycle route { m with initialized := true } v).2)) ∧
      ∀ d step, ∃ m', (exec d step v).2.stage.lifecycles.get? route = some m' ∧ m'.id = none ∧
        (m.initialized → m'.initialized) := by
  intro r told
  have hcourse : Course (exec depth) route id s told r.1 r.2 := course_execAll depth steps s
  obtain ⟨l', hl', hturn⟩ := hcourse.follows (follows_exec depth) l hl hidle hid
  cases hturn.eq_after
  refine ⟨l.scheduled route, fun _ => rfl, fun k call => hturn.exists_attempt, hl', ?_,
    fun v handle => prepare_handle, fun m v hm hplain => ⟨fun run params => ?_, fun d step => ?_⟩⟩
  · intro a ha b hb
    obtain ⟨d, u, before, after, hran, hbefore, htold⟩ :=
      givenAmid_of_course hcourse ⟨l, hl, hidle, hid⟩ ha hb fun step u hb hu =>
        givenAmid_exec depth step hb hu
    obtain ⟨m, hm, hturn'⟩ := hbefore l hl hidle hid
    cases hturn'.eq_after
    refine ⟨d, u, before, after, hran, htold, hm, ?_⟩
    rw [← hran.answer_eq]
    cases d with
    | zero => exact .inl ⟨rfl, rfl, rfl⟩
    | succ d =>
      exact .inr ⟨d, rfl, tellsInvocations_exec d b.step hm (hidle.after _)
        ((l.id_after _).trans hid)⟩
  · exact invoke_of_plain run params hm hplain
  · obtain ⟨m', hm', hcont⟩ := (chronicles_exec d step v).leads.persists route m hm
    exact ⟨m', hm', hcont.id.trans hplain, hcont.initialized⟩

/-- A lifecycle whose first two first visits fail, and whose second revisit does. -/
def inbox : Lifecycle Step :=
  ⟨some "x", false, ⟨[], [some ⟨.value, "a"⟩, some ⟨.key, "b"⟩]⟩,
    ⟨[], [none, some ⟨.runtime, "c"⟩]⟩⟩

def inboxRoute : Route (Callback Step) :=
  ⟨"inbox", ⟨[.separator, .literal 'i', .literal 'n'], by decide⟩, [.invoker "inbox"]⟩

def inboxSession : Session :=
  { start { behaviour := .memory true } {} with
    router := (Router.empty {} true).register inboxRoute
    stage.lifecycles := OrderedMap.empty.insert "inbox" inbox
    stage.handles := OrderedMap.empty.insert "h" "inbox" }

def inboxSteps : List Step :=
  [.invoke "h" (.int 1), .go "inbox" .empty true, .push ⟨"/", "", .empty⟩, .invoke "h" .null,
    .go "/in" .empty true, .enroll "inbox" "k" none, .invoke "k" .null]

theorem invocations_come_in_turn_inbox :
    let r := execAll 2 inboxSteps inboxSession
    let told := r.1.flatMap (Answer.hookCalls "inbox")
    told.length = 5 ∧
    r.1.map (fun a => (Action.fault? (a.result.map fun _ => ())).map Fault.message) =
      [some "Unable to initialize route \"inbox\": a",
        some "Unable to initialize route \"inbox\": 'b'", none, none, none, none, some "c"] ∧
    (∀ k call, told[k]? = some call →
      ∃ params, call = (inbox.after k).attempt "inbox" "x" params) ∧
    r.2.stage.lifecycles.get? "inbox" = some (inbox.after told.length) ∧
    inbox.Scheduled "inbox" ∧
    Invokes (exec 1) "inbox" inboxSession (.invoke "h" (.int 1)) (.int 1) inboxSession ∧
    Invokes (exec 1) "inbox" inboxSession (.go "inbox" .empty true) (.dict []) inboxSession := by
  dsimp only
  have hl : inboxSession.stage.lifecycles.get? "inbox" = some inbox := rfl
  have hidle : inbox.Idle := by intro hook; cases hook <;> rfl
  obtain ⟨hscheduled, -, hcalls, hstored, -⟩ :=
    invocations_come_in_turn hl hidle rfl 2 inboxSteps
  have hdest : App.Destination inboxSession.router "inbox" .empty true inboxRoute .empty true :=
    .named rfl
  exact ⟨by decide +kernel, by decide +kernel, hcalls, hstored, hscheduled, .directly rfl,
    .asCallback hdest (List.nil_append _).symm .done⟩

end NamedRoutes.Session
