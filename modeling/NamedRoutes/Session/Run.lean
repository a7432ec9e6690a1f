import NamedRoutes.Session.Step

/-!
# Running sessions

How a step is carried out is defined over a parameter that runs nested steps; `exec` closes the
circle under a bound on the depth of nesting. A step below the bound fails and changes nothing. The
statements at the end say what each of these does to a session.
-/
namespace NamedRoutes

structure Stage where
  lifecycles : OrderedMap (Lifecycle Step)
  /-- The route whose invoker each handle keeps. -/
  handles : OrderedMap String
  /-- How many scripts have got a number. -/
  serials : Nat
  /-- The scripts called so far. -/
  called : List Nat
  /-- The calls of the step under way. -/
  calls : List (Call Answer)

def Stage.empty : Stage := ⟨.empty, .empty, 0, [], []⟩

abbrev Session := App (Callback Step) Stage

namespace Session

abbrev Runner := Step → StateM Session Answer

def start (host : Host) (config : Config) : Session := App.start host config .empty

def record (call : Call Answer) : Action Session Unit :=
  modify fun s => { s with stage.calls := s.stage.calls ++ [call] }

/-- Runs steps in turn, up to the first fault if the faults stop them. -/
def runSteps (run : Runner) (stopAtFault : Bool) :
    List Step → StateM Session (List Answer × Option Fault)
  | [] => pure ([], none)
  | step :: rest => do
    let answer ← run step
    match stopAtFault, answer.result with
    | true, .error fault => pure ([answer], some fault)
    | _, _ =>
      let (answers, fault) ← runSteps run stopAtFault rest
      pure (answer :: answers, fault)

/-- Carries out a call: runs its steps and, unless they raise a fault, ends it. The call is recorded
when it is over, in whatever way. -/
def carryOut (run : Runner) (stopAtFault : Bool) (invocation : Invocation) (steps : List Step)
    (ending : Action Session Unit) : Action Session Unit := do
  let (answers, raised) ← Action.ofState (runSteps run stopAtFault steps)
  let fault ← match raised with
    | some fault => pure (some fault)
    | none => Action.faultOf ending
  record ⟨invocation, answers, fault⟩
  Action.failWith fault

def dueSteps (called : List Nat) (serial : Nat) (script : Script Step) : List Step :=
  if script.once ∧ serial ∈ called then [] else script.steps

def callScript (run : Runner) (serial : Nat) (script : Script Step) (params : Params) :
    Action Session (Params × Value) := do
  let steps := dueSteps (← get).stage.called serial script
  modify fun s => { s with stage.called := serial :: s.stage.called }
  carryOut run script.propagate (.callback script.id params) steps
    (Action.failWith (script.fault.map .raised))
  return ((params.insertAll script.sets).eraseAll script.deletes, script.returns)

def lifecycle? (route : String) : Action Session (Option (Lifecycle Step)) := do
  return (← get).stage.lifecycles.get? route

def setLifecycle (route : String) (l : Lifecycle Step) : Action Session Unit :=
  modify fun s => { s with stage.lifecycles := s.stage.lifecycles.insert route l }

def takeOutcome (hook : Hook) (route : String) : Action Session Unit := do
  match ← lifecycle? route with
  | none => pure ()
  | some l =>
    match (l.plan hook).outcomes with
    | [] => pure ()
    | outcome :: rest =>
      setLifecycle route (l.setPlan hook ⟨(l.plan hook).steps, rest⟩)
      Action.failWith (outcome.map .raised)

/-- Calls a hook of a route's lifecycle. Its steps are taken before they run. -/
def callHook (run : Runner) (hook : Hook) (route : String) (params : Value) :
    Action Session Unit := do
  match ← lifecycle? route with
  | none => pure ()
  | some l =>
    match l.id with
    | none => pure ()
    | some id =>
      setLifecycle route (l.setPlan hook ⟨[], (l.plan hook).outcomes⟩)
      carryOut run true (.hook hook route id params) (l.plan hook).steps (takeOutcome hook route)

def markInitialized (route : String) : Action Session Unit := do
  match ← lifecycle? route with
  | none => pure ()
  | some l => setLifecycle route { l with initialized := true }

/-- Invokes a route's lifecycle: the first visit until it has succeeded once, then revisits. -/
def invoke (run : Runner) (route : String) (params : Value) : Action Session Unit := do
  match ← lifecycle? route with
  | none => pure ()
  | some l =>
    if l.initialized then callHook run .revisit route params
    else do
      (callHook run .firstVisit route params).mapFault fun fault =>
        .initialization route fault.message
      markInitialized route

def call (run : Runner) : App.Caller (Callback Step) Stage
  | .value v, _ => throw (.notCallable v)
  | .invoker route, params => do
    invoke run route params.toValue
    return (params, .null)
  | .script serial script, params => callScript run serial script params

def routeOf (handle : String) : Action Session String := do
  match (← get).stage.handles.get? handle with
  | some route => return route
  | none => throw (.unknownHandle handle)

def prepare : CallbackSpec Step → Action Session (Callback Step)
  | .value v => return .value v
  | .handle handle => return .invoker (← routeOf handle)
  | .script script => do
    let serial := (← get).stage.serials
    modify fun s => { s with stage.serials := serial + 1 }
    return .script serial script

def prepareAll : List (String × CallbackSpec Step) →
    Action Session (List (String × List (Callback Step)))
  | [] => return []
  | (path, spec) :: rest => do
    let callback ← prepare spec
    return (path, callback.callables) :: (← prepareAll rest)

/-- Keeps a lifecycle for a route, unless it has one, and the route's invoker under a handle. -/
def enroll (name handle : String) (lifecycle : Lifecycle Step) :
    Action Session (Option (Lifecycle Step)) := do
  modify fun s => { s with
    stage.lifecycles := s.stage.lifecycles.insertIfNew name lifecycle
    stage.handles := s.stage.handles.insert handle name }
  lifecycle? name

def expect : Except Unmet Unit → Action Session Reply
  | .ok () => return .nothing
  | .error unmet => throw (.unmet unmet)

def perform (run : Runner) : Step → Action Session Reply
  | .addRoute name path spec => do
    let callback ← prepare spec
    return .route (← App.addRoute name path callback.callables)
  | .addRoutes routes => do
    App.addRoutes (← prepareAll routes)
    return .nothing
  | .observe name spec => do
    App.observe name (← prepare spec)
    return .nothing
  | .go target params updateUrl => return .navigation (← App.go (call run) target params updateUrl)
  | .resolve path => return .candidates ((← get).router.resolve path)
  | .urlFor name params => return .text (← App.urlFor name params)
  | .contains name => return .flag ((← get).router.routes.contains name)
  | .count => return .count (← get).router.routes.size
  | .routes => return .routes (← get).router.routes
  | .config => return .config (← get).router.config
  | .supportsHistory => return .flag (← get).router.supportsHistory
  | .host => return .host (← get).host
  | .push visit => do
    App.push visit
    return .nothing
  | .expectPushed url route params => do expect ((← get).host.expectPushed url route params)
  | .expectNoPush => do expect (← get).host.expectNoPush
  | .enroll name handle lifecycle => do
    let stored ← enroll name handle (lifecycle.getD .blank)
    return .lifecycle (stored.map Lifecycle.view)
  | .lifecycle name => return .lifecycle ((← lifecycle? name).map Lifecycle.view)
  | .hasLifecycle name => return .flag ((← get).stage.lifecycles.contains name)
  | .invoke handle params => do
    invoke run (← routeOf handle) params
    return .nothing

/-- Runs one step with a log of calls of its own. -/
def answer (step : Step) (action : Action Session Reply) : StateM Session Answer := do
  let before ← get
  set { before with stage.calls := [] }
  let result ← action.outcome
  let after ← get
  set { after with stage.calls := before.stage.calls }
  return ⟨step, result, after.stage.calls, after.host.history.drop before.host.history.length⟩

def exec : Nat → Runner
  | 0, step => return ⟨step, .error .tooDeep, [], []⟩
  | depth + 1, step => answer step (perform (exec depth) step)

def execAll (depth : Nat) : List Step → StateM Session (List Answer)
  | [] => return []
  | step :: rest => do
    let answer ← exec depth step
    return answer :: (← execAll depth rest)

/-- Far deeper than scripts are nested. -/
def nestingLimit : Nat := 1000

def run (host : Host) (config : Config) (steps : List Step) : List Answer :=
  ((execAll nestingLimit steps).run (start host config)).1

theorem record_apply (call : Call Answer) (s : Session) :
    record call s = (.ok (), { s with stage.calls := s.stage.calls ++ [call] }) :=
  rfl

theorem runSteps_nil (run : Runner) (stopAtFault : Bool) (s : Session) :
    runSteps run stopAtFault [] s = (([], none), s) :=
  rfl

theorem runSteps_cons (run : Runner) (stopAtFault : Bool) (step : Step) (rest : List Step)
    (s : Session) :
    runSteps run stopAtFault (step :: rest) s =
      match stopAtFault, (run step s).1.result with
      | true, .error fault => (([(run step s).1], some fault), (run step s).2)
      | _, _ =>
        (((run step s).1 :: (runSteps run stopAtFault rest (run step s).2).1.1,
          (runSteps run stopAtFault rest (run step s).2).1.2),
          (runSteps run stopAtFault rest (run step s).2).2) := by
  rw [runSteps]
  change (match stopAtFault, (run step s).1.result with
    | true, .error fault => pure ([(run step s).1], some fault)
    | _, _ => do
      let (answers, fault) ← runSteps run stopAtFault rest
      pure ((run step s).1 :: answers, fault) : StateM Session _) (run step s).2 = _
  rcases run step s with ⟨⟨_, r | r, calls, pushes⟩, t⟩ <;> cases stopAtFault <;> rfl

theorem carryOut_apply (run : Runner) (stopAtFault : Bool) (invocation : Invocation)
    (steps : List Step) (ending : Action Session Unit) (s : Session) :
    carryOut run stopAtFault invocation steps ending s =
      match runSteps run stopAtFault steps s with
      | ((answers, some fault), t) => (.error fault, (record ⟨invocation, answers, some fault⟩ t).2)
      | ((answers, none), t) =>
        ((ending t).1,
          (record ⟨invocation, answers, Action.fault? (ending t).1⟩ (ending t).2).2) := by
  rw [carryOut, Action.bind_apply, Action.ofState_apply]
  rcases runSteps run stopAtFault steps s with ⟨⟨answers, _ | fault⟩, t⟩
  · dsimp only
    rw [Action.bind_apply, Action.faultOf_apply]
    rcases ending t with ⟨r | r, u⟩ <;> rfl
  · rfl

theorem answer_apply (step : Step) (action : Action Session Reply) (s : Session) :
    answer step action s =
      (⟨step, (action { s with stage.calls := [] }).1,
        (action { s with stage.calls := [] }).2.stage.calls,
        (action { s with stage.calls := [] }).2.host.history.drop s.host.history.length⟩,
        { (action { s with stage.calls := [] }).2 with stage.calls := s.stage.calls }) :=
  rfl

theorem exec_zero (step : Step) (s : Session) :
    exec 0 step s = (⟨step, .error .tooDeep, [], []⟩, s) :=
  rfl

theorem exec_succ (depth : Nat) (step : Step) (s : Session) :
    exec (depth + 1) step s = answer step (perform (exec depth) step) s :=
  rfl

theorem execAll_nil (depth : Nat) (s : Session) : execAll depth [] s = ([], s) :=
  rfl

theorem execAll_cons (depth : Nat) (step : Step) (rest : List Step) (s : Session) :
    execAll depth (step :: rest) s =
      ((exec depth step s).1 :: (execAll depth rest (exec depth step s).2).1,
        (execAll depth rest (exec depth step s).2).2) :=
  rfl

theorem run_eq (host : Host) (config : Config) (steps : List Step) :
    run host config steps = (execAll nestingLimit steps (start host config)).1 :=
  rfl

end Session

end NamedRoutes
