import Mathlib.Data.List.Forall2
import NamedRoutes.Proofs.Navigation
import NamedRoutes.Proofs.Session.Congruence

/-!
# Sessions without history

Whether history is supported only shows in the URLs that navigations tell and in what is pushed.
Beside a session whose memory host supports history, the same steps are run in one whose host does
not. As long as they do not ask for the history, the two go on in step: they fail alike, they make
the same calls, and they keep the same routes and lifecycles.
-/
namespace NamedRoutes

open NamedRoutes.Action

structure Navigation.Alike (a b : Navigation) : Prop where
  route : a.route = b.route
  params : a.params = b.params

inductive Reply.Alike : Reply → Reply → Prop
  | same (reply) : Alike reply reply
  | navigation {a b} (h : Option.Rel Navigation.Alike a b) : Alike (.navigation a) (.navigation b)

/-- The same call that came to the same end, and whose steps were answered alike. -/
inductive Call.Alike {α β : Type} (R : α → β → Prop) : Call α → Call β → Prop
  | intro {invocation steps steps' fault} (h : List.Forall₂ R steps steps') :
    Alike R ⟨invocation, steps, fault⟩ ⟨invocation, steps', fault⟩

/-- Answers of one step that only differ in URLs and pushes, like the answers nested in them. -/
inductive Answer.Alike : Answer → Answer → Prop
  | intro {a b} (step : a.step = b.step) (result : SameOutcome Reply.Alike a.result b.result)
    (calls : List.Forall₂ (Call.Alike Alike) a.calls b.calls) : Alike a b

def Host.welcomes (h : Host) : Bool :=
  match h.behaviour with
  | .scripted _ (some _) => false
  | _ => true

theorem Host.exists_push_of_welcomes {h : Host} (hwelcomes : h.welcomes) (visit : Visit) :
    ∃ visits, h.push visit = .ok { h with history := h.history ++ visits } := by
  cases hpush : h.push visit with
  | ok h' => exact ⟨_, congrArg _ (Host.eq_of_push_eq_ok hpush)⟩
  | error fault =>
    rw [push] at hpush
    rw [welcomes] at hwelcomes
    split at hpush
    · cases hpush
    · next hrefuses =>
      rw [hrefuses] at hwelcomes
      cases hwelcomes
    · cases hpush

/-- Does not ask for the host and its history, and pushes nothing that the host might refuse. -/
def Step.overlooks (h : Host) : Step → Bool
  | .supportsHistory | .host | .expectPushed .. | .expectNoPush => false
  | .push _ => h.welcomes
  | _ => true

namespace Session

/-- `t` supports no history and `s` has a host that keeps every visit. Otherwise they are the same,
up to what their hosts have kept and to the answers of the steps in their calls. -/
structure Beside (host : Host) (s t : Session) : Prop where
  router : t.router = { s.router with supportsHistory := false }
  stage : s.stage.unlogged = t.stage.unlogged
  calls : List.Forall₂ (Call.Alike Answer.Alike) s.stage.calls t.stage.calls
  memory : s.host.behaviour = .memory true
  behaviour : t.host.behaviour = host.behaviour

variable {host : Host} {P : Step → Prop} {s t : Session} {run run' : Runner}

theorem congruence_beside (host : Host) : Congruence (Beside host) where
  agree h := ⟨by rw [h.router], by rw [h.router], h.stage⟩
  register h route := by
    refine ⟨?_, h.stage, h.calls, h.memory, h.behaviour⟩
    change Router.register _ route = _
    rw [h.router]
    rfl
  restage h _ _ hstage hcalls hcalls' := by
    refine ⟨h.router, hstage, ?_, h.memory, h.behaviour⟩
    rw [hcalls, hcalls']
    exact h.calls

theorem Within.keeping (h : Within P (Beside host) s t) (visits visits' : List Visit) :
    Within P (Beside host) (s.keeping visits) (t.keeping visits') :=
  ⟨⟨h.1.router, h.1.stage, h.1.calls, h.1.memory, h.1.behaviour⟩,
    h.2.callbacks, h.2.lifecycles⟩

theorem Beside.push_left (h : Beside host s t) (visit : Visit) :
    ∃ visits, s.host.push visit = .ok { s.host with history := s.host.history ++ visits } := by
  apply Host.exists_push_of_welcomes
  rw [Host.welcomes, h.memory]

theorem Beside.push_right (h : Beside host s t) (hhost : host.welcomes) (visit : Visit) :
    ∃ visits, t.host.push visit = .ok { t.host with history := t.host.history ++ visits } := by
  apply Host.exists_push_of_welcomes
  rw [Host.welcomes, h.behaviour]
  exact hhost

/-- Where history is supported an arrival may be pushed, and it is told with its URL. This is all
that it has over an arrival without history. -/
theorem simulates_arrive (router : Router (Callback Step)) (route : Route (Callback Step))
    (updateUrl : Bool) (params : Params) :
    Simulates (Within P (Beside host)) Navigation.Alike (App.arrive router route updateUrl params)
      (App.arrive { router with supportsHistory := false } route updateUrl params) := by
  intro s t h
  obtain ⟨visits, hpush⟩ := h.1.push_left ⟨route.template.url params, route.name, params⟩
  rw [App.arrive_apply, App.arrive_apply, hpush]
  dsimp only
  -- only the session on the left may push
  split
  · split
    · refine ⟨.ok ⟨rfl, rfl⟩, ?_⟩
      rw [← App.keeping_nil t]
      exact h.keeping visits []
    · exact ⟨.ok ⟨rfl, rfl⟩, h⟩
  · exact ⟨.ok ⟨rfl, rfl⟩, h⟩

theorem simulates_visit (hcarry : Carries P (Beside host) run run') (name : String)
    (params : Params) (updateUrl : Bool) :
    Simulates (Within P (Beside host)) (Option.Rel Navigation.Alike)
      (App.visit (call run) name params updateUrl)
      (App.visit (call run') name params updateUrl) := by
  intro s t h
  have hroutes : s.router.routes = t.router.routes := ((congruence_beside host).agree h.1).routes
  cases hroute : s.router.routes.get? name with
  | none =>
    rw [App.visit_of_get?_eq_none params updateUrl hroute,
      App.visit_of_get?_eq_none params updateUrl (hroutes ▸ hroute)]
    exact ⟨.ok .none, h⟩
  | some route =>
    rw [App.visit_of_get? params updateUrl hroute,
      App.visit_of_get? params updateUrl (hroutes ▸ hroute), h.1.router]
    refine ((simulates_runCallbacks (congruence_beside host) hcarry (h.2.callbacks hroute)
      params).bind ?_) h
    rintro arrived _ rfl
    exact (simulates_arrive s.router route updateUrl arrived).bind
      fun _ _ halike => simulates_pure (.some halike)

theorem simulates_go (hcarry : Carries P (Beside host) run run') (target : String)
    (params : Params) (updateUrl : Bool) :
    Simulates (Within P (Beside host)) (Option.Rel Navigation.Alike)
      (App.go (call run) target params updateUrl) (App.go (call run') target params updateUrl) := by
  refine (simulates_visit hcarry target params updateUrl).bind ?_
  rintro a b hab
  cases hab with
  | some halike => exact simulates_pure (.some halike)
  | none =>
    refine simulates_get_bind fun s t h => ?_
    have hagree := (congruence_beside host).agree h.1
    rw [Router.resolve_congr hagree.routes hagree.config, hagree.config]
    cases t.router.resolve target with
    | cons best rest => exact simulates_visit hcarry best.name best.params false h
    | nil => exact (simulates_failWith _).bind (fun _ _ _ => simulates_pure .none) h

theorem simulates_push (hhost : host.welcomes) (visit : Visit) :
    Simulates (Within P (Beside host)) Eq (App.push visit) (App.push visit) := by
  intro s t h
  obtain ⟨visits, hpush⟩ := h.1.push_left visit
  obtain ⟨visits', hpush'⟩ := h.1.push_right hhost visit
  rw [App.push_apply, App.push_apply, hpush, hpush']
  exact ⟨.ok rfl, h.keeping visits visits'⟩

theorem simulates_perform_overlooking (hcarry : Carries P (Beside host) run run') {step : Step}
    (hstep : step.overlooks host) (hnested : ∀ sub ∈ step.nested, P sub) :
    Simulates (Within P (Beside host)) Reply.Alike (perform run step) (perform run' step) := by
  cases hplain : step.isPlain with
  | true =>
    refine (simulates_perform (congruence_beside host) hcarry hplain hnested).mono ?_
    rintro reply _ rfl
    exact .same reply
  | false =>
    cases step with
    | go target params updateUrl =>
      exact (simulates_go hcarry target params updateUrl).bind
        fun _ _ halike => simulates_pure (.navigation halike)
    | push visit =>
      exact (simulates_push hstep visit).bind fun _ _ _ => simulates_pure (.same .nothing)
    | supportsHistory => cases hstep
    | host => cases hstep
    | expectPushed url route params => cases hstep
    | expectNoPush => cases hstep
    | _ => cases hplain

def InStep (P : Step → Prop) (host : Host) (run run' : Runner) : Prop :=
  ∀ step, P step → ∀ ⦃s t⦄, Within P (Beside host) s t →
    Answer.Alike (run step s).1 (run' step t).1 ∧
      Within P (Beside host) (run step s).2 (run' step t).2

theorem InStep.runSteps (hrun : InStep P host run run') (stopAtFault : Bool) {steps : List Step}
    (hsteps : ∀ step ∈ steps, P step) (h : Within P (Beside host) s t) :
    List.Forall₂ Answer.Alike (runSteps run stopAtFault steps s).1.1
        (runSteps run' stopAtFault steps t).1.1 ∧
      (runSteps run stopAtFault steps s).1.2 = (runSteps run' stopAtFault steps t).1.2 ∧
      Within P (Beside host) (runSteps run stopAtFault steps s).2
        (runSteps run' stopAtFault steps t).2 := by
  induction steps generalizing s t with
  | nil => exact ⟨.nil, rfl, h⟩
  | cons step rest ih =>
    obtain ⟨hstep, hrest⟩ := List.forall_mem_cons.1 hsteps
    obtain ⟨halike, hbeside⟩ := hrun step hstep h
    obtain ⟨hanswers, hfault, hend⟩ := ih hrest hbeside
    rw [runSteps_cons, runSteps_cons]
    -- whether the steps stop here is read off the result, and both fail or neither does
    obtain ⟨-, hresult, -⟩ := id halike
    generalize (run step s).1.result = r at hresult
    generalize (run' step t).1.result = r' at hresult
    cases stopAtFault with
    | false => exact ⟨.cons halike hanswers, hfault, hend⟩
    | true =>
      cases hresult with
      | ok _ => exact ⟨.cons halike hanswers, hfault, hend⟩
      | error fault => exact ⟨.cons halike .nil, rfl, hbeside⟩

theorem Within.record (h : Within P (Beside host) s t) (invocation : Invocation)
    {answers answers' : List Answer} (hanswers : List.Forall₂ Answer.Alike answers answers')
    (fault : Option Fault) :
    Within P (Beside host) (record ⟨invocation, answers, fault⟩ s).2
      (record ⟨invocation, answers', fault⟩ t).2 := by
  refine ⟨⟨h.1.router, h.1.stage, ?_, h.1.memory, h.1.behaviour⟩, h.2.callbacks, h.2.lifecycles⟩
  exact List.rel_append h.1.calls (.cons (.intro hanswers) .nil)

theorem InStep.carries (hrun : InStep P host run run') : Carries P (Beside host) run run' := by
  intro stopAtFault invocation steps ending hsteps hending s t h
  obtain ⟨hanswers, hfault, hend⟩ := hrun.runSteps stopAtFault hsteps h
  rw [carryOut_apply, carryOut_apply]
  rcases hs : Session.runSteps run stopAtFault steps s with ⟨⟨answers, raised⟩, s'⟩
  rcases ht : Session.runSteps run' stopAtFault steps t with ⟨⟨answers', raised'⟩, t'⟩
  rw [hs, ht] at hanswers hfault hend
  cases hfault
  cases raised with
  | some fault => exact ⟨.error fault, hend.record invocation hanswers (some fault)⟩
  | none =>
    obtain ⟨hout, hended⟩ := hending _ (congruence_beside host) hend
    dsimp only
    rw [hout.fault?_eq]
    exact ⟨hout, hended.record invocation hanswers _⟩

theorem alike_answer (step : Step) {a b : Action Session Reply}
    (hab : Simulates (Within P (Beside host)) Reply.Alike a b) (h : Within P (Beside host) s t) :
    Answer.Alike (answer step a s).1 (answer step b t).1 ∧
      Within P (Beside host) (answer step a s).2 (answer step b t).2 := by
  have hfresh : Within P (Beside host) { s with stage.calls := [] } { t with stage.calls := [] } :=
    ⟨⟨h.1.router, h.1.stage, .nil, h.1.memory, h.1.behaviour⟩, h.2.callbacks, h.2.lifecycles⟩
  obtain ⟨hout, hafter⟩ := hab hfresh
  rw [answer_apply, answer_apply]
  refine ⟨.intro rfl hout hafter.1.calls, ?_, hafter.2.callbacks, hafter.2.lifecycles⟩
  exact ⟨hafter.1.router, hafter.1.stage, h.1.calls, hafter.1.memory, hafter.1.behaviour⟩

theorem inStep_exec (host : Host) (depth : Nat) :
    InStep (Step.Throughout (Step.overlooks host ·)) host (exec depth) (exec depth) := by
  induction depth with
  | zero =>
    intro step _ s t h
    rw [exec_zero, exec_zero]
    exact ⟨.intro rfl (.error .tooDeep) .nil, h⟩
  | succ depth ih =>
    intro step hstep s t h
    obtain ⟨hself, hnested⟩ := hstep
    rw [exec_succ, exec_succ]
    exact alike_answer step (simulates_perform_overlooking ih.carries hself hnested) h

theorem alike_execAll (depth : Nat) {steps : List Step}
    (hsteps : ∀ step ∈ steps, step.Throughout (Step.overlooks host ·))
    (h : Within (Step.Throughout (Step.overlooks host ·)) (Beside host) s t) :
    List.Forall₂ Answer.Alike (execAll depth steps s).1 (execAll depth steps t).1 ∧
      Within (Step.Throughout (Step.overlooks host ·)) (Beside host) (execAll depth steps s).2
        (execAll depth steps t).2 := by
  induction steps generalizing s t with
  | nil => exact ⟨.nil, h⟩
  | cons step rest ih =>
    obtain ⟨hstep, hrest⟩ := List.forall_mem_cons.1 hsteps
    obtain ⟨halike, hbeside⟩ := inStep_exec host depth step hstep h
    obtain ⟨hanswers, hend⟩ := ih hrest hbeside
    rw [execAll_cons, execAll_cons]
    exact ⟨.cons halike hanswers, hend⟩

theorem beside_start (config : Config) (hhost : host.supportsHistory = false) :
    Within P (Beside host) (start { behaviour := .memory true } config) (start host config) := by
  refine ⟨⟨?_, rfl, .nil, rfl, rfl⟩, keeps_start _ config⟩
  change Router.empty config host.supportsHistory = _
  rw [hhost]
  rfl

/-- Steps that overlook the history are answered alike, up to URLs and pushes, whether history is
supported or not. What they leave is the same, too, up to what the hosts have kept. -/
theorem history_only_shows_in_urls (hhost : host.supportsHistory = false) (config : Config)
    (depth : Nat) {steps : List Step}
    (hsteps : ∀ step ∈ steps, step.Throughout (Step.overlooks host ·)) :
    let supported := execAll depth steps (start { behaviour := .memory true } config)
    let unsupported := execAll depth steps (start host config)
    List.Forall₂ Answer.Alike supported.1 unsupported.1 ∧
      unsupported.2.router = { supported.2.router with supportsHistory := false } ∧
      unsupported.2.stage.unlogged = supported.2.stage.unlogged := by
  obtain ⟨hanswers, hend⟩ := alike_execAll depth hsteps (beside_start config hhost)
  exact ⟨hanswers, hend.1.router, hend.1.stage.symm⟩

def relay : List Step :=
  [.addRoute "home" "/" (.value .null),
    .addRoute "blog" "/b/:slug" (.script
      { id := "track"
        sets := [("seen", .bool true)]
        deletes := []
        steps := [.go "home" .empty true, .push ⟨"/elsewhere", "elsewhere", .empty⟩]
        once := false
        propagate := true
        fault := none
        returns := .null }),
    .go "blog" (.ofList [("slug", .str "a")]) true]

theorem history_only_shows_in_urls_relay :
    (∀ step ∈ relay, step.Throughout (Step.overlooks { behaviour := .silent } ·)) ∧
      List.Forall₂ Answer.Alike (Session.run { behaviour := .memory true } {} relay)
        (Session.run { behaviour := .silent } {} relay) := by
  have hsteps : ∀ step ∈ relay, step.Throughout (Step.overlooks { behaviour := .silent } ·) := by
    simp only [relay, List.forall_mem_cons]
    refine ⟨.intro rfl (List.forall_mem_nil _), .intro rfl ?_, .intro rfl (List.forall_mem_nil _),
      List.forall_mem_nil _⟩
    simp only [Step.nested, CallbackSpec.steps, List.forall_mem_cons]
    exact ⟨.intro rfl (List.forall_mem_nil _), .intro rfl (List.forall_mem_nil _),
      List.forall_mem_nil _⟩
  rw [run_eq, run_eq]
  exact ⟨hsteps, (history_only_shows_in_urls rfl {} nestingLimit hsteps).1⟩

def refusingHost : Host := { behaviour := .scripted [false] (some ⟨.value, "refused"⟩) }

/-- A host that refuses what is pushed gives itself away when it is pushed a visit directly. -/
theorem not_alike_of_refused_push :
    refusingHost.supportsHistory = false ∧
      ¬ List.Forall₂ Answer.Alike
        (Session.run { behaviour := .memory true } {} [.push ⟨"/a", "a", .empty⟩])
        (Session.run refusingHost {} [.push ⟨"/a", "a", .empty⟩]) := by
  have hkept : Session.run { behaviour := .memory true } {} [.push ⟨"/a", "a", .empty⟩] =
      [⟨.push ⟨"/a", "a", .empty⟩, .ok .nothing, [], [⟨"/a", "a", .empty⟩]⟩] := rfl
  have hrefused : Session.run refusingHost {} [.push ⟨"/a", "a", .empty⟩] =
      [⟨.push ⟨"/a", "a", .empty⟩, .error (.raised ⟨.value, "refused"⟩), [], []⟩] := rfl
  rw [hkept, hrefused]
  refine ⟨rfl, ?_⟩
  rintro (_ | ⟨⟨-, result, -⟩, -⟩)
  cases result

end Session

end NamedRoutes
