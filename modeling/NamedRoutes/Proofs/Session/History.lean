import NamedRoutes.Proofs.Navigation
import NamedRoutes.Proofs.Session.Congruence

/-!
# The history of a session

The history only grows. What a step adds to it is what the steps nested in it add, call after call,
and at the end at most one visit of its own: the one that it pushes directly, or the one at which a
navigation arrives that went by the name of a route, on a router that was told at the start that
history is supported. This was asked once, and it is not asked again.
-/
namespace NamedRoutes

def Answer.nested (answer : Answer) : List Answer := answer.calls.flatMap Call.steps

/-- `b.Within a`: the answer `b` is `a` itself or stands in one of its calls, however deep. -/
inductive Answer.Within : Answer → Answer → Prop
  | itself {a} : Within a a
  | nested {a b c} (hc : c ∈ a.nested) (hb : Within b c) : Within b a

namespace Session

open NamedRoutes.Action

/-- What a session keeps of an earlier one: its settings, its names in their order, and its
history. -/
structure Precedes (s t : Session) : Prop where
  config : t.router.config = s.router.config
  supportsHistory : t.router.supportsHistory = s.router.supportsHistory
  behaviour : t.host.behaviour = s.host.behaviour
  asked : t.host.asked = s.host.asked
  names : s.router.routes.keys <+: t.router.routes.keys
  history : s.host.history <+: t.host.history

variable {s t u : Session} {run : Runner} {calls : List (Call Answer)} {pending : List Answer}

@[refl] theorem Precedes.refl (s : Session) : Precedes s s :=
  ⟨rfl, rfl, rfl, rfl, List.prefix_rfl, List.prefix_rfl⟩

theorem Precedes.trans (h : Precedes s t) (h' : Precedes t u) : Precedes s u where
  config := h'.config.trans h.config
  supportsHistory := h'.supportsHistory.trans h.supportsHistory
  behaviour := h'.behaviour.trans h.behaviour
  asked := h'.asked.trans h.asked
  names := h.names.trans h'.names
  history := h.history.trans h'.history

theorem precedes_restage (s : Session) (stage : Stage) : Precedes s { s with stage } :=
  ⟨rfl, rfl, rfl, rfl, List.prefix_rfl, List.prefix_rfl⟩

/-- A session that is only further in what does not show in the history. -/
structure Quietly (s t : Session) : Prop where
  precedes : Precedes s t
  calls : t.stage.calls = s.stage.calls
  history : t.host.history = s.host.history

theorem quietly_register (s : Session) (route : Route (Callback Step)) :
    Quietly s { s with router := s.router.register route } where
  precedes := by
    refine ⟨rfl, rfl, rfl, rfl, ?_, List.prefix_rfl⟩
    rw [Router.register, OrderedMap.keys_insert]
    split
    · exact List.prefix_rfl
    · exact List.prefix_append _ _
  calls := rfl
  history := rfl

theorem quietly_restage {stage : Stage} (h : stage.calls = s.stage.calls) :
    Quietly s { s with stage } :=
  ⟨precedes_restage s stage, h, rfl⟩

theorem congruence_of_quietly {I : Session → Prop} (h : ∀ {s t}, I s → Quietly s t → I t) :
    Congruence fun s t => s = t ∧ I s where
  agree := by
    rintro s _ ⟨rfl, -⟩
    exact ⟨rfl, rfl, rfl⟩
  register := by
    rintro s _ ⟨rfl, hs⟩ route
    exact ⟨rfl, h hs (quietly_register s route)⟩
  restage := by
    rintro s _ ⟨rfl, hs⟩ stage stage' hstage hcalls hcalls'
    cases Stage.ext_unlogged hstage (hcalls.trans hcalls'.symm)
    exact ⟨rfl, h hs (quietly_restage hcalls)⟩

/-- After `s` and before `t` the step of the answer was run, in `u`, and this is how it was
answered. -/
structure RanIn (run : Runner) (s t u : Session) (answer : Answer) : Prop where
  before : Precedes s u
  answer_eq : (run answer.step u).1 = answer
  after : Precedes (run answer.step u).2 t

theorem RanIn.mono {s' t' : Session} {answer : Answer} (h : RanIn run s t u answer)
    (hs : Precedes s' s) (ht : Precedes t t') : RanIn run s' t' u answer :=
  ⟨hs.trans h.before, h.answer_eq, h.after.trans ht⟩

/-- Since `s`, the `calls` have been recorded, and a call under way has got the answers `pending`.
What was pushed in all these answers has come into the history. -/
structure Account (run : Runner) (s t : Session) (calls : List (Call Answer))
    (pending : List Answer) : Prop where
  precedes : Precedes s t
  calls_eq : t.stage.calls = s.stage.calls ++ calls
  history_eq : t.host.history =
    s.host.history ++ (calls.flatMap Call.steps ++ pending).flatMap Answer.pushes
  ran : ∀ answer ∈ calls.flatMap Call.steps ++ pending, ∃ u, RanIn run s t u answer

theorem Account.nothing (run : Runner) (s : Session) : Account run s s [] [] := by
  constructor <;> simp [Precedes.refl]

theorem Account.quietly (h : Account run s t calls pending) (htu : Quietly t u) :
    Account run s u calls pending where
  precedes := h.precedes.trans htu.precedes
  calls_eq := htu.calls.trans h.calls_eq
  history_eq := htu.history.trans h.history_eq
  ran answer hanswer := (h.ran answer hanswer).imp fun _ h => h.mono (.refl s) htu.precedes

theorem Account.record (h : Account run s t calls pending) (invocation : Invocation)
    (fault : Option Fault) :
    Account run s (record ⟨invocation, pending, fault⟩ t).2
      (calls ++ [⟨invocation, pending, fault⟩]) [] := by
  let call : Call Answer := ⟨invocation, pending, fault⟩
  have hanswers : (calls ++ [call]).flatMap Call.steps ++ [] =
      calls.flatMap Call.steps ++ pending := by simp [call]
  have hrecord : Precedes t (Session.record ⟨invocation, pending, fault⟩ t).2 :=
    precedes_restage t _
  refine ⟨h.precedes.trans hrecord, ?_, ?_, ?_⟩
  · rw [record_apply, ← List.append_assoc, ← h.calls_eq]
  · rw [hanswers]
    exact h.history_eq
  · intro answer hanswer
    rw [hanswers] at hanswer
    exact (h.ran answer hanswer).imp fun _ h => h.mono (.refl s) hrecord

/-- What a step leaves: the answer tells what has been pushed. -/
structure Tally (step : Step) (s : Session) (answer : Answer) (t : Session) : Prop where
  step_eq : answer.step = step
  precedes : Precedes s t
  calls : t.stage.calls = s.stage.calls
  history : t.host.history = s.host.history ++ answer.pushes

variable (hrun : ∀ step s, Tally step s (run step s).1 (run step s).2)

include hrun in
theorem Account.answer (step : Step) (h : Account run s t calls pending) :
    Account run s (run step t).2 calls (pending ++ [(run step t).1]) where
  precedes := h.precedes.trans (hrun step t).precedes
  calls_eq := (hrun step t).calls.trans h.calls_eq
  history_eq := by
    rw [(hrun step t).history, h.history_eq]
    simp
  ran := by
    intro answer hanswer
    rw [← List.append_assoc] at hanswer
    rcases List.mem_append.1 hanswer with hanswer | hanswer
    · exact (h.ran answer hanswer).imp fun _ h => h.mono (.refl s) (hrun step t).precedes
    · cases List.mem_singleton.1 hanswer
      refine ⟨t, h.precedes, ?_, ?_⟩ <;> rw [(hrun step t).step_eq]

include hrun in
theorem account_runSteps (stopAtFault : Bool) (steps : List Step)
    (h : Account run s t calls pending) :
    Account run s (runSteps run stopAtFault steps t).2 calls
      (pending ++ (runSteps run stopAtFault steps t).1.1) := by
  induction steps generalizing t pending with
  | nil =>
    rw [runSteps_nil, List.append_nil]
    exact h
  | cons step rest ih =>
    have hstep := h.answer hrun step
    have hrest := ih hstep
    rw [List.append_assoc, List.singleton_append] at hrest
    rw [runSteps_cons]
    split
    · exact hstep
    · exact hrest

def Accounted (run : Runner) (s t : Session) : Prop := ∃ calls, Account run s t calls []

theorem congruence_accounted (run : Runner) (s : Session) :
    Congruence fun t u => t = u ∧ Accounted run s t :=
  congruence_of_quietly fun h htu => h.imp fun _ h => h.quietly htu

theorem keeps_anything (s : Session) : s.Keeps fun _ => True :=
  ⟨fun _ _ _ _ _ => trivial, fun _ _ _ => trivial⟩

include hrun in
theorem accounted_carryOut (stopAtFault : Bool) (invocation : Invocation) (steps : List Step)
    {ending : Action Session Unit} (hending : Respectful (fun _ => True) ending)
    (h : Accounted run s t) :
    Accounted run s (carryOut run stopAtFault invocation steps ending t).2 := by
  obtain ⟨calls, h⟩ := h
  have hsteps := account_runSteps hrun stopAtFault steps h
  rw [carryOut_apply]
  rcases hr : runSteps run stopAtFault steps t with ⟨⟨answers, _ | fault⟩, u⟩ <;>
    rw [hr, List.nil_append] at hsteps
  · -- the ending comes before the call is recorded, when its pushes are still pending
    have hend := hending _ (congruence_of_quietly fun h htu => Account.quietly h htu)
      ⟨⟨rfl, hsteps⟩, keeps_anything u⟩
    exact ⟨_, hend.2.1.2.record invocation _⟩
  · exact ⟨_, hsteps.record invocation _⟩

include hrun in
theorem carries_accounted (s : Session) :
    Carries (fun _ => True) (fun t u => t = u ∧ Accounted run s t) run run := by
  rintro stopAtFault invocation steps ending - hending t _ ⟨⟨rfl, h⟩, -⟩
  exact ⟨.refl _, ⟨rfl, accounted_carryOut hrun stopAtFault invocation steps hending h⟩,
    keeps_anything _⟩

include hrun in
theorem accounted_runCallbacks (callbacks : List (Callback Step)) (params : Params)
    (s : Session) : Accounted run s (App.runCallbacks (call run) callbacks params s).2 :=
  (simulates_runCallbacks (congruence_accounted run s) (carries_accounted hrun s)
    (fun _ _ _ _ => trivial) params ⟨⟨rfl, [], .nothing run s⟩, keeps_anything s⟩).2.1.2

include hrun in
theorem accounted_perform {step : Step} (hplain : step.isPlain) (s : Session) :
    Accounted run s (perform run step s).2 :=
  (simulates_perform (congruence_accounted run s) (carries_accounted hrun s) hplain
    (fun _ _ => trivial) ⟨⟨rfl, [], .nothing run s⟩, keeps_anything s⟩).2.1.2

/-- What a step that comes to this result has itself pushed: nothing, or the visit that it pushes
directly, or the one at which it arrives by the name of a route. -/
inductive PushesItself (router : Router (Callback Step)) :
    Step → Except Fault Reply → List Visit → Prop
  | nothing {step result} : PushesItself router step result []
  | directly (visit) : PushesItself router (.push visit) (.ok .nothing) [visit]
  | onArrival {name params route arrived url} (hroute : router.routes.get? name = some route)
      (hhistory : router.supportsHistory) (hinner : name ≠ router.config.indexRoute) :
      PushesItself router (.go name params true)
        (.ok (.navigation (some ⟨name, arrived, some url, true⟩))) [⟨url, name, arrived⟩]

theorem PushesItself.eq_singleton {router : Router (Callback Step)} {step : Step}
    {result : Except Fault Reply} {visits : List Visit} {visit : Visit}
    (h : PushesItself router step result visits) (hvisit : visit ∈ visits) : visits = [visit] := by
  cases h with
  | nothing => cases hvisit
  | directly _ => rw [List.mem_singleton.1 hvisit]
  | onArrival _ _ _ => rw [List.mem_singleton.1 hvisit]

/-- A step has led from `s` to `t`, and what it has pushed itself stands behind all that its calls
have pushed. -/
def PushesLast (run : Runner) (s t : Session) (step : Step) (result : Except Fault Reply) : Prop :=
  ∃ calls own u, Account run s u calls [] ∧ t = u.keeping own ∧
    PushesItself s.router step result own

theorem Account.pushesLast {step : Step} {result : Except Fault Reply}
    (h : Account run s t calls []) : PushesLast run s t step result :=
  ⟨calls, [], t, h, (App.keeping_nil t).symm, .nothing⟩

theorem perform_go (run : Runner) (target : String) (params : Params) (updateUrl : Bool)
    (s : Session) :
    perform run (.go target params updateUrl) s =
      ((App.go (call run) target params updateUrl s).1.map .navigation,
        (App.go (call run) target params updateUrl s).2) := by
  rw [perform, Action.bind_apply]
  rcases App.go (call run) target params updateUrl s with ⟨r | r, t⟩ <;> rfl

theorem perform_push (run : Runner) (visit : Visit) (s : Session) :
    (∃ fault, perform run (.push visit) s = (.error fault, s)) ∨
      perform run (.push visit) s = (.ok .nothing, s.keeping (s.host.kept visit)) := by
  rw [perform, Action.bind_apply, App.push_apply]
  cases hpush : s.host.push visit with
  | error fault => exact .inl ⟨fault, rfl⟩
  | ok host =>
    right
    rw [Host.eq_of_push_eq_ok hpush]
    rfl

def asserted : Except Unmet Unit → Except Fault Reply
  | .ok () => .ok .nothing
  | .error unmet => .error (.unmet unmet)

theorem expect_apply (outcome : Except Unmet Unit) (s : Session) :
    expect outcome s = (asserted outcome, s) := by
  cases outcome <;> rfl

theorem perform_expectPushed (run : Runner) (url : String) (route : Option String)
    (params : Option Params) (s : Session) :
    perform run (.expectPushed url route params) s =
      (asserted (s.host.expectPushed url route params), s) := by
  rw [perform, Action.get_bind_apply, expect_apply]

theorem perform_expectNoPush (run : Runner) (s : Session) :
    perform run .expectNoPush s = (asserted s.host.expectNoPush, s) := by
  rw [perform, Action.get_bind_apply, expect_apply]

theorem pushesItself_onArrival {router : Router (Callback Step)} {target : String}
    {params given arrived : Params} {updateUrl push : Bool} {route : Route (Callback Step)}
    {url : String} (h : App.Destination router target params updateUrl route given push)
    (hpush : App.pushesOnArrival router route push) :
    PushesItself router (.go target params updateUrl)
      (.ok (.navigation (some ⟨route.name, arrived, some url, true⟩)))
      [⟨url, route.name, arrived⟩] := by
  obtain ⟨hhistory, hpush, hinner⟩ : router.supportsHistory ∧ push ∧
      route.name ≠ router.config.indexRoute := by
    simpa [App.pushesOnArrival] using hpush
  cases h with
  | named hroute =>
    cases router.named hroute
    subst hpush
    exact .onArrival hroute hhistory hinner
  | resolved _ _ _ => cases hpush

include hrun in
theorem pushesLast_go (target : String) (params : Params) (updateUrl : Bool) (s : Session) :
    PushesLast run s (perform run (.go target params updateUrl) s).2 (.go target params updateUrl)
      (perform run (.go target params updateUrl) s).1 := by
  rw [perform_go]
  rcases App.go_cases (call run) target params updateUrl s with ⟨route, given, push, h⟩ | ⟨-, hgo⟩
  · obtain ⟨called, outcome, t, hcalls⟩ :=
      App.exists_callsInTurn (call run) route.callbacks given s
    obtain ⟨calls, ht⟩ := accounted_runCallbacks hrun route.callbacks given s
    rw [hcalls.runCallbacks_eq] at ht
    rcases App.go_fails_or_arrives h hcalls with ⟨fault, hgo⟩ | ⟨arrived, -, hgo⟩ <;> rw [hgo]
    · exact ht.pushesLast
    · refine ⟨calls, _, t, ht, rfl, ?_⟩
      by_cases hpush : App.pushesOnArrival s.router route push
      · have hhistory := App.supportsHistory_of_pushesOnArrival hpush
        rw [if_pos hpush]
        rcases Host.kept_cases t.host ⟨route.template.url arrived, route.name, arrived⟩ with
          hkept | hkept
        · rw [hkept]
          exact .nothing
        · rw [hkept, if_pos hhistory, hpush]
          exact pushesItself_onArrival h hpush
      · rw [if_neg hpush]
        exact .nothing
  · rw [hgo]
    exact (Account.nothing run s).pushesLast

include hrun in
theorem pushesLast_perform (step : Step) (s : Session) :
    PushesLast run s (perform run step s).2 step (perform run step s).1 := by
  cases hplain : step.isPlain with
  | true =>
    obtain ⟨calls, h⟩ := accounted_perform hrun hplain s
    exact h.pushesLast
  | false =>
    have hreads : (perform run step s).2 = s →
        PushesLast run s (perform run step s).2 step (perform run step s).1 := by
      intro h
      rw [h]
      exact (Account.nothing run s).pushesLast
    cases step with
    | go target params updateUrl => exact pushesLast_go hrun target params updateUrl s
    | push visit =>
      rcases perform_push run visit s with ⟨fault, h⟩ | h
      · exact hreads (by rw [h])
      · rw [h]
        refine ⟨[], _, s, .nothing run s, rfl, ?_⟩
        rcases Host.kept_cases s.host visit with hkept | hkept
        · rw [hkept]
          exact .nothing
        · rw [hkept]
          exact .directly visit
    | supportsHistory => exact hreads rfl
    | host => exact hreads rfl
    | expectPushed url route params => exact hreads (by rw [perform_expectPushed])
    | expectNoPush => exact hreads (by rw [perform_expectNoPush])
    | _ => cases hplain

/-- What the answer of a step tells: the steps that its calls have run, and the pushes of these with
its own behind them. -/
structure Accountable (run : Runner) (s : Session) (step : Step) (answer : Answer) (t : Session) :
    Prop where
  tally : Tally step s answer t
  ran : ∀ nested ∈ answer.nested, ∃ u, RanIn run s t u nested
  pushes : ∃ own, answer.pushes = answer.nested.flatMap Answer.pushes ++ own ∧
    PushesItself s.router step answer.result own

include hrun in
theorem accountable_answer (step : Step) (s : Session) :
    Accountable run s step (answer step (perform run step) s).1
      (answer step (perform run step) s).2 := by
  obtain ⟨calls, own, u, hu, hperform, hown⟩ :=
    pushesLast_perform hrun step { s with stage.calls := [] }
  have hcalls : u.stage.calls = calls := hu.calls_eq
  have hhistory : (u.keeping own).host.history =
      s.host.history ++ ((u.stage.calls.flatMap Call.steps).flatMap Answer.pushes ++ own) := by
    rw [App.keeping, hu.history_eq, hcalls]
    simp
  have hkeeping : Precedes u { u.keeping own with stage.calls := s.stage.calls } :=
    ⟨rfl, rfl, rfl, rfl, List.prefix_rfl, List.prefix_append _ _⟩
  have hfresh : Precedes s { s with stage.calls := [] } := precedes_restage s _
  rw [answer_apply, hperform]
  constructor
  · refine ⟨rfl, (hfresh.trans hu.precedes).trans hkeeping, rfl, ?_⟩
    change (u.keeping own).host.history = s.host.history ++ List.drop _ (u.keeping own).host.history
    rw [hhistory, List.drop_left]
  · intro nested hnested
    change nested ∈ u.stage.calls.flatMap Call.steps at hnested
    rw [hcalls] at hnested
    obtain ⟨v, hv⟩ := hu.ran nested (List.mem_append_left _ hnested)
    exact ⟨v, hv.mono hfresh hkeeping⟩
  · refine ⟨own, ?_, hown⟩
    change List.drop _ (u.keeping own).host.history =
      (u.stage.calls.flatMap Call.steps).flatMap Answer.pushes ++ own
    rw [hhistory, List.drop_left]

theorem tally_exec (depth : Nat) (step : Step) (s : Session) :
    Tally step s (exec depth step s).1 (exec depth step s).2 := by
  induction depth generalizing step s with
  | zero =>
    rw [exec_zero]
    exact ⟨rfl, .refl s, rfl, (List.append_nil _).symm⟩
  | succ depth ih =>
    rw [exec_succ]
    exact (accountable_answer ih step s).tally

theorem accountable_exec (depth : Nat) (step : Step) (s : Session) :
    Accountable (exec depth) s step (exec (depth + 1) step s).1 (exec (depth + 1) step s).2 :=
  accountable_answer (tally_exec depth) step s

theorem pushes_exec (depth : Nat) (step : Step) (s : Session) :
    ∃ own, (exec depth step s).1.pushes =
        (exec depth step s).1.nested.flatMap Answer.pushes ++ own ∧
      PushesItself s.router step (exec depth step s).1.result own := by
  cases depth with
  | zero => exact ⟨[], rfl, .nothing⟩
  | succ depth => exact (accountable_exec depth step s).pushes

theorem precedes_execAll (depth : Nat) (steps : List Step) (s : Session) :
    Precedes s (execAll depth steps s).2 := by
  induction steps generalizing s with
  | nil => exact .refl s
  | cons step rest ih => exact (tally_exec depth step s).precedes.trans (ih _)

theorem history_execAll (depth : Nat) (steps : List Step) (s : Session) :
    (execAll depth steps s).2.host.history =
      s.host.history ++ (execAll depth steps s).1.flatMap Answer.pushes := by
  induction steps generalizing s with
  | nil => exact (List.append_nil _).symm
  | cons step rest ih =>
    rw [execAll_cons, ih, (tally_exec depth step s).history, List.flatMap_cons, List.append_assoc]

theorem exists_ranIn (depth : Nat) (step : Step) (s : Session) {b : Answer}
    (hb : b.Within (exec depth step s).1) :
    ∃ d u, RanIn (exec d) s (exec depth step s).2 u b := by
  induction depth generalizing step s with
  | zero =>
    cases hb with
    | itself => exact ⟨0, s, .refl s, rfl, .refl s⟩
    | nested hc _ => cases hc
  | succ depth ih =>
    have h := accountable_exec depth step s
    cases hb with
    | itself =>
      refine ⟨depth + 1, s, .refl s, ?_, ?_⟩ <;> rw [h.tally.step_eq]
    | nested hc hb =>
      obtain ⟨v, hv⟩ := h.ran _ hc
      rw [← hv.answer_eq] at hb
      obtain ⟨d, u, hu⟩ := ih _ v hb
      exact ⟨d, u, hu.mono hv.before hv.after⟩

/-- Every visit that a step has pushed was pushed itself by a step that is answered within. -/
theorem exists_pushesItself (depth : Nat) (step : Step) (s : Session) :
    ∀ visit ∈ (exec depth step s).1.pushes, ∃ b d u, b.Within (exec depth step s).1 ∧
      RanIn (exec d) s (exec depth step s).2 u b ∧
      PushesItself u.router b.step b.result [visit] := by
  induction depth generalizing step s with
  | zero => simp [exec_zero]
  | succ depth ih =>
    intro visit hvisit
    have h := accountable_exec depth step s
    obtain ⟨own, hpushes, hown⟩ := h.pushes
    rw [hpushes] at hvisit
    -- it was pushed by a nested step, or by the step itself
    rcases List.mem_append.1 hvisit with hvisit | hvisit
    · obtain ⟨nested, hnested, hvisit⟩ := List.mem_flatMap.1 hvisit
      obtain ⟨v, hv⟩ := h.ran nested hnested
      rw [← hv.answer_eq] at hvisit
      obtain ⟨b, d, u, hb, hu, hpush⟩ := ih _ v visit hvisit
      rw [hv.answer_eq] at hb
      exact ⟨b, d, u, .nested hnested hb, hu.mono hv.before hv.after, hpush⟩
    · rw [hown.eq_singleton hvisit] at hown
      refine ⟨_, depth + 1, s, .itself, ⟨.refl s, ?_, ?_⟩, ?_⟩ <;> rw [h.tally.step_eq]
      exact hown

section

variable {depth : Nat} {target : String} {params : Params} {updateUrl : Bool}
  {navigation : Navigation}

theorem go_of_exec
    (h : (exec depth (.go target params updateUrl) s).1.result =
      .ok (.navigation (some navigation))) :
    ∃ d t, App.go (call (exec d)) target params updateUrl { s with stage.calls := [] } =
        (.ok (some navigation), t) ∧
      (exec depth (.go target params updateUrl) s).2 = { t with stage.calls := s.stage.calls } := by
  cases depth with
  | zero => cases h
  | succ depth =>
    rw [exec_succ, answer_apply, perform_go] at h ⊢
    rcases hgo : App.go (call (exec depth)) target params updateUrl { s with stage.calls := [] }
      with ⟨fault | found, t⟩ <;> rw [hgo] at h <;> cases h
    exact ⟨depth, t, hgo, rfl⟩

theorem navigation_of_not_supportsHistory (hs : s.router.supportsHistory = false)
    (h : (exec depth (.go target params updateUrl) s).1.result =
      .ok (.navigation (some navigation))) :
    navigation.url = none ∧ navigation.pushed = false := by
  obtain ⟨d, t, hgo, -⟩ := go_of_exec h
  obtain ⟨route, given, push, hdest⟩ := App.destination_of_go hgo
  obtain ⟨arrived, u, -, rfl, -⟩ := App.eq_of_go hdest hgo
  simp [App.pushesOnArrival, hs]

end

/-- However steps are nested and whatever fails, a step leaves the history as it was and adds to it
what its answer tells. Each visit that is added was pushed directly, or by a navigation to the name
of a route. This holds of every step within as well: what it pushes itself comes behind what the
steps nested in it have pushed. The host was asked whether it supports history at the start and
never after. -/
theorem history_appendOnly (host : Host) (config : Config) (depth : Nat) (steps : List Step)
    (step : Step) :
    let s := (execAll depth steps (start host config)).2
    let answer := (exec depth step s).1
    let t := (exec depth step s).2
    t.host.history = s.host.history ++ answer.pushes ∧
    t.host.asked = host.asked + 1 ∧
    (∀ visit ∈ answer.pushes, ∃ b d u, b.Within answer ∧ RanIn (exec d) s t u b ∧
      PushesItself u.router b.step b.result [visit]) ∧
    (∀ b, b.Within answer → ∃ d u, RanIn (exec d) s t u b) ∧
    ∀ d u b, RanIn (exec d) s t u b →
      u.router.supportsHistory = host.supportsHistory ∧ u.router.config = config ∧
      (exec d b.step u).2.host.history = u.host.history ++ b.pushes ∧
      (∃ own, b.pushes = b.nested.flatMap Answer.pushes ++ own ∧
        PushesItself u.router b.step b.result own) ∧
      ∀ target params updateUrl navigation, host.supportsHistory = false →
        b.step = .go target params updateUrl → b.result = .ok (.navigation (some navigation)) →
        navigation.url = none ∧ navigation.pushed = false := by
  intro s answer t
  have hs : Precedes (start host config) s := precedes_execAll depth steps _
  have hstep := tally_exec depth step s
  refine ⟨hstep.history, (hs.trans hstep.precedes).asked, exists_pushesItself depth step s,
    fun b hb => exists_ranIn depth step s hb, ?_⟩
  intro d u b hran
  have hu : Precedes (start host config) u := hs.trans hran.before
  refine ⟨hu.supportsHistory, hu.config, ?_, ?_, ?_⟩
  · rw [(tally_exec d b.step u).history, hran.answer_eq]
  · have hpushes := pushes_exec d b.step u
    rw [hran.answer_eq] at hpushes
    exact hpushes
  · intro target params updateUrl navigation hhost hgo hresult
    rw [← hran.answer_eq, hgo] at hresult
    exact navigation_of_not_supportsHistory (hu.supportsHistory.trans hhost) hresult

end Session

end NamedRoutes
