import Mathlib.Data.List.Forall2
import NamedRoutes.Proofs.Session.FirstVisits
import NamedRoutes.Proofs.Session.Passage

/-!
# What answers tell

Routes are changed by steps that register them or attach callbacks to them. What such a step does
itself comes behind all that its calls have run, and shows in the step and its result. So whatever
can be told of each single step in this way is told of a whole session by its answers, read in the
order of time, and at any moment in it by those that have been given before.
-/
namespace NamedRoutes

section

variable {α : Type} (own : Step → Except Fault Reply → List α)

mutual

/-- What is told by an answer: what is told by those within it, in the order of time, and behind
that what its own step and result tell. -/
def Answer.collect : Answer → List α
  | ⟨step, result, calls, _⟩ => Call.collectAll calls ++ own step result

def Call.collect : Call Answer → List α
  | ⟨_, steps, _⟩ => Answer.collectAll steps

def Call.collectAll : List (Call Answer) → List α
  | [] => []
  | call :: rest => call.collect ++ Call.collectAll rest

def Answer.collectAll : List Answer → List α
  | [] => []
  | answer :: rest => answer.collect ++ Answer.collectAll rest

end

theorem Answer.collectAll_eq (answers : List Answer) :
    Answer.collectAll own answers = answers.flatMap (Answer.collect own) := by
  induction answers with
  | nil => rfl
  | cons answer rest ih => rw [Answer.collectAll, ih, List.flatMap_cons]

theorem Call.collectAll_eq (calls : List (Call Answer)) :
    Call.collectAll own calls = (calls.flatMap Call.steps).flatMap (Answer.collect own) := by
  induction calls with
  | nil => rfl
  | cons call rest ih =>
    rw [Call.collectAll, ih, List.flatMap_cons, List.flatMap_append, Call.collect,
      Answer.collectAll_eq]

theorem Answer.collect_eq (answer : Answer) :
    answer.collect own =
      answer.nested.flatMap (Answer.collect own) ++ own answer.step answer.result := by
  obtain ⟨step, result, calls, pushes⟩ := answer
  rw [Answer.collect, Call.collectAll_eq]
  rfl

end

theorem Answer.sizeOf_lt_of_mem_nested {answer c : Answer} (h : c ∈ answer.nested) :
    sizeOf c < sizeOf answer := by
  obtain ⟨call, hcall, hc⟩ := List.mem_flatMap.1 h
  have hcalls := List.sizeOf_lt_of_mem hcall
  have hsteps := List.sizeOf_lt_of_mem hc
  cases answer
  cases call
  simp only [Answer.mk.sizeOf_spec, Call.mk.sizeOf_spec] at hcalls hsteps ⊢
  omega

section

variable {α : Type} {own : Step → Except Fault Reply → List α} {x : α}

theorem Answer.exists_within_of_mem_collect (answer : Answer) (hx : x ∈ answer.collect own) :
    ∃ b : Answer, b.Within answer ∧ x ∈ own b.step b.result := by
  rw [collect_eq, List.mem_append] at hx
  rcases hx with hx | hx
  · obtain ⟨c, hc, hx⟩ := List.mem_flatMap.1 hx
    obtain ⟨b, hb, hx⟩ := exists_within_of_mem_collect c hx
    exact ⟨b, .nested hc hb, hx⟩
  · exact ⟨answer, .itself, hx⟩
termination_by sizeOf answer
decreasing_by exact sizeOf_lt_of_mem_nested hc

/-- What is told by an answer is told by the answers within it. -/
theorem Answer.mem_collect_iff {answer : Answer} :
    x ∈ answer.collect own ↔ ∃ b : Answer, b.Within answer ∧ x ∈ own b.step b.result := by
  refine ⟨answer.exists_within_of_mem_collect, ?_⟩
  rintro ⟨b, hb, hx⟩
  induction hb with
  | itself =>
    rw [collect_eq]
    exact List.mem_append_right _ hx
  | nested hc _ ih =>
    rw [collect_eq]
    exact List.mem_append_left _ (List.mem_flatMap.2 ⟨_, hc, ih hx⟩)

end

namespace App

variable {κ ω : Type}

/-- The routes of the paths up to the first one that is no template, under their own names, and the
fault of that one. -/
def compile : List (String × List κ) → List (Route κ) × Option Fault
  | [] => ([], none)
  | (path, callbacks) :: rest =>
    match Template.ofPath path with
    | .ok template =>
      (⟨RouteName.ofPath path, template, callbacks⟩ :: (compile rest).1, (compile rest).2)
    | .error fault => ([], some fault)

theorem compile_cons_ok {path : String} {template : Template} {callbacks : List κ}
    {rest : List (String × List κ)} (h : Template.ofPath path = .ok template) :
    compile ((path, callbacks) :: rest) =
      (⟨RouteName.ofPath path, template, callbacks⟩ :: (compile rest).1, (compile rest).2) := by
  rw [compile, h]

theorem compile_cons_error {path : String} {fault : Fault} {callbacks : List κ}
    {rest : List (String × List κ)} (h : Template.ofPath path = .error fault) :
    compile ((path, callbacks) :: rest) = ([], some fault) := by
  rw [compile, h]

theorem addRoutes_apply (entries : List (String × List κ)) (app : App κ ω) :
    addRoutes entries app =
      ((compile entries).2.elim (.ok ()) .error,
        { app with router := (compile entries).1.foldl Router.register app.router }) := by
  induction entries generalizing app with
  | nil => rfl
  | cons e rest ih =>
    obtain ⟨path, callbacks⟩ := e
    rw [addRoutes, Action.bind_apply, addRoute_apply]
    cases h : Template.ofPath path with
    | ok template =>
      rw [compile_cons_ok h]
      exact ih _
    | error fault =>
      rw [compile_cons_error h]
      rfl

theorem compile_fault {entries : List (String × List κ)} {fault : Fault}
    (h : (compile entries).2 = some fault) :
    ∃ path reason, fault = .invalidTemplate path reason := by
  induction entries with
  | nil => cases h
  | cons e rest ih =>
    obtain ⟨path, callbacks⟩ := e
    cases htemplate : Template.ofPath path with
    | ok template =>
      rw [compile_cons_ok htemplate] at h
      exact ih h
    | error raised =>
      rw [compile_cons_error htemplate] at h
      cases h
      obtain ⟨v, -, hv⟩ := Template.ofPath_eq_error_iff.1 htemplate
      exact ⟨_, _, hv⟩

end App

namespace Session

open NamedRoutes.Action

variable {s t u : Session}

/-- What a callback is made of. Invokers are found under their handles, and scripts are numbered. -/
inductive Prepared (handles : OrderedMap String) : CallbackSpec Step → Callback Step → Prop
  | value (v : Value) : Prepared handles (.value v) (.value v)
  | invoker {handle route : String} (h : handles.get? handle = some route) :
    Prepared handles (.handle handle) (.invoker route)
  | script (serial : Nat) (script : Script Step) :
    Prepared handles (.script script) (.script serial script)

def PreparedFor (handles : OrderedMap String) (e : String × CallbackSpec Step)
    (r : String × List (Callback Step)) : Prop :=
  r.1 = e.1 ∧ ∃ callback, Prepared handles e.2 callback ∧ r.2 = callback.callables

def Numbered (s t : Session) : Prop := ∃ serials, t = { s with stage.serials := serials }

theorem Numbered.refl (s : Session) : Numbered s s := ⟨s.stage.serials, rfl⟩

theorem Numbered.trans (h : Numbered s t) (h' : Numbered t u) : Numbered s u := by
  obtain ⟨serials, rfl⟩ := h
  obtain ⟨serials', rfl⟩ := h'
  exact ⟨serials', rfl⟩

theorem Numbered.restaged (h : Numbered s t) : Restaged s t := by
  obtain ⟨serials, rfl⟩ := h
  exact ⟨_, rfl, rfl⟩

theorem Numbered.handles (h : Numbered s t) : t.stage.handles = s.stage.handles := by
  obtain ⟨serials, rfl⟩ := h
  rfl

theorem prepare_cases (spec : CallbackSpec Step) (s : Session) :
    (∃ callback t, prepare spec s = (.ok callback, t) ∧ Numbered s t ∧
      Prepared s.stage.handles spec callback) ∨
      ∃ handle, prepare spec s = (.error (.unknownHandle handle), s) := by
  cases spec with
  | value v => exact .inl ⟨_, s, rfl, .refl s, .value v⟩
  | script script => exact .inl ⟨_, _, rfl, ⟨_, rfl⟩, .script _ script⟩
  | handle handle =>
    rw [prepare, Action.bind_apply, routeOf, Action.get_bind_apply]
    cases hroute : s.stage.handles.get? handle with
    | some route => exact .inl ⟨_, s, rfl, .refl s, .invoker hroute⟩
    | none => exact .inr ⟨handle, rfl⟩

theorem prepareAll_cases (entries : List (String × CallbackSpec Step)) (s : Session) :
    ∃ t, Numbered s t ∧
      ((∃ routes, prepareAll entries s = (.ok routes, t) ∧
          List.Forall₂ (PreparedFor s.stage.handles) entries routes) ∨
        ∃ handle, prepareAll entries s = (.error (.unknownHandle handle), t)) := by
  induction entries generalizing s with
  | nil => exact ⟨s, .refl s, .inl ⟨[], rfl, .nil⟩⟩
  | cons e rest ih =>
    rw [prepareAll, Action.bind_apply]
    rcases prepare_cases e.2 s with ⟨callback, t, hprepare, ht, hcallback⟩ | ⟨handle, hprepare⟩
    · obtain ⟨u, hu, hrest⟩ := ih t
      rw [ht.handles] at hrest
      refine ⟨u, ht.trans hu, ?_⟩
      rw [hprepare]
      dsimp only
      rw [Action.bind_apply]
      rcases hrest with ⟨routes, hrest, hroutes⟩ | ⟨handle, hrest⟩
      · rw [hrest]
        exact .inl ⟨_, rfl, .cons ⟨rfl, callback, hcallback, rfl⟩ hroutes⟩
      · rw [hrest]
        exact .inr ⟨handle, rfl⟩
    · rw [hprepare]
      exact ⟨s, .refl s, .inr ⟨handle, rfl⟩⟩

/-- A step that comes to this result has not changed a route itself. -/
def sparesRoutes : Step → Except Fault Reply → Bool
  | .addRoute .., .ok _ | .addRoutes _, .ok _ | .observe .., .ok _ => false
  | .addRoutes _, .error (.invalidTemplate ..) => false
  | _, _ => true

/-- What a step that comes to this result does in `u`, when its calls are over. -/
inductive Effect (u : Session) : Step → Except Fault Reply → Session → Prop
  | register {name path spec template callback} (htemplate : Template.ofPath path = .ok template)
      (hspec : Prepared u.stage.handles spec callback) :
      Effect u (.addRoute name path spec) (.ok (.route ⟨name, template, callback.callables⟩))
        { u with router := u.router.register ⟨name, template, callback.callables⟩ }
  | registerAll {entries routes}
      (hroutes : List.Forall₂ (PreparedFor u.stage.handles) entries routes) :
      Effect u (.addRoutes entries) ((App.compile routes).2.elim (.ok .nothing) .error)
        { u with router := (App.compile routes).1.foldl Router.register u.router }
  | attach {name spec callback route} (hroute : u.router.routes.get? name = some route)
      (hspec : Prepared u.stage.handles spec callback) :
      Effect u (.observe name spec) (.ok .nothing)
        { u with router := u.router.observe route callback }
  | ignore {name spec callback} (hname : u.router.routes.get? name = none)
      (hstrict : u.router.config.strict = false)
      (hspec : Prepared u.stage.handles spec callback) :
      Effect u (.observe name spec) (.ok .nothing) u
  | keep {step result} (hspares : sparesRoutes step result) (visits : List Visit) :
      Effect u step result (u.keeping visits)

theorem Effect.stage {step : Step} {result : Except Fault Reply} (h : Effect u step result t) :
    t.stage = u.stage := by
  cases h <;> rfl

theorem effect_of_sparesRoutes {step : Step} {result : Except Fault Reply}
    (h : sparesRoutes step result) (u : Session) : Effect u step result u := by
  have hkeep := Effect.keep (u := u) h []
  rwa [App.keeping_nil] at hkeep

/-- A step has led from `s` to `t`, and its effect came behind all that its calls have run. -/
def TakesEffect (run : Runner) (s : Session) (step : Step) (result : Except Fault Reply)
    (t : Session) : Prop :=
  ∃ u, Recorded run s u ∧ Effect u step result t

variable {run : Runner}

theorem Recorded.takesEffect {step : Step} {result : Except Fault Reply} (h : Recorded run s t)
    (hspares : sparesRoutes step result) : TakesEffect run s step result t :=
  ⟨t, h, effect_of_sparesRoutes hspares t⟩

theorem takesEffect_addRoute (name path : String) (spec : CallbackSpec Step) (s : Session) :
    TakesEffect run s (.addRoute name path spec) (perform run (.addRoute name path spec) s).1
      (perform run (.addRoute name path spec) s).2 := by
  rw [perform, Action.bind_apply]
  rcases prepare_cases spec s with ⟨callback, u, hprepare, hu, hspec⟩ | ⟨handle, hprepare⟩
  · rw [hprepare]
    dsimp only
    rw [Action.bind_apply, App.addRoute_apply]
    cases htemplate : Template.ofPath path with
    | ok template =>
      exact ⟨u, hu.restaged.recorded, .register htemplate (hu.handles ▸ hspec)⟩
    | error fault => exact hu.restaged.recorded.takesEffect rfl
  · rw [hprepare]
    exact (refl_of (Recorded run) s).takesEffect rfl

theorem takesEffect_addRoutes (entries : List (String × CallbackSpec Step)) (s : Session) :
    TakesEffect run s (.addRoutes entries) (perform run (.addRoutes entries) s).1
      (perform run (.addRoutes entries) s).2 := by
  rw [perform, Action.bind_apply]
  obtain ⟨u, hu, ⟨routes, hprepare, hroutes⟩ | ⟨handle, hprepare⟩⟩ := prepareAll_cases entries s
  · rw [← hu.handles] at hroutes
    have heffect : Effect u (.addRoutes entries) _ _ := .registerAll hroutes
    rw [hprepare]
    dsimp only
    rw [Action.bind_apply, App.addRoutes_apply]
    cases hfault : (App.compile routes).2 <;> rw [hfault] at heffect <;>
      exact ⟨u, hu.restaged.recorded, heffect⟩
  · rw [hprepare]
    exact hu.restaged.recorded.takesEffect rfl

theorem takesEffect_observe (name : String) (spec : CallbackSpec Step) (s : Session) :
    TakesEffect run s (.observe name spec) (perform run (.observe name spec) s).1
      (perform run (.observe name spec) s).2 := by
  rw [perform, Action.bind_apply]
  rcases prepare_cases spec s with ⟨callback, u, hprepare, hu, hspec⟩ | ⟨handle, hprepare⟩
  · rw [hprepare]
    dsimp only
    rw [Action.bind_apply, App.observe_apply]
    cases hroute : u.router.routes.get? name with
    | some route => exact ⟨u, hu.restaged.recorded, .attach hroute (hu.handles ▸ hspec)⟩
    | none =>
      cases hstrict : u.router.config.strict with
      | true => exact hu.restaged.recorded.takesEffect rfl
      | false =>
        exact ⟨u, hu.restaged.recorded, .ignore hroute hstrict (hu.handles ▸ hspec)⟩
  · rw [hprepare]
    exact (refl_of (Recorded run) s).takesEffect rfl

section

variable (hrun : ∀ step s, (run step s).2.stage.calls = s.stage.calls)

include hrun

theorem takesEffect_go (target : String) (params : Params) (updateUrl : Bool) (s : Session) :
    TakesEffect run s (.go target params updateUrl)
      (perform run (.go target params updateUrl) s).1
      (perform run (.go target params updateUrl) s).2 := by
  rw [perform_go]
  rcases App.go_cases (call run) target params updateUrl s with ⟨route, given, push, h⟩ | ⟨-, hgo⟩
  · obtain ⟨called, outcome, t, hcalls⟩ :=
      App.exists_callsInTurn (call run) route.callbacks given s
    have ht := recorded_runCallbacks hrun route.callbacks given s
    rw [hcalls.runCallbacks_eq] at ht
    rcases App.go_fails_or_arrives h hcalls with ⟨fault, hgo⟩ | ⟨arrived, -, hgo⟩ <;> rw [hgo]
    · exact ht.takesEffect rfl
    · exact ⟨t, ht, .keep rfl _⟩
  · rw [hgo]
    exact (refl_of (Recorded run) s).takesEffect rfl

theorem takesEffect_perform (step : Step) (s : Session) :
    TakesEffect run s step (perform run step s).1 (perform run step s).2 := by
  have hsame : Recorded run s s := refl_of (Recorded run) s
  cases step with
  | addRoute name path spec => exact takesEffect_addRoute name path spec s
  | addRoutes entries => exact takesEffect_addRoutes entries s
  | observe name spec => exact takesEffect_observe name spec s
  | go target params updateUrl => exact takesEffect_go hrun target params updateUrl s
  | push visit =>
    rcases perform_push run visit s with ⟨fault, h⟩ | h
    · rw [h]
      exact hsame.takesEffect rfl
    · rw [h]
      exact ⟨s, hsame, .keep rfl _⟩
  | enroll name handle lifecycle =>
    rw [perform_enroll]
    exact (restaged_enroll name handle _ s).recorded.takesEffect rfl
  | invoke handle params =>
    rw [perform_invoke]
    cases s.stage.handles.get? handle with
    | none => exact hsame.takesEffect rfl
    | some name => exact (recorded_invoke hrun name params s).takesEffect rfl
  | urlFor name params =>
    rw [perform, Action.bind_apply, App.urlFor, Action.get_bind_apply]
    cases s.router.routes.get? name <;> exact hsame.takesEffect rfl
  | expectPushed url route params =>
    rw [perform_expectPushed]
    exact hsame.takesEffect rfl
  | expectNoPush =>
    rw [perform_expectNoPush]
    exact hsame.takesEffect rfl
  | _ => exact hsame.takesEffect rfl

end

theorem exists_effect_exec (depth : Nat) (step : Step) (s : Session) :
    ∃ u t, Passes (exec depth) s (exec (depth + 1) step s).1.nested u ∧
      Effect u step (exec (depth + 1) step s).1.result t ∧
      ∃ stage, (exec (depth + 1) step s).2 = { t with stage } := by
  obtain ⟨u, ⟨calls, hcalls, hpasses⟩, heffect⟩ :=
    takesEffect_perform (fun step s => (tally_exec depth step s).calls) step
      { s with stage.calls := [] }
  have hfresh : Passes (exec depth) s [] { s with stage.calls := [] } := Passes.start.restage _
  rw [exec_succ, answer_apply]
  refine ⟨u, _, ?_, heffect, _, rfl⟩
  rw [Answer.nested, heffect.stage, hcalls]
  exact hfresh.trans hpasses

section

variable {α : Type}

/-- `R s es t` says that from `s` to `t`, `es` have happened. What happens by the effect of a step
is what `own` tells of it, and the stage does not matter. -/
structure Tells (own : Step → Except Fault Reply → List α)
    (R : Session → List α → Session → Prop) : Prop where
  refl (s : Session) : R s [] s
  trans {s t u : Session} {es fs : List α} : R s es t → R t fs u → R s (es ++ fs) u
  restage {s t : Session} {es : List α} (stage : Stage) : R s es t → R s es { t with stage }
  effect {s t : Session} {step : Step} {result : Except Fault Reply} :
    Effect s step result t → R s (own step result) t

/-- Between `s` and `t`, when all that is told has happened, the answer was given. It was given in a
session to which the first part of this has led, and what it tells itself came next. -/
def Amid (own : Step → Except Fault Reply → List α) (R : Session → List α → Session → Prop)
    (s : Session) (told : List α) (t : Session) (b : Answer) : Prop :=
  ∃ d u before after, RanIn (exec d) s t u b ∧ R s before u ∧
    told = before ++ b.collect own ++ after

variable {own : Step → Except Fault Reply → List α} {R : Session → List α → Session → Prop}
  {answers : List Answer} {depth : Nat}

theorem Passes.precedes (h : Passes (exec depth) s answers t) : Precedes s t := by
  induction h with
  | start => exact .refl s
  | restage stage _ ih => exact ih.trans (precedes_restage _ stage)
  | step step _ ih => exact ih.trans (tally_exec depth step _).precedes

theorem precedes_registerAll (routes : List (Route (Callback Step))) (s : Session) :
    Precedes s { s with router := routes.foldl Router.register s.router } := by
  induction routes generalizing s with
  | nil => exact .refl s
  | cons route rest ih => exact (quietly_register s route).precedes.trans (ih _)

theorem Effect.precedes {step : Step} {result : Except Fault Reply} (h : Effect s step result t) :
    Precedes s t := by
  cases h with
  | register _ _ => exact (quietly_register s _).precedes
  | registerAll _ => exact precedes_registerAll _ s
  | attach _ _ => exact (quietly_register s _).precedes
  | ignore _ _ _ => exact .refl s
  | keep _ visits => exact ⟨rfl, rfl, rfl, rfl, List.prefix_rfl, List.prefix_append _ _⟩

namespace Tells

variable (h : Tells own R)

include h

theorem passes_of_run (hpasses : Passes run s answers t)
    (hrun : ∀ step s, R s ((run step s).1.collect own) (run step s).2) :
    R s (answers.flatMap (Answer.collect own)) t := by
  induction hpasses with
  | start => exact h.refl s
  | restage stage _ ih => exact h.restage stage ih
  | step step _ ih =>
    rw [List.flatMap_append, List.flatMap_singleton]
    exact h.trans ih (hrun step _)

theorem exec (depth : Nat) (step : Step) (s : Session) :
    R s ((exec depth step s).1.collect own) (exec depth step s).2 := by
  induction depth generalizing step s with
  | zero =>
    have hspares : sparesRoutes step (.error .tooDeep) := by cases step <;> rfl
    rw [exec_zero, Answer.collect_eq]
    exact h.effect (effect_of_sparesRoutes hspares s)
  | succ depth ih =>
    obtain ⟨u, t, hpasses, heffect, stage, ht⟩ := exists_effect_exec depth step s
    have hstep : (Session.exec (depth + 1) step s).1.step = step :=
      (tally_exec (depth + 1) step s).step_eq
    rw [Answer.collect_eq, ht, hstep]
    exact h.restage stage (h.trans (h.passes_of_run hpasses ih) (h.effect heffect))

theorem amid_itself (depth : Nat) (step : Step) (s : Session) :
    Amid own R s ((Session.exec depth step s).1.collect own) (Session.exec depth step s).2
      (Session.exec depth step s).1 := by
  refine ⟨depth, s, [], [], ⟨.refl s, ?_, ?_⟩, h.refl s, by simp⟩ <;>
    rw [(tally_exec depth step s).step_eq]

theorem amid_of_passes {b c : Answer} (hpasses : Passes (Session.exec depth) s answers t)
    (hc : c ∈ answers) (hb : b.Within c)
    (hstep : ∀ step u, b.Within (Session.exec depth step u).1 →
      Amid own R u ((Session.exec depth step u).1.collect own) (Session.exec depth step u).2 b) :
    Amid own R s (answers.flatMap (Answer.collect own)) t b := by
  obtain ⟨step, u, before, after, rfl, rfl, hu, ht⟩ := hpasses.exists_run hc
  obtain ⟨d, v, before', after', hv, hbefore, htold⟩ := hstep step u hb
  refine ⟨d, v, before.flatMap (Answer.collect own) ++ before',
    after' ++ after.flatMap (Answer.collect own), hv.mono hu.precedes ht.precedes,
    h.trans (h.passes_of_run hu (h.exec depth)) hbefore, ?_⟩
  rw [List.flatMap_append, List.flatMap_cons, htold]
  simp

theorem amid_exec (depth : Nat) (step : Step) (s : Session) {b : Answer}
    (hb : b.Within (Session.exec depth step s).1) :
    Amid own R s ((Session.exec depth step s).1.collect own) (Session.exec depth step s).2 b := by
  induction depth generalizing step s with
  | zero =>
    cases hb with
    | itself => exact h.amid_itself 0 step s
    | nested hc _ => cases hc
  | succ depth ih =>
    cases hb with
    | itself => exact h.amid_itself (depth + 1) step s
    | nested hc hb =>
      -- it stands within that of a nested step, and the effect of the step comes behind
      obtain ⟨u, t, hpasses, heffect, stage, ht⟩ := exists_effect_exec depth step s
      obtain ⟨d, v, before, after, hv, hbefore, htold⟩ :=
        h.amid_of_passes hpasses hc hb fun step u hb => ih step u hb
      have hstep : (Session.exec (depth + 1) step s).1.step = step :=
        (tally_exec (depth + 1) step s).step_eq
      have hend : Precedes u { t with stage } := heffect.precedes.trans (precedes_restage t stage)
      rw [Answer.collect_eq, ht, hstep]
      refine ⟨d, v, before, after ++ own step (Session.exec (depth + 1) step s).1.result,
        hv.mono (.refl s) hend, hbefore, ?_⟩
      rw [htold, List.append_assoc]

/-- What the answers of a run tell has happened from its beginning to its end, and of every answer
within them, what is told before it has happened when its step is run. -/
theorem execAll (depth : Nat) (steps : List Step) (s : Session) :
    let r := Session.execAll depth steps s
    R s (r.1.flatMap (Answer.collect own)) r.2 ∧
      ∀ a ∈ r.1, ∀ b, b.Within a → Amid own R s (r.1.flatMap (Answer.collect own)) r.2 b := by
  have hpasses := passes_execAll depth steps s
  exact ⟨h.passes_of_run hpasses (h.exec depth), fun a ha b hb =>
    h.amid_of_passes hpasses ha hb fun step u hb => h.amid_exec depth step u hb⟩

end Tells

theorem RanIn.told {b : Answer} {d : Nat} (hb : RanIn (exec d) s t u b) (h : Tells own R) :
    R u (b.collect own) (exec d b.step u).2 := by
  have hstep := h.exec d b.step u
  rwa [hb.answer_eq] at hstep

end

end Session

end NamedRoutes
