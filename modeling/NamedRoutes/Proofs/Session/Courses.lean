import NamedRoutes.Proofs.Session.Attempts
import NamedRoutes.Proofs.Session.Passage

/-!
# What becomes of a lifecycle in a run

The lifecycle of a route changes by its invocations alone, through whatever handle they come,
directly or from the callbacks of a navigation, and however deep the steps are nested that make
them. So if its hooks run no steps, the calls of these that a run tells are those of invocations in
turn, one after another, and before each answer within the run they have led just as far as the
calls told before it.
-/
namespace NamedRoutes

def Invocation.isHookOf (route : String) : Invocation → Bool
  | .hook _ r _ _ => r == route
  | .callback _ _ => false

section

variable (route : String)

mutual

/-- The calls of the hooks of a route, in the order in which they came to an end. -/
def Answer.hookCalls : Answer → List (Call Answer)
  | ⟨_, _, calls, _⟩ => Call.hookCallsOfAll calls

def Call.hookCalls : Call Answer → List (Call Answer)
  | ⟨invocation, steps, fault⟩ =>
    Answer.hookCallsOfAll steps ++
      if invocation.isHookOf route then [⟨invocation, steps, fault⟩] else []

def Call.hookCallsOfAll : List (Call Answer) → List (Call Answer)
  | [] => []
  | call :: rest => call.hookCalls ++ Call.hookCallsOfAll rest

def Answer.hookCallsOfAll : List Answer → List (Call Answer)
  | [] => []
  | answer :: rest => answer.hookCalls ++ Answer.hookCallsOfAll rest

end

theorem Call.hookCallsOfAll_eq (calls : List (Call Answer)) :
    Call.hookCallsOfAll route calls = calls.flatMap (Call.hookCalls route) := by
  induction calls with
  | nil => rfl
  | cons call rest ih => rw [Call.hookCallsOfAll, ih, List.flatMap_cons]

theorem Answer.hookCallsOfAll_eq (answers : List Answer) :
    Answer.hookCallsOfAll route answers = answers.flatMap (Answer.hookCalls route) := by
  induction answers with
  | nil => rfl
  | cons answer rest ih => rw [Answer.hookCallsOfAll, ih, List.flatMap_cons]

theorem Answer.hookCalls_eq (answer : Answer) :
    answer.hookCalls route = answer.calls.flatMap (Call.hookCalls route) := by
  obtain ⟨step, result, calls, pushes⟩ := answer
  rw [Answer.hookCalls, Call.hookCallsOfAll_eq]

theorem Call.hookCalls_eq (call : Call Answer) :
    call.hookCalls route = call.steps.flatMap (Answer.hookCalls route) ++
      if call.invocation.isHookOf route then [call] else [] := by
  obtain ⟨invocation, steps, fault⟩ := call
  rw [Call.hookCalls, Answer.hookCallsOfAll_eq]

end

/-- These are the calls that invocations of the lifecycle make in turn, and this is what they
leave. -/
inductive Lifecycle.InTurn (route id : String) :
    Lifecycle Step → List (Call Answer) → Lifecycle Step → Prop
  | done {l} : InTurn route id l [] l
  | invoke {l told l'} (params : Value) (h : InTurn route id l.next told l') :
    InTurn route id l (l.attempt route id params :: told) l'

namespace Lifecycle.InTurn

variable {route id : String} {l l' l'' : Lifecycle Step} {told told' : List (Call Answer)}

theorem append (h : InTurn route id l told l') (h' : InTurn route id l' told' l'') :
    InTurn route id l (told ++ told') l'' := by
  induction h with
  | done => exact h'
  | invoke params _ ih => exact .invoke params (ih h')

theorem eq_after (h : InTurn route id l told l') : l' = l.after told.length := by
  induction h with
  | done => rfl
  | invoke params _ ih => exact ih

theorem exists_attempt (h : InTurn route id l told l') {k : Nat} {call : Call Answer}
    (hcall : told[k]? = some call) : ∃ params, call = (l.after k).attempt route id params := by
  induction h generalizing k with
  | done => cases hcall
  | invoke params _ ih =>
    cases k with
    | zero =>
      cases hcall
      exact ⟨params, rfl⟩
    | succ k => exact ih hcall

end Lifecycle.InTurn

namespace Session

open NamedRoutes.Action

/-- An idle lifecycle is stored for the route. -/
def Stands (route id : String) (s : Session) : Prop :=
  ∃ l, s.stage.lifecycles.get? route = some l ∧ l.Idle ∧ l.id = some id

/-- Nothing has been done to the lifecycle of the route, and no call has been recorded. -/
structure Aside (route : String) (s t : Session) : Prop where
  precedes : Precedes s t
  lifecycle : t.stage.lifecycles.get? route = s.stage.lifecycles.get? route
  calls : t.stage.calls = s.stage.calls

/-- From `s` to `t` steps were run in turn, with these answers, and these calls of the hooks of the
route were made. Beside the steps, only invocations have done anything to its lifecycle. -/
inductive Course (run : Runner) (route id : String) (s : Session) :
    List (Call Answer) → List Answer → Session → Prop
  | start : Course run route id s [] [] s
  | aside {told answers t u} (h : Course run route id s told answers t) (hprecedes : Precedes t u)
      (hl : u.stage.lifecycles.get? route = t.stage.lifecycles.get? route) :
    Course run route id s told answers u
  | step {told answers t} (step : Step) (h : Course run route id s told answers t) :
    Course run route id s (told ++ (run step t).1.hookCalls route)
      (answers ++ [(run step t).1]) (run step t).2
  | invoke {told answers t l} (params : Value) (h : Course run route id s told answers t)
      (hl : t.stage.lifecycles.get? route = some l) (hidle : l.Idle) (hid : l.id = some id) :
    Course run route id s (told ++ [l.attempt route id params]) answers
      (t.invoked route id l params)

/-- From `s` to `t` the calls told are those of invocations in turn. -/
def Follows (route id : String) (s : Session) (told : List (Call Answer)) (t : Session) : Prop :=
  ∀ l, s.stage.lifecycles.get? route = some l → l.Idle → l.id = some id →
    ∃ l', t.stage.lifecycles.get? route = some l' ∧ l.InTurn route id told l'

variable {s t u : Session} {run : Runner} {route id : String} {l : Lifecycle Step}
  {told told' : List (Call Answer)} {answers answers' : List Answer}

theorem get?_invoked (s : Session) (l : Lifecycle Step) (params : Value) :
    (s.invoked route id l params).stage.lifecycles.get? route = some l.next := by
  rw [invoked, OrderedMap.get?_insert, if_pos rfl]

theorem Course.trans (h : Course run route id s told answers t)
    (h' : Course run route id t told' answers' u) :
    Course run route id s (told ++ told') (answers ++ answers') u := by
  induction h' with
  | start =>
    rw [List.append_nil, List.append_nil]
    exact h
  | aside _ hprecedes hl ih => exact ih.aside hprecedes hl
  | step step _ ih =>
    rw [← List.append_assoc, ← List.append_assoc]
    exact ih.step step
  | invoke params _ hl hidle hid ih =>
    rw [← List.append_assoc]
    exact ih.invoke params hl hidle hid

theorem Course.precedes (h : Course run route id s told answers t)
    (hrun : ∀ step s, Precedes s (run step s).2) : Precedes s t := by
  induction h with
  | start => exact .refl s
  | aside _ hprecedes _ ih => exact ih.trans hprecedes
  | step step _ ih => exact ih.trans (hrun step _)
  | invoke params _ _ _ _ ih => exact ih.trans (precedes_restage _ _)

theorem follows_refl (s : Session) : Follows route id s [] s := fun l hl _ _ => ⟨l, hl, .done⟩

theorem Follows.trans (h : Follows route id s told t) (h' : Follows route id t told' u) :
    Follows route id s (told ++ told') u := by
  intro l hl hidle hid
  obtain ⟨l', hl', hturn⟩ := h l hl hidle hid
  have hafter := hturn.eq_after
  obtain ⟨l'', hl'', hturn'⟩ :=
    h' l' hl' (hafter ▸ hidle.after _) (by rw [hafter, l.id_after, hid])
  exact ⟨l'', hl'', hturn.append hturn'⟩

theorem Follows.stands (h : Follows route id s told t) (hs : Stands route id s) :
    Stands route id t := by
  obtain ⟨l, hl, hidle, hid⟩ := hs
  obtain ⟨l', hl', hturn⟩ := h l hl hidle hid
  exact ⟨l', hl', hturn.eq_after ▸ hidle.after _, by rw [hturn.eq_after, l.id_after, hid]⟩

/-- In a course the calls that are told are those of invocations in turn. -/
theorem Course.follows (h : Course run route id s told answers t)
    (hrun : ∀ step s, Follows route id s ((run step s).1.hookCalls route) (run step s).2) :
    Follows route id s told t := by
  induction h with
  | start => exact follows_refl s
  | aside _ _ hsame ih =>
    intro l hl hidle hid
    obtain ⟨l', hl', hturn⟩ := ih l hl hidle hid
    exact ⟨l', by rw [hsame, hl'], hturn⟩
  | step step _ ih => exact ih.trans (hrun step _)
  | @invoke _ _ t m params _ hm _ _ ih =>
    refine ih.trans fun l hl _ _ => ?_
    cases hm.symm.trans hl
    exact ⟨m.next, get?_invoked t m params, .invoke params .done⟩

/-- Each of the answers was given in a session to which those before it lead, and those after it
lead on. -/
theorem Course.exists_run (h : Course run route id s told answers t) {answer : Answer}
    (hanswer : answer ∈ answers) :
    ∃ step u before after answers₁ answers₂, (run step u).1 = answer ∧
      told = before ++ answer.hookCalls route ++ after ∧ Course run route id s before answers₁ u ∧
      Course run route id (run step u).2 after answers₂ t := by
  induction h with
  | start => cases hanswer
  | aside _ hprecedes hl ih =>
    obtain ⟨step, v, before, after, answers₁, answers₂, hrun, hsplit, hv, ht⟩ := ih hanswer
    exact ⟨step, v, before, after, answers₁, answers₂, hrun, hsplit, hv, ht.aside hprecedes hl⟩
  | @step told answers t step h ih =>
    rcases List.mem_append.1 hanswer with hanswer | hanswer
    · obtain ⟨step', v, before, after, answers₁, answers₂, hrun, rfl, hv, ht⟩ := ih hanswer
      exact ⟨step', v, before, _, answers₁, _, hrun, List.append_assoc _ _ _, hv, ht.step step⟩
    · cases List.mem_singleton.1 hanswer
      exact ⟨step, t, told, [], answers, [], rfl, by rw [List.append_nil], h, .start⟩
  | invoke params _ hl hidle hid ih =>
    obtain ⟨step, v, before, after, answers₁, answers₂, hrun, rfl, hv, ht⟩ := ih hanswer
    exact ⟨step, v, before, _, answers₁, _, hrun, List.append_assoc _ _ _, hv,
      ht.invoke params hl hidle hid⟩

instance (route : String) : IsPreorder Session (Aside route) where
  refl s := ⟨.refl s, rfl, rfl⟩
  trans _ _ _ h h' :=
    ⟨h.precedes.trans h'.precedes, h'.lifecycle.trans h.lifecycle, h'.calls.trans h.calls⟩

theorem aside_setLifecycle {name : String} (hname : name ≠ route) (l : Lifecycle Step) :
    Moves (Aside route) (setLifecycle name l) := by
  intro s
  refine ⟨precedes_restage s _, ?_, rfl⟩
  rw [get?_setLifecycle, if_neg (Ne.symm hname)]

theorem precedes_keeping (s : Session) (visits : List Visit) : Precedes s (s.keeping visits) :=
  ⟨rfl, rfl, rfl, rfl, List.prefix_rfl, List.prefix_append _ _⟩

/-- From `s` to `t` calls have been recorded, and these tell what has happened to an idle lifecycle
of the route. -/
def Courses (run : Runner) (route id : String) (s t : Session) : Prop :=
  Stands route id s → Stands route id t ∧ ∃ calls, t.stage.calls = s.stage.calls ++ calls ∧
    Course run route id s (calls.flatMap (Call.hookCalls route)) (calls.flatMap Call.steps) t

instance (run : Runner) (route id : String) : IsPreorder Session (Courses run route id) where
  refl s hs := ⟨hs, [], by rw [List.append_nil], .start⟩
  trans := by
    intro s t u h h' hs
    obtain ⟨ht, calls, hcalls, hcourse⟩ := h hs
    obtain ⟨hu, calls', hcalls', hcourse'⟩ := h' ht
    refine ⟨hu, calls ++ calls', by rw [hcalls', hcalls, List.append_assoc], ?_⟩
    rw [List.flatMap_append, List.flatMap_append]
    exact hcourse.trans hcourse'

theorem Aside.courses (h : Aside route s t) : Courses run route id s t := by
  rintro ⟨l, hl, hidle⟩
  refine ⟨⟨l, by rw [h.lifecycle, hl], hidle⟩, [], by rw [h.calls, List.append_nil], ?_⟩
  exact Course.start.aside h.precedes h.lifecycle

theorem courses_invoked (params : Value) (hl : s.stage.lifecycles.get? route = some l)
    (hidle : l.Idle) (hid : l.id = some id) :
    Courses run route id s (s.invoked route id l params) := by
  intro _
  refine ⟨⟨l.next, get?_invoked s l params, hidle.next, l.id_next.trans hid⟩,
    [l.attempt route id params], rfl, ?_⟩
  have hcalls : [l.attempt route id params].flatMap (Call.hookCalls route) =
      [l.attempt route id params] := by
    rw [List.flatMap_singleton, Call.hookCalls_eq]
    simp [Lifecycle.attempt, Invocation.isHookOf]
  rw [hcalls]
  exact Course.start.invoke params hl hidle hid

section

variable (htally : ∀ step s, Tally step s (run step s).1 (run step s).2)
  (hstands : ∀ step s, Stands route id s → Stands route id (run step s).2)

include htally hstands

theorem course_runSteps (stopAtFault : Bool) (steps : List Step) (hs : Stands route id s) :
    let r := runSteps run stopAtFault steps s
    Course run route id s (r.1.1.flatMap (Answer.hookCalls route)) r.1.1 r.2 ∧
      r.2.stage.calls = s.stage.calls ∧ Stands route id r.2 := by
  induction steps generalizing s with
  | nil => exact ⟨.start, rfl, hs⟩
  | cons step rest ih =>
    have hstep : Course run route id s _ [(run step s).1] (run step s).2 := Course.start.step step
    have hcalls := (htally step s).calls
    have hnext := hstands step s hs
    obtain ⟨hcourse, hkept, hlast⟩ := ih hnext
    rw [runSteps_cons]
    split <;> dsimp only
    · -- a fault has stopped the steps here
      rw [List.flatMap_singleton]
      exact ⟨hstep, hcalls, hnext⟩
    · rw [List.flatMap_cons]
      exact ⟨hstep.trans hcourse, hkept.trans hcalls, hlast⟩

theorem courses_carryOut (stopAtFault : Bool) {invocation : Invocation}
    (hother : invocation.isHookOf route = false) (steps : List Step)
    {ending : Action Session Unit} (hending : Moves (Aside route) ending) :
    Moves (Courses run route id) (carryOut run stopAtFault invocation steps ending) := by
  intro s hs
  have hrecord : ∀ {t : Session} {answers : List Answer} (fault : Option Fault),
      Course run route id s (answers.flatMap (Answer.hookCalls route)) answers t →
      t.stage.calls = s.stage.calls → Stands route id t →
      let u := (record ⟨invocation, answers, fault⟩ t).2
      Stands route id u ∧ ∃ calls, u.stage.calls = s.stage.calls ++ calls ∧
        Course run route id s (calls.flatMap (Call.hookCalls route)) (calls.flatMap Call.steps)
          u := by
    intro t answers fault hcourse hcalls ht
    refine ⟨ht, [⟨invocation, answers, fault⟩], by rw [record_apply, hcalls], ?_⟩
    rw [List.flatMap_singleton, List.flatMap_singleton, Call.hookCalls_eq, hother,
      if_neg Bool.false_ne_true, List.append_nil]
    exact hcourse.aside (precedes_restage t _) rfl
  obtain ⟨hcourse, hcalls, ht⟩ := course_runSteps htally hstands stopAtFault steps hs
  rw [carryOut_apply]
  rcases hr : runSteps run stopAtFault steps s with ⟨⟨answers, _ | fault⟩, t⟩ <;>
    rw [hr] at hcourse hcalls ht
  · have hend := hending t
    obtain ⟨l, hl, hidle⟩ := ht
    exact hrecord _ (hcourse.aside hend.precedes hend.lifecycle) (hend.calls.trans hcalls)
      ⟨l, hend.lifecycle.trans hl, hidle⟩
  · exact hrecord _ hcourse hcalls ht

theorem courses_callHook {name : String} (hname : name ≠ route) (hook : Hook) (params : Value) :
    Moves (Courses run route id) (callHook run hook name params) :=
  moves_callHook (fun l => (aside_setLifecycle hname l).mono Aside.courses) fun _ steps =>
    courses_carryOut htally hstands true (by simpa [Invocation.isHookOf] using hname) steps
      (moves_takeOutcome (aside_setLifecycle hname) hook)

theorem courses_invoke (name : String) (params : Value) :
    Moves (Courses run route id) (invoke run name params) := by
  by_cases hname : name = route
  · subst hname
    intro s hs
    obtain ⟨l, hl, hidle, hid⟩ := hs
    rw [invoke_of_idle run params hl hidle hid]
    exact courses_invoked params hl hidle hid ⟨l, hl, hidle, hid⟩
  · exact moves_invoke (fun l => (aside_setLifecycle hname l).mono Aside.courses) fun hook =>
      courses_callHook htally hstands hname hook params

theorem courses_callScript (serial : Nat) (script : Script Step) (params : Params) :
    Moves (Courses run route id) (callScript run serial script params) := by
  refine moves_callScript (fun s => Aside.courses ⟨precedes_restage s _, rfl, rfl⟩)
    fun steps ending hending => courses_carryOut htally hstands _ rfl steps fun s => ?_
  rw [hending s]
  exact refl_of (Aside route) s

theorem courses_runCallbacks (callbacks : List (Callback Step)) (params : Params) :
    Moves (Courses run route id) (App.runCallbacks (call run) callbacks params) :=
  moves_runCallbacks (moves_call (courses_invoke htally hstands)
    (courses_callScript htally hstands)) callbacks params

theorem courses_of_callsInTurn {callbacks called : List (Callback Step)} {given : Params}
    {outcome : Except Fault Params}
    (h : App.CallsInTurn (call run) callbacks given s called outcome t) :
    Courses run route id s t := by
  have hmoves := courses_runCallbacks htally hstands callbacks given s
  rwa [h.runCallbacks_eq] at hmoves

theorem courses_go (target : String) (params : Params) (updateUrl : Bool) :
    Moves (Courses run route id) (App.go (call run) target params updateUrl) := by
  intro s
  rcases App.go_cases (call run) target params updateUrl s with ⟨r, given, push, h⟩ | ⟨-, hgo⟩
  · obtain ⟨called, outcome, t, hcalls⟩ := App.exists_callsInTurn (call run) r.callbacks given s
    have ht := courses_of_callsInTurn htally hstands hcalls
    rcases App.go_fails_or_arrives h hcalls with ⟨fault, hgo⟩ | ⟨arrived, -, hgo⟩ <;> rw [hgo]
    · exact ht
    · exact trans_of (Courses run route id) ht (Aside.courses ⟨precedes_keeping t _, rfl, rfl⟩)
  · rw [hgo]
    exact refl_of (Courses run route id) s

omit hstands in
theorem precedes_perform (step : Step) (s : Session) : Precedes s (perform run step s).2 := by
  obtain ⟨calls, own, u, hu, hperform, -⟩ := pushesLast_perform htally step s
  rw [hperform]
  exact hu.precedes.trans (precedes_keeping u own)

theorem courses_perform (step : Step) : Moves (Courses run route id) (perform run step) := by
  intro s
  have hsame : Courses run route id s s := refl_of (Courses run route id) s
  cases hcalm : step.isCalm with
  | true =>
    have huntouched := untouched_perform run hcalm s
    exact Aside.courses ⟨precedes_perform htally step s, by rw [huntouched.lifecycles],
      huntouched.calls⟩
  | false =>
    cases step with
    | go target params updateUrl =>
      rw [perform_go]
      exact courses_go htally hstands target params updateUrl s
    | invoke handle params =>
      rw [perform_invoke]
      cases s.stage.handles.get? handle with
      | none => exact hsame
      | some name => exact courses_invoke htally hstands name params s
    | enroll name handle lifecycle =>
      rintro ⟨l, hl, hidle⟩
      have hkept : (perform run (.enroll name handle lifecycle) s).2.stage.lifecycles.get? route =
          some l := by rw [perform_enroll, get?_enroll, hl, Option.some_or]
      exact Aside.courses ⟨precedes_restage s _, hkept.trans hl.symm, rfl⟩ ⟨l, hl, hidle⟩
    | lifecycle name => exact hsame
    | _ => cases hcalm

theorem course_answer (step : Step) (hs : Stands route id s) :
    let r := answer step (perform run step) s
    Course run route id s (r.1.hookCalls route) r.1.nested r.2 := by
  obtain ⟨-, calls, hcalls, hcourse⟩ :=
    courses_perform htally hstands step { s with stage.calls := [] } hs
  have hfresh : Course run route id s [] [] { s with stage.calls := [] } :=
    Course.start.aside (precedes_restage s _) rfl
  rw [answer_apply]
  dsimp only
  rw [Answer.hookCalls_eq, Answer.nested, hcalls]
  exact (hfresh.trans hcourse).aside (precedes_restage _ _) rfl

end

theorem follows_exec (depth : Nat) (step : Step) (s : Session) :
    Follows route id s ((exec depth step s).1.hookCalls route) (exec depth step s).2 := by
  induction depth generalizing step s with
  | zero => exact follows_refl s
  | succ depth ih =>
    intro l hl hidle hid
    have hcourse := course_answer (tally_exec depth) (fun step s => (ih step s).stands) step
      ⟨l, hl, hidle, hid⟩
    exact hcourse.follows ih l hl hidle hid

theorem course_exec (depth : Nat) (step : Step) (hs : Stands route id s) :
    Course (exec depth) route id s ((exec (depth + 1) step s).1.hookCalls route)
      (exec (depth + 1) step s).1.nested (exec (depth + 1) step s).2 :=
  course_answer (tally_exec depth) (fun step s => (follows_exec depth step s).stands) step hs

theorem course_execAll (depth : Nat) (steps : List Step) (s : Session) :
    let r := execAll depth steps s
    Course (exec depth) route id s (r.1.flatMap (Answer.hookCalls route)) r.1 r.2 := by
  induction steps generalizing s with
  | nil => exact .start
  | cons step rest ih => exact (Course.start.step step).trans (ih _)

/-- Between `s` and `t`, where this is told, the answer was given. What is told before it has led to
the session in which its step was run. -/
def GivenAmid (route id : String) (s : Session) (told : List (Call Answer)) (t : Session)
    (b : Answer) : Prop :=
  ∃ d u before after, RanIn (exec d) s t u b ∧ Follows route id s before u ∧
    told = before ++ b.hookCalls route ++ after

theorem givenAmid_itself (depth : Nat) (step : Step) (s : Session) :
    GivenAmid route id s ((exec depth step s).1.hookCalls route) (exec depth step s).2
      (exec depth step s).1 := by
  refine ⟨depth, s, [], [], ⟨.refl s, ?_, ?_⟩, follows_refl s, by simp⟩ <;>
    rw [(tally_exec depth step s).step_eq]

theorem givenAmid_of_course {depth : Nat} {b c : Answer}
    (h : Course (exec depth) route id s told answers t) (hs : Stands route id s)
    (hc : c ∈ answers) (hb : b.Within c)
    (hstep : ∀ step u, b.Within (exec depth step u).1 → Stands route id u →
      GivenAmid route id u ((exec depth step u).1.hookCalls route) (exec depth step u).2 b) :
    GivenAmid route id s told t b := by
  have hprecedes : ∀ step s, Precedes s (exec depth step s).2 :=
    fun step s => (tally_exec depth step s).precedes
  obtain ⟨step, u, before, after, _, _, rfl, rfl, hu, ht⟩ := h.exists_run hc
  have hbefore := hu.follows (follows_exec depth)
  obtain ⟨d, v, before', after', hv, hbefore', htold⟩ := hstep step u hb (hbefore.stands hs)
  refine ⟨d, v, before ++ before', after' ++ after,
    hv.mono (hu.precedes hprecedes) (ht.precedes hprecedes), hbefore.trans hbefore', ?_⟩
  rw [htold]
  simp

/-- Every answer within the answer of a step was given amid what this tells. -/
theorem givenAmid_exec (depth : Nat) (step : Step) {b : Answer}
    (hb : b.Within (exec depth step s).1) (hs : Stands route id s) :
    GivenAmid route id s ((exec depth step s).1.hookCalls route) (exec depth step s).2 b := by
  induction depth generalizing step s with
  | zero =>
    cases hb with
    | itself => exact givenAmid_itself 0 step s
    | nested hc _ => cases hc
  | succ depth ih =>
    cases hb with
    | itself => exact givenAmid_itself (depth + 1) step s
    | nested hc hb =>
      exact givenAmid_of_course (course_exec depth step hs) hs hc hb fun step u hb hu =>
        ih step hb hu

end Session

end NamedRoutes
