import Mathlib.Order.Defs.Unbundled
import NamedRoutes.Session.Run

/-!
# What happens between nested steps

While a step calls callbacks and hooks, nothing but the stage of the session changes, except by the
steps that these run. They are run in the order in which their answers stand in the calls, each of
them in the session that the one before has left.
-/
namespace NamedRoutes.Session

open NamedRoutes.Action

/-- From `s` to `t` steps were run in turn, with these answers. Between them nothing but the stage
has changed. -/
inductive Passes (run : Runner) (s : Session) : List Answer → Session → Prop
  | start : Passes run s [] s
  | restage {answers : List Answer} {t : Session} (stage : Stage) (h : Passes run s answers t) :
    Passes run s answers { t with stage }
  | step {answers : List Answer} {t : Session} (step : Step) (h : Passes run s answers t) :
    Passes run s (answers ++ [(run step t).1]) (run step t).2

variable {s t u : Session} {run : Runner} {answers answers' : List Answer}

theorem Passes.trans (h : Passes run s answers t) (h' : Passes run t answers' u) :
    Passes run s (answers ++ answers') u := by
  induction h' with
  | start =>
    rw [List.append_nil]
    exact h
  | restage stage _ ih => exact ih.restage stage
  | step step _ ih =>
    rw [← List.append_assoc]
    exact ih.step step

/-- Each of the answers was given in a session to which those before it lead, and those after it
lead on. -/
theorem Passes.exists_run (h : Passes run s answers t) {answer : Answer}
    (hanswer : answer ∈ answers) :
    ∃ step u before after, (run step u).1 = answer ∧ answers = before ++ answer :: after ∧
      Passes run s before u ∧ Passes run (run step u).2 after t := by
  induction h with
  | start => cases hanswer
  | restage stage _ ih =>
    obtain ⟨step, u, before, after, hrun, hsplit, hu, ht⟩ := ih hanswer
    exact ⟨step, u, before, after, hrun, hsplit, hu, ht.restage stage⟩
  | @step answers t step h ih =>
    rcases List.mem_append.1 hanswer with hanswer | hanswer
    · obtain ⟨step', u, before, after, hrun, rfl, hu, ht⟩ := ih hanswer
      exact ⟨step', u, before, after ++ [(run step t).1], hrun, by simp, hu, ht.step step⟩
    · cases List.mem_singleton.1 hanswer
      exact ⟨step, t, answers, [], rfl, rfl, h, .start⟩

theorem passes_execAll (depth : Nat) (steps : List Step) (s : Session) :
    Passes (exec depth) s (execAll depth steps s).1 (execAll depth steps s).2 := by
  induction steps generalizing s with
  | nil => exact .start
  | cons step rest ih => exact (Passes.start.step step).trans (ih _)

section

variable {α β : Type} {R R' : Session → Session → Prop}

/-- An action that leads to related sessions, whether it fails or not. -/
def Moves (R : Session → Session → Prop) (a : Action Session α) : Prop := ∀ s, R s (a s).2

theorem Moves.mono {a : Action Session α} (h : ∀ {s t}, R s t → R' s t) (ha : Moves R a) :
    Moves R' a :=
  fun s => h (ha s)

theorem moves_get_bind {f : Session → Action Session α} (h : ∀ x, Moves R (f x)) :
    Moves R (get >>= f) :=
  fun s => h s s

theorem Moves.mapFault {a : Action Session α} (f : Fault → Fault) (ha : Moves R a) :
    Moves R (Action.mapFault f a) := by
  intro s
  rw [Action.mapFault_apply]
  exact ha s

variable [IsPreorder Session R]

theorem moves_pure (x : α) : Moves R (pure x) := fun s => refl_of R s

theorem moves_throw (fault : Fault) : Moves R (throw fault : Action Session α) :=
  fun s => refl_of R s

theorem Moves.bind {a : Action Session α} {f : α → Action Session β} (ha : Moves R a)
    (hf : ∀ x, Moves R (f x)) : Moves R (a >>= f) := by
  intro s
  have h := ha s
  rw [Action.bind_apply]
  rcases hr : a s with ⟨r | r, t⟩ <;> rw [hr] at h
  · exact h
  · exact trans_of R h (hf r t)

theorem moves_failWith (fault : Option Fault) : Moves R (Action.failWith fault) := by
  intro s
  rw [Action.failWith_apply]
  exact refl_of R s

theorem moves_lifecycle? (route : String) : Moves R (lifecycle? route) :=
  moves_get_bind fun _ => moves_pure _

theorem moves_takeOutcome {route : String} (hset : ∀ l, Moves R (setLifecycle route l))
    (hook : Hook) : Moves R (takeOutcome hook route) := by
  refine (moves_lifecycle? route).bind fun found => ?_
  cases found with
  | none => exact moves_pure ()
  | some l =>
    cases houtcomes : (l.plan hook).outcomes with
    | nil =>
      simp only [houtcomes]
      exact moves_pure ()
    | cons outcome rest =>
      simp only [houtcomes]
      exact (hset _).bind fun _ => moves_failWith _

theorem moves_markInitialized {route : String} (hset : ∀ l, Moves R (setLifecycle route l)) :
    Moves R (markInitialized route) := by
  refine (moves_lifecycle? route).bind fun found => ?_
  cases found with
  | none => exact moves_pure ()
  | some l => exact hset _

variable {run : Runner}

theorem moves_callScript {serial : Nat} {script : Script Step} {params : Params}
    (hcalled : Moves R (modify fun s => { s with stage.called := serial :: s.stage.called }))
    (hcarry : ∀ steps ending, (∀ s, (ending s).2 = s) →
      Moves R (carryOut run script.propagate (.callback script.id params) steps ending)) :
    Moves R (callScript run serial script params) := by
  refine moves_get_bind fun s => hcalled.bind fun _ => Moves.bind ?_ fun _ => moves_pure _
  refine hcarry _ _ fun s => ?_
  rw [Action.failWith_apply]

theorem moves_callHook {hook : Hook} {route : String} {params : Value}
    (hset : ∀ l, Moves R (setLifecycle route l))
    (hcarry : ∀ id steps, Moves R
      (carryOut run true (.hook hook route id params) steps (takeOutcome hook route))) :
    Moves R (callHook run hook route params) := by
  refine (moves_lifecycle? route).bind fun found => ?_
  cases found with
  | none => exact moves_pure ()
  | some l =>
    cases hid : l.id with
    | none =>
      simp only [hid]
      exact moves_pure ()
    | some id =>
      simp only [hid]
      exact (hset _).bind fun _ => hcarry id _

theorem moves_invoke {route : String} {params : Value}
    (hset : ∀ l, Moves R (setLifecycle route l))
    (hhook : ∀ hook, Moves R (callHook run hook route params)) :
    Moves R (invoke run route params) := by
  refine (moves_lifecycle? route).bind fun found => ?_
  cases found with
  | none => exact moves_pure ()
  | some l =>
    cases hflag : l.initialized with
    | true =>
      simp only [hflag, if_true]
      exact hhook .revisit
    | false =>
      simp only [hflag]
      exact ((hhook .firstVisit).mapFault _).bind fun _ => moves_markInitialized hset

theorem moves_call (hinvoke : ∀ route params, Moves R (invoke run route params))
    (hscript : ∀ serial script params, Moves R (callScript run serial script params))
    (callback : Callback Step) (params : Params) : Moves R (call run callback params) := by
  cases callback with
  | value v => exact moves_throw _
  | invoker route => exact (hinvoke route params.toValue).bind fun _ => moves_pure _
  | script serial script => exact hscript serial script params

theorem moves_runCallbacks (hcall : ∀ callback params, Moves R (call run callback params))
    (callbacks : List (Callback Step)) (params : Params) :
    Moves R (App.runCallbacks (call run) callbacks params) := by
  induction callbacks generalizing params with
  | nil => exact moves_pure params
  | cons callback rest ih => exact (hcall callback params).bind fun r => ih _

end

/-- Only the stage has changed, and no call has been recorded. -/
def Restaged (s t : Session) : Prop :=
  ∃ stage : Stage, t = { s with stage } ∧ stage.calls = s.stage.calls

instance : IsPreorder Session Restaged where
  refl s := ⟨s.stage, rfl, rfl⟩
  trans := by
    rintro s _ _ ⟨stage, rfl, hcalls⟩ ⟨stage', rfl, hcalls'⟩
    exact ⟨stage', rfl, hcalls'.trans hcalls⟩

theorem restaged_setLifecycle (route : String) (l : Lifecycle Step) :
    Moves Restaged (setLifecycle route l) :=
  fun _ => ⟨_, rfl, rfl⟩

theorem restaged_takeOutcome (hook : Hook) (route : String) :
    Moves Restaged (takeOutcome hook route) :=
  moves_takeOutcome (restaged_setLifecycle route) hook

theorem restaged_enroll (name handle : String) (lifecycle : Lifecycle Step) :
    Moves Restaged (enroll name handle lifecycle) :=
  Moves.bind (fun _ => ⟨_, rfl, rfl⟩) fun _ => moves_lifecycle? name

/-- From `s` to `t` calls were recorded, and only the steps that they ran have changed more than the
stage. -/
def Recorded (run : Runner) (s t : Session) : Prop :=
  ∃ calls, t.stage.calls = s.stage.calls ++ calls ∧ Passes run s (calls.flatMap Call.steps) t

theorem Restaged.recorded (h : Restaged s t) : Recorded run s t := by
  obtain ⟨stage, rfl, hcalls⟩ := h
  exact ⟨[], by rw [hcalls, List.append_nil], Passes.start.restage stage⟩

instance (run : Runner) : IsPreorder Session (Recorded run) where
  refl s := (refl_of Restaged s).recorded
  trans := by
    rintro s t u ⟨calls, hcalls, hpasses⟩ ⟨calls', hcalls', hpasses'⟩
    refine ⟨calls ++ calls', by rw [hcalls', hcalls, List.append_assoc], ?_⟩
    rw [List.flatMap_append]
    exact hpasses.trans hpasses'

theorem Passes.recorded (h : Passes run s answers t) (hcalls : t.stage.calls = s.stage.calls)
    (invocation : Invocation) (fault : Option Fault) :
    Recorded run s (record ⟨invocation, answers, fault⟩ t).2 := by
  refine ⟨[⟨invocation, answers, fault⟩], by rw [record_apply, hcalls], ?_⟩
  rw [List.flatMap_singleton]
  exact h.restage _

variable (hrun : ∀ step s, (run step s).2.stage.calls = s.stage.calls)

include hrun

theorem passes_runSteps (stopAtFault : Bool) (steps : List Step) (s : Session) :
    Passes run s (runSteps run stopAtFault steps s).1.1 (runSteps run stopAtFault steps s).2 ∧
      (runSteps run stopAtFault steps s).2.stage.calls = s.stage.calls := by
  induction steps generalizing s with
  | nil => exact ⟨.start, rfl⟩
  | cons step rest ih =>
    have hstep : Passes run s [(run step s).1] (run step s).2 := Passes.start.step step
    obtain ⟨hpasses, hcalls⟩ := ih (run step s).2
    rw [runSteps_cons]
    split
    · -- a fault has stopped the steps here
      exact ⟨hstep, hrun step s⟩
    · exact ⟨hstep.trans hpasses, hcalls.trans (hrun step s)⟩

theorem recorded_carryOut (stopAtFault : Bool) (invocation : Invocation) (steps : List Step)
    {ending : Action Session Unit} (hending : Moves Restaged ending) :
    Moves (Recorded run) (carryOut run stopAtFault invocation steps ending) := by
  intro s
  obtain ⟨hpasses, hcalls⟩ := passes_runSteps hrun stopAtFault steps s
  rw [carryOut_apply]
  rcases hr : runSteps run stopAtFault steps s with ⟨⟨answers, _ | fault⟩, t⟩ <;>
    rw [hr] at hpasses hcalls
  · -- the ending only rewrites the stage, so that nothing comes between the steps and the record
    dsimp only
    obtain ⟨stage, hend, hstage⟩ := hending t
    rw [hend]
    exact (hpasses.restage stage).recorded (hstage.trans hcalls) invocation _
  · exact hpasses.recorded hcalls invocation _

theorem recorded_callScript (serial : Nat) (script : Script Step) (params : Params) :
    Moves (Recorded run) (callScript run serial script params) := by
  refine moves_callScript (fun _ => Restaged.recorded ⟨_, rfl, rfl⟩) fun steps ending hending => ?_
  refine recorded_carryOut hrun _ _ steps fun s => ?_
  rw [hending s]
  exact refl_of Restaged s

theorem recorded_callHook (hook : Hook) (route : String) (params : Value) :
    Moves (Recorded run) (callHook run hook route params) :=
  moves_callHook (fun l => (restaged_setLifecycle route l).mono Restaged.recorded) fun _ steps =>
    recorded_carryOut hrun _ _ steps (restaged_takeOutcome hook route)

theorem recorded_invoke (route : String) (params : Value) :
    Moves (Recorded run) (invoke run route params) :=
  moves_invoke (fun l => (restaged_setLifecycle route l).mono Restaged.recorded) fun hook =>
    recorded_callHook hrun hook route params

theorem recorded_call (callback : Callback Step) (params : Params) :
    Moves (Recorded run) (call run callback params) :=
  moves_call (recorded_invoke hrun) (recorded_callScript hrun) callback params

theorem recorded_runCallbacks (callbacks : List (Callback Step)) (params : Params) :
    Moves (Recorded run) (App.runCallbacks (call run) callbacks params) :=
  moves_runCallbacks (recorded_call hrun) callbacks params

end NamedRoutes.Session
