import NamedRoutes.Proofs.Session.History

/-!
# Where the steps of a run come from

A run comes to no steps but those that it was given and those that stand in the callbacks and
lifecycles of these, however deep. What holds throughout the steps that are given holds of every
step that is answered, wherever its answer stands.
-/
namespace NamedRoutes

def Answer.Heeds (P : Step → Prop) (a : Answer) : Prop := ∀ b : Answer, b.Within a → P b.step

theorem Answer.heeds_iff {P : Step → Prop} {a : Answer} :
    a.Heeds P ↔ P a.step ∧ ∀ c ∈ a.nested, c.Heeds P := by
  refine ⟨fun h => ⟨h a .itself, fun c hc b hb => h b (.nested hc hb)⟩, fun h b hb => ?_⟩
  cases hb with
  | itself => exact h.1
  | nested hc hb => exact h.2 _ hc b hb

namespace Session

open NamedRoutes.Action

variable {P : Step → Prop} {s t : Session} {run : Runner}

/-- All steps that are answered in the calls recorded so far have the property. -/
def LogHeeds (P : Step → Prop) (s : Session) : Prop :=
  ∀ a ∈ s.stage.calls.flatMap Call.steps, a.Heeds P

theorem LogHeeds.of_calls_eq (h : LogHeeds P s) (hcalls : t.stage.calls = s.stage.calls) :
    LogHeeds P t := by
  rw [LogHeeds, hcalls]
  exact h

theorem LogHeeds.record {answers : List Answer} (h : LogHeeds P s)
    (hanswers : ∀ a ∈ answers, a.Heeds P) (invocation : Invocation) (fault : Option Fault) :
    LogHeeds P (record ⟨invocation, answers, fault⟩ s).2 := by
  intro a ha
  rw [record_apply, List.flatMap_append, List.flatMap_singleton, List.mem_append] at ha
  rcases ha with ha | ha
  · exact h a ha
  · exact hanswers a ha

theorem congruence_logHeeds (P : Step → Prop) :
    Congruence fun s t => s = t ∧ LogHeeds P s :=
  congruence_of_quietly fun h htu => h.of_calls_eq htu.calls

/-- Where all steps that are kept have the property, so have all steps that a step with the property
comes to, and all that are kept afterwards. -/
def StaysWithin (P : Step → Prop) (run : Runner) : Prop :=
  ∀ step, P step → ∀ s, s.Keeps P → (run step s).1.Heeds P ∧ (run step s).2.Keeps P ∧
    (run step s).2.stage.calls = s.stage.calls

variable (hrun : StaysWithin P run)

include hrun

theorem StaysWithin.runSteps (stopAtFault : Bool) {steps : List Step}
    (hsteps : ∀ step ∈ steps, P step) (hs : s.Keeps P) :
    (∀ a ∈ (runSteps run stopAtFault steps s).1.1, a.Heeds P) ∧
      (runSteps run stopAtFault steps s).2.Keeps P ∧
      (runSteps run stopAtFault steps s).2.stage.calls = s.stage.calls := by
  induction steps generalizing s with
  | nil => exact ⟨List.forall_mem_nil _, hs, rfl⟩
  | cons step rest ih =>
    obtain ⟨hstep, hrest⟩ := List.forall_mem_cons.1 hsteps
    obtain ⟨hheeds, hkeeps, hcalls⟩ := hrun step hstep s hs
    obtain ⟨hanswers, hkeeps', hcalls'⟩ := ih hrest hkeeps
    rw [runSteps_cons]
    split
    · exact ⟨List.forall_mem_singleton.2 hheeds, hkeeps, hcalls⟩
    · exact ⟨List.forall_mem_cons.2 ⟨hheeds, hanswers⟩, hkeeps', hcalls'.trans hcalls⟩

theorem StaysWithin.carries : Carries P (fun s t => s = t ∧ LogHeeds P s) run run := by
  rintro stopAtFault invocation steps ending hsteps hending s _ ⟨⟨rfl, hlog⟩, hs⟩
  obtain ⟨hanswers, hkeeps, hcalls⟩ := hrun.runSteps stopAtFault hsteps hs
  rw [carryOut_apply]
  rcases hr : Session.runSteps run stopAtFault steps s with ⟨⟨answers, _ | fault⟩, t⟩ <;>
    rw [hr] at hanswers hkeeps hcalls
  · -- the ending leaves the log as it is, and the answers are recorded behind it
    obtain ⟨-, ⟨-, hlog⟩, hkeeps⟩ :=
      hending _ (congruence_logHeeds P) ⟨⟨rfl, hlog.of_calls_eq hcalls⟩, hkeeps⟩
    exact ⟨.refl _, ⟨rfl, hlog.record hanswers invocation _⟩, hkeeps.callbacks, hkeeps.lifecycles⟩
  · exact ⟨.refl _, ⟨rfl, (hlog.of_calls_eq hcalls).record hanswers invocation _⟩,
      hkeeps.callbacks, hkeeps.lifecycles⟩

theorem StaysWithin.go (target : String) (params : Params) (updateUrl : Bool)
    (hs : s.Keeps P) (hlog : LogHeeds P s) :
    LogHeeds P (perform run (.go target params updateUrl) s).2 ∧
      (perform run (.go target params updateUrl) s).2.Keeps P := by
  rw [perform_go]
  rcases App.go_cases (call run) target params updateUrl s with ⟨route, given, push, h⟩ | ⟨-, hgo⟩
  · obtain ⟨called, outcome, t, hcalls⟩ :=
      App.exists_callsInTurn (call run) route.callbacks given s
    obtain ⟨-, ⟨-, hlog⟩, hkeeps⟩ :=
      simulates_runCallbacks (congruence_logHeeds P) hrun.carries
        (hs.callbacks h.get?_name) given ⟨⟨rfl, hlog⟩, hs⟩
    rw [hcalls.runCallbacks_eq] at hlog hkeeps
    rcases App.go_fails_or_arrives h hcalls with ⟨fault, hgo⟩ | ⟨arrived, -, hgo⟩ <;> rw [hgo]
    · exact ⟨hlog, hkeeps⟩
    · exact ⟨hlog, hkeeps.callbacks, hkeeps.lifecycles⟩
  · rw [hgo]
    exact ⟨hlog, hs⟩

theorem StaysWithin.perform {step : Step} (hnested : ∀ sub ∈ step.nested, P sub)
    (hs : s.Keeps P) (hlog : LogHeeds P s) :
    LogHeeds P (perform run step s).2 ∧ (perform run step s).2.Keeps P := by
  cases hplain : step.isPlain with
  | true =>
    obtain ⟨-, ⟨-, hlog'⟩, hkeeps⟩ :=
      simulates_perform (congruence_logHeeds P) hrun.carries hplain hnested ⟨⟨rfl, hlog⟩, hs⟩
    exact ⟨hlog', hkeeps⟩
  | false =>
    cases step with
    | go target params updateUrl => exact hrun.go target params updateUrl hs hlog
    | push visit =>
      rcases perform_push run visit s with ⟨fault, h⟩ | h <;> rw [h]
      · exact ⟨hlog, hs⟩
      · exact ⟨hlog, hs.callbacks, hs.lifecycles⟩
    | supportsHistory => exact ⟨hlog, hs⟩
    | host => exact ⟨hlog, hs⟩
    | expectPushed url route params =>
      rw [perform_expectPushed]
      exact ⟨hlog, hs⟩
    | expectNoPush =>
      rw [perform_expectNoPush]
      exact ⟨hlog, hs⟩
    | _ => cases hplain

omit hrun

theorem staysWithin_exec (P : Step → Prop) (depth : Nat) :
    StaysWithin (Step.Throughout P) (exec depth) := by
  induction depth with
  | zero =>
    intro step hstep s hs
    rw [exec_zero]
    exact ⟨Answer.heeds_iff.2 ⟨hstep, List.forall_mem_nil _⟩, hs, rfl⟩
  | succ depth ih =>
    intro step hstep s hs
    obtain ⟨hself, hnested⟩ := id hstep
    have hfresh : Keeps (Step.Throughout P) { s with stage.calls := [] } :=
      ⟨hs.callbacks, hs.lifecycles⟩
    obtain ⟨hlog, hkeeps⟩ := ih.perform hnested hfresh (List.forall_mem_nil _)
    rw [exec_succ, answer_apply]
    exact ⟨Answer.heeds_iff.2 ⟨hstep, hlog⟩, ⟨hkeeps.callbacks, hkeeps.lifecycles⟩, rfl⟩

theorem heeds_execAll (depth : Nat) {steps : List Step}
    (hsteps : ∀ step ∈ steps, step.Throughout P) (hs : s.Keeps (Step.Throughout P)) :
    ∀ a ∈ (execAll depth steps s).1, a.Heeds (Step.Throughout P) := by
  induction steps generalizing s with
  | nil => exact List.forall_mem_nil _
  | cons step rest ih =>
    obtain ⟨hstep, hrest⟩ := List.forall_mem_cons.1 hsteps
    obtain ⟨hheeds, hkeeps, -⟩ := staysWithin_exec P depth step hstep s hs
    rw [execAll_cons]
    exact List.forall_mem_cons.2 ⟨hheeds, ih hrest hkeeps⟩

/-- Whatever holds throughout the steps that a session is given holds of every step that it comes
to. -/
theorem step_of_within (host : Host) (config : Config) (depth : Nat) {steps : List Step}
    (hsteps : ∀ step ∈ steps, step.Throughout P) {a b : Answer}
    (ha : a ∈ (execAll depth steps (start host config)).1) (hb : b.Within a) : P b.step := by
  obtain ⟨hself, -⟩ := heeds_execAll depth hsteps (keeps_start host config) a ha b hb
  exact hself

end Session

end NamedRoutes
