import NamedRoutes.Proofs.Session.FirstVisits

/-!
# Attempts at a first visit

A lifecycle whose hooks run no steps is a machine. An invocation calls the hook whose turn it is,
which takes the next of the outcomes that are laid down for it. The first visit is tried until one
succeeds, and from then on it is the turn of the revisits, whatever these raise. So the outcomes
alone decide what each invocation comes to.
-/
namespace NamedRoutes

namespace Lifecycle

variable {σ : Type} {l : Lifecycle σ} {hook : Hook}

/-- Neither hook has steps to run. -/
def Idle (l : Lifecycle σ) : Prop := ∀ hook, (l.plan hook).steps = []

def turn (l : Lifecycle σ) : Hook := if l.initialized then .revisit else .firstVisit

def raises (l : Lifecycle σ) : Option Raised := (l.plan l.turn).outcomes.head?.join

def shift (l : Lifecycle σ) (hook : Hook) : Lifecycle σ :=
  l.setPlan hook ⟨(l.plan hook).steps, (l.plan hook).outcomes.tail⟩

/-- What an invocation leaves. -/
def next (l : Lifecycle σ) : Lifecycle σ :=
  { l.shift l.turn with initialized := l.initialized || l.raises.isNone }

def after (l : Lifecycle σ) : Nat → Lifecycle σ
  | 0 => l
  | k + 1 => l.next.after k

/-- How many invocations fail before the first visit succeeds. -/
def failures (l : Lifecycle σ) : Nat := (l.first.outcomes.takeWhile Option.isSome).length

def firstVisits (l : Lifecycle σ) : Nat := if l.initialized then 0 else l.failures + 1

theorem setPlan_plan (l : Lifecycle σ) (hook : Hook) : l.setPlan hook (l.plan hook) = l := by
  cases hook <;> rfl

theorem steps_shift (l : Lifecycle σ) (hook other : Hook) :
    ((l.shift hook).plan other).steps = (l.plan other).steps := by
  cases hook <;> cases other <;> rfl

theorem next_of_initialized (h : l.initialized) : l.next = l.shift l.turn := by
  have hsame : (l.shift l.turn).initialized = true := (initialized_setPlan l _ _).trans h
  rw [next, h, Bool.true_or, ← hsame]

theorem next_of_raises {raised : Raised} (h : l.raises = some raised) :
    l.next = l.shift l.turn := by
  have hsame : (l.shift l.turn).initialized = l.initialized := initialized_setPlan l _ _
  rw [next, h, Option.isNone_some, Bool.or_false, ← hsame]

theorem next_of_returns (h : l.raises = none) :
    l.next = { l.shift l.turn with initialized := true } := by
  rw [next, h, Option.isNone_none, Bool.or_true]

theorem Idle.next (h : l.Idle) : l.next.Idle := by
  intro hook
  have hplan : l.next.plan hook = (l.shift l.turn).plan hook := by cases hook <;> rfl
  rw [hplan, steps_shift, h hook]

theorem id_next (l : Lifecycle σ) : l.next.id = l.id := id_setPlan l _ _

theorem Idle.after (h : l.Idle) (k : Nat) : (l.after k).Idle := by
  induction k generalizing l with
  | zero => exact h
  | succ k ih => exact ih h.next

theorem id_after (l : Lifecycle σ) (k : Nat) : (l.after k).id = l.id := by
  induction k generalizing l with
  | zero => rfl
  | succ k ih => exact (ih l.next).trans l.id_next

theorem firstVisits_next (l : Lifecycle σ) : l.next.firstVisits = l.firstVisits - 1 := by
  obtain ⟨id, initialized, ⟨steps, outcomes⟩, later⟩ := l
  cases initialized with
  | true => rfl
  | false =>
    cases outcomes with
    | nil => rfl
    | cons outcome rest => cases outcome <;> rfl

theorem initialized_iff_firstVisits : l.initialized ↔ l.firstVisits = 0 := by
  rw [firstVisits]
  split <;> simp_all

theorem firstVisits_after (l : Lifecycle σ) (k : Nat) :
    (l.after k).firstVisits = l.firstVisits - k := by
  induction k generalizing l with
  | zero => rfl
  | succ k ih =>
    rw [after, ih, firstVisits_next]
    omega

theorem initialized_after (l : Lifecycle σ) (k : Nat) :
    (l.after k).initialized = decide (l.firstVisits ≤ k) := by
  rw [Bool.eq_iff_iff, decide_eq_true_iff, initialized_iff_firstVisits, firstVisits_after]
  omega

theorem turn_after (l : Lifecycle σ) (k : Nat) :
    (l.after k).turn = if k < l.firstVisits then .firstVisit else .revisit := by
  rw [turn, initialized_after]
  by_cases h : k < l.firstVisits
  · rw [if_pos h, if_neg (by simpa using h)]
  · rw [if_neg h, if_pos (by simpa using h)]

/-- Each first visit takes the next of the outcomes for first visits, and each revisit of those for
revisits. -/
theorem raises_after (l : Lifecycle σ) (k : Nat) :
    (l.after k).raises =
      if k < l.firstVisits then l.first.outcomes[k]?.join
      else l.later.outcomes[k - l.firstVisits]?.join := by
  induction k generalizing l with
  | zero =>
    obtain ⟨id, initialized, first, later⟩ := l
    cases initialized <;>
      simp [after, raises, turn, plan, firstVisits, List.head?_eq_getElem?]
  | succ k ih =>
    rw [after, ih, firstVisits_next]
    cases hflag : l.initialized with
    | true =>
      have hnone : l.firstVisits = 0 := initialized_iff_firstVisits.1 hflag
      have hlater : l.next.later.outcomes = l.later.outcomes.tail := by
        simp [next, turn, hflag, shift, setPlan, plan]
      rw [hnone, if_neg (Nat.not_lt_zero _), if_neg (Nat.not_lt_zero _), hlater, List.getElem?_tail]
      rfl
    | false =>
      have hsome : l.firstVisits = l.failures + 1 := by simp [firstVisits, hflag]
      have hfirst : l.next.first.outcomes = l.first.outcomes.tail := by
        simp [next, turn, hflag, shift, setPlan, plan]
      have hlater : l.next.later = l.later := by simp [next, turn, hflag, shift, setPlan]
      rw [hsome, Nat.add_sub_cancel, hfirst, hlater, List.getElem?_tail]
      by_cases h : k < l.failures
      · rw [if_pos h, if_pos (Nat.succ_lt_succ h)]
      · rw [if_neg h, if_neg (mt Nat.lt_of_succ_lt_succ h), Nat.add_sub_add_right]

theorem exists_raised_of_lt_failures {k : Nat} (h : k < l.failures) :
    ∃ raised, l.first.outcomes[k]? = some (some raised) := by
  have hprefix := List.takeWhile_prefix (l := l.first.outcomes) Option.isSome
  have hget := hprefix.getElem h
  have hmem := List.getElem_mem h
  have hsome := List.all_eq_true.1 List.all_takeWhile _ hmem
  obtain ⟨raised, hraised⟩ := Option.isSome_iff_exists.1 hsome
  refine ⟨raised, ?_⟩
  rw [List.getElem?_eq_getElem (Nat.lt_of_lt_of_le h hprefix.length_le), ← hget, hraised]

theorem join_outcomes_failures (l : Lifecycle σ) : l.first.outcomes[l.failures]?.join = none := by
  rw [failures]
  induction l.first.outcomes with
  | nil => rfl
  | cons outcome rest ih =>
    cases outcome with
    | none => rfl
    | some raised => exact ih

end Lifecycle

def Hook.fault (hook : Hook) (route : String) (raised : Raised) : Fault :=
  match hook with
  | .firstVisit => .initialization route raised.message
  | .revisit => .raised raised

def Lifecycle.attempt {σ α : Type} (l : Lifecycle σ) (route id : String) (params : Value) :
    Call α :=
  ⟨.hook l.turn route id params, [], l.raises.map .raised⟩

def Lifecycle.result {σ : Type} (l : Lifecycle σ) (route : String) : Except Fault Unit :=
  l.raises.elim (.ok ()) fun raised => .error (l.turn.fault route raised)

/-- What the invocations of a lifecycle come to, one after another. -/
structure Lifecycle.Scheduled {σ : Type} (l : Lifecycle σ) (route : String) : Prop where
  /-- First visits fail as often as failures are laid down before a success, each in its own way. -/
  failing : l.initialized = false → ∀ k < l.failures,
    (l.after k).turn = .firstVisit ∧ (l.after (k + 1)).initialized = false ∧
      ∃ raised, l.first.outcomes[k]? = some (some raised) ∧
        (l.after k).result route = .error (.initialization route raised.message)
  /-- The next one succeeds. -/
  succeeding : l.initialized = false →
    (l.after l.failures).turn = .firstVisit ∧ (l.after l.failures).result route = .ok () ∧
      (l.after (l.failures + 1)).initialized
  /-- From then on, or from the beginning if it is initialized already, there are revisits. They
  come to what is laid down for them, and it stays initialized. -/
  later : ∀ i, let k := l.firstVisits + i
    (l.after k).turn = .revisit ∧ (l.after (k + 1)).initialized ∧
      (l.after k).result route =
        l.later.outcomes[i]?.join.elim (.ok ()) fun raised => .error (.raised raised)

theorem Lifecycle.scheduled {σ : Type} (l : Lifecycle σ) (route : String) : l.Scheduled route where
  failing := by
    intro hflag k hk
    have hvisits : l.firstVisits = l.failures + 1 := by simp [firstVisits, hflag]
    have hlt : k < l.firstVisits := by omega
    have hturn : (l.after k).turn = .firstVisit := by rw [turn_after, if_pos hlt]
    obtain ⟨raised, hraised⟩ := exists_raised_of_lt_failures hk
    have hraises : (l.after k).raises = some raised := by
      rw [raises_after, if_pos hlt, hraised]
      rfl
    refine ⟨hturn, ?_, raised, hraised, by rw [result, hraises, hturn]; rfl⟩
    rw [initialized_after, decide_eq_false_iff_not]
    omega
  succeeding := by
    intro hflag
    have hvisits : l.firstVisits = l.failures + 1 := by simp [firstVisits, hflag]
    have hlt : l.failures < l.firstVisits := by omega
    have hraises : (l.after l.failures).raises = none := by
      rw [raises_after, if_pos hlt, join_outcomes_failures]
    refine ⟨by rw [turn_after, if_pos hlt], by rw [result, hraises]; rfl, ?_⟩
    rw [initialized_after, decide_eq_true_iff]
    omega
  later := by
    intro i k
    have hge : ¬ k < l.firstVisits := Nat.not_lt.2 (Nat.le_add_right _ _)
    have hturn : (l.after k).turn = .revisit := by rw [turn_after, if_neg hge]
    refine ⟨hturn, ?_, ?_⟩
    · rw [initialized_after, decide_eq_true_iff]
      omega
    · rw [result, raises_after, if_neg hge, hturn, Nat.add_sub_cancel_left]
      rfl

namespace Session

open NamedRoutes.Action

variable {s : Session} {route id : String} {l : Lifecycle Step}

def invoked (s : Session) (route id : String) (l : Lifecycle Step) (params : Value) : Session :=
  { s with
    stage.lifecycles := s.stage.lifecycles.insert route l.next
    stage.calls := s.stage.calls ++ [l.attempt route id params] }

theorem takeOutcome_of_get? (hook : Hook) (hl : s.stage.lifecycles.get? route = some l) :
    takeOutcome hook route s =
      ((l.plan hook).outcomes.head?.join.elim (.ok ()) fun raised => .error (.raised raised),
        (setLifecycle route (l.shift hook) s).2) := by
  rw [takeOutcome, lifecycle?_bind_apply, hl]
  cases houtcomes : (l.plan hook).outcomes with
  | nil =>
    have hsame : l.shift hook = l := by
      have hplan : (⟨(l.plan hook).steps, []⟩ : HookPlan Step) = l.plan hook := by rw [← houtcomes]
      rw [Lifecycle.shift, houtcomes, List.tail_nil, hplan, l.setPlan_plan]
    simp only [houtcomes]
    rw [hsame, setLifecycle, Action.modify_apply, OrderedMap.insert_of_get? hl]
    rfl
  | cons outcome rest =>
    simp only [houtcomes]
    rw [Action.bind_apply, setLifecycle, Action.modify_apply]
    dsimp only
    rw [Action.failWith_apply, Lifecycle.shift, houtcomes]
    cases outcome <;> rfl

theorem callHook_of_idle (run : Runner) (hook : Hook) (params : Value)
    (hl : s.stage.lifecycles.get? route = some l) (hidle : l.Idle) (hid : l.id = some id) :
    callHook run hook route params s =
      ((l.plan hook).outcomes.head?.join.elim (.ok ()) fun raised => .error (.raised raised),
        (record ⟨.hook hook route id params, [],
          (l.plan hook).outcomes.head?.join.map .raised⟩
          (setLifecycle route (l.shift hook) s).2).2) := by
  have hplan : (⟨[], (l.plan hook).outcomes⟩ : HookPlan Step) = l.plan hook := by rw [← hidle hook]
  have hsame : (setLifecycle route (l.setPlan hook ⟨[], (l.plan hook).outcomes⟩) s).2 = s := by
    rw [hplan, l.setPlan_plan, setLifecycle, Action.modify_apply, OrderedMap.insert_of_get? hl]
  rw [callHook_of_id run hook params hl hid, hsame, hidle hook, carryOut_apply, runSteps_nil]
  dsimp only
  rw [takeOutcome_of_get? hook hl]
  cases (l.plan hook).outcomes.head?.join <;> rfl

theorem invoke_of_plain (run : Runner) (params : Value)
    (hl : s.stage.lifecycles.get? route = some l) (hid : l.id = none) :
    invoke run route params s =
      (.ok (), (setLifecycle route { l with initialized := true } s).2) := by
  cases hflag : l.initialized with
  | true =>
    have hsame : { l with initialized := true } = l := by rw [← hflag]
    rw [invoke_of_initialized run params hl hflag, callHook_of_plain run _ params hl hid, hsame,
      setLifecycle, Action.modify_apply, OrderedMap.insert_of_get? hl]
  | false =>
    rw [invoke_of_not_initialized run params hl hflag, callHook_of_plain run _ params hl hid]
    dsimp only
    rw [markInitialized_of_get? hl]
    rfl

/-- An invocation of an idle lifecycle comes to what is laid down for it, and does nothing but call
the hook whose turn it is. -/
theorem invoke_of_idle (run : Runner) (params : Value)
    (hl : s.stage.lifecycles.get? route = some l) (hidle : l.Idle) (hid : l.id = some id) :
    invoke run route params s = (l.result route, s.invoked route id l params) := by
  cases hflag : l.initialized with
  | true =>
    have hturn : l.turn = .revisit := if_pos hflag
    rw [invoke_of_initialized run params hl hflag, callHook_of_idle run _ params hl hidle hid,
      Lifecycle.result, invoked, Lifecycle.attempt, Lifecycle.next_of_initialized hflag,
      Lifecycle.raises, hturn]
    rfl
  | false =>
    have hturn : l.turn = .firstVisit := if_neg (by rw [hflag]; exact Bool.false_ne_true)
    have hraises : l.raises = (l.plan .firstVisit).outcomes.head?.join := by
      rw [Lifecycle.raises, hturn]
    rw [invoke_of_not_initialized run params hl hflag, callHook_of_idle run _ params hl hidle hid,
      Lifecycle.result, invoked, Lifecycle.attempt, ← hraises]
    cases hoc : l.raises with
    | some raised =>
      rw [Lifecycle.next_of_raises hoc, hturn]
      rfl
    | none =>
      -- the flag is set behind the record of the call
      let t := (record ⟨.hook .firstVisit route id params, [], none⟩
        (setLifecycle route (l.shift .firstVisit) s).2).2
      have hget : t.stage.lifecycles.get? route = some (l.shift .firstVisit) := by
        change (setLifecycle route (l.shift .firstVisit) s).2.stage.lifecycles.get? route = _
        rw [get?_setLifecycle, if_pos rfl]
      rw [Lifecycle.next_of_returns hoc, hturn]
      change markInitialized route t = _
      rw [markInitialized_of_get? hget, ← OrderedMap.insert_insert _ route (l.shift .firstVisit)]
      rfl

end Session

end NamedRoutes
