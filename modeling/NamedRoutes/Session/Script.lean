import NamedRoutes.Fault

/-!
# Scripts

What a session is told to do. A scripted callback records its call, changes the parameters, runs
nested steps, and then fails or returns a value. A scripted lifecycle does the same in two hooks:
one for the first visit, which is tried again until it succeeds, and one for every later visit. The
type of steps is a parameter here, since steps hold scripts.
-/
namespace NamedRoutes

structure Script (σ : Type) where
  id : String
  sets : List (String × Value)
  deletes : List String
  steps : List σ
  /-- Whether the steps run on the first call only. -/
  once : Bool
  /-- Whether a fault of a step ends the steps and is raised. -/
  propagate : Bool
  fault : Option Raised
  returns : Value

/-- A callback as it is given: any value, the invoker kept under a handle, or a script. -/
inductive CallbackSpec (σ : Type) where
  | value (v : Value)
  | handle (handle : String)
  | script (script : Script σ)

/-- A callback as it is stored. Each script gets a number of its own. An invoker belongs to the
lifecycle of one route. -/
inductive Callback (σ : Type) where
  | value (v : Value)
  | invoker (route : String)
  | script (serial : Nat) (script : Script σ)

inductive Hook where
  | firstVisit
  | revisit
  deriving DecidableEq

/-- What is left of a hook's script: the steps of its first call, and the outcome of each call to
come. Beyond the listed outcomes every call succeeds. -/
structure HookPlan (σ : Type) where
  steps : List σ
  outcomes : List (Option Raised)

structure Lifecycle (σ : Type) where
  /-- A plain lifecycle has no id and does nothing when it is called. -/
  id : Option String
  initialized : Bool
  first : HookPlan σ
  later : HookPlan σ

variable {σ : Type}

namespace Callback

def isCallable : Callback σ → Bool
  | value _ => false
  | _ => true

def callables (c : Callback σ) : List (Callback σ) := if c.isCallable then [c] else []

end Callback

namespace Lifecycle

def blank : Lifecycle σ := ⟨none, false, ⟨[], []⟩, ⟨[], []⟩⟩

def plan (l : Lifecycle σ) : Hook → HookPlan σ
  | .firstVisit => l.first
  | .revisit => l.later

def setPlan (l : Lifecycle σ) (hook : Hook) (plan : HookPlan σ) : Lifecycle σ :=
  match hook with
  | .firstVisit => { l with first := plan }
  | .revisit => { l with later := plan }

@[simp] theorem initialized_setPlan (l : Lifecycle σ) (hook : Hook) (plan : HookPlan σ) :
    (l.setPlan hook plan).initialized = l.initialized := by
  cases hook <;> rfl

@[simp] theorem id_setPlan (l : Lifecycle σ) (hook : Hook) (plan : HookPlan σ) :
    (l.setPlan hook plan).id = l.id := by
  cases hook <;> rfl

end Lifecycle

end NamedRoutes
