import NamedRoutes.App
import NamedRoutes.Session.Script

/-!
# Steps and answers

A session is a list of steps. Each step is answered by its result, the calls of callbacks and hooks
that it made itself, and the visits that were pushed while it ran. The answers of nested steps stand
within the call that ran them.
-/
namespace NamedRoutes

inductive Step where
  | addRoute (name path : String) (callback : CallbackSpec Step)
  | addRoutes (routes : List (String × CallbackSpec Step))
  | observe (name : String) (callback : CallbackSpec Step)
  | go (target : String) (params : Params) (updateUrl : Bool)
  | resolve (path : String)
  | urlFor (name : String) (params : Params)
  | contains (name : String)
  | count
  | routes
  | config
  | supportsHistory
  | host
  | push (visit : Visit)
  | expectPushed (url : String) (route : Option String) (params : Option Params)
  | expectNoPush
  | enroll (name handle : String) (lifecycle : Option (Lifecycle Step))
  | lifecycle (name : String)
  | hasLifecycle (name : String)
  | invoke (handle : String) (params : Value)

inductive Invocation where
  | callback (id : String) (params : Params)
  | hook (hook : Hook) (route id : String) (params : Value)

/-- A call that has ended, with the answers of the steps it ran. -/
structure Call (α : Type) where
  invocation : Invocation
  steps : List α
  fault : Option Fault

/-- How a lifecycle is shown: its id and whether it is initialized. -/
structure LifecycleView where
  id : Option String
  initialized : Bool

def Lifecycle.view {σ : Type} (l : Lifecycle σ) : LifecycleView := ⟨l.id, l.initialized⟩

inductive Reply where
  | nothing
  | route (route : Route (Callback Step))
  | routes (routes : OrderedMap (Route (Callback Step)))
  | navigation (navigation : Option Navigation)
  | candidates (candidates : List Candidate)
  | text (text : String)
  | flag (flag : Bool)
  | count (n : Nat)
  | config (config : Config)
  | host (host : Host)
  | lifecycle (lifecycle : Option LifecycleView)

structure Answer where
  step : Step
  result : Except Fault Reply
  calls : List (Call Answer)
  pushes : List Visit

end NamedRoutes
