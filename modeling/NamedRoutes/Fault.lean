import NamedRoutes.Template.Scan
import NamedRoutes.Text.Quoted
import NamedRoutes.Value.Text

/-!
# Faults

Everything that can go wrong, as a cause; `message` words it.
-/
namespace NamedRoutes

inductive RaisedKind where
  | key
  | value
  | runtime
  | type
  | lookup
  | index
  | zeroDivision
  deriving DecidableEq

structure Raised where
  kind : RaisedKind
  text : String
  deriving DecidableEq

/-- An expectation about the pushed history that is not met. -/
inductive Unmet where
  | nothingPushed (url : String)
  | url (expected got : String)
  | route (expected got : String)
  | params (expected got : Params)
  | pushed (urls : List String)

inductive Fault where
  | invalidTemplate (path reason : String)
  /-- Nothing is registered for the target; an empty detail stands for the usual wording. -/
  | noRoute (target detail : String)
  | initialization (route reason : String)
  | unmet (expectation : Unmet)
  | notCallable (value : Value)
  | unknownHandle (handle : String)
  | raised (cause : Raised)
  | tooDeep

inductive FaultFamily where
  | lookup
  | value
  | routing
  deriving DecidableEq

open Text

def Raised.message (cause : Raised) : String :=
  match cause.kind with
  | .key => quoted cause.text
  | _ => cause.text

def Unmet.message : Unmet → String
  | nothingPushed wanted =>
    "Expected a push to " ++ quoted wanted ++ ", but nothing was pushed"
  | url expected got => "Expected last push to " ++ quoted expected ++ ", got " ++ quoted got
  | route expected got => "Expected route " ++ quoted expected ++ ", got " ++ quoted got
  | params expected got =>
    "Expected params " ++ expected.toValue.displayText ++ ", got " ++ got.toValue.displayText
  | pushed urls =>
    "Expected no pushes, got " ++ (Value.list (urls.map .str)).displayText

namespace Fault

def message : Fault → String
  | invalidTemplate path reason => reason ++ ": " ++ quoted path
  | noRoute target detail => if detail = "" then "No route matches " ++ quoted target else detail
  | initialization route reason =>
    "Unable to initialize route \"" ++ route ++ "\": " ++ reason
  | unmet expectation => expectation.message
  | notCallable value => quoted value.kindName ++ " object is not callable"
  | unknownHandle handle => quoted handle
  | raised cause => cause.message
  | tooDeep => "maximum nesting depth exceeded"

/-- The parts of a fault of routing, by name. -/
def parts : Fault → List (String × String)
  | invalidTemplate path reason => [("path", path), ("reason", reason)]
  | initialization route reason => [("route", route), ("message", reason)]
  | noRoute target _ => [("target", target)]
  | _ => []

def families : Fault → List FaultFamily
  | invalidTemplate _ _ => [.value, .routing]
  | initialization _ _ => [.routing]
  | noRoute _ _ => [.lookup, .routing]
  | unknownHandle _ => [.lookup]
  | raised ⟨.key, _⟩ | raised ⟨.lookup, _⟩ | raised ⟨.index, _⟩ => [.lookup]
  | raised ⟨.value, _⟩ => [.value]
  | _ => []

def cannotObserve (name : String) : Fault :=
  .noRoute name ("Cannot observe unknown route " ++ quoted name)

end Fault

/-- Reads a template. What violates its form is a fault that tells the whole path. -/
def Template.ofPath (path : String) : Except Fault Template :=
  match Template.read path with
  | .ok template => .ok template
  | .error violation => .error (.invalidTemplate path violation.text)

theorem Template.ofPath_eq_ok_iff {s : String} {t : Template} :
    ofPath s = .ok t ↔ read s = .ok t := by
  unfold ofPath
  split <;> simp [*]

theorem Template.ofPath_eq_error_iff {s : String} {fault : Fault} :
    ofPath s = .error fault ↔ ∃ v, read s = .error v ∧ fault = .invalidTemplate s v.text := by
  unfold ofPath
  split <;> simp [*, eq_comm]

end NamedRoutes
