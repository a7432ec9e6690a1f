import NamedRoutes.Fault
import NamedRoutes.Value.Equality

/-!
# Navigation hosts

A host owns the address bar. It says whether it supports history, and it is told of every visit that
is pushed. A memory host keeps them all; a silent one supports and keeps nothing; a scripted one has
its answers laid down, the last of which repeats, and may refuse every push.
-/
namespace NamedRoutes

structure Visit where
  url : String
  route : String
  params : Params

namespace Visit

def expectUrl (v : Visit) (url : String) : Except Unmet Unit :=
  if v.url = url then .ok () else .error (.url url v.url)

def expectRoute (v : Visit) : Option String → Except Unmet Unit
  | none => .ok ()
  | some route => if v.route = route then .ok () else .error (.route route v.route)

def expectParams (v : Visit) : Option Params → Except Unmet Unit
  | none => .ok ()
  | some params =>
    if v.params.toValue.equal params.toValue then .ok () else .error (.params params v.params)

end Visit

inductive Behaviour where
  | memory (history : Bool)
  | silent
  | scripted (answers : List Bool) (refusal : Option Raised)

structure Host where
  behaviour : Behaviour
  /-- How often it was asked whether it supports history. -/
  asked : Nat := 0
  history : List Visit := []

namespace Host

def supportsHistory (h : Host) : Bool :=
  match h.behaviour with
  | .memory history => history
  | .silent => false
  | .scripted answers _ => (answers[h.asked]?).getD (answers.getLast?.getD false)

def afterAsking (h : Host) : Host := { h with asked := h.asked + 1 }

def push (h : Host) (visit : Visit) : Except Fault Host :=
  match h.behaviour with
  | .silent => .ok h
  | .scripted _ (some refusal) => .error (.raised refusal)
  | _ => .ok { h with history := h.history ++ [visit] }

def urls (h : Host) : List String := h.history.map Visit.url

def currentUrl? (h : Host) : Option String := h.history.getLast?.map Visit.url

/-- Checks that the last visit has this URL and, where they are given, this route and these
parameters. -/
def expectPushed (h : Host) (url : String) (route : Option String) (params : Option Params) :
    Except Unmet Unit :=
  match h.history.getLast? with
  | none => .error (.nothingPushed url)
  | some last => do
    last.expectUrl url
    last.expectRoute route
    last.expectParams params

def expectNoPush (h : Host) : Except Unmet Unit :=
  if h.history.isEmpty then .ok () else .error (.pushed h.urls)

end Host

end NamedRoutes
