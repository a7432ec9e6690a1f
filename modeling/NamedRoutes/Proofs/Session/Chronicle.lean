import NamedRoutes.Session.Step

/-!
# Chronicles of lifecycles

The answers of a session tell, in the order of time, which lifecycles were given to routes, what was
shown of them, and when their hooks were called and came to an end; what happens within a call
stands between its beginning and its end. The law of such a chronicle says of every event what must
have come before it: a first visit begins while no first visit has returned, and a revisit begins
only after one has, unless the lifecycle came initialized.
-/
namespace NamedRoutes

inductive Event where
  | enrolled (route handle : String) (lifecycle : Lifecycle Step)
  | shown (route : String) (view : Option LifecycleView)
  | begins (hook : Hook) (route id : String)
  /-- The fault is the one that the call ended in, if it did not return. -/
  | ends (hook : Hook) (route id : String) (fault : Option Fault)

/-- What a step with this result tells of lifecycles, apart from its calls. -/
def Event.ofResult : Step → Except Fault Reply → List Event
  | .enroll route handle lifecycle, .ok (.lifecycle view) =>
    [.enrolled route handle (lifecycle.getD .blank), .shown route view]
  | .lifecycle route, .ok (.lifecycle view) => [.shown route view]
  | _, _ => []

def Invocation.enclose (invocation : Invocation) (events : List Event) (fault : Option Fault) :
    List Event :=
  match invocation with
  | .callback _ _ => events
  | .hook h route id _ => .begins h route id :: (events ++ [.ends h route id fault])

mutual

def Answer.events : Answer → List Event
  | ⟨step, result, calls, _⟩ => Call.eventsOfAll calls ++ Event.ofResult step result

def Call.events : Call Answer → List Event
  | ⟨invocation, steps, fault⟩ => invocation.enclose (Answer.eventsOfAll steps) fault

def Call.eventsOfAll : List (Call Answer) → List Event
  | [] => []
  | call :: rest => call.events ++ Call.eventsOfAll rest

def Answer.eventsOfAll : List Answer → List Event
  | [] => []
  | answer :: rest => answer.events ++ Answer.eventsOfAll rest

end

theorem Call.eventsOfAll_append (calls rest : List (Call Answer)) :
    eventsOfAll (calls ++ rest) = eventsOfAll calls ++ eventsOfAll rest := by
  induction calls with
  | nil => rfl
  | cons call calls ih => rw [List.cons_append, eventsOfAll, eventsOfAll, ih, List.append_assoc]

theorem Call.eventsOfAll_singleton (call : Call Answer) : eventsOfAll [call] = call.events := by
  rw [eventsOfAll, eventsOfAll, List.append_nil]

theorem Answer.eventsOfAll_singleton (answer : Answer) : eventsOfAll [answer] = answer.events := by
  rw [eventsOfAll, eventsOfAll, List.append_nil]

namespace Event

def firstEnrolled (past : List Event) (route : String) : Option (Lifecycle Step) :=
  past.findSome? fun
    | enrolled r _ l => if r = route then some l else none
    | _ => none

def lastRoute (past : List Event) (handle : String) : Option String :=
  past.reverse.findSome? fun
    | enrolled r h _ => if h = handle then some r else none
    | _ => none

/-- Some first visit of the route's lifecycle has returned. -/
def Returned (past : List Event) (route : String) : Prop :=
  ∃ id, ends .firstVisit route id none ∈ past

def TellsInitialized (route : String) : Event → Prop
  | ends .firstVisit r _ none => r = route
  | shown r (some view) => r = route ∧ view.initialized
  | _ => False

def Told (past : List Event) (route : String) : Prop := ∃ e ∈ past, e.TellsInitialized route

/-- How the lifecycle that was the route's first may be shown. Once it has been initialized it stays
so. It is not initialized before, but for a plain one, the calls of which are not told. -/
structure Shows (past : List Event) (route : String) (first : Lifecycle Step)
    (view : LifecycleView) : Prop where
  id : view.id = first.id
  after : first.initialized ∨ Told past route → view.initialized
  before : view.initialized → view.id ≠ none → first.initialized ∨ Returned past route

/-- The event may come after this past. -/
def Lawful (past : List Event) : Event → Prop
  | shown route view => Option.Rel (Shows past route) (firstEnrolled past route) view
  | begins hook route id =>
    ∃ first, firstEnrolled past route = some first ∧ first.id = some id ∧
      match hook with
      | .firstVisit => first.initialized = false ∧ ¬ Returned past route
      | .revisit => first.initialized ∨ Returned past route
  | _ => True

def AllLawful (past : List Event) : List Event → Prop
  | [] => True
  | e :: events => e.Lawful past ∧ AllLawful (past ++ [e]) events

theorem allLawful_append (past events rest : List Event) :
    AllLawful past (events ++ rest) ↔ AllLawful past events ∧ AllLawful (past ++ events) rest := by
  induction events generalizing past with
  | nil => simp [AllLawful]
  | cons e events ih => simp [AllLawful, ih, and_assoc]

theorem AllLawful.lawful {events before after : List Event} {e : Event}
    (h : AllLawful [] events) (he : events = before ++ e :: after) : e.Lawful before := by
  rw [he, allLawful_append] at h
  simpa using h.2.1

variable {past : List Event} {e : Event} {route : String}

theorem firstEnrolled_concat (past : List Event) (e : Event) (route : String) :
    firstEnrolled (past ++ [e]) route = (firstEnrolled past route).or (firstEnrolled [e] route) :=
  List.findSome?_append

theorem lastRoute_concat (past : List Event) (e : Event) (handle : String) :
    lastRoute (past ++ [e]) handle = (lastRoute [e] handle).or (lastRoute past handle) := by
  rw [lastRoute, List.reverse_append, List.findSome?_append]
  rfl

theorem Returned.concat (h : Returned past route) (e : Event) : Returned (past ++ [e]) route :=
  h.imp fun _ h => List.mem_append_left _ h

theorem Returned.told (h : Returned past route) : Told past route := by
  obtain ⟨id, h⟩ := h
  exact ⟨_, h, rfl⟩

theorem told_concat : Told (past ++ [e]) route ↔ Told past route ∨ e.TellsInitialized route := by
  simp [Told, or_and_right, exists_or]

/-- Nothing changes by an event that at most tells what is already shown. -/
theorem Shows.concat {first : Lifecycle Step} {view : LifecycleView}
    (h : Shows past route first view) (he : e.TellsInitialized route → view.initialized) :
    Shows (past ++ [e]) route first view where
  id := h.id
  after := by
    rintro (hfirst | htold)
    · exact h.after (.inl hfirst)
    · rcases told_concat.1 htold with htold | htells
      · exact h.after (.inr htold)
      · exact he htells
  before hview hid := (h.before hview hid).imp_right fun hret => hret.concat e

end Event

end NamedRoutes
