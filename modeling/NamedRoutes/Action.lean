import NamedRoutes.Fault

/-!
# Actions

An action reads and changes a state and either answers or fails. What it did to the state before it
failed stays done. The statements say what each way of making an action does to a state.
-/
namespace NamedRoutes

abbrev Action (σ : Type) := ExceptT Fault (StateM σ)

namespace Action

variable {σ α β : Type}

/-- Runs an action and keeps its outcome, good or bad, as an answer. -/
def outcome (a : Action σ α) : StateM σ (Except Fault α) := a.run

def ofState (a : StateM σ α) : Action σ α := ExceptT.lift a

def ofExcept : Except Fault α → Action σ α
  | .ok x => pure x
  | .error fault => throw fault

def failWith : Option Fault → Action σ Unit
  | none => pure ()
  | some fault => throw fault

/-- Runs an action for what it does, and tells the fault it fails with. -/
def faultOf (a : Action σ Unit) : Action σ (Option Fault) := fun s =>
  match a s with
  | (.ok (), s') => (.ok none, s')
  | (.error fault, s') => (.ok (some fault), s')

def fault? : Except Fault Unit → Option Fault
  | .ok () => none
  | .error fault => some fault

/-- Puts another fault in the place of the one that the action fails with. -/
def mapFault (f : Fault → Fault) (a : Action σ α) : Action σ α := a.adapt f

theorem pure_apply (x : α) (s : σ) : (pure x : Action σ α) s = (.ok x, s) := rfl

theorem get_apply (s : σ) : (get : Action σ σ) s = (.ok s, s) := rfl

theorem modify_apply (f : σ → σ) (s : σ) : (modify f : Action σ Unit) s = (.ok (), f s) := rfl

theorem ofState_apply (a : StateM σ α) (s : σ) : ofState a s = (.ok (a s).1, (a s).2) := rfl

theorem bind_apply (a : Action σ α) (f : α → Action σ β) (s : σ) :
    (a >>= f) s =
      match a s with
      | (.ok x, s') => f x s'
      | (.error fault, s') => (.error fault, s') := by
  change (match a s with
    | (r, s') => ExceptT.bindCont f r s') = _
  rcases a s with ⟨r | r, s'⟩ <;> rfl

theorem get_bind_apply (f : σ → Action σ α) (s : σ) : ((get : Action σ σ) >>= f) s = f s s := rfl

theorem ofExcept_apply (r : Except Fault α) (s : σ) : ofExcept r s = (r, s) := by
  cases r <;> rfl

theorem failWith_apply (fault : Option Fault) (s : σ) :
    failWith fault s = (fault.elim (.ok ()) .error, s) := by
  cases fault <;> rfl

theorem faultOf_apply (a : Action σ Unit) (s : σ) :
    faultOf a s = (.ok (fault? (a s).1), (a s).2) := by
  rw [faultOf]
  rcases a s with ⟨r | r, s'⟩ <;> rfl

theorem mapFault_apply (f : Fault → Fault) (a : Action σ α) (s : σ) :
    mapFault f a s = ((a s).1.mapError f, (a s).2) := rfl

end Action

end NamedRoutes
