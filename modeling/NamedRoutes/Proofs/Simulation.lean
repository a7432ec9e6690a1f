import NamedRoutes.App

/-!
# Simulation of actions

One action simulates another along a relation of their states when, begun in related states, they
fail with the same fault or answer alike, and leave related states. A relation that only holds
between equal states is an invariant, and an action that simulates itself along it keeps it.
-/
namespace NamedRoutes

namespace Action

variable {σ τ α β γ δ : Type}

/-- The same fault, or answers that are alike. -/
inductive SameOutcome (V : α → β → Prop) : Except Fault α → Except Fault β → Prop
  | ok {x y} (h : V x y) : SameOutcome V (.ok x) (.ok y)
  | error (fault : Fault) : SameOutcome V (.error fault) (.error fault)

theorem SameOutcome.refl (r : Except Fault α) : SameOutcome Eq r r := by
  cases r with
  | ok x => exact .ok rfl
  | error fault => exact .error fault

theorem SameOutcome.mono {V V' : α → β → Prop} {r : Except Fault α} {r' : Except Fault β}
    (h : SameOutcome V r r') (hV : ∀ x y, V x y → V' x y) : SameOutcome V' r r' := by
  cases h with
  | ok hxy => exact .ok (hV _ _ hxy)
  | error fault => exact .error fault

theorem SameOutcome.mapError {V : α → β → Prop} {r : Except Fault α} {r' : Except Fault β}
    (h : SameOutcome V r r') (f : Fault → Fault) :
    SameOutcome V (r.mapError f) (r'.mapError f) := by
  cases h with
  | ok hxy => exact .ok hxy
  | error fault => exact .error (f fault)

theorem SameOutcome.fault?_eq {V : Unit → Unit → Prop} {r r' : Except Fault Unit}
    (h : SameOutcome V r r') : fault? r = fault? r' := by
  cases h with
  | ok _ => rfl
  | error fault => rfl

def Simulates (R : σ → τ → Prop) (V : α → β → Prop) (a : Action σ α) (b : Action τ β) : Prop :=
  ∀ ⦃s t⦄, R s t → SameOutcome V (a s).1 (b t).1 ∧ R (a s).2 (b t).2

variable {R : σ → τ → Prop} {V : α → β → Prop} {W : γ → δ → Prop}

theorem simulates_pure {x : α} {y : β} (h : V x y) :
    Simulates R V (pure x : Action σ α) (pure y : Action τ β) :=
  fun _ _ hR => ⟨.ok h, hR⟩

theorem simulates_throw (fault : Fault) :
    Simulates R V (throw fault : Action σ α) (throw fault : Action τ β) :=
  fun _ _ hR => ⟨.error fault, hR⟩

theorem Simulates.mono {V' : α → β → Prop} {a : Action σ α} {b : Action τ β}
    (h : Simulates R V a b) (hV : ∀ x y, V x y → V' x y) : Simulates R V' a b := by
  intro s t hR
  obtain ⟨hout, hR'⟩ := h hR
  exact ⟨hout.mono hV, hR'⟩

theorem Simulates.bind {a : Action σ α} {b : Action τ β} {f : α → Action σ γ}
    {g : β → Action τ δ} (h : Simulates R V a b)
    (hfg : ∀ x y, V x y → Simulates R W (f x) (g y)) : Simulates R W (a >>= f) (b >>= g) := by
  intro s t hR
  obtain ⟨hout, hR'⟩ := h hR
  rw [bind_apply, bind_apply]
  rcases ha : a s with ⟨r, s'⟩
  rcases hb : b t with ⟨r', t'⟩
  rw [ha, hb] at hout hR'
  cases hout with
  | ok hxy => exact hfg _ _ hxy hR'
  | error fault => exact ⟨.error fault, hR'⟩

/-- The continuations only have to simulate each other in the states that are read. -/
theorem simulates_get_bind {f : σ → Action σ α} {g : τ → Action τ β}
    (h : ∀ s t, R s t → SameOutcome V (f s s).1 (g t t).1 ∧ R (f s s).2 (g t t).2) :
    Simulates R V ((get : Action σ σ) >>= f) ((get : Action τ τ) >>= g) :=
  h

theorem simulates_modify {f : σ → σ} {g : τ → τ} (h : ∀ s t, R s t → R (f s) (g t)) :
    Simulates R Eq (modify f : Action σ Unit) (modify g : Action τ Unit) :=
  fun _ _ hR => ⟨.ok rfl, h _ _ hR⟩

theorem simulates_failWith (fault : Option Fault) :
    Simulates R Eq (failWith fault : Action σ Unit) (failWith fault : Action τ Unit) := by
  cases fault with
  | none => exact simulates_pure rfl
  | some fault => exact simulates_throw fault

theorem Simulates.mapFault {a : Action σ α} {b : Action τ β} (h : Simulates R V a b)
    (f : Fault → Fault) : Simulates R V (mapFault f a) (mapFault f b) := by
  intro s t hR
  obtain ⟨hout, hR'⟩ := h hR
  exact ⟨hout.mapError f, hR'⟩

end Action

namespace App

variable {κ ω : Type} {R : App κ ω → App κ ω → Prop} {call call' : Caller κ ω}

theorem simulates_runCallbacks {callbacks : List κ}
    (h : ∀ callback ∈ callbacks, ∀ params,
      Action.Simulates R Eq (call callback params) (call' callback params)) (params : Params) :
    Action.Simulates R Eq (runCallbacks call callbacks params)
      (runCallbacks call' callbacks params) := by
  induction callbacks generalizing params with
  | nil => exact Action.simulates_pure rfl
  | cons callback rest ih =>
    obtain ⟨hcallback, hrest⟩ := List.forall_mem_cons.1 h
    refine (hcallback params).bind ?_
    rintro ⟨changed, returned⟩ _ rfl
    exact ih hrest _

end App

end NamedRoutes
