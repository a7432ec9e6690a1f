import NamedRoutes.Proofs.Defaults
import NamedRoutes.Proofs.Ranking
import NamedRoutes.Proofs.Session.Nesting
import NamedRoutes.Proofs.Session.Telling
import NamedRoutes.Proofs.Value.Sameness

/-!
# Where the values of parameters come from

The parameters that a navigation arrives with are made of what it was given, of what a path was cut
into, and of what the callbacks of the route set and return. Every callback that is stored was
brought by a step that the answers tell. So while all that steps bring is well-formed, the
parameters of every navigation are.
-/
namespace NamedRoutes

section

variable {σ : Type}

def Script.values (script : Script σ) : List Value :=
  script.sets.map Prod.snd ++ [script.returns]

def CallbackSpec.values : CallbackSpec σ → List Value
  | .script s => s.values
  | _ => []

def Callback.values : Callback σ → List Value
  | .script _ s => s.values
  | _ => []

end

/-- The values that may come from a step, or from the callbacks that it brings, into the parameters
of a visit. -/
def Step.values : Step → List Value
  | addRoute _ _ spec | observe _ spec => spec.values
  | addRoutes entries => entries.flatMap fun e => e.2.values
  | go _ params _ => params.values
  | push visit => visit.params.values
  | _ => []

/-- What the step brings is well-formed. -/
def Step.WellFormed (step : Step) : Prop := ∀ v ∈ step.values, v.WellFormed

namespace OrderedMap

variable {α : Type} {Q : α → Prop} {m : OrderedMap α}

def AllValues (Q : α → Prop) (m : OrderedMap α) : Prop :=
  ∀ key value, m.get? key = some value → Q value

theorem allValues_iff_entries : m.AllValues Q ↔ ∀ e ∈ m.entries, Q e.2 :=
  ⟨fun h e he => h e.1 e.2 (mem_entries_iff.1 he), fun h _ _ hget => h _ (mem_entries_iff.2 hget)⟩

theorem allValues_iff_values : m.AllValues Q ↔ ∀ v ∈ m.values, Q v := by
  rw [allValues_iff_entries, values, List.forall_mem_map]

theorem allValues_empty : (empty : OrderedMap α).AllValues Q := fun _ _ h => by cases h

theorem AllValues.insert (h : m.AllValues Q) (name : String) {value : α} (hvalue : Q value) :
    (m.insert name value).AllValues Q := by
  intro key found hfound
  rw [get?_insert] at hfound
  split at hfound
  · cases hfound
    exact hvalue
  · exact h key found hfound

theorem AllValues.insertAll (h : m.AllValues Q) {es : List (String × α)}
    (hes : ∀ e ∈ es, Q e.2) : (m.insertAll es).AllValues Q := by
  induction es generalizing m with
  | nil => exact h
  | cons e es ih =>
    obtain ⟨he, hes⟩ := List.forall_mem_cons.1 hes
    exact ih (h.insert e.1 he) hes

theorem AllValues.insertIfNew (h : m.AllValues Q) (name : String) {value : α}
    (hvalue : Q value) : (m.insertIfNew name value).AllValues Q := by
  unfold OrderedMap.insertIfNew
  split
  · exact h
  · exact h.insert name hvalue

theorem AllValues.insertAllNew (h : m.AllValues Q) {es : List (String × α)}
    (hes : ∀ e ∈ es, Q e.2) : (m.insertAllNew es).AllValues Q := by
  induction es generalizing m with
  | nil => exact h
  | cons e es ih =>
    obtain ⟨he, hes⟩ := List.forall_mem_cons.1 hes
    exact ih (h.insertIfNew e.1 he) hes

theorem AllValues.eraseAll (h : m.AllValues Q) (names : List String) :
    (m.eraseAll names).AllValues Q := by
  induction names generalizing m with
  | nil => exact h
  | cons name names ih =>
    refine ih fun key value hvalue => ?_
    rw [get?_erase] at hvalue
    split at hvalue
    · cases hvalue
    · exact h key value hvalue

theorem allValues_ofList {es : List (String × α)} (hes : ∀ e ∈ es, Q e.2) :
    (ofList es).AllValues Q :=
  allValues_empty.insertAll hes

theorem wellFormed_toValue_iff {p : Params} :
    p.toValue.WellFormed ↔ p.AllValues Value.WellFormed := by
  rw [toValue, Value.wellFormed_dict_iff, allValues_iff_entries]
  exact and_iff_right p.distinct

theorem AllValues.mergeDefaults {p : Params} (h : p.AllValues Value.WellFormed) {v : Value}
    (hv : v.WellFormed) : (p.mergeDefaults v).AllValues Value.WellFormed := by
  cases hv with
  | dict _ hentries => exact h.insertAllNew hentries
  | _ => exact h

end OrderedMap

theorem Template.wellFormed_bind (names : List String) (captures : List (Option (List Char))) :
    (Template.bind names captures).AllValues Value.WellFormed := by
  refine OrderedMap.allValues_ofList fun e he => ?_
  obtain ⟨⟨name, capture⟩, -, hcapture⟩ := List.mem_filterMap.1 he
  obtain ⟨run, -, rfl⟩ := Option.map_eq_some_iff.1 hcapture
  exact .str _

theorem Router.wellFormed_of_mem_resolve {κ : Type} {r : Router κ} {path : String} {c : Candidate}
    (h : c ∈ r.resolve path) : c.params.AllValues Value.WellFormed := by
  cases hroot : r.rootCandidate? path with
  | some root =>
    rw [resolve, hroot, List.mem_singleton] at h
    subst h
    rw [rootCandidate?] at hroot
    split at hroot
    · obtain ⟨route, -, rfl⟩ := Option.map_eq_some_iff.1 hroot
      exact OrderedMap.allValues_empty
    · cases hroot
  | none =>
    rw [(resolve_perm hroot).mem_iff, List.mem_filterMap] at h
    obtain ⟨route, -, hc⟩ := h
    obtain ⟨cs, -, hparams⟩ := exists_captures_of_candidate? hc
    rw [hparams]
    exact Template.wellFormed_bind _ cs

theorem App.Destination.wellFormed {κ : Type} {router : Router κ} {target : String}
    {params given : Params} {updateUrl push : Bool} {route : Route κ}
    (h : Destination router target params updateUrl route given push)
    (hparams : params.AllValues Value.WellFormed) : given.AllValues Value.WellFormed := by
  cases h with
  | named _ => exact hparams
  | resolved _ hbest _ =>
    obtain ⟨rest, hres⟩ := List.head?_eq_some_iff.1 hbest
    exact Router.wellFormed_of_mem_resolve (hres ▸ List.mem_cons_self)

namespace Session

open NamedRoutes.Action

variable {s t u : Session} {run : Runner} {v : Value} {vs ws : List Value}

def IsWellFormed (callback : Callback Step) : Prop := ∀ v ∈ callback.values, v.WellFormed

theorem wellFormed_of_call {callback : Callback Step} (hcallback : IsWellFormed callback)
    {params changed : Params} (hparams : params.AllValues Value.WellFormed) {returned : Value}
    (h : call run callback params s = (.ok (changed, returned), t)) :
    (changed.mergeDefaults returned).AllValues Value.WellFormed := by
  cases leaves_of_call h with
  | invoker route => exact hparams.mergeDefaults .null
  | script serial script =>
    have hsets : ∀ e ∈ script.sets, e.2.WellFormed := fun e he =>
      hcallback e.2 (List.mem_append_left _ (List.mem_map_of_mem he))
    have hreturns : script.returns.WellFormed :=
      hcallback _ (List.mem_append_right _ (List.mem_singleton_self _))
    exact ((hparams.insertAll hsets).eraseAll script.deletes).mergeDefaults hreturns

theorem wellFormed_of_callsInTurn {callbacks called : List (Callback Step)} {given arrived : Params}
    (hcallbacks : ∀ callback ∈ callbacks, IsWellFormed callback)
    (hgiven : given.AllValues Value.WellFormed)
    (h : App.CallsInTurn (call run) callbacks given s called (.ok arrived) t) :
    arrived.AllValues Value.WellFormed := by
  generalize houtcome : Except.ok arrived = outcome at h
  induction h with
  | done =>
    cases houtcome
    exact hgiven
  | fails _ => cases houtcome
  | returns hcall _ ih =>
    obtain ⟨hcallback, hrest⟩ := List.forall_mem_cons.1 hcallbacks
    exact ih hrest (wellFormed_of_call hcallback hgiven hcall) houtcome

/-- The value is brought by a callback that is stored. -/
def Stores (s : Session) (v : Value) : Prop :=
  ∃ name route, s.router.routes.get? name = some route ∧
    ∃ callback ∈ route.callbacks, v ∈ callback.values

/-- From `s` to `t`, callbacks with these values have come to be stored, and no others. -/
def Gathers (s : Session) (vs : List Value) (t : Session) : Prop :=
  ∀ v, Stores t v → Stores s v ∨ v ∈ vs

theorem Gathers.trans (h : Gathers s vs t) (h' : Gathers t ws u) : Gathers s (vs ++ ws) u := by
  intro v hv
  rw [List.mem_append]
  rcases h' v hv with hv | hv
  · exact (h v hv).imp_right .inl
  · exact .inr (.inr hv)

theorem gathers_of_routes_eq (h : t.router.routes = s.router.routes) (vs : List Value) :
    Gathers s vs t := by
  intro v hv
  left
  rwa [Stores, h] at hv

theorem gathers_register {route : Route (Callback Step)}
    (h : ∀ callback ∈ route.callbacks, ∀ v ∈ callback.values, Stores s v ∨ v ∈ vs) :
    Gathers s vs { s with router := s.router.register route } := by
  rintro v ⟨name, found, hfound, callback, hcallback, hv⟩
  rw [Router.register, OrderedMap.get?_insert] at hfound
  split at hfound
  · cases hfound
    exact h callback hcallback v hv
  · exact .inl ⟨name, found, hfound, callback, hcallback, hv⟩

theorem gathers_registerAll {routes : List (Route (Callback Step))}
    (h : ∀ route ∈ routes, ∀ callback ∈ route.callbacks, ∀ v ∈ callback.values, v ∈ vs)
    (s : Session) : Gathers s vs { s with router := routes.foldl Router.register s.router } := by
  induction routes generalizing s with
  | nil => exact gathers_of_routes_eq rfl vs
  | cons route rest ih =>
    obtain ⟨hroute, hrest⟩ := List.forall_mem_cons.1 h
    intro v hv
    rcases ih hrest { s with router := s.router.register route } v hv with hv | hv
    · exact gathers_register (fun c hc v hv => .inr (hroute c hc v hv)) v hv
    · exact .inr hv

theorem values_of_prepared {handles : OrderedMap String} {spec : CallbackSpec Step}
    {callback : Callback Step} (h : Prepared handles spec callback) :
    callback.values = spec.values := by
  cases h <;> rfl

theorem values_of_mem_compile {handles : OrderedMap String}
    {entries : List (String × CallbackSpec Step)} {routes : List (String × List (Callback Step))}
    (h : List.Forall₂ (PreparedFor handles) entries routes) {route : Route (Callback Step)}
    (hroute : route ∈ (App.compile routes).1) {callback : Callback Step}
    (hcallback : callback ∈ route.callbacks) (hv : v ∈ callback.values) :
    v ∈ (Step.addRoutes entries).values := by
  change v ∈ entries.flatMap fun e => e.2.values
  induction h with
  | nil => cases hroute
  | @cons e r entries routes hfirst _ ih =>
    obtain ⟨path, callbacks⟩ := r
    obtain ⟨-, prepared, hprepared, hcallbacks⟩ := hfirst
    rw [List.flatMap_cons, List.mem_append]
    cases htemplate : Template.ofPath path with
    | error fault =>
      rw [App.compile_cons_error htemplate] at hroute
      cases hroute
    | ok template =>
      rw [App.compile_cons_ok htemplate] at hroute
      rcases List.mem_cons.1 hroute with rfl | hroute
      · change callbacks = _ at hcallbacks
        change callback ∈ callbacks at hcallback
        rw [hcallbacks] at hcallback
        rw [Callback.mem_steps_callables hcallback, values_of_prepared hprepared] at hv
        exact .inl hv
      · exact .inr (ih hroute)

/-- The values of stored callbacks are told by the steps that have brought them. -/
theorem tells_gathers : Tells (fun step _ => step.values) Gathers where
  refl _ := gathers_of_routes_eq rfl []
  trans := Gathers.trans
  restage _ h := h
  effect h := by
    cases h with
    | register _ hspec =>
      refine gathers_register fun callback hcallback v hv => .inr ?_
      rw [Callback.mem_steps_callables hcallback, values_of_prepared hspec] at hv
      exact hv
    | registerAll hroutes =>
      exact gathers_registerAll (fun route hroute callback hcallback v hv =>
        values_of_mem_compile hroutes hroute hcallback hv) _
    | @attach _ _ callback route hroute hspec =>
      refine gathers_register fun c hc v hv => ?_
      rcases List.mem_append.1 hc with hc | hc
      · exact .inl ⟨_, route, hroute, c, hc, hv⟩
      · rw [List.mem_singleton.1 hc, values_of_prepared hspec] at hv
        exact .inr hv
    | ignore _ _ _ => exact gathers_of_routes_eq rfl _
    | keep _ visits => exact gathers_of_routes_eq rfl _

theorem wellFormed_of_go (hstored : ∀ v, Stores s v → v.WellFormed) {target : String}
    {params : Params} (hparams : params.AllValues Value.WellFormed) {updateUrl : Bool}
    {navigation : Navigation}
    (hgo : App.go (call run) target params updateUrl s = (.ok (some navigation), t)) :
    navigation.params.AllValues Value.WellFormed := by
  obtain ⟨route, given, push, h⟩ := App.destination_of_go hgo
  obtain ⟨arrived, u, hcalls, rfl, -⟩ := App.eq_of_go h hgo
  exact wellFormed_of_callsInTurn
    (fun callback hcallback v hv =>
      hstored v ⟨route.name, route, h.get?_name, callback, hcallback, hv⟩)
    (h.wellFormed hparams) hcalls

section

variable {host : Host} {config : Config} {depth : Nat} {steps : List Step} {a b : Answer}
  (hsteps : ∀ step ∈ steps, step.Throughout Step.WellFormed)

include hsteps

/-- What is stored when a step of the run begins is well-formed. -/
theorem exists_stores_wellFormed (ha : a ∈ (execAll depth steps (start host config)).1)
    (hb : b.Within a) : ∃ d u, (exec d b.step u).1 = b ∧ ∀ v, Stores u v → v.WellFormed := by
  obtain ⟨d, u, before, after, hran, hbefore, htold⟩ :=
    (tells_gathers.execAll depth steps _).2 a ha b hb
  refine ⟨d, u, hran.answer_eq, fun v hv => ?_⟩
  rcases hbefore v hv with ⟨name, route, hroute, -⟩ | hv
  · cases hroute
  · have hmem : v ∈ (execAll depth steps (start host config)).1.flatMap
        (Answer.collect fun step _ => step.values) := by
      rw [htold, List.append_assoc]
      exact List.mem_append_left _ hv
    obtain ⟨a, ha, hv⟩ := List.mem_flatMap.1 hmem
    obtain ⟨c, hc, hv⟩ := Answer.mem_collect_iff.1 hv
    exact step_of_within host config depth hsteps ha hc v hv

theorem wellFormed_of_arrival (ha : a ∈ (execAll depth steps (start host config)).1)
    (hb : b.Within a) {target : String} {params : Params} {updateUrl : Bool}
    {navigation : Navigation} (hstep : b.step = .go target params updateUrl)
    (hresult : b.result = .ok (.navigation (some navigation))) :
    navigation.params.AllValues Value.WellFormed := by
  obtain ⟨d, u, hanswer, hstored⟩ := exists_stores_wellFormed hsteps ha hb
  rw [← hanswer, hstep] at hresult
  obtain ⟨d, t, hgo, -⟩ := go_of_exec hresult
  have hself : b.step.WellFormed := step_of_within host config depth hsteps ha hb
  rw [hstep] at hself
  have hfresh : ∀ v, Stores { u with stage.calls := [] } v → v.WellFormed := hstored
  exact wellFormed_of_go hfresh (OrderedMap.allValues_iff_values.2 hself) hgo

/-- Where all that steps bring is well-formed, the history holds well-formed parameters only. -/
theorem wellFormed_of_mem_history (hempty : host.history = []) {visit : Visit}
    (hvisit : visit ∈ (execAll depth steps (start host config)).2.host.history) :
    visit.params.toValue.WellFormed := by
  rw [OrderedMap.wellFormed_toValue_iff]
  have hnone : (start host config).host.history = [] := hempty
  rw [history_execAll, hnone, List.nil_append] at hvisit
  obtain ⟨a, ha, hvisit⟩ := List.mem_flatMap.1 hvisit
  obtain ⟨step, u, -, -, rfl, -, -, -⟩ := (passes_execAll depth steps _).exists_run ha
  obtain ⟨b, -, v, hb, -, hpush⟩ := exists_pushesItself depth step u visit hvisit
  -- it was pushed directly, or on arrival
  generalize hstep : b.step = own at hpush
  generalize hresult : b.result = result at hpush
  cases hpush with
  | directly visit =>
    have hself : b.step.WellFormed := step_of_within host config depth hsteps ha hb
    rw [hstep] at hself
    exact OrderedMap.allValues_iff_values.2 hself
  | onArrival _ _ _ => exact wellFormed_of_arrival hsteps ha hb hstep hresult

end

end Session

end NamedRoutes
