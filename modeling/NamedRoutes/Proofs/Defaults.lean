import NamedRoutes.Proofs.Navigation
import NamedRoutes.Session.Run

/-!
# Filling in defaults

Parameters that are filled in with one value after another are what comes first of all these
sources: every name stands where it first comes, with the value of the first source that has it,
whatever that value is. So it does not matter whether sources are merged before they are filled in,
and a source that was filled in adds nothing when it is filled in again. A navigation whose
callbacks leave the parameters as they are fills them in with what its callbacks return, and each of
these is called with what comes first of the sources before it.
-/
namespace NamedRoutes

def Value.pairs : Value → List (String × Value)
  | dict entries => entries
  | _ => []

namespace OrderedMap

/-- `m` is what comes first of the sources. -/
structure FirstWins {α : Type} (sources : List (List (String × α))) (m : OrderedMap α) : Prop where
  keys : m.keys = (sources.flatten.map Prod.fst).eraseDups
  value : ∀ key, m.get? key = sources.findSome? (·.lookup key)

theorem FirstWins.unique {α : Type} {sources : List (List (String × α))} {m n : OrderedMap α}
    (hm : FirstWins sources m) (hn : FirstWins sources n) : m = n :=
  ext_get? (hm.keys.trans hn.keys.symm) fun key => (hm.value key).trans (hn.value key).symm

def mergeAll (p : Params) (vs : List Value) : Params := vs.foldl mergeDefaults p

variable {p : Params} {v : Value} {vs : List Value}

theorem mergeDefaults_eq (p : Params) (v : Value) : p.mergeDefaults v = p.insertAllNew v.pairs := by
  cases v <;> rfl

theorem mergeAll_concat (p : Params) (vs : List Value) (v : Value) :
    p.mergeAll (vs ++ [v]) = (p.mergeAll vs).mergeDefaults v :=
  List.foldl_append

theorem mergeAll_eq_insertAllNew (p : Params) (vs : List Value) :
    p.mergeAll vs = p.insertAllNew (vs.flatMap Value.pairs) := by
  induction vs generalizing p with
  | nil => rfl
  | cons v vs ih =>
    rw [List.flatMap_cons, insertAllNew_append, ← mergeDefaults_eq]
    exact ih _

theorem lookup_flatMap_pairs (vs : List Value) (key : String) :
    (vs.flatMap Value.pairs).lookup key = (vs.map Value.pairs).findSome? (·.lookup key) := by
  induction vs with
  | nil => rfl
  | cons v vs ih =>
    rw [List.flatMap_cons, List.lookup_append, ih, List.map_cons, List.findSome?_cons]
    cases v.pairs.lookup key <;> rfl

theorem firstWins_mergeAll (p : Params) (vs : List Value) :
    FirstWins (p.entries :: vs.map Value.pairs) (p.mergeAll vs) where
  keys := by
    rw [mergeAll_eq_insertAllNew, keys_insertAllNew, List.flatten_cons, ← List.flatMap_def,
      List.map_append]
    rfl
  value key := by
    rw [mergeAll_eq_insertAllNew, get?_insertAllNew, lookup_flatMap_pairs, List.findSome?_cons]
    change (p.entries.lookup key).or _ = _
    cases p.entries.lookup key <;> rfl

theorem mergeDefaults_of_mem (p : Params) (h : v ∈ vs) :
    (p.mergeAll vs).mergeDefaults v = p.mergeAll vs := by
  rw [mergeDefaults_eq]
  refine insertAllNew_of_subset fun e he => ?_
  rw [(firstWins_mergeAll p vs).keys, List.mem_eraseDups, List.flatten_cons, ← List.flatMap_def]
  exact List.mem_map_of_mem (List.mem_append_right _ (List.mem_flatMap.2 ⟨v, h, he⟩))

theorem mergeDefaults_mergeAll_empty (p : Params) (vs : List Value) :
    p.mergeDefaults (mergeAll .empty vs).toValue = p.mergeAll vs := by
  change p.insertAllNew (mergeAll .empty vs).entries = _
  rw [mergeAll_eq_insertAllNew, mergeAll_eq_insertAllNew, insertAllNew_insertAllNew]
  rfl

theorem getElem?_mergeEach (p : Params) (vs : List Value) (i : Nat) :
    (p.mergeEach vs)[i]? = vs[i]?.map fun _ => p.mergeAll (vs.take (i + 1)) := by
  induction vs generalizing p i with
  | nil => rfl
  | cons v vs ih =>
    cases i with
    | zero => rfl
    | succ i =>
      rw [mergeEach, List.getElem?_cons_succ, ih, List.getElem?_cons_succ]
      rfl

end OrderedMap

namespace App

variable {κ ω : Type} {call : Caller κ ω} {app app₁ app' : App κ ω} {route : Route κ}
  {given arrived : Params} {called callbacks : List κ} {vs : List Value}

/-- The callback leaves the parameters as they are, whenever it returns. -/
def Spares (call : Caller κ ω) (callback : κ) : Prop :=
  ∀ ⦃params changed returned app app'⦄,
    call callback params app = (.ok (changed, returned), app') → changed = params

/-- The callbacks have returned these values in turn. Each of them was called with the parameters
that were given, filled in with what those before it had returned. -/
inductive ReturnInTurn (call : Caller κ ω) (given : Params) (app : App κ ω) :
    List κ → List Value → App κ ω → Prop
  | start : ReturnInTurn call given app [] [] app
  | next {called vs app₁ callback v app₂} (h : ReturnInTurn call given app called vs app₁)
      (hcall : call callback (given.mergeAll vs) app₁ = (.ok (given.mergeAll vs, v), app₂)) :
      ReturnInTurn call given app (called ++ [callback]) (vs ++ [v]) app₂

theorem ReturnInTurn.append {called' : List κ} (h : ReturnInTurn call given app called vs app₁)
    (hspares : ∀ c ∈ callbacks, Spares call c)
    (hcalls : CallsInTurn call callbacks (given.mergeAll vs) app₁ called' (.ok arrived) app') :
    ∃ vs', ReturnInTurn call given app (called ++ callbacks) vs' app' ∧
      arrived = given.mergeAll vs' := by
  generalize hparams : given.mergeAll vs = params at hcalls
  generalize houtcome : Except.ok arrived = outcome at hcalls
  induction hcalls generalizing called vs with
  | done =>
    cases houtcome
    exact ⟨vs, by rwa [List.append_nil], hparams.symm⟩
  | fails _ => cases houtcome
  | @returns callback rest params app changed returned app₂ _ _ _ hcall hrest ih =>
    obtain ⟨hcallback, hspares⟩ := List.forall_mem_cons.1 hspares
    cases hcallback hcall
    subst hparams
    rw [List.append_cons]
    exact ih (h.next hcall) hspares (given.mergeAll_concat vs returned) houtcome

theorem exists_returnInTurn (hspares : ∀ c ∈ callbacks, Spares call c)
    (hcalls : CallsInTurn call callbacks given app called (.ok arrived) app') :
    ∃ vs, ReturnInTurn call given app callbacks vs app' ∧ arrived = given.mergeAll vs :=
  ReturnInTurn.start.append hspares hcalls

theorem params_of_arrive {router : Router κ} {push : Bool} {navigation : Navigation}
    (h : arrive router route push arrived app = (.ok navigation, app')) :
    navigation.params = arrived := by
  rcases arrive_cases router route push arrived app with ⟨fault, harrive⟩ | harrive <;>
    cases harrive.symm.trans h
  rfl

variable {target : String} {params : Params} {updateUrl push : Bool}

/-- A navigation to a route whose callbacks leave the parameters as they are calls each of them with
the given parameters, filled in with what those before it returned, and arrives with what has been
filled in by all; or one of them fails, and the navigation with it. Filling in one value after
another gives what comes first of all sources, and so does every step on the way. It does not matter
if a value is filled in again, or if the values have been merged before. -/
theorem go_fills_in (hspares : ∀ c ∈ route.callbacks, Spares call c)
    (h : Destination app.router target params updateUrl route given push) :
    ((∃ vs app', ReturnInTurn call given app route.callbacks vs app' ∧
        go call target params updateUrl app =
          ((arrive app.router route push (given.mergeAll vs) app').1.map some,
            (arrive app.router route push (given.mergeAll vs) app').2) ∧
        ∀ navigation t, go call target params updateUrl app = (.ok (some navigation), t) →
          navigation.params = given.mergeAll vs) ∨
      ∃ before callback after vs app₁ fault app', route.callbacks = before ++ callback :: after ∧
        ReturnInTurn call given app before vs app₁ ∧
        call callback (given.mergeAll vs) app₁ = (.error fault, app') ∧
        go call target params updateUrl app = (.error fault, app')) ∧
    ∀ (p : Params) (vs : List Value),
      OrderedMap.FirstWins (p.entries :: vs.map Value.pairs) (p.mergeAll vs) ∧
      (∀ i : Nat, (p.mergeEach vs)[i]? = vs[i]?.map fun _ => p.mergeAll (vs.take (i + 1))) ∧
      (∀ v ∈ vs, (p.mergeAll vs).mergeDefaults v = p.mergeAll vs) ∧
      p.mergeDefaults (OrderedMap.mergeAll .empty vs).toValue = p.mergeAll vs := by
  refine ⟨?_, fun p vs => ⟨OrderedMap.firstWins_mergeAll p vs, OrderedMap.getElem?_mergeEach p vs,
    fun v hv => OrderedMap.mergeDefaults_of_mem p hv, OrderedMap.mergeDefaults_mergeAll_empty p vs⟩⟩
  obtain ⟨called, outcome, app', hcalls⟩ := exists_callsInTurn call route.callbacks given app
  have hgo := go_of_callsInTurn h hcalls
  cases outcome with
  | ok arrived =>
    left
    obtain ⟨vs, hreturn, rfl⟩ := exists_returnInTurn hspares hcalls
    rw [conclude_ok] at hgo
    refine ⟨vs, app', hreturn, hgo, fun navigation t ht => ?_⟩
    rw [hgo] at ht
    rcases harrive : arrive app.router route push (given.mergeAll vs) app' with
      ⟨fault | found, u⟩ <;> rw [harrive] at ht <;> cases ht
    exact params_of_arrive harrive
  | error fault =>
    right
    obtain ⟨before, callback, after, arrived, app₁, hsplit, -, hbefore, hcall⟩ :=
      hcalls.exists_of_error
    have hbeforeSpares : ∀ c ∈ before, Spares call c := fun c hc =>
      hspares c (hsplit ▸ List.mem_append_left _ hc)
    obtain ⟨vs, hreturn, rfl⟩ := exists_returnInTurn hbeforeSpares hbefore
    exact ⟨before, callback, after, vs, app₁, fault, app', hsplit, hreturn, hcall, hgo⟩

end App

namespace Session

open NamedRoutes.Action

/-- `Leaves callback params changed returned`: a call that returns with the first parameters leaves
the second ones and this value. -/
inductive Leaves : Callback Step → Params → Params → Value → Prop
  | invoker (route : String) (params : Params) : Leaves (.invoker route) params params .null
  | script (serial : Nat) (script : Script Step) (params : Params) :
    Leaves (.script serial script) params
      ((params.insertAll script.sets).eraseAll script.deletes) script.returns

theorem leaves_of_call {run : Runner} {callback : Callback Step} {params changed : Params}
    {returned : Value} {s t : Session}
    (hcall : call run callback params s = (.ok (changed, returned), t)) :
    Leaves callback params changed returned := by
  cases callback with
  | value v => cases hcall
  | invoker route =>
    rw [call, Action.bind_apply] at hcall
    rcases hr : invoke run route params.toValue s with ⟨fault | ⟨⟩, u⟩ <;> rw [hr] at hcall <;>
      cases hcall
    exact .invoker route params
  | script serial script =>
    rw [call, callScript, Action.get_bind_apply, Action.bind_apply, Action.modify_apply] at hcall
    dsimp only at hcall
    rw [Action.bind_apply] at hcall
    rcases hr : carryOut run script.propagate (.callback script.id params)
      (dueSteps s.stage.called serial script) (Action.failWith (script.fault.map .raised))
      { s with stage.called := serial :: s.stage.called } with ⟨fault | ⟨⟩, u⟩ <;>
      rw [hr] at hcall <;> cases hcall
    exact .script serial script params

def IsSparing : Callback Step → Prop
  | .script _ script => script.sets = [] ∧ script.deletes = []
  | _ => True

theorem spares_call (run : Runner) {callback : Callback Step} (h : IsSparing callback) :
    App.Spares (call run) callback := by
  intro params changed returned s t hcall
  cases leaves_of_call hcall with
  | invoker route => rfl
  | script serial script =>
    obtain ⟨hsets, hdeletes⟩ := h
    rw [hsets, hdeletes]
    rfl

def reciting (serial : Nat) (v : Value) : Callback Step :=
  .script serial
    { id := "recite", sets := [], deletes := [], steps := [], once := false, propagate := true
      fault := none, returns := v }

theorem spares_reciting (run : Runner) (serial : Nat) (v : Value) :
    App.Spares (call run) (reciting serial v) := by
  have h : IsSparing (reciting serial v) := ⟨rfl, rfl⟩
  exact spares_call run h

/-- The route `/q`. Its callbacks return a null, what is no dictionary, and names that are there. -/
def query : Route (Callback Step) :=
  ⟨"query", ⟨[.separator, .literal 'q'], by decide⟩,
    [reciting 0 (.dict [("page", .null), ("sort", .str "up")]), reciting 1 (.int 7),
      reciting 2 (.dict [("page", .int 3), ("lang", .str "en")])]⟩

def querySession : Session :=
  { start { behaviour := .memory true } {} with router := (Router.empty {} true).register query }

end Session

theorem App.go_fills_in_query :
    let given : Params := .ofList [("sort", .bool false)]
    ∃ vs s navigation t,
      ReturnInTurn (Session.call (Session.exec 1)) given Session.querySession
        Session.query.callbacks vs s ∧
      go (Session.call (Session.exec 1)) "query" given true Session.querySession =
        (.ok (some navigation), t) ∧
      navigation.params = given.mergeAll vs ∧
      navigation.params.entries =
        [("sort", .bool false), ("page", .null), ("lang", .str "en")] := by
  intro given
  have hspares : ∀ c ∈ Session.query.callbacks, Spares (Session.call (Session.exec 1)) c := by
    intro c hc
    simp only [Session.query, List.mem_cons, List.not_mem_nil, or_false] at hc
    rcases hc with rfl | rfl | rfl <;> exact Session.spares_reciting _ _ _
  have hdest : Destination Session.querySession.router "query" given true Session.query given
      true := .named rfl
  obtain ⟨navigation, t, hgo, hentries⟩ : ∃ navigation t,
      go (Session.call (Session.exec 1)) "query" given true Session.querySession =
        (.ok (some navigation), t) ∧
      navigation.params.entries =
        [("sort", .bool false), ("page", .null), ("lang", .str "en")] := ⟨_, _, rfl, rfl⟩
  rcases (go_fills_in hspares hdest).1 with
    ⟨vs, s, hreturn, -, hparams⟩ | ⟨_, _, _, _, _, _, _, _, _, _, hfails⟩
  · exact ⟨vs, s, navigation, t, hreturn, hgo, hparams navigation t hgo, hentries⟩
  · cases hgo.symm.trans hfails

end NamedRoutes
