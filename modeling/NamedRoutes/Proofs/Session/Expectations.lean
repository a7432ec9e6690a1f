import NamedRoutes.Proofs.Session.Arrival
import NamedRoutes.Proofs.Session.BulkRegistration
import NamedRoutes.Proofs.Session.Provenance

/-!
# What is expected of pushes

An expectation of the last push is met when the newest visit of the history has the URL, and the
route and the same parameters where these are given. Where it is not met, the first of the checks
that fails is worded, and checking changes nothing. Where all that steps bring is well-formed, so
are the parameters of visits, and right behind a navigation that tells its push, what it tells is
met, with its parameters in any order.
-/
namespace NamedRoutes

open Text

/-- The visit has the URL and, where they are given, the route and the same parameters. -/
structure Visit.Meets (visit : Visit) (url : String) (route : Option String)
    (params : Option Params) : Prop where
  url : visit.url = url
  route : ∀ r ∈ route, visit.route = r
  params : ∀ p ∈ params, visit.params.toValue.Same p.toValue

/-- How the first check that fails is worded. Every check comes behind those that are passed. -/
inductive FirstUnmet (history : List Visit) (url : String) (route : Option String)
    (params : Option Params) : String → Prop
  | nothingPushed (hempty : history = []) :
    FirstUnmet history url route params
      ("Expected a push to " ++ quoted url ++ ", but nothing was pushed")
  | url {last : Visit} (hlast : history.getLast? = some last) (hurl : last.url ≠ url) :
    FirstUnmet history url route params
      ("Expected last push to " ++ quoted url ++ ", got " ++ quoted last.url)
  | route {last : Visit} {r : String} (hlast : history.getLast? = some last)
      (hurl : last.url = url) (hr : route = some r) (hroute : last.route ≠ r) :
    FirstUnmet history url route params
      ("Expected route " ++ quoted r ++ ", got " ++ quoted last.route)
  | params {last : Visit} {p : Params} (hlast : history.getLast? = some last)
      (hurl : last.url = url) (hroute : ∀ r ∈ route, last.route = r) (hp : params = some p)
      (hparams : ¬ last.params.toValue.Same p.toValue) :
    FirstUnmet history url route params
      ("Expected params " ++ p.toValue.displayText ++ ", got " ++
        last.params.toValue.displayText)

def Met (history : List Visit) (url : String) (route : Option String) (params : Option Params) :
    Prop :=
  ∃ last, history.getLast? = some last ∧ last.Meets url route params

section

variable {url : String} {route : Option String} {params : Option Params} {history : List Visit}

theorem FirstUnmet.not_met {text : String} (h : FirstUnmet history url route params text) :
    ¬ Met history url route params := by
  rintro ⟨newest, hnewest, hmeets⟩
  cases h with
  | nothingPushed hempty =>
    rw [hempty] at hnewest
    cases hnewest
  | url hlast hurl =>
    cases hlast.symm.trans hnewest
    exact hurl hmeets.url
  | route hlast _ hr hroute =>
    cases hlast.symm.trans hnewest
    exact hroute (hmeets.route _ hr)
  | params hlast _ _ hp hparams =>
    cases hlast.symm.trans hnewest
    exact hparams (hmeets.params _ hp)

end

namespace Visit

variable (visit : Visit)

theorem expectUrl_cases (url : String) :
    (visit.expectUrl url = .ok () ∧ visit.url = url) ∨
      visit.expectUrl url = .error (.url url visit.url) ∧ visit.url ≠ url := by
  rw [expectUrl]
  split
  · next h => exact .inl ⟨rfl, h⟩
  · next h => exact .inr ⟨rfl, h⟩

theorem expectRoute_cases (route : Option String) :
    (visit.expectRoute route = .ok () ∧ ∀ r ∈ route, visit.route = r) ∨
      ∃ r, route = some r ∧ visit.expectRoute route = .error (.route r visit.route) ∧
        visit.route ≠ r := by
  cases route with
  | none => exact .inl ⟨rfl, fun r hr => by cases hr⟩
  | some r =>
    rw [expectRoute]
    split
    · next h => exact .inl ⟨rfl, by simpa using h⟩
    · next h => exact .inr ⟨r, rfl, rfl, h⟩

variable {visit} in
theorem expectParams_cases (hvisit : visit.params.toValue.WellFormed) (params : Option Params) :
    (visit.expectParams params = .ok () ∧ ∀ p ∈ params, visit.params.toValue.Same p.toValue) ∨
      ∃ p, params = some p ∧ visit.expectParams params = .error (.params p visit.params) ∧
        ¬ visit.params.toValue.Same p.toValue := by
  cases params with
  | none => exact .inl ⟨rfl, fun p hp => by cases hp⟩
  | some p =>
    rw [expectParams]
    split
    · next h => exact .inl ⟨rfl, by simpa using (Value.equal_iff_same hvisit _).1 h⟩
    · next h => exact .inr ⟨p, rfl, rfl, fun hsame => h ((Value.equal_iff_same hvisit _).2 hsame)⟩

end Visit

theorem Host.expectPushed_cases {h : Host}
    (hwf : ∀ visit ∈ h.history, visit.params.toValue.WellFormed) (url : String)
    (route : Option String) (params : Option Params) :
    (h.expectPushed url route params = .ok () ∧ Met h.history url route params) ∨
      ∃ unmet, h.expectPushed url route params = .error unmet ∧
        FirstUnmet h.history url route params unmet.message := by
  rw [expectPushed]
  cases hlast : h.history.getLast? with
  | none => exact .inr ⟨_, rfl, .nothingPushed (List.getLast?_eq_none_iff.1 hlast)⟩
  | some last =>
    have hparams := Visit.expectParams_cases (hwf last (List.mem_of_getLast? hlast)) params
    dsimp only
    rcases last.expectUrl_cases url with ⟨hcheck, hurl⟩ | ⟨hcheck, hurl⟩ <;> rw [hcheck]
    · rcases last.expectRoute_cases route with ⟨hcheck, hroute⟩ | ⟨r, hr, hcheck, hroute⟩ <;>
        rw [hcheck]
      · rcases hparams with ⟨hcheck, hparams⟩ | ⟨p, hp, hcheck, hparams⟩ <;> rw [hcheck]
        · exact .inl ⟨rfl, last, hlast, hurl, hroute, hparams⟩
        · exact .inr ⟨_, rfl, .params hlast hurl hroute hp hparams⟩
      · exact .inr ⟨_, rfl, .route hlast hurl hr hroute⟩
    · exact .inr ⟨_, rfl, .url hlast hurl⟩

theorem Host.expectNoPush_cases (h : Host) :
    (h.expectNoPush = .ok () ∧ h.history = []) ∨
      h.expectNoPush = .error (.pushed h.urls) ∧ h.history ≠ [] := by
  rw [expectNoPush]
  split
  · next hempty => exact .inl ⟨rfl, List.isEmpty_iff.1 hempty⟩
  · next hempty => exact .inr ⟨rfl, fun hnil => hempty (List.isEmpty_iff.2 hnil)⟩

namespace Session

variable {host : Host} {config : Config} {depth : Nat} {s t : Session}

/-- The step changes nothing. It succeeds where something is met, and only there, and otherwise it
fails with an unmet expectation that is worded so. -/
structure Decides (depth : Nat) (step : Step) (s : Session) (met : Prop) (wording : String → Prop) :
    Prop where
  unchanged : (exec depth step s).2 = s
  succeeds : (exec depth step s).1.result = .ok .nothing ↔ met
  fails : ¬ met → ∃ unmet, (exec depth step s).1.result = .error (.unmet unmet) ∧
    wording (Fault.unmet unmet).message

theorem decides_of_asserted {step : Step} {check : Except Unmet Unit} {met : Prop}
    {wording : String → Prop}
    (hstep : ∀ run s', s'.host = s.host → perform run step s' = (asserted check, s'))
    (hcheck : (check = .ok () ∧ met) ∨
      ∃ unmet, check = .error unmet ∧ ¬ met ∧ wording unmet.message) (depth : Nat) :
    Decides (depth + 1) step s met wording := by
  have hexec : exec (depth + 1) step s = (⟨step, asserted check, [], []⟩, s) := by
    rw [exec_succ, answer_apply, hstep _ { s with stage.calls := [] } rfl]
    simp
  have hresult : (exec (depth + 1) step s).1.result = asserted check := by rw [hexec]
  have hunchanged : (exec (depth + 1) step s).2 = s := by rw [hexec]
  refine ⟨hunchanged, ?_, fun hnot => ?_⟩ <;> rw [hresult]
  · rcases hcheck with ⟨rfl, hmet⟩ | ⟨unmet, rfl, hnot, -⟩
    · exact iff_of_true rfl hmet
    · exact iff_of_false (fun h => by cases h) hnot
  · rcases hcheck with ⟨-, hmet⟩ | ⟨unmet, rfl, -, hwording⟩
    · exact absurd hmet hnot
    · exact ⟨unmet, rfl, hwording⟩

/-- Both steps that check what has been pushed decide it, at whatever depth they are run. -/
structure ChecksPushes (s : Session) : Prop where
  pushed (depth : Nat) (url : String) (route : Option String) (params : Option Params) :
    Decides (depth + 1) (.expectPushed url route params) s (Met s.host.history url route params)
      (FirstUnmet s.host.history url route params)
  noPush (depth : Nat) :
    Decides (depth + 1) .expectNoPush s (s.host.history = []) fun text =>
      text = "Expected no pushes, got " ++ (Value.list (s.host.urls.map .str)).displayText

theorem checksPushes_of_wellFormed
    (hwf : ∀ visit ∈ s.host.history, visit.params.toValue.WellFormed) : ChecksPushes s where
  pushed depth url route params := by
    refine decides_of_asserted (fun run s' hs' => ?_)
      ((Host.expectPushed_cases hwf url route params).imp_right ?_) depth
    · rw [perform_expectPushed, hs']
    · rintro ⟨unmet, hcheck, hfirst⟩
      exact ⟨unmet, hcheck, hfirst.not_met, hfirst⟩
  noPush depth := by
    refine decides_of_asserted (fun run s' hs' => ?_)
      (s.host.expectNoPush_cases.imp_right ?_) depth
    · rw [perform_expectNoPush, hs']
    · rintro ⟨hcheck, hnot⟩
      exact ⟨.pushed s.host.urls, hcheck, hnot, rfl⟩

theorem ChecksPushes.result_of_met (h : ChecksPushes s) {url : String} {route : Option String}
    {params : Option Params} (hmet : Met s.host.history url route params) (depth : Nat) :
    (exec (depth + 1) (.expectPushed url route params) s).1.result = .ok .nothing :=
  (h.pushed depth url route params).succeeds.2 hmet

theorem newest_of_go (hs : Precedes (start host config) s) {target : String} {params : Params}
    {updateUrl : Bool} {navigation : Navigation}
    (h : (exec depth (.go target params updateUrl) s).1.result =
      .ok (.navigation (some navigation))) (hpushed : navigation.pushed) :
    ∃ url, navigation.url = some url ∧
      (exec depth (.go target params updateUrl) s).2.host.history.getLast? =
        some ⟨url, navigation.route, navigation.params⟩ := by
  obtain ⟨d, t, hgo, ht⟩ := go_of_exec h
  obtain ⟨route, given, push, hdest⟩ := App.destination_of_go hgo
  obtain ⟨arrived, u, hcalls, rfl, rfl⟩ := App.eq_of_go hdest hgo
  have hpush : App.pushesOnArrival s.router route push := hpushed
  have hhistory := App.supportsHistory_of_pushesOnArrival hpush
  obtain ⟨calls, hu⟩ := accounted_runCallbacks (tally_exec d) route.callbacks given
    { s with stage.calls := [] }
  rw [hcalls.runCallbacks_eq] at hu
  have hstart : Precedes (start host config) u :=
    (hs.trans (precedes_restage s _)).trans hu.precedes
  have hhost : host.supportsHistory := hs.supportsHistory.symm.trans hhistory
  refine ⟨route.template.url arrived, if_pos hhistory, ?_⟩
  rw [ht, if_pos hpush, kept_of_supportsHistory hstart hhost]
  exact List.getLast?_concat

/-- At every moment of a session with a memory host, however its steps are nested, an expectation of
the last push is met if and only if there is a visit, and the newest one has the URL, the route and
the same parameters, as far as they are given. Otherwise the first check that fails is worded.
Checking changes nothing. So right behind a navigation that tells its push, what it tells is met,
with its parameters in any order, and that there is no push is not. -/
theorem expectations_decided (history : Bool) (config : Config) (depth : Nat) {steps : List Step}
    (hsteps : ∀ step ∈ steps, step.Throughout Step.WellFormed) :
    let s := start { behaviour := .memory history } config
    let answers := (execAll depth steps s).1
    let t := (execAll depth steps s).2
    ChecksPushes t ∧
    (∀ a ∈ answers, ∀ b, b.Within a → ∃ d u, RanIn (exec d) s t u b) ∧
    ∀ d u b, RanIn (exec d) s t u b →
      ChecksPushes u ∧ ChecksPushes (exec d b.step u).2 ∧
      ∀ target params updateUrl navigation, b.step = .go target params updateUrl →
        b.result = .ok (.navigation (some navigation)) → navigation.pushed →
        ∃ url, navigation.url = some url ∧
          (∀ depth route params, (∀ r ∈ route, r = navigation.route) →
            (∀ p ∈ params, navigation.params.toValue.Reordered p.toValue) →
            (exec (depth + 1) (.expectPushed url route params) (exec d b.step u).2).1.result =
              .ok .nothing) ∧
          ∀ depth, ∃ unmet,
            (exec (depth + 1) .expectNoPush (exec d b.step u).2).1.result =
              .error (.unmet unmet) := by
  intro s answers t
  have hwf : ∀ visit ∈ t.host.history, visit.params.toValue.WellFormed :=
    fun visit hvisit => wellFormed_of_mem_history hsteps rfl hvisit
  -- the history of any moment is a beginning of the last one
  have hchecks : ∀ {u}, Precedes u t → ChecksPushes u := fun hu =>
    checksPushes_of_wellFormed fun visit hvisit => hwf visit (hu.history.subset hvisit)
  refine ⟨hchecks (.refl t), fun a ha b hb => ?_, fun d u b hran => ?_⟩
  · obtain ⟨d, u, -, -, hran, -⟩ := (tells_gathers.execAll depth steps s).2 a ha b hb
    exact ⟨d, u, hran⟩
  · have hbehind : ChecksPushes (exec d b.step u).2 := hchecks hran.after
    refine ⟨hchecks ((tally_exec d b.step u).precedes.trans hran.after), hbehind, ?_⟩
    intro target params updateUrl navigation hgo hresult hpushed
    rw [← hran.answer_eq, hgo] at hresult
    obtain ⟨url, hurl, hnewest⟩ := newest_of_go hran.before hresult hpushed
    rw [← hgo] at hnewest
    refine ⟨url, hurl, fun depth route params hroute hparams => ?_, fun depth => ?_⟩
    · refine hbehind.result_of_met ⟨_, hnewest, rfl, fun r hr => (hroute r hr).symm, ?_⟩ depth
      intro p hp
      have hnavigation : navigation.params.toValue.WellFormed :=
        hwf _ (hran.after.history.subset (List.mem_of_getLast? hnewest))
      exact ((hparams p hp).wellFormed_and_same hnavigation).2
    · obtain ⟨unmet, hunmet, -⟩ := (hbehind.noPush depth).fails fun hempty => by
        rw [hempty] at hnewest
        cases hnewest
      exact ⟨unmet, hunmet⟩

def itemTemplate : Template :=
  ⟨[.separator, .literal 'i', .separator, .hole .param "id"], by decide⟩

def noting : Script Step :=
  { id := "note"
    sets := [("seen", .dict [("by", .str "ann"), ("count", .int 1)])]
    deletes := []
    steps := [.push ⟨"/aside", "aside", .empty⟩]
    once := false
    propagate := true
    fault := none
    returns := .null }

def addItem : Step := .addRoute "item" "/i/:id" (.script noting)

def showItem : Step := .go "item" (.ofList [("id", .int 7)]) true

theorem throughout_item : ∀ step ∈ [addItem, showItem], step.Throughout Step.WellFormed := by
  have haside : (Step.push ⟨"/aside", "aside", .empty⟩).Throughout Step.WellFormed :=
    ⟨List.forall_mem_nil _, List.forall_mem_nil _⟩
  have hseen : (Value.dict [("by", .str "ann"), ("count", .int 1)]).WellFormed :=
    .dict (by decide) (List.forall_mem_cons.2 ⟨.str _, List.forall_mem_singleton.2 (.int _)⟩)
  have hadd : addItem.Throughout Step.WellFormed :=
    ⟨List.forall_mem_cons.2 ⟨hseen, List.forall_mem_singleton.2 .null⟩,
      List.forall_mem_singleton.2 haside⟩
  have hshow : showItem.Throughout Step.WellFormed :=
    ⟨List.forall_mem_singleton.2 (.int 7), List.forall_mem_nil _⟩
  exact List.forall_mem_cons.2 ⟨hadd, List.forall_mem_singleton.2 hshow⟩

theorem exec_addItem :
    let s : Session := start { behaviour := .memory true } {}
    (exec 2 addItem s).2 =
      { s with
        router := s.router.register ⟨"item", itemTemplate, [.script 0 noting]⟩
        stage.serials := 1 } := by
  intro s
  have htemplate : Template.ofPath "/i/:id" = .ok itemTemplate := Template.ofPath_path itemTemplate
  have hmakes : MakesOne s.stage.handles s.stage.serials (.script noting) (.script 0 noting) 1 := by
    refine ⟨.script 0 noting, fun t _ ht => ?_⟩
    change (Except.ok (Callback.script t.stage.serials noting), _) = _
    rw [ht]
    rfl
  rw [addItem, exec_addRoute 1 htemplate hmakes]
  rfl

theorem expectations_decided_item :
    let s : Session := start { behaviour := .memory true } {}
    let t := (execAll 2 [addItem, showItem] s).2
    (∀ step ∈ [addItem, showItem], step.Throughout Step.WellFormed) ∧ ChecksPushes t ∧
    ∃ navigation url,
      (exec 2 showItem (exec 2 addItem s).2).1.result = .ok (.navigation (some navigation)) ∧
      navigation.url = some url ∧
      (exec 1 (.expectPushed url (some "item") (some (.ofList
        [("seen", .dict [("count", .int 1), ("by", .str "ann")]), ("id", .int 7)]))) t).1.result =
        .ok .nothing ∧
      ∃ unmet, (exec 1 .expectNoPush t).1.result = .error (.unmet unmet) := by
  intro s t
  obtain ⟨hchecks, -, hran⟩ := expectations_decided true {} 2 throughout_item
  obtain ⟨navigation, hresult, hroute, hpushed, hparams⟩ : ∃ navigation,
      (exec 2 showItem (exec 2 addItem s).2).1.result = .ok (.navigation (some navigation)) ∧
      navigation.route = "item" ∧ navigation.pushed ∧ navigation.params.entries =
        [("id", .int 7), ("seen", .dict [("by", .str "ann"), ("count", .int 1)])] := by
    rw [exec_addItem]
    exact ⟨_, rfl, rfl, rfl, rfl⟩
  have hlast : RanIn (exec 2) s t (exec 2 addItem s).2 (exec 2 showItem (exec 2 addItem s).2).1 :=
    ⟨(tally_exec 2 addItem s).precedes, rfl, .refl t⟩
  obtain ⟨-, -, hgo⟩ := hran 2 _ _ hlast
  obtain ⟨url, hurl, hmet, hnoPush⟩ := hgo _ _ _ navigation rfl hresult hpushed
  have hend : (exec 2 (exec 2 showItem (exec 2 addItem s).2).1.step (exec 2 addItem s).2).2 = t :=
    rfl
  rw [hend] at hmet hnoPush
  refine ⟨throughout_item, hchecks, navigation, url, hresult, hurl, hmet 0 _ _ ?_ ?_, hnoPush 0⟩
  · simp [hroute]
  · intro p hp
    cases hp
    rw [OrderedMap.toValue, hparams]
    exact .trans (.permute (.swap _ _ [])) (.entry [] "seen" _ (.permute (.swap _ _ [])))

end Session

end NamedRoutes
