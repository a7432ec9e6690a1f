import NamedRoutes.Proofs.Session.History

/-!
# Arriving by name

What a navigation to the name of a route tells when it has arrived, what it has pushed, and what the
builder of URLs says agree, on the route as it stood when the navigation began and on the parameters
as the callbacks left them. Its own push comes once, behind all that the callbacks have pushed.
-/
namespace NamedRoutes

namespace Session

variable {host : Host} {config : Config} {depth : Nat} {s t : Session} {name : String}
  {params : Params} {updateUrl : Bool} {route : Route (Callback Step)} {navigation : Navigation}

theorem kept_of_supportsHistory (hs : Precedes (start host config) s)
    (hhistory : host.supportsHistory) (visit : Visit) : s.host.kept visit = [visit] := by
  have hbehaviour : s.host.behaviour = host.behaviour := hs.behaviour
  rw [Host.kept]
  split
  · next hsilent =>
    rw [Host.supportsHistory, ← hbehaviour, hsilent] at hhistory
    cases hhistory
  · rfl

theorem pushesOnArrival_iff (hs : Precedes (start host config) s)
    (hroute : s.router.routes.get? name = some route) :
    App.pushesOnArrival s.router route updateUrl ↔
      host.supportsHistory ∧ updateUrl ∧ name ≠ config.indexRoute := by
  have hhistory : s.router.supportsHistory = host.supportsHistory := hs.supportsHistory
  have hconfig : s.router.config = config := hs.config
  rw [App.pushesOnArrival, s.router.named hroute, hhistory, hconfig]
  simp

/-- A navigation to the name of a route calls the callbacks that the route had, all of them in turn,
and tells the parameters that they leave. Where history is supported it tells the URL that was built
of these before it began, and unless the route is the index, or no push is asked for, it pushes this
visit behind all that the callbacks have pushed. Otherwise it pushes nothing itself. -/
theorem go_by_name (hs : Precedes (start host config) s)
    (hroute : s.router.routes.get? name = some route)
    (hgo : App.go (call (exec depth)) name params updateUrl s = (.ok (some navigation), t)) :
    ∃ url u calls,
      App.CallsInTurn (call (exec depth)) route.callbacks params s route.callbacks
        (.ok navigation.params) u ∧
      u.stage.calls = s.stage.calls ++ calls ∧
      u.host.history = s.host.history ++ (calls.flatMap Call.steps).flatMap Answer.pushes ∧
      t = u.keeping (if navigation.pushed then [⟨url, name, navigation.params⟩] else []) ∧
      (navigation.pushed → t.host.history.getLast? = some ⟨url, name, navigation.params⟩) ∧
      App.urlFor name navigation.params s = (.ok url, s) ∧
      navigation.route = name ∧
      navigation.url = (if host.supportsHistory then some url else none) ∧
      (navigation.pushed ↔ host.supportsHistory ∧ updateUrl ∧ name ≠ config.indexRoute) ∧
      (route.callbacks = [] → App.urlFor name params s = (.ok url, s)) := by
  obtain ⟨arrived, u, hcalls, rfl, ht⟩ := App.eq_of_go_named hroute hgo
  obtain ⟨calls, hu⟩ := accounted_runCallbacks (tally_exec depth) route.callbacks params s
  rw [hcalls.runCallbacks_eq] at hu
  have hpushed : App.pushesOnArrival s.router route updateUrl ↔
      host.supportsHistory ∧ updateUrl ∧ name ≠ config.indexRoute :=
    pushesOnArrival_iff hs hroute
  have hhistory : s.router.supportsHistory = host.supportsHistory := hs.supportsHistory
  have hkeeping : t = u.keeping (if App.pushesOnArrival s.router route updateUrl then
      [⟨route.template.url arrived, name, arrived⟩] else []) := by
    rw [ht]
    split
    · next h => rw [kept_of_supportsHistory (hs.trans hu.precedes) (hpushed.1 h).1]
    · rfl
  refine ⟨route.template.url arrived, u, calls, hcalls, hu.calls_eq, ?_, hkeeping, ?_,
    App.urlFor_of_get? arrived hroute, rfl, by rw [hhistory], hpushed, ?_⟩
  · simpa using hu.history_eq
  · intro h
    change App.pushesOnArrival s.router route updateUrl at h
    rw [hkeeping, if_pos h]
    exact List.getLast?_concat
  · intro hnone
    rw [hnone] at hcalls
    cases hcalls
    exact App.urlFor_of_get? params hroute

/-- The route `/b/:slug`. Its callback pushes a visit and has the route stored anew, with a callback
that cannot be called. -/
def blog : Route (Callback Step) :=
  ⟨"blog", ⟨[.separator, .literal 'b', .separator, .hole .param "slug"], by decide⟩,
    [.script 0
      { id := "track"
        sets := [("seen", .bool true)]
        deletes := []
        steps := [.push ⟨"/elsewhere", "elsewhere", .empty⟩, .observe "blog" (.value .null)]
        once := false
        propagate := true
        fault := none
        returns := .dict [("slug", .str "none"), ("ref", .str "rss")] }]⟩

def blogSession : Session :=
  { start { behaviour := .memory true } {} with router := (Router.empty {} true).register blog }

theorem go_by_name_blog :
    ∃ navigation t url u,
      App.go (call (exec 2)) "blog" (.ofList [("slug", .str "a")]) true blogSession =
        (.ok (some navigation), t) ∧
      App.CallsInTurn (call (exec 2)) blog.callbacks (.ofList [("slug", .str "a")]) blogSession
        blog.callbacks (.ok navigation.params) u ∧
      App.urlFor "blog" navigation.params blogSession = (.ok url, blogSession) ∧
      t = u.keeping [⟨url, "blog", navigation.params⟩] := by
  have hstart : Precedes (start { behaviour := .memory true } {}) blogSession :=
    (quietly_register (start { behaviour := .memory true } {}) blog).precedes
  obtain ⟨navigation, t, hgo⟩ : ∃ navigation t,
      App.go (call (exec 2)) "blog" (.ofList [("slug", .str "a")]) true blogSession =
        (.ok (some navigation), t) := ⟨_, _, rfl⟩
  obtain ⟨url, u, -, hcalls, -, -, ht, -, hurl, -, -, hpushed, -⟩ := go_by_name hstart rfl hgo
  rw [if_pos (hpushed.2 ⟨rfl, rfl, by decide⟩)] at ht
  exact ⟨navigation, t, url, u, hgo, hcalls, hurl, ht⟩

end Session

end NamedRoutes
