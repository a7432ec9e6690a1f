import NamedRoutes.Proofs.Navigation
import NamedRoutes.Proofs.Ranking
import NamedRoutes.Proofs.Template.Unambiguous

/-!
# Which route a path is handed to

Of the routes that match a path, one of plain text goes before all others. The scores of any other
template for that path are no higher, and if they are as high, it waits for a query that the path
does not have. A template with a query marker goes before the same one without it when the path has
a query, and behind it when it has none. With a hole that is named like the query, the marked one
goes first either way.
-/
namespace NamedRoutes

/-- Without holes and without a query marker. -/
def Template.IsLiteral (t : Template) : Prop := ∀ item ∈ t.items, ¬ item.isHole ∧ item ≠ .query

instance : DecidablePred Template.IsLiteral := fun t =>
  inferInstanceAs (Decidable (∀ item ∈ t.items, ¬ item.isHole ∧ item ≠ .query))

namespace Template

variable {t : Template} {items : List Item} {s : List Char} {cs : Captures}

theorem IsLiteral.query_not_mem (h : t.IsLiteral) : .query ∉ t.items :=
  fun hq => (h _ hq).2 rfl

theorem IsLiteral.hasQueryMarker_eq (h : t.IsLiteral) : t.hasQueryMarker = false := by
  rw [← Bool.not_eq_true, hasQueryMarker_iff]
  exact h.query_not_mem

theorem IsLiteral.countP_isWildcard (h : t.IsLiteral) : t.items.countP Item.isWildcard = 0 := by
  rw [List.countP_eq_zero]
  intro item hitem hwild
  cases item with
  | hole kind name => exact (h _ hitem).1 rfl
  | _ => cases hwild

theorem IsLiteral.specificity_eq (h : t.IsLiteral) (hcut : Cut t.items s cs) :
    t.specificity = List.replicate (s.count '/' + 1) 2 := by
  have htwo : ∀ x ∈ t.specificity, x = 2 := scores_eq_two_iff.2 fun item hitem => (h item hitem).1
  rw [count_slash_of_cut h.countP_isWildcard t.wellFormed h.query_not_mem hcut, ← length_scores]
  exact List.eq_replicate_of_mem htwo

theorem IsLiteral.question_not_mem (h : t.IsLiteral) (hcut : Cut t.items s cs) : '?' ∉ s := by
  obtain ⟨items, hw⟩ := t
  change ∀ item ∈ items, _ at h
  change Cut items s cs at hcut
  induction hcut with
  | nil => simp
  | separator _ ih => simpa using ih hw.tail (List.forall_mem_cons.1 h).2
  | @literal a c _ _ _ hac _ ih =>
    have hc : '?' ≠ c := by
      rintro rfl
      exact (isOrdinary_iff.1 hw.1).2.1 (Text.eq_question_of_sameLetter hac)
    simpa [hc] using ih hw.tail (List.forall_mem_cons.1 h).2
  | hole _ _ => exact absurd rfl (h _ List.mem_cons_self).1
  | noQuery _ => exact absurd rfl (h _ List.mem_cons_self).2
  | query _ _ => exact absurd rfl (h _ List.mem_cons_self).2

theorem holeNames_eq_nil (h : ∀ item ∈ items, ¬ item.isHole) : holeNames items = [] := by
  rw [List.eq_nil_iff_forall_not_mem]
  intro n hn
  obtain ⟨kind, name, hm, -⟩ := mem_holeNames_iff.1 hn
  exact h _ hm rfl

end Template

variable {κ ω : Type}

namespace Router

variable {r : Router κ} {path : String} {plain other marked : Route κ} {c d : Candidate}

/-- Plain text outranks every other template that matches the same path. -/
theorem rank_lt_of_isLiteral (hliteral : plain.template.IsLiteral)
    (hc : candidate? path plain = some c) (hd : candidate? path other = some d)
    (hother : ¬ other.template.IsLiteral) : d.rank < c.rank := by
  obtain ⟨cs, hcs, -⟩ := exists_captures_of_candidate? hc
  obtain ⟨ds, hds, -⟩ := exists_captures_of_candidate? hd
  have hcut := Template.cut_of_captures? hcs
  have hcut' := Template.cut_of_captures? hds
  have hspec : c.rank.specificity = List.replicate (path.toList.count '/' + 1) 2 := by
    rw [Candidate.rank, template_of_candidate? hc]
    exact hliteral.specificity_eq hcut
  have hspec' : d.rank.specificity = Template.scores other.template.items := by
    rw [Candidate.rank, template_of_candidate? hd, Template.specificity]
  rw [Rank.lt_iff, hspec, hspec']
  rcases Template.scores_eq_or_lt_of_cut hcut' with heq | hlt
  · -- no holes either, so there is a query marker, and no query for it
    right
    have hholes : ∀ item ∈ other.template.items, ¬ item.isHole :=
      Template.scores_eq_two_iff.1 fun x hx => List.eq_of_mem_replicate (heq ▸ hx)
    have hmarker : .query ∈ other.template.items := by
      by_contra hq
      exact hother fun item hitem => ⟨hholes item hitem, fun h => hq (h ▸ hitem)⟩
    have hexact : c.isExact := by
      rw [isExact_iff hc, hliteral.hasQueryMarker_eq]
      exact nofun
    have hinexact : d.isExact = false := by
      rw [← Bool.not_eq_true, isExact_iff hd, Template.holeNames_eq_nil hholes,
        Template.queryCapture?_isSome_iff hds]
      intro h
      rcases h ((Template.hasQueryMarker_iff _).2 hmarker) with h | ⟨-, h⟩
      · cases h
      · exact hliteral.question_not_mem hcut (Template.question_mem_of_cut hmarker h hcut')
    have hlt : d.isExact < c.isExact := by
      rw [hexact, hinexact]
      exact Bool.false_lt_true
    exact ⟨heq, .inl hlt⟩
  · exact .inl hlt

theorem literals_first (hroot : r.rootCandidate? path = none) :
    (r.resolve path).Pairwise fun c d => d.template.IsLiteral → c.template.IsLiteral := by
  refine (falling_resolve r path).imp_of_mem fun {c d} hc hd hnot hliteral => ?_
  obtain ⟨route, -, hroute⟩ := exists_route_of_mem_resolve hroot hc
  obtain ⟨route', -, hroute'⟩ := exists_route_of_mem_resolve hroot hd
  rw [template_of_candidate? hroute'] at hliteral
  rw [template_of_candidate? hroute]
  by_contra hother
  exact hnot (rank_lt_of_isLiteral hliteral hroute' hroute hother)

end Router

namespace App

open Router

variable {app : App κ ω} {name path : String} {plain : Route κ}

/-- Where a route of plain text matches a path, no other kind of route stands before it among the
candidates, and a navigation to the path visits a route of plain text. -/
theorem literal_before_others
    (hroot : ¬ (path = app.router.config.rootPath ∧
      app.router.routes.contains app.router.config.indexRoute))
    (hplain : app.router.routes.get? name = some plain) (hliteral : plain.template.IsLiteral)
    (hmatch : (plain.template.match? path).isSome) :
    (app.router.resolve path).Pairwise
        (fun c d => d.template.IsLiteral → c.template.IsLiteral) ∧
      ∃ best rest route, app.router.resolve path = best :: rest ∧
        app.router.routes.get? best.name = some route ∧ best.template = route.template ∧
        route.template.IsLiteral ∧
        (app.router.routes.get? path = none → ∀ call args updateUrl,
          Destination app.router path args updateUrl route best.params false ∧
            go call path args updateUrl app = visit call best.name best.params false app) := by
  have hroot := rootCandidate?_eq_none_iff.2 hroot
  obtain ⟨params, hparams⟩ := Option.isSome_iff_exists.1 hmatch
  have hc : candidate? path plain = some ⟨plain.name, params, plain.template⟩ := by
    rw [candidate?, hparams, Option.map_some]
  have hmem := mem_resolve hroot hplain hc
  have hfirst := literals_first hroot
  refine ⟨hfirst, ?_⟩
  cases hres : app.router.resolve path with
  | nil =>
    rw [hres] at hmem
    cases hmem
  | cons best rest =>
    obtain ⟨route, hroute, hbest⟩ :=
      exists_route_of_mem_resolve hroot (hres ▸ List.mem_cons_self : best ∈ _)
    have htemplate := template_of_candidate? hbest
    have hhead : (app.router.resolve path).head? = some best := by rw [hres, List.head?_cons]
    refine ⟨best, rest, route, rfl, hroute, htemplate, ?_, fun hname call args updateUrl =>
      ⟨.resolved hname hhead hroute, go_of_resolve hname hhead⟩⟩
    rw [hres] at hmem hfirst
    rw [← htemplate]
    rcases List.mem_cons.1 hmem with rfl | hrest
    · exact hliteral
    · exact (List.pairwise_cons.1 hfirst).1 _ hrest hliteral

def crowd : App Unit Unit :=
  ⟨[("rest", ⟨[.separator, .hole .wildcard ""], by decide⟩),
    ("one", ⟨[.separator, .hole .param "long-name"], by decide⟩),
    ("sought", ⟨[.separator, .literal 'a', .query], by decide⟩),
    ("plain", ⟨[.separator, .literal 'a'], by decide⟩)].foldl
      (fun router (name, template) => router.register ⟨name, template, []⟩) (.empty {} true),
    { behaviour := .memory true }, ()⟩

theorem literal_before_others_crowd :
    ∃ best rest route, crowd.router.resolve "/a" = best :: rest ∧
      crowd.router.routes.get? best.name = some route ∧ route.template.IsLiteral ∧
      ∀ call, go call "/a" .empty true crowd = visit call best.name best.params false crowd := by
  have hroot : ¬ ("/a" = crowd.router.config.rootPath ∧
      crowd.router.routes.contains crowd.router.config.indexRoute) := by decide
  have hplain : crowd.router.routes.get? "plain" =
      some ⟨"plain", ⟨[.separator, .literal 'a'], by decide⟩, []⟩ := rfl
  obtain ⟨-, best, rest, route, hres, hroute, -, hliteral, hgo⟩ :=
    literal_before_others hroot hplain (by decide) (by decide +kernel)
  exact ⟨best, rest, route, hres, hroute, hliteral,
    fun call => (hgo (by decide) call .empty true).2⟩

end App

namespace Router

variable {r : Router κ} {path name name' : String} {plain marked : Route κ} {c d : Candidate}

theorem rank_lt_iff_of_marked (hq : plain.template.hasQueryMarker = false)
    (hmark : marked.template.path = plain.template.path ++ "?")
    (hc : candidate? path plain = some c) (hd : candidate? path marked = some d) :
    (c.rank < d.rank ↔ d.isExact) ∧ (d.rank < c.rank ↔ ¬ d.isExact) := by
  have hitems := Template.items_eq_markItems hq hmark
  have hspec : c.rank.specificity = d.rank.specificity := by
    rw [Candidate.rank, Candidate.rank, template_of_candidate? hc, template_of_candidate? hd,
      Template.specificity, Template.specificity, hitems, Template.scores_markItems]
  have hweight : c.rank.weight < d.rank.weight := by
    rw [Candidate.rank, Candidate.rank, template_of_candidate? hc, template_of_candidate? hd]
    exact Template.weight_lt_of_items_eq hitems
  have hexact : c.rank.exact = true := (isExact_iff hc).2 (by rw [hq]; exact nofun)
  have hd' : d.rank.exact = d.isExact := rfl
  rw [Rank.lt_iff, Rank.lt_iff, hspec, hexact, hd']
  cases d.isExact with
  | true => simp [hweight, Nat.le_of_lt hweight]
  | false => simp [Bool.false_lt_true]

/-- Of a template without and with a query marker, the marked one goes first if the path has a query
or a hole is named like the query, and last otherwise. -/
theorem place_of_marked
    (hroot : ¬ (path = r.config.rootPath ∧ r.routes.contains r.config.indexRoute))
    (hplain : r.routes.get? name = some plain) (hmarked : r.routes.get? name' = some marked)
    (hq : plain.template.hasQueryMarker = false)
    (hmark : marked.template.path = plain.template.path ++ "?")
    (hc : candidate? path plain = some c) (hd : candidate? path marked = some d) :
    ((marked.template.queryCapture? path).isSome ∨ queryName ∈ plain.template.names →
        c.rank < d.rank ∧ [d, c].Sublist (r.resolve path)) ∧
      (marked.template.queryCapture? path = none → queryName ∉ plain.template.names →
        d.rank < c.rank ∧ [c, d].Sublist (r.resolve path)) := by
  have hroot := rootCandidate?_eq_none_iff.2 hroot
  obtain ⟨hup, hdown⟩ := rank_lt_iff_of_marked hq hmark hc hd
  have hfalling := falling_resolve r path
  have hcm := mem_resolve hroot hplain hc
  have hdm := mem_resolve hroot hmarked hd
  have hitems := Template.items_eq_markItems hq hmark
  have hmarker : marked.template.hasQueryMarker := by
    rw [Template.hasQueryMarker_iff, hitems]
    exact Template.query_mem_markItems _
  have hexact : d.isExact ↔ (marked.template.queryCapture? path).isSome ∨
      queryName ∈ plain.template.names := by
    rw [isExact_iff hd, Template.mem_names_iff, hq, hitems, Template.holeNames_markItems]
    simp [hmarker, or_comm]
  constructor
  · intro h
    have hlt := hup.2 (hexact.2 h)
    exact ⟨hlt, hfalling.sublist hdm hcm hlt⟩
  · intro hnone hnames
    have hlt : d.rank < c.rank := hdown.2 fun h => by
      rcases hexact.1 h with h | h
      · rw [hnone] at h
        cases h
      · exact hnames h
    exact ⟨hlt, hfalling.sublist hcm hdm hlt⟩

def twins (plain marked : Template) : Router Unit :=
  ((Router.empty {} true).register ⟨"plain", plain, []⟩).register ⟨"marked", marked, []⟩

def twinsOfText : Router Unit :=
  twins ⟨[.separator, .literal 'a'], by decide⟩ ⟨[.separator, .literal 'a', .query], by decide⟩

def twinsNamedQuery : Router Unit :=
  twins ⟨[.separator, .hole .param "query"], by decide⟩
    ⟨[.separator, .hole .paramBeforeQuery "query", .query], by decide⟩

theorem place_of_marked_twins :
    ∃ c d : Candidate, c.name = "plain" ∧ d.name = "marked" ∧ d.rank < c.rank ∧
      [c, d].Sublist (twinsOfText.resolve "/a") := by
  have hroot : ¬ ("/a" = twinsOfText.config.rootPath ∧
      twinsOfText.routes.contains twinsOfText.config.indexRoute) := by decide
  have hplain : twinsOfText.routes.get? "plain" =
      some ⟨"plain", ⟨[.separator, .literal 'a'], by decide⟩, []⟩ := rfl
  have hmarked : twinsOfText.routes.get? "marked" =
      some ⟨"marked", ⟨[.separator, .literal 'a', .query], by decide⟩, []⟩ := rfl
  obtain ⟨-, h⟩ := place_of_marked hroot hplain hmarked (by decide) (by decide) rfl rfl
  exact ⟨_, _, rfl, rfl, h (by decide +kernel) (by decide)⟩

/-- The path has no query, and yet the template that waits for one goes first. -/
theorem not_below_of_named_query :
    ((twinsNamedQuery.routes.get? "marked").bind fun route =>
        route.template.queryCapture? "/x") = none ∧
      (twinsNamedQuery.resolve "/x").map Candidate.name = ["marked", "plain"] := by
  decide +kernel

end Router

end NamedRoutes
