import NamedRoutes.App
import NamedRoutes.Proofs.Resolution
import NamedRoutes.Proofs.Template.Unambiguous
import NamedRoutes.Proofs.Url.Assembly

/-!
# Reading URLs back

The URL that a route builds from parameters that suit it is resolved to that route, and it gives the
texts of the parameters back. The URL is cut to these texts, and it cannot be cut otherwise.
-/
namespace NamedRoutes

namespace Template

/-- Every hole has a text that fits it and holds no marks, a query is a single line, and whatever
else there is can go into the query. -/
structure Suits (t : Template) (params : Params) : Prop where
  holes : ∀ kind name, .hole kind name ∈ t.items →
    ∃ v, params.get? (knownAs name) = some v ∧ kind.Fits v.inUrl ∧ Unmarked v.inUrl
  query : t.hasQueryMarker → ∀ v, params.get? queryName = some v → '\n' ∉ v.plain
  others : ∀ key ∈ params.keys, key ∉ t.names → t.hasQueryMarker ∧ IsKey key

variable {t : Template} {params : Params}

theorem newline_not_mem_encode (s : List Char) : '\n' ∉ Text.Percent.encode s := by
  intro h
  rcases Text.Percent.isUnreserved_of_mem_encode h with h | h
  · exact absurd h (by decide)
  · exact absurd h (by decide)

theorem newline_not_mem_pair (key : String) (value : Value) :
    '\n' ∉ UrlDraft.pair key value := by
  simp [UrlDraft.pair, newline_not_mem_encode]

theorem newline_not_mem_intercalate {parts : List (List Char)} (h : ∀ part ∈ parts, '\n' ∉ part) :
    '\n' ∉ List.intercalate ['&'] parts := by
  induction parts with
  | nil => simp
  | cons part rest ih =>
    obtain ⟨hpart, hrest⟩ := List.forall_mem_cons.1 h
    cases rest with
    | nil => simpa using hpart
    | cons next rest =>
      rw [List.intercalate_cons_cons]
      simp [hpart, ih hrest]

theorem Suits.newline_not_mem_query (hs : t.Suits params) (hq : t.hasQueryMarker)
    {run : List Char} (h : t.query? params = some run) : '\n' ∉ run := by
  have hparts : ∀ part ∈ t.queryParts params, '\n' ∉ part := by
    intro part hpart
    rcases List.mem_append.1 hpart with hpart | hpart
    · rw [verbatim] at hpart
      split at hpart
      · next v hv =>
        have hline := hs.query hq v hv
        split at hpart
        · exact List.mem_singleton.1 hpart ▸ hline
        · cases hpart
      · cases hpart
    · obtain ⟨e, -, rfl⟩ := List.mem_map.1 hpart
      exact newline_not_mem_pair e.1 e.2
  rw [query?] at h
  split at h
  · cases h
  · exact Option.some.inj h ▸ newline_not_mem_intercalate hparts

theorem Suits.toList_url (hs : t.Suits params) (hd : t.DistinctlyNamed) :
    (t.url params).toList = assemble t.items (t.names.map (t.given params)) := by
  apply url_eq_assemble hd
  · intro key hkey
    by_cases hn : key ∈ t.names
    · exact isKey_of_mem_names hn
    · exact (hs.others key hkey hn).2
  · intro n hn
    obtain ⟨kind, name, hm, rfl⟩ := mem_holeNames_iff.1 hn
    obtain ⟨v, hv, -, hu⟩ := hs.holes kind name hm
    exact ⟨v, hv, hu⟩
  · intro hq key hkey
    by_contra hn
    simp [(hs.others key hkey hn).1] at hq

theorem Suits.cut_url (hs : t.Suits params) (hd : t.DistinctlyNamed) :
    Cut t.items (t.url params).toList (t.names.map (t.given params)) := by
  rw [hs.toList_url hd]
  apply cut_assemble
  · intro kind name hm
    obtain ⟨v, hv, hfits, -⟩ := hs.holes kind name hm
    refine ⟨v.inUrl, ?_, hfits⟩
    rw [given_hole hd.nodup (mem_holeNames_iff.2 ⟨kind, name, hm, rfl⟩), hv]
    rfl
  · intro hm run hrun
    have hq := (hasQueryMarker_iff t).2 hm
    exact hs.newline_not_mem_query hq (given_query hq ▸ hrun)

theorem Suits.match?_url (hs : t.Suits params) (hd : t.DistinctlyNamed)
    (hu : Unambiguous t.items) :
    t.match? (t.url params) = some (bind t.names (t.names.map (t.given params))) := by
  have hcut := hs.cut_url hd
  obtain ⟨cs, hcs, -⟩ := captures?_of_cut t.wellFormed hcut
  have he : cs = t.names.map (t.given params) :=
    cut_unique t.wellFormed hu (cut_of_captures? hcs) hcut
  rw [match?, hcs, he]
  rfl

end Template

namespace App

variable {κ ω : Type}

/-- Among the candidates for the URL of a route, one bears its name, and the parameters of this one
are the texts that the URL was built from, in the order of the template. -/
theorem resolve_urlFor {app : App κ ω} {name : String} {route : Route κ} {params : Params}
    (hroute : app.router.routes.get? name = some route) (hd : route.template.DistinctlyNamed)
    (hu : Template.Unambiguous route.template.items) (hs : route.template.Suits params) :
    ∃ url, urlFor name params app = (.ok url, app) ∧
      (¬ (url = app.router.config.rootPath ∧
          app.router.routes.contains app.router.config.indexRoute) →
        ∃ c : Candidate, (app.router.resolve url).filter (·.name == name) = [c] ∧
          c.template = route.template ∧
          c.params.entries = route.template.names.filterMap fun n =>
            (route.template.given params n).map fun text => (n, .str (String.ofList text))) := by
  refine ⟨route.template.url params, urlFor_of_get? params hroute, fun hroot => ?_⟩
  have hmatch := hs.match?_url hd hu
  refine ⟨⟨route.name, Template.bind route.template.names
    (route.template.names.map (route.template.given params)), route.template⟩, ?_, rfl, ?_⟩
  · rw [Router.filter_resolve (Router.rootCandidate?_eq_none_iff.2 hroot), hroute,
      Option.bind_some, Router.candidate?, hmatch]
    rfl
  · rw [Template.entries_bind _ hd.nodup, Template.present_map, List.map_filterMap]
    simp [Option.map_map, Function.comp_def]

/-- The route `/:who/:tab?` in a router of its own. -/
def profile : Route Unit :=
  ⟨"profile", ⟨[.separator, .hole .param "who", .separator, .hole .paramBeforeQuery "tab", .query],
    by decide⟩, []⟩

def profileApp : App Unit Unit :=
  ⟨(Router.empty {} true).register profile, { behaviour := .memory true }, ()⟩

def profileParams : Params :=
  .ofList [("page", .int 7), ("query", .str "q=1"), ("tab", .str "news"), ("who", .str "a?b")]

theorem suits_profileParams : profile.template.Suits profileParams := by
  constructor
  · intro kind name h
    have h' : kind = .param ∧ name = "who" ∨ kind = .paramBeforeQuery ∧ name = "tab" := by
      simpa [profile] using h
    rcases h' with ⟨rfl, rfl⟩ | ⟨rfl, rfl⟩
    · exact ⟨.str "a?b", rfl, by simp [Hole.Fits], by simp [Template.Unmarked]⟩
    · exact ⟨.str "news", rfl, by simp [Hole.Fits], by simp [Template.Unmarked]⟩
  · intro _ v hv
    cases (show some (Value.str "q=1") = some v from hv)
    simp
  · intro key hkey hn
    have h : key = "page" ∨ key = "query" ∨ key = "tab" ∨ key = "who" := by
      simpa [profileParams, OrderedMap.keys_ofList] using hkey
    rcases h with rfl | rfl | rfl | rfl
    · exact ⟨rfl, by decide⟩
    · exact absurd (by decide) hn
    · exact absurd (by decide) hn
    · exact absurd (by decide) hn

theorem resolve_urlFor_profile :
    ∃ url, urlFor "profile" profileParams profileApp = (.ok url, profileApp) ∧
      ∃ c : Candidate, (profileApp.router.resolve url).filter (·.name == "profile") = [c] ∧
        c.params.entries =
          [("who", .str "a?b"), ("tab", .str "news"), ("query", .str "q=1&page=7")] := by
  have hd : profile.template.DistinctlyNamed :=
    ⟨by decide, by simp [profile, Template.names, EndsOpen, knownAs, queryName]⟩
  obtain ⟨url, hurl, hcandidate⟩ :=
    resolve_urlFor (rfl : profileApp.router.routes.get? "profile" = some profile) hd
      (Or.inl rfl) suits_profileParams
  obtain ⟨c, hc, -, hparams⟩ := hcandidate fun h => absurd h.2 (by decide)
  exact ⟨url, hurl, c, hc, hparams.trans rfl⟩

end App

end NamedRoutes
