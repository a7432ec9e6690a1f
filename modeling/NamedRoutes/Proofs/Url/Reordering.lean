import NamedRoutes.Proofs.Navigation
import NamedRoutes.Proofs.Url.Filling

/-!
# Parameters in another order

Parameters that do not contend for a placeholder may come in any order: the path of the URL stays
the same, and the parts of its query are only reordered. Parameters that contend may not. The first
of them takes the placeholder, even if another one has only just put it there.
-/
namespace NamedRoutes

theorem OrderedMap.get?_of_perm {α : Type} {m n : OrderedMap α} (h : m.entries.Perm n.entries)
    (key : String) : m.get? key = n.get? key := by
  apply Option.ext
  intro value
  rw [← mem_entries_iff, ← mem_entries_iff, h.mem_iff]

namespace Template

variable {marked : Bool} {items : List Item} {params params' : Params}

theorem Uncontested.of_perm {es fs : List (String × Value)} (h : Uncontested marked items es)
    (hperm : es.Perm fs) : Uncontested marked items fs :=
  ⟨fun e he => h.respects e (hperm.mem_iff.2 he), fun e he f hf =>
    h.lacks e (hperm.mem_iff.2 he) f (hperm.mem_iff.2 hf)⟩

theorem textsOf_of_perm (h : params.entries.Perm params'.entries) :
    textsOf marked params'.entries = textsOf marked params.entries := by
  funext n
  have hget : params'.entries.lookup n = params.entries.lookup n :=
    (OrderedMap.get?_of_perm h n).symm
  rw [textsOf, hget, textsOf]

theorem verbatim_of_perm (h : params.entries.Perm params'.entries) :
    verbatim marked params'.entries = verbatim marked params.entries := by
  have hget : params'.entries.lookup queryName = params.entries.lookup queryName :=
    (OrderedMap.get?_of_perm h queryName).symm
  rw [verbatim, hget, verbatim]

theorem leftOver_perm {es fs : List (String × Value)} (h : es.Perm fs) :
    (leftOver marked items es).Perm (leftOver marked items fs) :=
  (h.filter _).map _

theorem queryParts_perm (t : Template) (h : params.entries.Perm params'.entries) :
    (t.queryParts params).Perm (t.queryParts params') := by
  rw [queryParts, queryParts, verbatim_of_perm h]
  exact (leftOver_perm h).append_left _

end Template

namespace App

open Template

variable {κ ω : Type} {app : App κ ω} {name : String} {route : Route κ} {params params' : Params}

/-- Two orders of parameters that do not contend give URLs with one path, whose holes are filled all
at once and whatever the texts are, and with the same parts of the query, in some order. This also
holds of the URLs of navigations by name that arrive with them. -/
theorem urlFor_of_perm (hroute : app.router.routes.get? name = some route)
    (h : Uncontested route.template.hasQueryMarker route.template.items params.entries)
    (hperm : params.entries.Perm params'.entries) :
    let path := fillHoles (textsOf route.template.hasQueryMarker params.entries)
      route.template.items
    let url := fun given : Params =>
      String.ofList (UrlDraft.text ⟨path, route.template.queryParts given⟩)
    (route.template.queryParts params).Perm (route.template.queryParts params') ∧
      ∀ given, given = params ∨ given = params' →
        urlFor name given app = (.ok (url given), app) ∧
        ∀ call args updateUrl navigation app',
          go call name args updateUrl app = (.ok (some navigation), app') →
          navigation.params = given →
          navigation.url = if app.router.supportsHistory then some (url given) else none := by
  intro path url
  refine ⟨route.template.queryParts_perm hperm, fun given hgiven => ?_⟩
  have hurl : route.template.url given = url given := by
    rcases hgiven with rfl | rfl
    · rw [Template.url, urlDraft_of_uncontested h]
    · rw [Template.url, urlDraft_of_uncontested (h.of_perm hperm), textsOf_of_perm hperm]
  refine ⟨by rw [urlFor_of_get? given hroute, hurl], ?_⟩
  rintro call args updateUrl navigation app' hgo rfl
  obtain ⟨arrived, _, -, rfl, -⟩ := eq_of_go_named hroute hgo
  rw [← hurl]

def pairRoute : Route Unit :=
  ⟨"pair", ⟨[.separator, .hole .param "a", .separator, .hole .param "b"], by decide⟩, []⟩

def pairApp : App Unit Unit :=
  ⟨(Router.empty {} true).register pairRoute, { behaviour := .memory true }, ()⟩

/-- The texts hold marks, but no placeholder of a parameter that is given. -/
def forth : List (String × Value) :=
  [("a", .str ":c"), ("p", .int 1), ("b", .str "*/"), ("q", .int 2)]

def back : List (String × Value) :=
  [("q", .int 2), ("b", .str "*/"), ("p", .int 1), ("a", .str ":c")]

theorem uncontested_forth :
    Uncontested pairRoute.template.hasQueryMarker pairRoute.template.items forth := by
  refine ⟨?_, by decide +kernel⟩
  intro e he _ kind name hm
  revert e
  have hname : kind = .param ∧ name = "a" ∨ kind = .param ∧ name = "b" := by
    simpa [pairRoute] using hm
  rcases hname with ⟨-, rfl⟩ | ⟨-, rfl⟩ <;> decide +kernel

theorem urlFor_of_perm_forth :
    urlFor "pair" (.ofList forth) pairApp = (.ok "/:c/*/?p=1&q=2", pairApp) ∧
      urlFor "pair" (.ofList back) pairApp = (.ok "/:c/*/?q=2&p=1", pairApp) := by
  have hforth : (OrderedMap.ofList forth).entries = forth :=
    OrderedMap.entries_ofList_of_nodup (by decide)
  have hperm : (OrderedMap.ofList forth).entries.Perm (OrderedMap.ofList back).entries := by
    rw [hforth, OrderedMap.entries_ofList_of_nodup (by decide)]
    exact List.reverse_perm back
  obtain ⟨-, hurls⟩ := urlFor_of_perm
    (rfl : pairApp.router.routes.get? "pair" = some pairRoute)
    (by rw [hforth]; exact uncontested_forth) hperm
  exact ⟨(hurls _ (.inl rfl)).1, (hurls _ (.inr rfl)).1⟩

/-- The text that is put in for one parameter is taken for the placeholder of the other, when that
comes later. -/
theorem path_depends_on_order :
    [("a", Value.str ":b"), ("b", .str "x")].Perm [("b", .str "x"), ("a", .str ":b")] ∧
      (pairRoute.template.urlDraft (.ofList [("a", .str ":b"), ("b", .str "x")])).path =
        "/x/:b".toList ∧
      (pairRoute.template.urlDraft (.ofList [("b", .str "x"), ("a", .str ":b")])).path =
        "/:b/x".toList :=
  ⟨.swap _ _ _, by decide +kernel, by decide +kernel⟩

end App

end NamedRoutes
