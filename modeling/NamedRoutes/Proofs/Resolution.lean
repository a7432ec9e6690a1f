import NamedRoutes.Router

/-!
# Candidates for a path

Unless the root path stands for the index route, the candidates for a path are those of the
registered routes, in the order of their ranks: at most one for a name, and none for a name that is
not registered.
-/
namespace NamedRoutes

variable {κ : Type}

namespace Candidate

theorem place_perm (c : Candidate) (cs : List Candidate) : (place c cs).Perm (c :: cs) := by
  induction cs with
  | nil => rfl
  | cons d rest ih =>
    rw [place]
    split
    · exact (ih.cons d).trans (.swap c d rest)
    · rfl

theorem sort_perm (cs : List Candidate) : (sort cs).Perm cs := by
  induction cs with
  | nil => rfl
  | cons c cs ih => exact (place_perm c (sort cs)).trans (ih.cons c)

end Candidate

namespace Router

theorem rootCandidate?_eq_none_iff {r : Router κ} {path : String} :
    r.rootCandidate? path = none ↔
      ¬ (path = r.config.rootPath ∧ r.routes.contains r.config.indexRoute) := by
  rw [rootCandidate?]
  by_cases h : path = r.config.rootPath <;> simp [h, OrderedMap.contains]

theorem name_of_candidate? {path : String} {route : Route κ} {c : Candidate}
    (h : candidate? path route = some c) : c.name = route.name := by
  obtain ⟨params, -, rfl⟩ := Option.map_eq_some_iff.1 h
  rfl

theorem template_of_candidate? {path : String} {route : Route κ} {c : Candidate}
    (h : candidate? path route = some c) : c.template = route.template := by
  obtain ⟨params, -, rfl⟩ := Option.map_eq_some_iff.1 h
  rfl

/-- Among routes that bear the names under which they stand, one name is that of one candidate. -/
theorem filter_candidates {es : List (String × Route κ)} (hd : (es.map Prod.fst).Nodup)
    (hnamed : ∀ e ∈ es, e.2.name = e.1) (path name : String) :
    ((es.map Prod.snd).filterMap (candidate? path)).filter (·.name == name) =
      ((es.lookup name).bind (candidate? path)).toList := by
  induction es with
  | nil => rfl
  | cons e es ih =>
    obtain ⟨hn, hd⟩ := List.nodup_cons.1 hd
    obtain ⟨hname, hnamed⟩ := List.forall_mem_cons.1 hnamed
    have ih := ih hd hnamed
    obtain ⟨key, route⟩ := e
    by_cases he : name = key
    · subst he
      rw [OrderedMap.lookup_eq_none hn] at ih
      rw [List.map_cons, List.filterMap_cons, List.lookup_cons_self, Option.bind_some]
      cases hc : candidate? path route with
      | none => simpa using ih
      | some c =>
        have hcn : c.name = name := (name_of_candidate? hc).trans hname
        simpa [hcn] using ih
    · have he' : (name == key) = false := by simpa using he
      rw [List.map_cons, List.filterMap_cons, List.lookup_cons, he']
      cases hc : candidate? path route with
      | none => exact ih
      | some c =>
        have hcn : c.name ≠ name := fun h => he ((h.symm.trans (name_of_candidate? hc)).trans hname)
        rw [← ih]
        exact List.filter_cons_of_neg (by simpa using hcn)

theorem resolve_perm {r : Router κ} {path : String} (h : r.rootCandidate? path = none) :
    (r.resolve path).Perm (r.routes.values.filterMap (candidate? path)) := by
  rw [resolve, h]
  exact Candidate.sort_perm _

theorem name_of_mem_entries (r : Router κ) : ∀ e ∈ r.routes.entries, e.2.name = e.1 :=
  fun _ he => r.named (OrderedMap.mem_entries_iff.1 he)

theorem filter_resolve {r : Router κ} {path : String} (h : r.rootCandidate? path = none)
    (name : String) :
    (r.resolve path).filter (·.name == name) =
      ((r.routes.get? name).bind (candidate? path)).toList := by
  have hperm := (resolve_perm h).filter (·.name == name)
  rw [OrderedMap.values, filter_candidates r.routes.distinct r.name_of_mem_entries] at hperm
  rw [OrderedMap.get?]
  cases hc : (r.routes.entries.lookup name).bind (candidate? path) with
  | none =>
    rw [hc] at hperm
    exact hperm.eq_nil
  | some c =>
    rw [hc] at hperm
    exact hperm.eq_singleton

theorem exists_route_of_mem_resolve {r : Router κ} {path : String} {c : Candidate}
    (h : r.rootCandidate? path = none) (hc : c ∈ r.resolve path) :
    ∃ route, r.routes.get? c.name = some route ∧ candidate? path route = some c := by
  have hf : c ∈ (r.resolve path).filter (·.name == c.name) := List.mem_filter.2 ⟨hc, by simp⟩
  rw [filter_resolve h, Option.mem_toList, Option.bind_eq_some_iff] at hf
  exact hf

/-- A candidate is taken from the route that is registered under its name, also the one for the root
path. -/
theorem exists_template_of_mem_resolve {r : Router κ} {path : String} {c : Candidate}
    (hc : c ∈ r.resolve path) :
    ∃ route, r.routes.get? c.name = some route ∧ c.template = route.template := by
  cases hroot : r.rootCandidate? path with
  | none =>
    obtain ⟨route, hroute, hcandidate⟩ := exists_route_of_mem_resolve hroot hc
    exact ⟨route, hroute, template_of_candidate? hcandidate⟩
  | some index =>
    rw [resolve, hroot, List.mem_singleton] at hc
    rw [rootCandidate?] at hroot
    split at hroot
    · obtain ⟨route, hroute, rfl⟩ := Option.map_eq_some_iff.1 hroot
      refine ⟨route, ?_, by rw [hc]⟩
      rw [hc, r.named hroute]
      exact hroute
    · cases hroot

theorem exists_get?_of_mem_resolve {r : Router κ} {path : String} {c : Candidate}
    (hc : c ∈ r.resolve path) : ∃ route, r.routes.get? c.name = some route :=
  (exists_template_of_mem_resolve hc).imp fun _ h => h.1

end Router

end NamedRoutes
