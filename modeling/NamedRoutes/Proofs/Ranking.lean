import Mathlib.Data.List.Lex
import Mathlib.Data.Prod.Lex
import NamedRoutes.Proofs.Resolution
import NamedRoutes.Proofs.Template.QueryMarker

/-!
# The order of the candidates

Ranks are compared like the members of a linear order, so that sorting leaves no candidate behind
one that it outranks. What a candidate is ranked by can be read off its template and its path: its
exactness only fails without a query, and then only if no hole bears the name of the query.
-/
namespace NamedRoutes

namespace Rank

variable {a b c : Rank}

def key (a : Rank) : List Nat ×ₗ Bool ×ₗ Nat := toLex (a.specificity, toLex (a.exact, a.weight))

theorem lt_iff_key : a < b ↔ a.key < b.key := by
  rw [lt_iff, key, key, Prod.Lex.toLex_lt_toLex, Prod.Lex.toLex_lt_toLex]

theorem asymm (h : a < b) : ¬ b < a := by
  rw [lt_iff_key] at *
  exact lt_asymm h

theorem not_lt_trans (h : ¬ a < b) (h' : ¬ b < c) : ¬ a < c := by
  rw [lt_iff_key, not_lt] at *
  exact h'.trans h

end Rank

namespace Candidate

variable {a b c : Candidate} {cs : List Candidate}

/-- No candidate stands behind one that it outranks. -/
def Falling (cs : List Candidate) : Prop := cs.Pairwise fun a b => ¬ a.rank < b.rank

theorem falling_place (c : Candidate) (h : Falling cs) : Falling (place c cs) := by
  induction cs with
  | nil => exact List.pairwise_singleton _ c
  | cons d rest ih =>
    obtain ⟨hd, hrest⟩ := List.pairwise_cons.1 h
    rw [place]
    by_cases hlt : c.rank < d.rank
    · rw [if_pos hlt]
      refine List.pairwise_cons.2 ⟨fun x hx => ?_, ih hrest⟩
      rcases List.mem_cons.1 ((place_perm c rest).mem_iff.1 hx) with rfl | hx
      · exact Rank.asymm hlt
      · exact hd x hx
    · rw [if_neg hlt]
      refine List.pairwise_cons.2 ⟨List.forall_mem_cons.2 ⟨hlt, fun x hx => ?_⟩, h⟩
      exact Rank.not_lt_trans hlt (hd x hx)

theorem falling_sort (cs : List Candidate) : Falling (sort cs) := by
  induction cs with
  | nil => exact .nil
  | cons c cs ih => exact falling_place c ih

theorem Falling.sublist (h : Falling cs) (ha : a ∈ cs) (hb : b ∈ cs) (hlt : b.rank < a.rank) :
    [a, b].Sublist cs := by
  induction cs with
  | nil => cases ha
  | cons c cs ih =>
    obtain ⟨hc, hcs⟩ := List.pairwise_cons.1 h
    rcases List.mem_cons.1 ha with rfl | ha'
    · rcases List.mem_cons.1 hb with rfl | hb'
      · exact absurd hlt (Rank.asymm hlt)
      · exact (List.singleton_sublist.2 hb').cons_cons a
    · rcases List.mem_cons.1 hb with rfl | hb'
      · exact absurd hlt (hc a ha')
      · exact (ih hcs ha' hb').cons c

end Candidate

namespace Router

variable {κ : Type} {r : Router κ} {path name : String} {route : Route κ} {c : Candidate}

theorem falling_resolve (r : Router κ) (path : String) : Candidate.Falling (r.resolve path) := by
  rw [resolve]
  cases r.rootCandidate? path with
  | some c => exact List.pairwise_singleton _ c
  | none => exact Candidate.falling_sort _

theorem mem_resolve (hroot : r.rootCandidate? path = none)
    (hroute : r.routes.get? name = some route) (hc : candidate? path route = some c) :
    c ∈ r.resolve path := by
  rw [(resolve_perm hroot).mem_iff, List.mem_filterMap]
  exact ⟨route, List.mem_map.2 ⟨_, OrderedMap.mem_entries_iff.2 hroute, rfl⟩, hc⟩

theorem exists_captures_of_candidate? (h : candidate? path route = some c) :
    ∃ cs, Template.captures? route.template.items path.toList = some cs ∧
      c.params = Template.bind route.template.names cs := by
  obtain ⟨params, hmatch, rfl⟩ := Option.map_eq_some_iff.1 h
  obtain ⟨cs, hcs, rfl⟩ := Option.map_eq_some_iff.1 hmatch
  exact ⟨cs, hcs, rfl⟩

/-- A candidate is an exact fit unless its template waits for a query that the path does not have,
and that none of the holes is named after. -/
theorem isExact_iff (h : candidate? path route = some c) :
    c.isExact ↔ (route.template.hasQueryMarker →
      queryName ∈ Template.holeNames route.template.items ∨
        (route.template.queryCapture? path).isSome) := by
  obtain ⟨cs, hcs, hparams⟩ := exists_captures_of_candidate? h
  have hcut := Template.cut_of_captures? hcs
  rw [Candidate.isExact, template_of_candidate? h, hparams, Template.names, Bool.or_eq_true,
    Bool.not_eq_true', OrderedMap.contains_iff_mem_keys,
    Template.mem_keys_bind_iff route.template.wellFormed hcut,
    Template.queryCapture?_isSome_iff hcs, ← Template.hasQueryMarker_iff]
  cases route.template.hasQueryMarker <;> simp

end Router

end NamedRoutes
