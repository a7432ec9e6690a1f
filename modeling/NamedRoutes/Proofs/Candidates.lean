import Mathlib.Data.List.Nodup
import NamedRoutes.Proofs.Ranking

/-!
# The list of the candidates

What is registered determines the candidates for a path and their order. Every route that matches
gives one candidate, a candidate stands before those that it outranks, and candidates of equal rank
stand as their names do in the registry. No other list has these properties.
-/
namespace NamedRoutes

/-- Where two lists of scores first differ, this one has the greater score, or the other one has
ended. -/
def ScoresAbove (as bs : List Nat) : Prop :=
  (∃ x rest, as = bs ++ x :: rest) ∨
    ∃ common x y rest rest', y < x ∧ as = common ++ x :: rest ∧ bs = common ++ y :: rest'

theorem scoresAbove_iff {as bs : List Nat} : ScoresAbove as bs ↔ bs < as := by
  constructor
  · rintro (⟨x, rest, rfl⟩ | ⟨common, x, y, rest, rest', hlt, rfl, rfl⟩)
    · have h : bs ++ [] < bs ++ x :: rest := List.append_left_lt (List.nil_lt_cons x rest)
      rwa [List.append_nil] at h
    · exact List.append_left_lt (List.Lex.rel hlt)
  · intro h
    induction h with
    | nil => exact .inl ⟨_, _, rfl⟩
    | rel h => exact .inr ⟨[], _, _, _, _, h, rfl, rfl⟩
    | @cons a _ _ _ ih =>
      rcases ih with ⟨x, rest, rfl⟩ | ⟨common, x, y, rest, rest', hlt, rfl, rfl⟩
      · exact .inl ⟨x, rest, rfl⟩
      · exact .inr ⟨a :: common, x, y, rest, rest', hlt, rfl, rfl⟩

namespace Rank

variable {a b : Rank}

theorem key_injective : Function.Injective key := by
  rintro ⟨s, e, w⟩ ⟨s', e', w'⟩ h
  simp only [key, toLex_inj, Prod.mk.injEq] at h
  obtain ⟨rfl, rfl, rfl⟩ := h
  rfl

theorem lt_or_eq_of_not_lt (h : ¬ a < b) : b < a ∨ a = b := by
  rw [lt_iff_key, not_lt] at h
  rcases h.lt_or_eq with h | h
  · exact .inl (lt_iff_key.2 h)
  · exact .inr (key_injective h.symm)

theorem irrefl (a : Rank) : ¬ a < a := fun h => asymm h h

end Rank

namespace Candidate

variable {c d : Candidate} {cs : List Candidate}

def Outranks (c d : Candidate) : Prop :=
  ScoresAbove c.template.specificity d.template.specificity ∨
    c.template.specificity = d.template.specificity ∧
      (c.isExact ∧ ¬ d.isExact ∨ c.isExact = d.isExact ∧ d.template.weight < c.template.weight)

theorem outranks_iff : c.Outranks d ↔ d.rank < c.rank := by
  have hexact : c.isExact ∧ ¬ d.isExact ↔ d.isExact < c.isExact := by
    rw [Bool.lt_iff]
    simp [and_comm]
  rw [Outranks, scoresAbove_iff, hexact, eq_comm, eq_comm (a := c.isExact), Rank.lt_iff]
  rfl

/-- `c` outranks `d`, or they rank alike and come in this order. -/
def RanksBefore (order : Candidate → Candidate → Prop) (c d : Candidate) : Prop :=
  c.Outranks d ∨ c.rank = d.rank ∧ order c d

variable {order : Candidate → Candidate → Prop}

theorem RanksBefore.asymm (horder : ∀ {c d}, order c d → ¬ order d c)
    (h : RanksBefore order c d) : ¬ RanksBefore order d c := by
  simp only [RanksBefore, outranks_iff] at *
  rcases h with hlt | ⟨heq, hcd⟩
  · rintro (hgt | ⟨heq, -⟩)
    · exact Rank.asymm hlt hgt
    · exact Rank.irrefl _ (heq ▸ hlt)
  · rintro (hgt | ⟨-, hdc⟩)
    · exact Rank.irrefl _ (heq ▸ hgt)
    · exact horder hcd hdc

theorem ranksBefore_place (hc : ∀ d ∈ cs, order c d) (h : cs.Pairwise (RanksBefore order)) :
    (place c cs).Pairwise (RanksBefore order) := by
  induction cs with
  | nil => exact List.pairwise_singleton _ c
  | cons d rest ih =>
    obtain ⟨hd, hrest⟩ := List.pairwise_cons.1 h
    obtain ⟨hcd, hcrest⟩ := List.forall_mem_cons.1 hc
    rw [place]
    by_cases hlt : c.rank < d.rank
    · rw [if_pos hlt]
      refine List.pairwise_cons.2 ⟨fun x hx => ?_, ih hcrest hrest⟩
      rcases List.mem_cons.1 ((place_perm c rest).mem_iff.1 hx) with rfl | hx
      · exact .inl (outranks_iff.2 hlt)
      · exact hd x hx
    · -- `c` ranks no lower than `d`, which ranks no lower than the rest
      have hbefore : ∀ x, order c x → ¬ c.rank < x.rank → RanksBefore order c x := by
        intro x hx hnot
        rcases Rank.lt_or_eq_of_not_lt hnot with hgt | heq
        · exact .inl (outranks_iff.2 hgt)
        · exact .inr ⟨heq, hx⟩
      rw [if_neg hlt]
      refine List.pairwise_cons.2 ⟨List.forall_mem_cons.2 ⟨hbefore d hcd hlt, fun x hx => ?_⟩, h⟩
      have hnot : ¬ d.rank < x.rank := by
        rcases hd x hx with hgt | ⟨heq, -⟩
        · exact Rank.asymm (outranks_iff.1 hgt)
        · exact heq ▸ Rank.irrefl _
      exact hbefore x (hcrest x hx) (Rank.not_lt_trans hlt hnot)

theorem ranksBefore_sort (h : cs.Pairwise order) : (sort cs).Pairwise (RanksBefore order) := by
  induction cs with
  | nil => exact .nil
  | cons c cs ih =>
    obtain ⟨hc, hcs⟩ := List.pairwise_cons.1 h
    exact ranksBefore_place (fun d hd => hc d ((sort_perm cs).mem_iff.1 hd)) (ih hcs)

end Candidate

namespace Router

variable {κ : Type} {r : Router κ} {path : String} {cs cs' : List Candidate}

/-- The route of the one name was registered before that of the other. -/
def NamedBefore (r : Router κ) (c d : Candidate) : Prop :=
  r.routes.keys.idxOf c.name < r.routes.keys.idxOf d.name

/-- The list has one candidate for every route that matches the path and no others, and any two of
them stand in the order of their ranks, or in that of the registry if they rank alike. -/
structure Ranks (r : Router κ) (path : String) (cs : List Candidate) : Prop where
  nodup : (cs.map Candidate.name).Nodup
  mem_iff : ∀ c, c ∈ cs ↔ ∃ route, r.routes.get? c.name = some route ∧
    route.template.match? path = some c.params ∧ c.template = route.template
  order : ∀ i j (hij : i < j) (hj : j < cs.length),
    cs[i].Outranks cs[j] ∨ cs[i].rank = cs[j].rank ∧ r.NamedBefore cs[i] cs[j]

theorem Ranks.pairwise (h : r.Ranks path cs) :
    cs.Pairwise (Candidate.RanksBefore r.NamedBefore) :=
  List.pairwise_iff_getElem.2 fun i j _ hj hij => h.order i j hij hj

theorem Ranks.unique (h : r.Ranks path cs) (h' : r.Ranks path cs') : cs = cs' := by
  have hperm : cs.Perm cs' := by
    rw [List.perm_ext_iff_of_nodup (List.Nodup.of_map _ h.nodup) (List.Nodup.of_map _ h'.nodup)]
    exact fun c => (h.mem_iff c).trans (h'.mem_iff c).symm
  refine hperm.eq_of_pairwise (fun c d _ _ hcd hdc => ?_) h.pairwise h'.pairwise
  exact absurd hdc (hcd.asymm fun hlt hgt => Nat.lt_asymm hlt hgt)

theorem keys_pairwise (r : Router κ) :
    r.routes.keys.Pairwise fun m n => r.routes.keys.idxOf m < r.routes.keys.idxOf n := by
  refine List.pairwise_iff_getElem.2 fun i j hi hj hij => ?_
  rwa [r.routes.nodup_keys.idxOf_getElem, r.routes.nodup_keys.idxOf_getElem]

theorem names_candidates (r : Router κ) (path : String) :
    ((r.routes.values.filterMap (candidate? path)).map Candidate.name).Sublist r.routes.keys := by
  have hkeys : r.routes.keys = r.routes.values.map Route.name := by
    rw [OrderedMap.keys, OrderedMap.values, List.map_map]
    exact List.map_congr_left fun e he => (r.name_of_mem_entries e he).symm
  rw [hkeys, List.map_filterMap]
  induction r.routes.values with
  | nil => exact .slnil
  | cons route rest ih =>
    rw [List.filterMap_cons, List.map_cons]
    cases hc : candidate? path route with
    | none => exact ih.cons _
    | some c =>
      rw [Option.map_some, name_of_candidate? hc]
      exact ih.cons_cons _

theorem candidate?_eq_some_iff {route : Route κ} {c : Candidate} :
    candidate? path route = some c ↔
      route.template.match? path = some c.params ∧ c.name = route.name ∧
        c.template = route.template := by
  obtain ⟨name, params, template⟩ := c
  simp only [candidate?, Option.map_eq_some_iff, Candidate.mk.injEq]
  constructor
  · rintro ⟨_, hmatch, hname, rfl, htemplate⟩
    exact ⟨hmatch, hname.symm, htemplate.symm⟩
  · rintro ⟨hmatch, hname, htemplate⟩
    exact ⟨params, hmatch, hname.symm, rfl, htemplate.symm⟩

theorem mem_candidates_iff {c : Candidate} :
    c ∈ r.routes.values.filterMap (candidate? path) ↔
      ∃ route, r.routes.get? c.name = some route ∧
        route.template.match? path = some c.params ∧ c.template = route.template := by
  rw [List.mem_filterMap]
  constructor
  · rintro ⟨route, hroute, hc⟩
    obtain ⟨⟨name, _⟩, he, rfl⟩ := List.mem_map.1 hroute
    have hget := OrderedMap.mem_entries_iff.1 he
    obtain ⟨hmatch, hname, htemplate⟩ := candidate?_eq_some_iff.1 hc
    rw [r.named hget] at hname
    exact ⟨_, hname ▸ hget, hmatch, htemplate⟩
  · rintro ⟨route, hget, hmatch, htemplate⟩
    refine ⟨route, List.mem_map.2 ⟨_, OrderedMap.mem_entries_iff.2 hget, rfl⟩, ?_⟩
    exact candidate?_eq_some_iff.2 ⟨hmatch, (r.named hget).symm, htemplate⟩

theorem ranks_sort (r : Router κ) (path : String) :
    r.Ranks path (Candidate.sort (r.routes.values.filterMap (candidate? path))) := by
  have hperm := Candidate.sort_perm (r.routes.values.filterMap (candidate? path))
  have hnames := names_candidates r path
  constructor
  · rw [(hperm.map _).nodup_iff]
    exact hnames.nodup r.routes.nodup_keys
  · intro c
    rw [hperm.mem_iff, mem_candidates_iff]
  · have horder : (r.routes.values.filterMap (candidate? path)).Pairwise r.NamedBefore := by
      have h := r.keys_pairwise.sublist hnames
      rwa [List.pairwise_map] at h
    intro i j hij hj
    exact List.pairwise_iff_getElem.1 (Candidate.ranksBefore_sort horder) i j _ hj hij

/-- The root path is resolved to the index route alone, where that is registered. Any other path is
resolved to the list of the candidates, of which there is only one. -/
theorem resolve_determined (r : Router κ) (path : String) :
    (∀ index, path = r.config.rootPath → r.routes.get? r.config.indexRoute = some index →
      r.resolve path = [⟨r.config.indexRoute, .empty, index.template⟩]) ∧
    (¬ (path = r.config.rootPath ∧ r.routes.contains r.config.indexRoute) →
      ∀ cs, r.resolve path = cs ↔ r.Ranks path cs) := by
  constructor
  · intro index hpath hindex
    rw [resolve, rootCandidate?, if_pos hpath, hindex, Option.map_some, r.named hindex]
  · intro hroot cs
    have hresolve : r.resolve path =
        Candidate.sort (r.routes.values.filterMap (candidate? path)) := by
      rw [resolve, rootCandidate?_eq_none_iff.2 hroot]
    rw [hresolve]
    constructor
    · rintro rfl
      exact ranks_sort r path
    · exact (ranks_sort r path).unique

/-- Of two routes that rank alike the one that came first goes first, also after it was registered
anew. -/
example :
    let alike (name : String) : Route Unit :=
      ⟨name, ⟨[.separator, .hole .param "x"], by decide⟩, []⟩
    ((((Router.empty {} true).register (alike "b")).register (alike "a")).register
      (alike "b")).resolve "/z" |>.map Candidate.name = ["b", "a"] := by
  decide +kernel

end Router

end NamedRoutes
