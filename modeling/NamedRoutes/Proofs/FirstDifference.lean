import NamedRoutes.Proofs.Candidates
import NamedRoutes.Proofs.Template.Unambiguous

/-!
# Where specificities first differ

Templates without wildcards have as many segments as every path that they match. A template with
wildcards has no more of them, and a segment with a wildcard scores lower than all others. So if one
of two templates for the same path is without wildcards, neither specificity is a proper beginning
of the other, and the first segments that score differently decide which one ranks higher.
-/
namespace NamedRoutes

section

variable {as bs : List Nat}

theorem lt_of_take_eq {i x y : Nat} (htake : as.take i = bs.take i) (hx : as[i]? = some x)
    (hy : bs[i]? = some y) (hlt : x < y) : as < bs := by
  obtain ⟨hi, rfl⟩ := List.getElem?_eq_some_iff.1 hx
  obtain ⟨hj, rfl⟩ := List.getElem?_eq_some_iff.1 hy
  have has : as = bs.take i ++ as[i] :: as.drop (i + 1) := by
    rw [← htake, ← List.drop_eq_getElem_cons hi, List.take_append_drop]
  have hbs : bs = bs.take i ++ bs[i] :: bs.drop (i + 1) := by
    rw [← List.drop_eq_getElem_cons hj, List.take_append_drop]
  have h : bs.take i ++ as[i] :: as.drop (i + 1) < bs.take i ++ bs[i] :: bs.drop (i + 1) :=
    List.append_left_lt (List.Lex.rel hlt)
  rwa [← has, ← hbs] at h

theorem exists_first_difference (h : ¬ as <+: bs) (h' : ¬ bs <+: as) :
    ∃ i x y, x ≠ y ∧ as.take i = bs.take i ∧ as[i]? = some x ∧ bs[i]? = some y := by
  induction as generalizing bs with
  | nil => exact absurd List.nil_prefix h
  | cons a as ih =>
    cases bs with
    | nil => exact absurd List.nil_prefix h'
    | cons b bs =>
      by_cases hab : a = b
      · subst hab
        rw [List.prefix_cons_inj] at h h'
        obtain ⟨i, x, y, hne, htake, hx, hy⟩ := ih h h'
        exact ⟨i + 1, x, y, hne, by rw [List.take_succ_cons, List.take_succ_cons, htake], hx, hy⟩
      · exact ⟨0, a, b, hab, rfl, rfl, rfl⟩

end

namespace Template

variable {t : Template} {items : List Item} {path : String}

def hasWildcard (t : Template) : Bool := t.items.any Item.isWildcard

theorem countP_isWildcard_of_not_hasWildcard (h : ¬ t.hasWildcard) :
    t.items.countP Item.isWildcard = 0 := by
  rw [List.countP_eq_zero]
  intro item hitem hwild
  exact h (List.any_eq_true.2 ⟨item, hitem, hwild⟩)

theorem score_eq_zero_iff {item : Item} : item.score = 0 ↔ item.isWildcard := by
  cases item with
  | hole kind name => cases kind <;> simp [Item.score, Item.isWildcard]
  | _ => simp [Item.score, Item.isWildcard]

theorem zero_mem_scores_iff : 0 ∈ scores items ↔ ∃ item ∈ items, item.isWildcard := by
  induction items with
  | nil => simp [scores]
  | cons item rest ih =>
    by_cases h : item = .separator
    · subst h
      simp [scores, ih, Item.isWildcard]
    · obtain ⟨x, xs, hs⟩ := exists_scores_eq_cons rest
      have hmin : 0 = min item.score x ↔ item.isWildcard ∨ 0 = x := by
        rw [← score_eq_zero_iff]
        omega
      rw [hs, List.mem_cons] at ih
      rw [scores_cons_of_ne_separator h, hs, List.modifyHead_cons, List.mem_cons, hmin, or_assoc,
        ih]
      simp

theorem zero_mem_specificity_iff : 0 ∈ t.specificity ↔ t.hasWildcard := by
  rw [specificity, zero_mem_scores_iff, hasWildcard, List.any_eq_true]

/-- The segment of a wildcard is told by the separators before it. -/
theorem getElem?_scores_wildcard (before : List Item) (name : String) (rest : List Item) :
    (scores (before ++ .hole .wildcard name :: rest))[before.count .separator]? = some 0 := by
  induction before with
  | nil =>
    obtain ⟨x, xs, hs⟩ := exists_scores_eq_cons rest
    simp [scores, hs, Item.score]
  | cons item before ih =>
    rw [List.cons_append]
    by_cases h : item = .separator
    · rw [h, scores, List.count_cons_self, List.getElem?_cons_succ, ih]
    · rw [scores_cons_of_ne_separator h, List.count_cons_of_ne h, List.getElem?_modifyHead, ih]
      split <;> simp

theorem exists_cut_of_match? {params : Params} (h : t.match? path = some params) :
    ∃ cs, Cut t.items path.toList cs := by
  obtain ⟨cs, hcs, -⟩ := Option.map_eq_some_iff.1 h
  exact ⟨cs, cut_of_captures? hcs⟩

theorem length_specificity_of_match? {params : Params} (h : t.match? path = some params)
    (hquery : ¬ t.hasQueryMarker) (hwild : ¬ t.hasWildcard) :
    t.specificity.length = path.toList.count '/' + 1 := by
  obtain ⟨cs, hcut⟩ := exists_cut_of_match? h
  rw [hasQueryMarker_iff] at hquery
  rw [specificity, length_scores, count_slash_of_cut
    (countP_isWildcard_of_not_hasWildcard hwild) t.wellFormed hquery hcut]

theorem length_specificity_le_of_match? {params : Params} (h : t.match? path = some params) :
    t.specificity.length ≤ path.toList.count '/' + 1 := by
  obtain ⟨cs, hcut⟩ := exists_cut_of_match? h
  rw [specificity, length_scores]
  exact Nat.succ_le_succ (count_separator_le_of_cut hcut)

theorem not_prefix_of_hasWildcard {u : Template} {params params' : Params}
    (ht : t.match? path = some params) (hu : u.match? path = some params')
    (hquery : ¬ u.hasQueryMarker) (hwild : t.hasWildcard) (hplain : ¬ u.hasWildcard) :
    ¬ t.specificity <+: u.specificity ∧ ¬ u.specificity <+: t.specificity := by
  have hzero : 0 ∈ t.specificity := zero_mem_specificity_iff.2 hwild
  have hnone : 0 ∉ u.specificity := mt zero_mem_specificity_iff.1 hplain
  constructor
  · intro h
    exact hnone (h.subset hzero)
  · intro h
    have hlen : t.specificity.length ≤ u.specificity.length := by
      rw [length_specificity_of_match? hu hquery hplain]
      exact length_specificity_le_of_match? ht
    apply hnone
    rwa [h.eq_of_length_le hlen]

end Template

namespace Candidate

variable {c d : Candidate} {path : String}

theorem rank_lt_iff_of_first_difference {i x y : Nat} (hne : x ≠ y)
    (htake : c.template.specificity.take i = d.template.specificity.take i)
    (hx : c.template.specificity[i]? = some x) (hy : d.template.specificity[i]? = some y) :
    c.rank < d.rank ↔ x < y := by
  constructor
  · intro h
    by_contra hnot
    have hgt : y < x := by omega
    exact Rank.asymm h (Rank.lt_iff.2 (.inl (lt_of_take_eq htake.symm hy hx hgt)))
  · intro hlt
    exact Rank.lt_iff.2 (.inl (lt_of_take_eq htake hx hy hlt))

/-- At some place the two templates have different scores behind equal ones, and these scores decide
which candidate ranks higher. -/
def DecidedByScores (c d : Candidate) : Prop :=
  ∃ i x y, c.template.specificity.take i = d.template.specificity.take i ∧
    c.template.specificity[i]? = some x ∧ d.template.specificity[i]? = some y ∧ x ≠ y ∧
    (c.rank < d.rank ↔ x < y) ∧ (d.rank < c.rank ↔ y < x)

theorem decidedByScores_of_neither
    (h : ¬ c.template.specificity <+: d.template.specificity ∧
      ¬ d.template.specificity <+: c.template.specificity) : c.DecidedByScores d := by
  obtain ⟨i, x, y, hne, htake, hx, hy⟩ := exists_first_difference h.1 h.2
  exact ⟨i, x, y, htake, hx, hy, hne, rank_lt_iff_of_first_difference hne htake hx hy,
    rank_lt_iff_of_first_difference hne.symm htake.symm hy hx⟩

theorem rank_lt_of_wildcard (hc : c.template.match? path = some c.params)
    (hd : d.template.match? path = some d.params) (hdq : ¬ d.template.hasQueryMarker)
    (hdw : ¬ d.template.hasWildcard) {before rest : List Item} {name : String}
    (hitems : c.template.items = before ++ .hole .wildcard name :: rest)
    (htake : c.template.specificity.take (before.count .separator) =
      d.template.specificity.take (before.count .separator)) : c.rank < d.rank := by
  have hx : c.template.specificity[before.count .separator]? = some 0 := by
    rw [Template.specificity, hitems, Template.getElem?_scores_wildcard]
  -- the other template has a segment there as well, since it has no fewer
  obtain ⟨hi, -⟩ := List.getElem?_eq_some_iff.1 hx
  have hlen := Template.length_specificity_le_of_match? hc
  rw [← Template.length_specificity_of_match? hd hdq hdw] at hlen
  obtain ⟨y, hy⟩ : ∃ y, d.template.specificity[before.count .separator]? = some y :=
    ⟨_, List.getElem?_eq_getElem (Nat.lt_of_lt_of_le hi hlen)⟩
  have hne : 0 ≠ y := by
    rintro rfl
    exact hdw (Template.zero_mem_specificity_iff.1 (List.mem_of_getElem? hy))
  rw [rank_lt_iff_of_first_difference hne htake hx hy]
  omega

/-- Of two candidates for one path whose templates wait for no query, those without wildcards have a
score for each segment of the path. If only one of the templates has wildcards, neither specificity
is a beginning of the other, and the candidate with wildcards ranks lower if the segments before the
first of them score alike. So unless both have wildcards, the first segments that score differently
decide, and never the number of segments. -/
theorem first_difference_decides (hc : c.template.match? path = some c.params)
    (hd : d.template.match? path = some d.params) (hcq : ¬ c.template.hasQueryMarker)
    (hdq : ¬ d.template.hasQueryMarker) :
    (¬ c.template.hasWildcard → ¬ d.template.hasWildcard →
      c.template.specificity.length = path.toList.count '/' + 1 ∧
      d.template.specificity.length = path.toList.count '/' + 1) ∧
    (c.template.hasWildcard → ¬ d.template.hasWildcard →
      ¬ c.template.specificity <+: d.template.specificity ∧
      ¬ d.template.specificity <+: c.template.specificity ∧
      ∀ before name rest, c.template.items = before ++ .hole .wildcard name :: rest →
        (∀ item ∈ before, ¬ item.isWildcard) →
        c.template.specificity.take (before.count .separator) =
          d.template.specificity.take (before.count .separator) → c.rank < d.rank) ∧
    (¬ (c.template.hasWildcard ∧ d.template.hasWildcard) →
      c.template.specificity = d.template.specificity ∨ c.DecidedByScores d) := by
  refine ⟨fun hcw hdw => ⟨?_, ?_⟩, fun hcw hdw => ?_, fun hboth => ?_⟩
  · exact Template.length_specificity_of_match? hc hcq hcw
  · exact Template.length_specificity_of_match? hd hdq hdw
  · obtain ⟨hcd, hdc⟩ := Template.not_prefix_of_hasWildcard hc hd hdq hcw hdw
    refine ⟨hcd, hdc, ?_⟩
    intro before name rest hitems _ htake
    exact rank_lt_of_wildcard hc hd hdq hdw hitems htake
  · by_cases hcw : c.template.hasWildcard
    · have hdw : ¬ d.template.hasWildcard := fun hdw => hboth ⟨hcw, hdw⟩
      exact .inr (decidedByScores_of_neither
        (Template.not_prefix_of_hasWildcard hc hd hdq hcw hdw))
    · by_cases hdw : d.template.hasWildcard
      · exact .inr (decidedByScores_of_neither
          (Template.not_prefix_of_hasWildcard hd hc hcq hdw hcw).symm)
      · have hlen : c.template.specificity.length = d.template.specificity.length := by
          rw [Template.length_specificity_of_match? hc hcq hcw,
            Template.length_specificity_of_match? hd hdq hdw]
        by_cases heq : c.template.specificity = d.template.specificity
        · exact .inl heq
        · refine .inr (decidedByScores_of_neither ⟨?_, ?_⟩)
          · exact fun h => heq (h.eq_of_length hlen)
          · exact fun h => heq (h.eq_of_length hlen.symm).symm

def wild : Candidate :=
  ⟨"wild", .ofList [("wildcard", .str "b/c")],
    ⟨[.separator, .literal 'a', .separator, .hole .wildcard ""], by decide⟩⟩

def tame : Candidate :=
  ⟨"tame", .ofList [("x", .str "b"), ("y", .str "c")],
    ⟨[.separator, .literal 'a', .separator, .hole .param "x", .separator, .hole .param "y"],
      by decide⟩⟩

theorem first_difference_decides_wild_tame :
    wild.template.specificity = [2, 2, 0] ∧ tame.template.specificity = [2, 2, 1, 1] ∧
      wild.rank < tame.rank := by
  have hwild : wild.template.match? "/a/b/c" = some wild.params := by rfl
  have htame : tame.template.match? "/a/b/c" = some tame.params := by rfl
  obtain ⟨-, h, -⟩ := first_difference_decides hwild htame (by decide) (by decide)
  obtain ⟨-, -, hrank⟩ := h (by decide) (by decide)
  exact ⟨rfl, rfl, hrank [.separator, .literal 'a', .separator] "" [] rfl (by decide) rfl⟩

end Candidate

end NamedRoutes
