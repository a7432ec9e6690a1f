import NamedRoutes.Proofs.Template.Cut
import NamedRoutes.Template.Rank

/-!
# Scores of segments

A template has one score for each of its segments, and no score exceeds that of literal text. A path
that matches has a slash for every separator, so that no specificity exceeds the one of plain text
with as many slashes.
-/
namespace NamedRoutes

namespace Template

variable {items : List Item} {s : List Char} {cs : Captures}

theorem scores_cons_of_ne_separator {item : Item} (h : item ≠ .separator) (rest : List Item) :
    scores (item :: rest) = (scores rest).modifyHead (min item.score) := by
  cases item with
  | separator => exact absurd rfl h
  | _ => rfl

theorem length_scores (items : List Item) :
    (scores items).length = items.count .separator + 1 := by
  induction items with
  | nil => rfl
  | cons item rest ih =>
    by_cases h : item = .separator
    · rw [h, scores, List.length_cons, ih, List.count_cons_self]
    · rw [scores_cons_of_ne_separator h, List.length_modifyHead, ih, List.count_cons_of_ne h]

theorem exists_scores_eq_cons (items : List Item) : ∃ x xs, scores items = x :: xs := by
  have h := length_scores items
  cases hs : scores items with
  | nil =>
    rw [hs] at h
    cases h
  | cons x xs => exact ⟨x, xs, rfl⟩

theorem score_le_two (item : Item) : item.score ≤ 2 := by
  cases item with
  | hole kind name => cases kind <;> simp [Item.score]
  | _ => exact Nat.le_refl 2

theorem score_eq_two_iff {item : Item} : item.score = 2 ↔ ¬ item.isHole := by
  cases item with
  | hole kind name => cases kind <;> simp [Item.score, Item.isHole]
  | _ => simp [Item.score, Item.isHole]

theorem le_two_of_mem_scores : ∀ x ∈ scores items, x ≤ 2 := by
  induction items with
  | nil => simp [scores]
  | cons item rest ih =>
    by_cases h : item = .separator
    · rw [h, scores]
      exact List.forall_mem_cons.2 ⟨Nat.le_refl 2, ih⟩
    · obtain ⟨x, xs, hs⟩ := exists_scores_eq_cons rest
      rw [hs] at ih
      rw [scores_cons_of_ne_separator h, hs, List.modifyHead_cons]
      exact List.forall_mem_cons.2
        ⟨Nat.le_trans (Nat.min_le_left _ _) (score_le_two item), (List.forall_mem_cons.1 ih).2⟩

/-- Only a segment without holes scores like plain text. -/
theorem scores_eq_two_iff :
    (∀ x ∈ scores items, x = 2) ↔ ∀ item ∈ items, ¬ item.isHole := by
  induction items with
  | nil => simp [scores]
  | cons item rest ih =>
    rw [List.forall_mem_cons, ← ih]
    by_cases h : item = .separator
    · simp [h, scores, Item.isHole]
    · obtain ⟨x, xs, hs⟩ := exists_scores_eq_cons rest
      have hitem := score_le_two item
      have hx : x ≤ 2 := le_two_of_mem_scores x (by rw [hs]; exact List.mem_cons_self)
      rw [scores_cons_of_ne_separator h, hs, List.modifyHead_cons, List.forall_mem_cons,
        List.forall_mem_cons, ← score_eq_two_iff, ← and_assoc]
      refine and_congr_left fun _ => ?_
      omega

theorem count_separator_le_of_cut (h : Cut items s cs) :
    items.count .separator ≤ s.count '/' := by
  induction h with
  | nil => exact Nat.le_refl 0
  | separator _ ih => simpa using ih
  | literal _ _ ih =>
    rw [List.count_cons_of_ne (by simp)]
    exact Nat.le_trans ih List.count_le_count_cons
  | hole _ _ ih =>
    rw [List.count_cons_of_ne (by simp), List.count_append]
    omega
  | noQuery _ ih => simpa using ih
  | query _ _ ih =>
    rw [List.count_cons_of_ne (by simp), List.count_cons_of_ne (by simp), List.count_append]
    omega

theorem eq_replicate_or_lt {n k : Nat} {l : List Nat} (hl : l.length ≤ n) (hk : ∀ x ∈ l, x ≤ k) :
    l = List.replicate n k ∨ l < List.replicate n k := by
  induction l generalizing n with
  | nil =>
    cases n with
    | zero => exact .inl rfl
    | succ n => exact .inr List.Lex.nil
  | cons x l ih =>
    obtain ⟨hx, hk⟩ := List.forall_mem_cons.1 hk
    cases n with
    | zero => cases hl
    | succ n =>
      rw [List.replicate_succ]
      rcases Nat.lt_or_eq_of_le hx with hlt | rfl
      · exact .inr (List.Lex.rel hlt)
      · rcases ih (Nat.le_of_succ_le_succ hl) hk with rfl | hlt
        · exact .inl rfl
        · exact .inr (List.Lex.cons hlt)

/-- The specificity of plain text with the slashes of a path bounds that of every template which the
path matches. -/
theorem scores_eq_or_lt_of_cut (h : Cut items s cs) :
    scores items = List.replicate (s.count '/' + 1) 2 ∨
      scores items < List.replicate (s.count '/' + 1) 2 := by
  refine eq_replicate_or_lt ?_ le_two_of_mem_scores
  rw [length_scores]
  exact Nat.succ_le_succ (count_separator_le_of_cut h)

end Template

end NamedRoutes
