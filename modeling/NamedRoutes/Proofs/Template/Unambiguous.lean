import NamedRoutes.Proofs.Template.Cut
import NamedRoutes.Proofs.Template.Grammar

/-!
# Paths that can be cut in one way

A parameter ends where its segment ends, so that only wildcards can shift. A single wildcard is held
in place by the separators behind it, which are as many as its template has there. A query would
spoil the count, as it may hold separators of its own.
-/
namespace NamedRoutes

namespace Template

/-- Without wildcards, or with a single one and no query. -/
def Unambiguous (items : List Item) : Prop :=
  items.countP Item.isWildcard = 0 ∨ items.countP Item.isWildcard = 1 ∧ .query ∉ items

variable {items : List Item} {s : List Char} {cs : Captures}

theorem Unambiguous.tail {item : Item} (h : Unambiguous (item :: items)) : Unambiguous items := by
  have hle : items.countP Item.isWildcard ≤ (item :: items).countP Item.isWildcard :=
    (List.sublist_cons_self item items).countP_le
  rcases h with h | ⟨h, hq⟩
  · exact Or.inl (by omega)
  · have hq' : .query ∉ items := fun hm => hq (List.mem_cons_of_mem _ hm)
    by_cases h₀ : items.countP Item.isWildcard = 0
    · exact Or.inl h₀
    · exact Or.inr ⟨by omega, hq'⟩

theorem Unambiguous.behind {name : String} (h : Unambiguous (.hole .wildcard name :: items)) :
    items.countP Item.isWildcard = 0 ∧ .query ∉ items := by
  have hc : (Item.hole .wildcard name :: items).countP Item.isWildcard =
      items.countP Item.isWildcard + 1 := List.countP_cons_of_pos rfl
  rcases h with h | ⟨h, hq⟩
  · omega
  · exact ⟨by omega, fun hm => hq (List.mem_cons_of_mem _ hm)⟩

/-- What lies behind a parameter cannot lengthen it. -/
theorem not_allowed_of_cut {kind : Hole} (hk : kind ≠ .wildcard) (hw : Item.WellFormed items)
    (hnext : items.head? ∈ kind.followers) (h : Cut items s cs) :
    ∀ c ∈ s.head?, kind.allows c = false := by
  cases h with
  | nil => simp
  | separator _ => cases kind <;> simp [Hole.allows] at hk ⊢
  | literal _ _ => cases kind <;> simp [Hole.followers] at hnext
  | hole _ _ => cases kind <;> simp [Hole.followers] at hnext
  | noQuery h =>
    rw [Item.wellFormed_query.1 hw] at h
    simp [(eq_nil_of_cut_nil h).1]
  | query _ _ => cases kind <;> simp [Hole.followers, Hole.allows] at hk hnext ⊢

theorem head?_of_cut_behind (hq : .query ∉ items) (hnext : items.head? ∈ Hole.wildcard.followers)
    (h : Cut items s cs) : ∀ c ∈ s.head?, c = '/' := by
  cases h with
  | nil => simp
  | separator _ => simp
  | literal _ _ => simp [Hole.followers] at hnext
  | hole _ _ => simp [Hole.followers] at hnext
  | noQuery _ => simp at hq
  | query _ _ => simp at hq

theorem count_slash_of_cut (hc : items.countP Item.isWildcard = 0) (hw : Item.WellFormed items)
    (hq : .query ∉ items) (h : Cut items s cs) : s.count '/' = items.count .separator := by
  induction h with
  | nil => rfl
  | separator _ ih =>
    have ih := ih hc hw.tail fun hm => hq (List.mem_cons_of_mem _ hm)
    rw [List.count_cons_self, List.count_cons_self, ih]
  | @literal a c _ _ _ hac _ ih =>
    have ih := ih hc hw.tail fun hm => hq (List.mem_cons_of_mem _ hm)
    have hne : c ≠ '/' := by
      rintro rfl
      exact (isOrdinary_iff.1 hw.1).1 (Text.eq_slash_of_sameLetter hac)
    rw [List.count_cons_of_ne hne, List.count_cons_of_ne (by simp), ih]
  | @hole kind name run items s cs hrun _ ih =>
    have hk : kind ≠ .wildcard := by
      rintro rfl
      simp [Item.isWildcard] at hc
    have hrest : items.countP Item.isWildcard = 0 := by
      have := (List.sublist_cons_self (Item.hole kind name) items).countP_le (p := Item.isWildcard)
      omega
    have ih := ih hrest hw.tail fun hm => hq (List.mem_cons_of_mem _ hm)
    have hslash : '/' ∉ run := by
      cases kind with
      | param => exact hrun.2
      | paramBeforeQuery => exact hrun.2.1
      | wildcard => exact absurd rfl hk
    rw [List.count_append, List.count_eq_zero.2 hslash, List.count_cons_of_ne (by simp), ih,
      Nat.zero_add]
  | noQuery _ => simp at hq
  | query _ _ => simp at hq

theorem eq_nil_of_count_eq {a s s' : List Char} (hs : s = a ++ s') (hhead : ∀ c ∈ s.head?, c = '/')
    (hcount : s.count '/' = s'.count '/') : a = [] := by
  cases a with
  | nil => rfl
  | cons c a =>
    have hc : c = '/' := hhead c (by simp [hs])
    rw [hs, hc, List.cons_append, List.count_cons_self, List.count_append] at hcount
    omega

theorem append_inj_of_count_eq {run run' s s' : List Char} (he : run ++ s = run' ++ s')
    (hhead : ∀ c ∈ s.head?, c = '/') (hhead' : ∀ c ∈ s'.head?, c = '/')
    (hcount : s.count '/' = s'.count '/') : run = run' ∧ s = s' := by
  rcases List.append_eq_append_iff.1 he with ⟨a, rfl, hs⟩ | ⟨a, rfl, hs⟩
  · have ha : a = [] := eq_nil_of_count_eq hs hhead hcount
    simp [ha, hs]
  · have ha : a = [] := eq_nil_of_count_eq hs hhead' hcount.symm
    simp [ha, hs]

theorem cut_unique {cs' : Captures} (hw : Item.WellFormed items) (hu : Unambiguous items)
    (h : Cut items s cs) (h' : Cut items s cs') : cs = cs' := by
  induction items generalizing s cs cs' with
  | nil => rw [(eq_nil_of_cut_nil h).2, (eq_nil_of_cut_nil h').2]
  | cons item rest ih =>
    cases item with
    | separator =>
      cases h with
      | separator h =>
        cases h' with
        | separator h' => exact ih hw.tail hu.tail h h'
    | literal a =>
      cases h with
      | literal _ h =>
        cases h' with
        | literal _ h' => exact ih hw.tail hu.tail h h'
    | hole kind name =>
      obtain ⟨⟨-, hnext⟩, hrest⟩ := Item.wellFormed_hole.1 hw
      generalize hs : s = whole at h'
      cases h with
      | @hole _ _ run _ s cs hrun h =>
        cases h' with
        | @hole _ _ run' _ s' cs' hrun' h' =>
          have hsame : run = run' ∧ s = s' := by
            by_cases hk : kind = .wildcard
            · subst hk
              obtain ⟨hc, hq⟩ := hu.behind
              have hcount := count_slash_of_cut hc hrest hq h
              have hcount' := count_slash_of_cut hc hrest hq h'
              exact append_inj_of_count_eq hs (head?_of_cut_behind hq hnext h)
                (head?_of_cut_behind hq hnext h') (hcount.trans hcount'.symm)
            · -- a parameter is the longest run that it allows
              have hrun := (Hole.fits_iff.1 hrun).2
              have hrun' := (Hole.fits_iff.1 hrun').2
              obtain ⟨ht, hd⟩ := takeWhile_of_ends hrun (not_allowed_of_cut hk hrest hnext h)
              obtain ⟨ht', hd'⟩ := takeWhile_of_ends hrun' (not_allowed_of_cut hk hrest hnext h')
              exact ⟨by rw [← ht, hs, ht'], by rw [← hd, hs, hd']⟩
          obtain ⟨rfl, rfl⟩ := hsame
          rw [ih hrest hu.tail h h']
    | query =>
      rw [Item.wellFormed_query.1 hw] at h h'
      cases h with
      | noQuery h =>
        obtain ⟨rfl, rfl⟩ := eq_nil_of_cut_nil h
        cases h' with
        | noQuery h' => rw [(eq_nil_of_cut_nil h').2]
      | query _ h =>
        obtain ⟨rfl, rfl⟩ := eq_nil_of_cut_nil h
        generalize hs : '?' :: _ = whole at h'
        cases h' with
        | noQuery h' =>
          rw [(eq_nil_of_cut_nil h').1] at hs
          cases hs
        | query _ h' =>
          obtain ⟨rfl, rfl⟩ := eq_nil_of_cut_nil h'
          simpa using hs

end Template

end NamedRoutes
