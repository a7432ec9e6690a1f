import Mathlib.Data.List.TakeWhile
import NamedRoutes.Proofs.Template.Grammar
import NamedRoutes.Url

/-!
# Placeholders

A key that is looked for in a path is found where a hole goes by it. It may also be found elsewhere:
in a text that was put in for another key, or at a hole of another name, by way of a line end at the
very end, of an empty key, or of a key that goes on behind a separator. A key that respects the
names of holes and is lacking in such texts is only found where it belongs.
-/
namespace NamedRoutes

/-- Keys that can be told apart from what surrounds a placeholder. -/
def IsKey (key : String) : Prop := key.toList ≠ [] ∧ ∀ c ∈ key.toList, isOrdinary c

instance (key : String) : Decidable (IsKey key) :=
  have := List.decidableBAll (isOrdinary ·) key.toList
  inferInstanceAs (Decidable (_ ∧ _))

/-- The end of a text also counts as its end just before a line end; such names are kept out. -/
def EndsOpen (name : List Char) : Prop := name.getLast? ≠ some '\n'

instance (name : List Char) : Decidable (EndsOpen name) := inferInstanceAs (Decidable (_ ≠ _))

def lead (key : List Char) : List Char := key.takeWhile (· != '/')

/-- The key does not take a hole of another name for its own: it is not that name less a line end at
the end, and if it is empty or goes on behind a separator, its lead is not that name. -/
def Respects (key name : List Char) : Prop :=
  name ≠ key ++ ['\n'] ∧ (key = [] ∨ '/' ∈ key → lead key ≠ name)

instance (key name : List Char) : Decidable (Respects key name) :=
  inferInstanceAs (Decidable (name ≠ key ++ ['\n'] ∧ (key = [] ∨ '/' ∈ key → lead key ≠ name)))

/-- The text holds no placeholder of the key, nor one that a path completes behind the text. -/
def Lacks (key text : List Char) : Prop := fill? (lead key) [] text = none

instance (key text : List Char) : Decidable (Lacks key text) :=
  inferInstanceAs (Decidable (fill? (lead key) [] text = none))

theorem lead_eq_self {key : List Char} (h : '/' ∉ key) : lead key = key := by
  rw [lead, List.takeWhile_eq_self_iff]
  intro c hc
  simpa using ne_of_mem_of_not_mem hc h

theorem exists_eq_lead_append (key : List Char) :
    ∃ k, key = lead key ++ k ∧ k.head? ∈ [none, some '/'] := by
  induction key with
  | nil => exact ⟨[], rfl, by simp⟩
  | cons c key ih =>
    by_cases h : c = '/'
    · exact ⟨c :: key, by simp [lead, h], by simp [h]⟩
    · obtain ⟨k, hk, hhead⟩ := ih
      refine ⟨k, ?_, hhead⟩
      rw [lead, List.takeWhile_cons_of_pos (by simpa using h), List.cons_append, ← lead, ← hk]

theorem afterKey?_eq_some_iff {key s r : List Char} : afterKey? key s = some r ↔ s = key ++ r := by
  induction key generalizing s with
  | nil => simp [afterKey?]
  | cons k key ih =>
    cases s with
    | nil => simp [afterKey?]
    | cons c s =>
      rw [afterKey?]
      by_cases h : k = c
      · simp [h, ih]
      · simp [h, Ne.symm h]

theorem endsPlaceholder_of_head? {s : List Char} (h : s.head? ∈ [none, some '/']) :
    endsPlaceholder s := by
  cases s with
  | nil => rfl
  | cons c s =>
    have hc : c = '/' := by simpa using h
    rw [hc]
    rfl

theorem endsPlaceholder_of_append {s rest : List Char} (h : endsPlaceholder (s ++ rest)) :
    endsPlaceholder s := by
  cases s with
  | nil => rfl
  | cons c s =>
    rw [List.cons_append] at h
    by_cases hc : c = '/' ∨ c = '?'
    · rcases hc with rfl | rfl <;> rfl
    · rw [not_or] at hc
      have hn : c = '\n' ∧ s = [] ∧ rest = [] := by simpa [endsPlaceholder, hc] using h
      rw [hn.1, hn.2.1]
      rfl

theorem eq_newline_of_endsPlaceholder {c : Char} {s : List Char} (hc : isOrdinary c)
    (h : endsPlaceholder (c :: s)) : c = '\n' ∧ s = [] := by
  have ho := isOrdinary_iff.1 hc
  simpa [endsPlaceholder, ho] using h

theorem lead_of_afterKey? {key s rest r : List Char} (hrest : rest.head? ∈ [none, some '/'])
    (h : afterKey? key (s ++ rest) = some r) (hr : endsPlaceholder r) :
    ∃ a, s = lead key ++ a ∧ endsPlaceholder (a ++ rest) := by
  obtain ⟨k, hk, hhead⟩ := exists_eq_lead_append key
  have hkr : endsPlaceholder (k ++ r) := by
    cases k with
    | nil => exact hr
    | cons c k => exact endsPlaceholder_of_head? hhead
  have hs : s ++ rest = lead key ++ (k ++ r) := by
    rw [← List.append_assoc, ← hk]
    exact afterKey?_eq_some_iff.1 h
  rcases List.append_eq_append_iff.1 hs with ⟨a, hlead, hrest'⟩ | ⟨a, hs, hkr'⟩
  · -- the text ends within the lead, which holds no separator
    cases a with
    | nil =>
      rw [List.append_nil] at hlead
      exact ⟨[], by rw [hlead, List.append_nil], endsPlaceholder_of_head? hrest⟩
    | cons c a =>
      rw [hrest'] at hrest
      have hc : c = '/' := by simpa using hrest
      have hmem : '/' ∈ lead key := by simp [hlead, hc]
      simpa using List.mem_takeWhile_imp hmem
  · exact ⟨a, hs, hkr' ▸ hkr⟩

theorem filter_afterKey? {key name rest : List Char} (hname : ∀ c ∈ name, isOrdinary c)
    (hkey : Respects key name) (hrest : rest.head? ∈ [none, some '/']) :
    (afterKey? key (name ++ rest)).filter endsPlaceholder =
      if key = name then some rest else none := by
  by_cases he : key = name
  · rw [if_pos he, he, afterKey?_eq_some_iff.2 rfl]
    simp [endsPlaceholder_of_head? hrest]
  · rw [if_neg he, Option.filter_eq_none_iff]
    intro r hr hends
    obtain ⟨a, ha, haends⟩ := lead_of_afterKey? hrest hr hends
    cases a with
    | nil =>
      rw [List.append_nil] at ha
      have hslash : '/' ∉ key := fun h => hkey.2 (.inr h) ha.symm
      exact he (by rw [ha, lead_eq_self hslash])
    | cons c a =>
      obtain ⟨rfl, hnil⟩ := eq_newline_of_endsPlaceholder (hname c (by simp [ha])) haends
      obtain ⟨rfl, rfl⟩ := List.append_eq_nil_iff.1 hnil
      rw [List.append_nil] at hr
      have hslash : '/' ∉ key := fun h =>
        (isOrdinary_iff.1 (hname '/' (by simp [afterKey?_eq_some_iff.1 hr, h]))).1 rfl
      exact hkey.1 (by rw [ha, lead_eq_self hslash])

theorem afterPlaceholder?_of_not_isMark {key s : List Char} {c : Char}
    (h : ¬ Template.IsMark c) : afterPlaceholder? key (c :: s) = none := by
  rw [afterPlaceholder?]
  exact if_neg h

theorem afterPlaceholder?_eq_none_iff {key s : List Char} {c : Char} (hc : Template.IsMark c) :
    afterPlaceholder? key (c :: s) = none ↔
      (afterKey? key s).filter endsPlaceholder = none ∧
        ¬ (c = '*' ∧ key = wildcardName.toList ∧ endsPlaceholder s) := by
  have hc' : c = ':' ∨ c = '*' := hc
  rw [afterPlaceholder?, if_pos hc']
  cases (afterKey? key s).filter endsPlaceholder <;> simp

/-- At a hole a key that respects its name fits exactly when it is the name that the hole goes
by. -/
theorem afterPlaceholder?_hole {key name : String} {kind : Hole} {rest : List Char}
    (hname : kind.AllowsName name.toList) (hkey : Respects key.toList name.toList)
    (hrest : rest.head? ∈ [none, some '/']) :
    afterPlaceholder? key.toList (kind.marker :: (name.toList ++ rest)) =
      if key = knownAs name then some rest else none := by
  have hmark : kind.marker = ':' ∨ kind.marker = '*' := by cases kind <;> simp [Hole.marker]
  rw [afterPlaceholder?, if_pos hmark, filter_afterKey? hname.isOrdinary hkey hrest]
  simp only [String.toList_inj]
  by_cases hname' : name = ""
  · subst hname'
    have hk : kind = .wildcard := by
      cases kind with
      | wildcard => rfl
      | _ => exact absurd rfl hname.1
    have hne : key ≠ "" := fun he => hkey.2 (.inl (by simp [he])) (by simp [he, lead])
    simp [hk, hne, knownAs, Hole.marker, endsPlaceholder_of_head? hrest]
  · rw [knownAs, if_neg hname']
    by_cases hk : key = name
    · simp [hk]
    · -- a star with a name behind it is no lone star
      obtain ⟨c, tail, hc⟩ := List.exists_cons_of_ne_nil (mt String.toList_eq_nil_iff.1 hname')
      rw [if_neg hk]
      apply if_neg
      rintro ⟨hstar, -, hends⟩
      have hwild : kind = .wildcard := by cases kind <;> simp [Hole.marker] at hstar ⊢
      subst hwild
      rw [hc, List.cons_append] at hends
      have hchar : isWildcardNameChar c := hname c (by simp [hc])
      have ho := isOrdinary_of_isWildcardNameChar hchar
      rw [(eq_newline_of_endsPlaceholder ho hends).1] at hchar
      revert hchar
      decide +kernel

theorem fill?_cons_of_not_isMark {c : Char} (h : ¬ Template.IsMark c) (key text s : List Char) :
    fill? key text (c :: s) = (fill? key text s).map (c :: ·) := by
  rw [fill?, afterPlaceholder?_of_not_isMark h]

theorem lacks_nil (key : List Char) : Lacks key [] := rfl

theorem lacks_cons_iff {key s : List Char} {c : Char} :
    Lacks key (c :: s) ↔ afterPlaceholder? (lead key) (c :: s) = none ∧ Lacks key s := by
  rw [Lacks, fill?, Lacks]
  cases afterPlaceholder? (lead key) (c :: s) <;> simp

theorem lacks_of_unmarked {s : List Char} (key : List Char) (h : Template.Unmarked s) :
    Lacks key s := by
  induction s with
  | nil => exact lacks_nil key
  | cons c s ih =>
    obtain ⟨hc, hs⟩ := Template.unmarked_cons.1 h
    exact lacks_cons_iff.2 ⟨afterPlaceholder?_of_not_isMark hc, ih hs⟩

theorem afterPlaceholder?_append {key s rest : List Char} {c : Char}
    (hrest : rest.head? ∈ [none, some '/'])
    (h : afterPlaceholder? (lead key) (c :: s) = none) :
    afterPlaceholder? key (c :: (s ++ rest)) = none := by
  by_cases hc : Template.IsMark c
  · rw [afterPlaceholder?_eq_none_iff hc, Option.filter_eq_none_iff] at h ⊢
    constructor
    · intro r hr hends
      obtain ⟨a, ha, haends⟩ := lead_of_afterKey? hrest hr hends
      exact h.1 a (afterKey?_eq_some_iff.2 ha) (endsPlaceholder_of_append haends)
    · rintro ⟨hstar, rfl, hends⟩
      exact h.2 ⟨hstar, lead_eq_self (by decide), endsPlaceholder_of_append hends⟩
  · exact afterPlaceholder?_of_not_isMark hc

theorem fill?_append {key s rest : List Char} (text : List Char)
    (hrest : rest.head? ∈ [none, some '/']) (h : Lacks key s) :
    fill? key text (s ++ rest) = (fill? key text rest).map (s ++ ·) := by
  induction s with
  | nil => simp
  | cons c s ih =>
    obtain ⟨hc, hs⟩ := lacks_cons_iff.1 h
    rw [List.cons_append, fill?, afterPlaceholder?_append hrest hc, ih hs]
    simp [Function.comp_def]

theorem unmarked_of_isOrdinary {s : List Char} (h : ∀ c ∈ s, isOrdinary c) :
    Template.Unmarked s :=
  Template.unmarked_iff.2 fun c hc => not_or.2 (isOrdinary_iff.1 (h c hc)).2.2

/-- A key fills a hole of its name, and it passes over any other. -/
theorem fill?_hole {key name : String} {kind : Hole} {text rest : List Char}
    (hname : kind.AllowsName name.toList) (hkey : Respects key.toList name.toList)
    (hrest : rest.head? ∈ [none, some '/']) :
    fill? key.toList text (kind.marker :: (name.toList ++ rest)) =
      if key = knownAs name then some (text ++ rest)
      else (fill? key.toList text rest).map (kind.marker :: name.toList ++ ·) := by
  rw [fill?, afterPlaceholder?_hole hname hkey hrest]
  by_cases hk : key = knownAs name
  · simp [hk]
  · have hlacks := lacks_of_unmarked key.toList (unmarked_of_isOrdinary hname.isOrdinary)
    rw [if_neg hk, if_neg hk, fill?_append text hrest hlacks]
    simp [Function.comp_def]

end NamedRoutes
