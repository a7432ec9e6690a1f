import NamedRoutes.Fault

/-!
# The grammar of templates

A text is a template when `?` occurs in it at most as its last character and every segment before
that is text, text and a parameter, or text and a wildcard. The scan accepts exactly these texts,
and of any other it tells the leftmost violation: the mark that the leftmost malformed segment
begins with decides, and only when there is none is it the text behind the query marker.
-/
namespace NamedRoutes

namespace Template

def Unmarked (s : List Char) : Prop := ':' ∉ s ∧ '*' ∉ s

instance (s : List Char) : Decidable (Unmarked s) := inferInstanceAs (Decidable (_ ∧ _))

def IsMark (c : Char) : Prop := c = ':' ∨ c = '*'

inductive Segment : List Char → Prop
  | text {s : List Char} (h : Unmarked s) : Segment s
  | param {s name : List Char} (h : Unmarked s) (hne : name ≠ []) (hn : Unmarked name) :
      Segment (s ++ ':' :: name)
  | wildcard {s name : List Char} (h : Unmarked s) (hn : ∀ c ∈ name, Text.isWord c ∨ c = '-') :
      Segment (s ++ '*' :: name)

/-- The segments of what stands before the first `?`. -/
def segments (s : List Char) : List (List Char) := (s.takeWhile (· != '?')).splitOn '/'

def withoutLastQuery (s : List Char) : List Char :=
  if s.getLast? = some '?' then s.dropLast else s

structure IsTemplate (s : List Char) : Prop where
  query_last : '?' ∉ s.dropLast
  segment : ∀ seg ∈ (withoutLastQuery s).splitOn '/', Segment seg

/-- What is wrong with a malformed segment whose first mark this is. -/
def markViolation (mark : Char) : Violation :=
  if mark = ':' then .invalidCharacter else .wildcardNotLast

inductive LeftmostViolation (s : List Char) : Violation → Prop
  | inSegment {before after : List (List Char)} {text rest : List Char} {mark : Char}
      (hs : segments s = before ++ (text ++ mark :: rest) :: after)
      (hbefore : ∀ seg ∈ before, Segment seg) (htext : Unmarked text) (hmark : IsMark mark)
      (hbad : ¬ Segment (text ++ mark :: rest)) : LeftmostViolation s (markViolation mark)
  | afterQuery (hs : ∀ seg ∈ segments s, Segment seg) (hq : '?' ∈ s.dropLast) :
      LeftmostViolation s .queryNotLast

theorem unmarked_nil : Unmarked [] := ⟨List.not_mem_nil, List.not_mem_nil⟩

theorem unmarked_iff {s : List Char} : Unmarked s ↔ ∀ c ∈ s, ¬ IsMark c := by
  constructor
  · rintro ⟨hp, hw⟩ c hc (rfl | rfl)
    · exact hp hc
    · exact hw hc
  · intro h
    exact ⟨fun hc => h _ hc (Or.inl rfl), fun hc => h _ hc (Or.inr rfl)⟩

theorem unmarked_cons {c : Char} {s : List Char} :
    Unmarked (c :: s) ↔ ¬ IsMark c ∧ Unmarked s := by
  simp only [unmarked_iff, List.forall_mem_cons]

theorem append_mark_inj {s t a b : List Char} {m k : Char} (hs : Unmarked s) (ht : Unmarked t)
    (hm : IsMark m) (hk : IsMark k) (h : s ++ m :: a = t ++ k :: b) :
    s = t ∧ m = k ∧ a = b := by
  induction s generalizing t with
  | nil =>
      cases t with
      | nil => simpa using h
      | cons d t => exact absurd ((List.cons.inj h).1 ▸ hm) (unmarked_cons.1 ht).1
  | cons c s ih =>
      cases t with
      | nil => exact absurd ((List.cons.inj h).1 ▸ hk) (unmarked_cons.1 hs).1
      | cons d t =>
        obtain ⟨rfl, htail⟩ := List.cons.inj h
        obtain ⟨rfl, hrest⟩ := ih (unmarked_cons.1 hs).2 (unmarked_cons.1 ht).2 htail
        exact ⟨rfl, hrest⟩

/-- What may follow the first mark of a segment. -/
def FollowsMark (mark : Char) (rest : List Char) : Prop :=
  if mark = ':' then rest ≠ [] ∧ Unmarked rest else ∀ c ∈ rest, Text.isWord c ∨ c = '-'

theorem segment_append_mark_iff {text rest : List Char} {mark : Char} (ht : Unmarked text)
    (hm : IsMark mark) : Segment (text ++ mark :: rest) ↔ FollowsMark mark rest := by
  constructor
  · intro h
    generalize hs : text ++ mark :: rest = s at h
    cases h with
    | text h => exact absurd hm (unmarked_iff.1 h mark (by simp [← hs]))
    | param h hne hn =>
      obtain ⟨-, rfl, rfl⟩ := append_mark_inj ht h hm (Or.inl rfl) hs
      exact ⟨hne, hn⟩
    | wildcard h hn =>
      obtain ⟨-, rfl, rfl⟩ := append_mark_inj ht h hm (Or.inr rfl) hs
      exact hn
  · intro h
    rcases hm with rfl | rfl
    · exact .param ht h.1 h.2
    · exact .wildcard ht h

theorem segment_nil : Segment [] := .text unmarked_nil

theorem segment_cons {c : Char} {seg : List Char} (hc : ¬ IsMark c) (h : Segment seg) :
    Segment (c :: seg) := by
  cases h with
  | text h => exact .text (unmarked_cons.2 ⟨hc, h⟩)
  | param h hne hn => exact .param (s := c :: _) (unmarked_cons.2 ⟨hc, h⟩) hne hn
  | wildcard h hn => exact .wildcard (s := c :: _) (unmarked_cons.2 ⟨hc, h⟩) hn

@[simp] theorem segments_nil : segments [] = [[]] := rfl

@[simp] theorem segments_slash (s : List Char) : segments ('/' :: s) = [] :: segments s := by
  simp [segments, List.splitOn_cons_eq_if_modifyHead]

@[simp] theorem segments_question (s : List Char) : segments ('?' :: s) = [[]] := by
  simp [segments]

theorem segments_cons {c : Char} (s : List Char) (h : c ≠ '/') (h' : c ≠ '?') :
    segments (c :: s) = (segments s).modifyHead (c :: ·) := by
  simp [segments, List.splitOn_cons_eq_if_modifyHead, h, h']

theorem segments_append {name : List Char} (s : List Char) (h : ∀ c ∈ name, c ≠ '/' ∧ c ≠ '?') :
    segments (name ++ s) = (segments s).modifyHead (name ++ ·) := by
  induction name with
  | nil => cases hs : segments s <;> simp [hs]
  | cons c name ih =>
    obtain ⟨hc, hname⟩ := List.forall_mem_cons.1 h
    rw [List.cons_append, segments_cons _ hc.1 hc.2, ih hname]
    cases segments s <;> simp

theorem segments_ne_nil (s : List Char) : segments s ≠ [] := List.splitOn_ne_nil _ _

/-- A text that goes on with a separator or a query marker, or ends, has closed its segment. -/
theorem exists_segments_eq_nil_cons {s : List Char}
    (h : s.head? ∈ [none, some '/', some '?']) : ∃ tail, segments s = [] :: tail := by
  cases s with
  | nil => exact ⟨[], rfl⟩
  | cons c s =>
    have hc : c = '/' ∨ c = '?' := by simpa using h
    rcases hc with rfl | rfl
    · exact ⟨segments s, segments_slash s⟩
    · exact ⟨[], segments_question s⟩

theorem followers_subset (kind : Hole) :
    kind.followers.map nextChar ⊆ [none, some '/', some '?'] := by
  cases kind <;> simp [Hole.followers, nextChar, Item.written]

theorem ne_of_mem_hole {kind : Hole} {name : List Char} (h : kind.AllowsName name) :
    ∀ c ∈ kind.marker :: name, c ≠ '/' ∧ c ≠ '?' := by
  refine List.forall_mem_cons.2 ⟨by cases kind <;> decide, fun c hc => ?_⟩
  have ho := isOrdinary_iff.1 (h.isOrdinary c hc)
  exact ⟨ho.1, ho.2.1⟩

theorem segment_hole {kind : Hole} {name : List Char} (h : kind.AllowsName name) :
    Segment (kind.marker :: name) := by
  cases kind with
  | wildcard =>
    refine .wildcard (s := []) unmarked_nil fun c hc => ?_
    simpa [isWildcardNameChar] using h c hc
  | _ =>
    refine .param (s := []) unmarked_nil h.1 (unmarked_iff.2 fun c hc => ?_)
    have ho := isOrdinary_iff.1 (h.2 c hc)
    rintro (rfl | rfl)
    · exact ho.2.2.1 rfl
    · exact ho.2.2.2 rfl

theorem segment_of_wellFormed {items : List Item} (hw : Item.WellFormed items) :
    ∀ seg ∈ segments (writtenItems items), Segment seg := by
  induction items with
  | nil => simpa using segment_nil
  | cons item rest ih =>
    have hrest := ih hw.tail
    cases item with
    | separator => simpa [Item.written, segment_nil] using hrest
    | query => simpa [Item.written] using segment_nil
    | literal c =>
      have hc := isOrdinary_iff.1 hw.1
      obtain ⟨seg, tail, hs⟩ := List.exists_cons_of_ne_nil (segments_ne_nil (writtenItems rest))
      rw [hs] at hrest
      rw [writtenItems_cons, Item.written, List.singleton_append, segments_cons _ hc.1 hc.2.1, hs]
      have hm : ¬ IsMark c := not_or.2 hc.2.2
      have hseg := List.forall_mem_cons.1 hrest
      exact List.forall_mem_cons.2 ⟨segment_cons hm hseg.1, hseg.2⟩
    | hole kind name =>
      obtain ⟨⟨hname, hnext⟩, -⟩ := Item.wellFormed_hole.1 hw
      have hend := followers_subset kind (List.mem_map_of_mem hnext)
      rw [← head?_writtenItems] at hend
      obtain ⟨tail, hs⟩ := exists_segments_eq_nil_cons hend
      rw [hs] at hrest
      rw [writtenItems_cons, Item.written, segments_append _ (ne_of_mem_hole hname), hs,
        List.modifyHead_cons, List.append_nil]
      exact List.forall_mem_cons.2 ⟨segment_hole hname, (List.forall_mem_cons.1 hrest).2⟩

theorem mem_dropLast_append {x : Char} {s t : List Char} (h : x ∈ (s ++ t).dropLast) :
    x ∈ s ∨ x ∈ t.dropLast := by
  rw [List.dropLast_append] at h
  split at h
  · exact Or.inl (List.dropLast_subset _ h)
  · exact List.mem_append.1 h

theorem question_not_mem_written {item : Item} {rest : List Item} (h : item.StandsBefore rest)
    (hq : item ≠ .query) : '?' ∉ item.written := by
  cases item with
  | separator => simp [Item.written]
  | query => exact absurd rfl hq
  | literal c => simpa [Item.written] using (isOrdinary_iff.1 h).2.1.symm
  | hole kind name =>
    rw [Item.written, List.mem_cons, not_or]
    refine ⟨by cases kind <;> decide, fun hc => ?_⟩
    exact (isOrdinary_iff.1 (h.1.isOrdinary _ hc)).2.1 rfl

theorem question_not_mem_dropLast {items : List Item} (hw : Item.WellFormed items) :
    '?' ∉ (writtenItems items).dropLast := by
  induction items with
  | nil => simp
  | cons item rest ih =>
    by_cases hq : item = .query
    · subst hq
      simp [Item.wellFormed_query.1 hw, Item.written]
    · intro h
      rcases mem_dropLast_append h with h | h
      · exact question_not_mem_written hw.1 hq h
      · exact ih hw.tail h

theorem takeWhile_ne_question {s : List Char} (h : '?' ∉ s.dropLast) :
    s.takeWhile (· != '?') = withoutLastQuery s := by
  rcases List.eq_nil_or_concat s with rfl | ⟨init, c, rfl⟩
  · rfl
  · rw [List.concat_eq_append] at h ⊢
    have hinit : ∀ d ∈ init, d != '?' := by
      intro d hd
      rw [List.dropLast_concat] at h
      simpa using fun he : d = '?' => h (he ▸ hd)
    rw [List.takeWhile_append_of_pos hinit]
    by_cases hc : c = '?'
    · simp [withoutLastQuery, hc]
    · simp [withoutLastQuery, hc]

theorem isTemplate_iff {s : List Char} :
    IsTemplate s ↔ '?' ∉ s.dropLast ∧ ∀ seg ∈ segments s, Segment seg := by
  constructor
  · rintro ⟨hq, hseg⟩
    exact ⟨hq, by rwa [segments, takeWhile_ne_question hq]⟩
  · rintro ⟨hq, hseg⟩
    exact ⟨hq, by rwa [segments, takeWhile_ne_question hq] at hseg⟩

/-- A violation further on stays the leftmost one behind characters that begin its segment. -/
theorem LeftmostViolation.cons {c : Char} {s : List Char} {v : Violation} (hc : isOrdinary c)
    (h : LeftmostViolation s v) : LeftmostViolation (c :: s) v := by
  rw [isOrdinary_iff] at hc
  have hm : ¬ IsMark c := not_or.2 hc.2.2
  have hsc := segments_cons s hc.1 hc.2.1
  cases h with
  | @inSegment before after text rest mark hs hbefore htext hmark hbad =>
    cases before with
    | nil =>
      have hs' : segments (c :: s) = [] ++ (c :: text ++ mark :: rest) :: after := by
        rw [hsc, hs]
        rfl
      have htext' := unmarked_cons.2 ⟨hm, htext⟩
      refine .inSegment hs' (by simp) htext' hmark ?_
      rwa [segment_append_mark_iff htext' hmark, ← segment_append_mark_iff htext hmark]
    | cons seg before =>
      have hs' : segments (c :: s) =
          ((c :: seg) :: before) ++ (text ++ mark :: rest) :: after := by
        rw [hsc, hs]
        rfl
      obtain ⟨hseg, hbefore⟩ := List.forall_mem_cons.1 hbefore
      refine .inSegment hs' ?_ htext hmark hbad
      exact List.forall_mem_cons.2 ⟨segment_cons hm hseg, hbefore⟩
  | afterQuery hs hq =>
    obtain ⟨seg, tail, hcons⟩ := List.exists_cons_of_ne_nil (segments_ne_nil s)
    rw [hcons] at hs hsc
    obtain ⟨hseg, htail⟩ := List.forall_mem_cons.1 hs
    refine .afterQuery ?_ (by cases s <;> simp_all)
    rw [hsc]
    exact List.forall_mem_cons.2 ⟨segment_cons hm hseg, htail⟩

/-- A violation further on stays the leftmost one behind a hole, which ends its segment. -/
theorem LeftmostViolation.hole {kind : Hole} {name s : List Char} {v : Violation}
    (hname : kind.AllowsName name) (hend : s.head? ∈ kind.followers.map nextChar)
    (h : LeftmostViolation s v) : LeftmostViolation (kind.marker :: name ++ s) v := by
  have hseg := segment_hole hname
  obtain ⟨tail, hnil⟩ := exists_segments_eq_nil_cons (followers_subset kind hend)
  have hsa := segments_append s (ne_of_mem_hole hname)
  rw [hnil, List.modifyHead_cons, List.append_nil] at hsa
  cases h with
  | @inSegment before after text rest mark hs hbefore htext hmark hbad =>
    cases before with
    | nil =>
      rw [hs] at hnil
      simp at hnil
    | cons first before =>
      rw [hs, List.cons_append] at hnil
      obtain ⟨rfl, rfl⟩ := List.cons.inj hnil
      have hs' : segments (kind.marker :: name ++ s) =
          ((kind.marker :: name) :: before) ++ (text ++ mark :: rest) :: after := hsa
      refine .inSegment hs' ?_ htext hmark hbad
      exact List.forall_mem_cons.2 ⟨hseg, (List.forall_mem_cons.1 hbefore).2⟩
  | afterQuery hs hq =>
    rw [hnil] at hs
    refine .afterQuery ?_ ?_
    · rw [hsa]
      exact List.forall_mem_cons.2 ⟨hseg, (List.forall_mem_cons.1 hs).2⟩
    · rw [List.dropLast_append]
      cases s <;> simp_all

theorem LeftmostViolation.slash {s : List Char} {v : Violation} (h : LeftmostViolation s v) :
    LeftmostViolation ('/' :: s) v := by
  cases h with
  | @inSegment before after text rest mark hs hbefore htext hmark hbad =>
    have hss : segments ('/' :: s) = ([] :: before) ++ (text ++ mark :: rest) :: after := by
      rw [segments_slash, hs, List.cons_append]
    exact .inSegment hss (List.forall_mem_cons.2 ⟨segment_nil, hbefore⟩) htext hmark hbad
  | afterQuery hs hq =>
    refine .afterQuery ?_ (by cases s <;> simp_all)
    rw [segments_slash]
    exact List.forall_mem_cons.2 ⟨segment_nil, hs⟩

/-- A text begins with the rest of the segment that is open there. -/
theorem exists_open_segment (s : List Char) :
    ∃ seg t, s = seg ++ t ∧ (∀ c ∈ seg, c ≠ '/' ∧ c ≠ '?') ∧
      t.head? ∈ [none, some '/', some '?'] := by
  induction s with
  | nil => exact ⟨[], [], rfl, by simp, by simp⟩
  | cons c s ih =>
    by_cases hc : c = '/' ∨ c = '?'
    · exact ⟨[], c :: s, rfl, by simp, by simpa using hc⟩
    · obtain ⟨seg, t, rfl, hseg, ht⟩ := ih
      exact ⟨c :: seg, t, rfl, List.forall_mem_cons.2 ⟨not_or.1 hc, hseg⟩, ht⟩

theorem takeWhile_of_ends {p : Char → Bool} {seg t : List Char} (hseg : ∀ c ∈ seg, p c)
    (ht : ∀ c ∈ t.head?, p c = false) :
    (seg ++ t).takeWhile p = seg ∧ (seg ++ t).dropWhile p = t := by
  rw [List.takeWhile_append_of_pos hseg, List.dropWhile_append_of_pos hseg]
  cases t with
  | nil => simp
  | cons c t => simp [ht c rfl]

theorem not_allowed_of_ends {p : Char → Bool} {t : List Char} (hs : p '/' = false)
    (hq : p '?' = false) (ht : t.head? ∈ [none, some '/', some '?']) :
    ∀ c ∈ t.head?, p c = false := by
  intro c hc
  rw [Option.mem_def] at hc
  simp only [hc, List.mem_cons, reduceCtorEq, Option.some.injEq, List.not_mem_nil, or_false,
    false_or] at ht
  rcases ht with rfl | rfl
  · exact hs
  · exact hq

theorem exists_scanParam_eq_ok {seg t : List Char} (hne : seg ≠ []) (hu : Unmarked seg)
    (hseg : ∀ c ∈ seg, c ≠ '/' ∧ c ≠ '?') (ht : t.head? ∈ [none, some '/', some '?']) :
    ∃ item, scanParam (seg ++ t) = .ok item := by
  have hord : ∀ c ∈ seg, isOrdinary c := fun c hc =>
    isOrdinary_iff.2 ⟨(hseg c hc).1, (hseg c hc).2, not_or.1 (unmarked_iff.1 hu c hc)⟩
  obtain ⟨htake, hdrop⟩ :=
    takeWhile_of_ends hord (not_allowed_of_ends (by decide) (by decide) ht)
  have hkind : ∃ kind : Hole, kind ≠ .wildcard ∧ t.head? ∈ kind.followers.map nextChar := by
    simp only [List.mem_cons, List.not_mem_nil, or_false] at ht
    rcases ht with ht | ht | ht
    · exact ⟨.param, by decide, by simp [ht, Hole.followers, nextChar]⟩
    · exact ⟨.param, by decide, by simp [ht, Hole.followers, nextChar, Item.written]⟩
    · exact ⟨.paramBeforeQuery, by decide, by simp [ht, Hole.followers, nextChar, Item.written]⟩
  obtain ⟨kind, hk, hf⟩ := hkind
  exact ⟨_, scanParam_of_followers hk (by rwa [htake]) (by rwa [hdrop])⟩

theorem exists_scanWildcard_eq_ok {seg t : List Char}
    (hseg : ∀ c ∈ seg, Text.isWord c ∨ c = '-') (ht : t.head? ∈ [none, some '/', some '?']) :
    ∃ item, scanWildcard (seg ++ t) = .ok item := by
  have hname : ∀ c ∈ seg, isWildcardNameChar c := by simpa [isWildcardNameChar] using hseg
  obtain ⟨-, hdrop⟩ := takeWhile_of_ends hname
    (not_allowed_of_ends (by simp [isWildcardNameChar]) (by simp [isWildcardNameChar]) ht)
  refine ⟨_, scanWildcard_eq_ok_iff.2 ⟨rfl, ?_⟩⟩
  simpa [hdrop, Hole.followers, nextChar, Item.written] using ht

/-- A mark that cannot be read as a hole is the first one of a malformed segment. -/
theorem leftmostViolation_mark {mark : Char} {s : List Char} (hm : IsMark mark)
    (hbad : ∀ seg t, s = seg ++ t → (∀ c ∈ seg, c ≠ '/' ∧ c ≠ '?') →
      t.head? ∈ [none, some '/', some '?'] → ¬ FollowsMark mark seg) :
    LeftmostViolation (mark :: s) (markViolation mark) := by
  obtain ⟨seg, t, rfl, hseg, ht⟩ := exists_open_segment s
  obtain ⟨tail, htail⟩ := exists_segments_eq_nil_cons ht
  have hmark : mark ≠ '/' ∧ mark ≠ '?' := by rcases hm with rfl | rfl <;> decide
  have hs : segments (mark :: (seg ++ t)) = [] ++ ([] ++ mark :: seg) :: tail := by
    rw [← List.cons_append, segments_append t (List.forall_mem_cons.2 ⟨hmark, hseg⟩), htail]
    simp
  refine .inSegment hs (by simp) unmarked_nil hm ?_
  rw [segment_append_mark_iff unmarked_nil hm]
  exact hbad seg t rfl hseg ht

theorem map_eq_error {ε α β : Type} {f : α → β} {e : Except ε α} {x : ε}
    (h : e.map f = .error x) : e = .error x := by
  cases e with
  | error y => exact congrArg _ (Except.error.inj h)
  | ok _ => cases h

/-- What is refused is refused for its leftmost violation. -/
theorem leftmostViolation_of_scan {s : List Char} {v : Violation} (h : scan s = .error v) :
    LeftmostViolation s v := by
  fun_induction scan s with
  | case1 => cases h
  | case2 s ih => exact (ih (map_eq_error h)).slash
  | case3 s item hp _ ih =>
    obtain ⟨kind, hk, -, hn, hf⟩ := scanParam_eq_ok hp
    have hv := (ih (map_eq_error h)).hole (allowsName_takeWhile hk hn) hf
    rwa [marker_of_ne_wildcard hk, List.cons_append, List.takeWhile_append_dropWhile] at hv
  | case4 s w hp =>
    cases h
    rw [scanParam_eq_error hp]
    refine leftmostViolation_mark (Or.inl rfl : IsMark ':') ?_
    rintro seg t rfl hseg ht ⟨hne, hu⟩
    obtain ⟨item, hok⟩ := exists_scanParam_eq_ok hne hu hseg ht
    cases hok.symm.trans hp
  | case5 s item hp _ _ ih =>
    obtain ⟨-, hf⟩ := scanWildcard_eq_ok_iff.1 hp
    have hname : Hole.wildcard.AllowsName (s.takeWhile isWildcardNameChar) :=
      List.all_eq_true.1 List.all_takeWhile
    have hv := (ih (map_eq_error h)).hole hname hf
    rwa [List.cons_append, List.takeWhile_append_dropWhile] at hv
  | case6 s w hp =>
    cases h
    rw [scanWildcard_eq_error hp]
    refine leftmostViolation_mark (Or.inr rfl : IsMark '*') ?_
    rintro seg t rfl hseg ht hname
    obtain ⟨item, hok⟩ := exists_scanWildcard_eq_ok hname ht
    cases hok.symm.trans hp
  | case7 => cases h
  | case8 s hs =>
    cases h
    refine .afterQuery (by simpa using segment_nil) ?_
    rw [List.dropLast_cons_of_ne_nil hs]
    exact List.mem_cons_self
  | case9 c s h₁ h₂ h₃ h₄ ih =>
    exact (ih (map_eq_error h)).cons (isOrdinary_iff.2 ⟨h₁, h₄, h₂, h₃⟩)

theorem LeftmostViolation.not_isTemplate {s : List Char} {v : Violation}
    (h : LeftmostViolation s v) : ¬ IsTemplate s := by
  rw [isTemplate_iff]
  rintro ⟨hq, hseg⟩
  cases h with
  | inSegment hs _ _ _ hbad => exact hbad (hseg _ (by simp [hs]))
  | afterQuery _ hq' => exact hq hq'

theorem first_not_inj {α : Type} {p : α → Prop} {xs ys xs' ys' : List α} {a b : α}
    (hxs : ∀ x ∈ xs, p x) (hys : ∀ y ∈ ys, p y) (ha : ¬ p a) (hb : ¬ p b)
    (h : xs ++ a :: xs' = ys ++ b :: ys') : a = b := by
  induction xs generalizing ys with
  | nil =>
    cases ys with
    | nil => exact (List.cons.inj h).1
    | cons y ys => exact absurd ((List.cons.inj h).1 ▸ (List.forall_mem_cons.1 hys).1) ha
  | cons x xs ih =>
    cases ys with
    | nil => exact absurd ((List.cons.inj h).1 ▸ (List.forall_mem_cons.1 hxs).1) hb
    | cons y ys =>
      exact ih (List.forall_mem_cons.1 hxs).2 (List.forall_mem_cons.1 hys).2 (List.cons.inj h).2

theorem LeftmostViolation.unique {s : List Char} {v w : Violation} (hv : LeftmostViolation s v)
    (hw : LeftmostViolation s w) : v = w := by
  cases hv with
  | inSegment hs hbefore htext hmark hbad =>
    cases hw with
    | inSegment hs' hbefore' htext' hmark' hbad' =>
      have he := first_not_inj hbefore hbefore' hbad hbad' (hs.symm.trans hs')
      rw [(append_mark_inj htext htext' hmark hmark' he).2.1]
    | afterQuery hseg _ => exact absurd (hseg _ (by simp [hs])) hbad
  | afterQuery hseg _ =>
    cases hw with
    | inSegment hs _ _ _ hbad => exact absurd (hseg _ (by simp [hs])) hbad
    | afterQuery _ _ => rfl

theorem isTemplate_of_scan {s : List Char} {items : List Item} (h : scan s = .ok items) :
    IsTemplate s := by
  obtain ⟨hw, rfl⟩ := scan_sound h
  exact isTemplate_iff.2 ⟨question_not_mem_dropLast hw, segment_of_wellFormed hw⟩

theorem scan_literal {c : Char} (s : List Char) (h : isOrdinary c) :
    scan (c :: s) = (scan s).map (.literal c :: ·) := by
  obtain ⟨hslash, hquestion, hcolon, hstar⟩ := isOrdinary_iff.1 h
  rw [scan, if_neg hslash, if_neg hcolon, if_neg hstar, if_neg hquestion]

theorem scan_hole {kind : Hole} {name : String} {s : List Char}
    (hname : kind.AllowsName name.toList) (hend : s.head? ∈ kind.followers.map nextChar) :
    scan (kind.marker :: (name.toList ++ s)) = (scan s).map (.hole kind name :: ·) := by
  have hs := followers_subset kind hend
  by_cases hk : kind = .wildcard
  · subst hk
    obtain ⟨ht, hd⟩ := takeWhile_of_ends hname
      (not_allowed_of_ends (by simp [isWildcardNameChar]) (by simp [isWildcardNameChar]) hs)
    have hscan : scanWildcard (name.toList ++ s) = .ok (.hole .wildcard name) := by
      rw [scanWildcard_eq_ok_iff, ht, hd, String.ofList_toList]
      exact ⟨rfl, hend⟩
    rw [Hole.marker, scan, if_neg (by decide), if_neg (by decide), if_pos rfl, hscan, hd]
  · obtain ⟨ht, hd⟩ := takeWhile_of_ends hname.isOrdinary
      (not_allowed_of_ends (by decide) (by decide) hs)
    have hne : name.toList ≠ [] := by
      cases kind with
      | wildcard => exact absurd rfl hk
      | _ => exact hname.1
    have hscan : scanParam (name.toList ++ s) = .ok (.hole kind name) := by
      rw [scanParam_of_followers hk (by rwa [ht]) (by rwa [hd]), ht, String.ofList_toList]
    rw [marker_of_ne_wildcard hk, scan, if_neg (by decide), if_pos rfl, hscan, hd]

/-- Well-formed items are what the text they are written as is read as. -/
theorem scan_writtenItems {items : List Item} (hw : Item.WellFormed items) :
    scan (writtenItems items) = .ok items := by
  induction items with
  | nil => exact scan_nil
  | cons item rest ih =>
    have hrest := ih hw.tail
    cases item with
    | separator =>
      rw [writtenItems_cons, Item.written, List.singleton_append, scan_slash, hrest]
      rfl
    | literal c =>
      rw [writtenItems_cons, Item.written, List.singleton_append, scan_literal _ hw.1, hrest]
      rfl
    | hole kind name =>
      obtain ⟨⟨hname, hnext⟩, -⟩ := Item.wellFormed_hole.1 hw
      have hend : (writtenItems rest).head? ∈ kind.followers.map nextChar := by
        rw [head?_writtenItems]
        exact List.mem_map_of_mem hnext
      rw [writtenItems_cons, Item.written, List.cons_append, scan_hole hname hend, hrest]
      rfl
    | query =>
      rw [Item.wellFormed_query.1 hw]
      simp [Item.written, scan]

theorem read_path (t : Template) : read t.path = .ok t := by
  rw [read_eq_ok_iff, path, String.toList_ofList]
  exact scan_writtenItems t.wellFormed

theorem path_of_ofPath {path : String} {t : Template} (h : ofPath path = .ok t) :
    t.path = path := by
  have hscan := scan_sound (read_eq_ok_iff.1 (ofPath_eq_ok_iff.1 h))
  rw [Template.path, hscan.2, String.ofList_toList]

theorem ofPath_path (t : Template) : ofPath t.path = .ok t :=
  ofPath_eq_ok_iff.2 (read_path t)

/-- Exactly the texts of the grammar are read. Any other is refused, and the fault tells the whole
text and its leftmost violation. -/
theorem ofPath_follows_grammar (s : String) :
    ((∃ t, ofPath s = .ok t) ↔ IsTemplate s.toList) ∧
      ∀ fault, ofPath s = .error fault ↔
        ∃ v, LeftmostViolation s.toList v ∧ fault = .invalidTemplate s v.text := by
  have hrefused {v : Violation} (h : read s = .error v) : LeftmostViolation s.toList v :=
    leftmostViolation_of_scan (read_eq_error_iff.1 h)
  have hread {t : Template} (h : read s = .ok t) : IsTemplate s.toList :=
    isTemplate_of_scan (read_eq_ok_iff.1 h)
  constructor
  · constructor
    · rintro ⟨t, ht⟩
      exact hread (ofPath_eq_ok_iff.1 ht)
    · intro h
      cases hr : read s with
      | ok t => exact ⟨t, ofPath_eq_ok_iff.2 hr⟩
      | error v => exact absurd h (hrefused hr).not_isTemplate
  · intro fault
    rw [ofPath_eq_error_iff]
    constructor
    · rintro ⟨v, hv, rfl⟩
      exact ⟨v, hrefused hv, rfl⟩
    · rintro ⟨v, hv, rfl⟩
      cases hr : read s with
      | ok t => exact absurd (hread hr) hv.not_isTemplate
      | error w => exact ⟨w, rfl, by rw [hv.unique (hrefused hr)]⟩

end Template

end NamedRoutes
