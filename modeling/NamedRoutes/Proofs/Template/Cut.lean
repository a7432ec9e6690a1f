import NamedRoutes.Template.Match

/-!
# Cuts of a path

A cut of a path gives every item of a template, in order, a piece of the path that fits it. The
matcher finds a cut whenever there is one, and of several it finds the one whose captures have the
lexicographically greatest lengths. The parameters of the match are the captures of that cut by
name, in the order in which the names first come, each with the last text that it captures.
-/
namespace NamedRoutes

namespace Hole

/-- The texts that may fill the hole. -/
def Fits : Hole → List Char → Prop
  | param, run => run ≠ [] ∧ '/' ∉ run
  | paramBeforeQuery, run => run ≠ [] ∧ '/' ∉ run ∧ '?' ∉ run
  | wildcard, run => run ≠ [] ∧ ∀ c ∈ run, Text.isWord c ∨ c = '/' ∨ c = '.' ∨ c = '-'

theorem fits_iff {kind : Hole} {run : List Char} :
    kind.Fits run ↔ run ≠ [] ∧ ∀ c ∈ run, kind.allows c := by
  cases kind with
  | param => simp [Fits, allows, List.forall_mem_ne']
  | paramBeforeQuery =>
    simp only [Fits, allows, Bool.and_eq_true, bne_iff_ne, ne_eq, forall_and,
      List.forall_mem_ne']
  | wildcard => simp [Fits, allows, or_assoc]

end Hole

/-- The captures of a cut, by ordinal. A query that is absent captures nothing. -/
abbrev Captures := List (Option (List Char))

namespace Captures

def lengths (captures : Captures) : List Nat := captures.map fun c => (c.map List.length).getD 0

end Captures

namespace Template

inductive Cut : List Item → List Char → Captures → Prop
  | nil : Cut [] [] []
  | separator {items s cs} (h : Cut items s cs) : Cut (.separator :: items) ('/' :: s) cs
  | literal {a c items s cs} (hc : Text.sameLetter a c) (h : Cut items s cs) :
      Cut (.literal a :: items) (c :: s) cs
  | hole {kind name run items s cs} (hrun : Hole.Fits kind run) (h : Cut items s cs) :
      Cut (.hole kind name :: items) (run ++ s) (some run :: cs)
  | noQuery {items s cs} (h : Cut items s cs) : Cut (.query :: items) s (none :: cs)
  | query {run items s cs} (hrun : '\n' ∉ run) (h : Cut items s cs) :
      Cut (.query :: items) ('?' :: (run ++ s)) (some run :: cs)

section LongestRun

variable {β : Type} {allowed : Char → Bool} {next : List Char → Option β}

theorem longestRun_sound {s run : List Char} {b : β}
    (h : longestRun allowed next s = some (run, b)) :
    ∃ rest, s = run ++ rest ∧ run ≠ [] ∧ (∀ c ∈ run, allowed c) ∧ next rest = some b := by
  induction s generalizing run with
  | nil => simp [longestRun] at h
  | cons c s ih =>
    rw [longestRun] at h
    split at h
    · next hc =>
      split at h
      · next run' b' hrec =>
        obtain ⟨rfl, rfl⟩ := Prod.mk.inj (Option.some.inj h)
        obtain ⟨rest, rfl, -, hall, hnext⟩ := ih hrec
        exact ⟨rest, rfl, by simp, List.forall_mem_cons.2 ⟨hc, hall⟩, hnext⟩
      · obtain ⟨b', hnext, he⟩ := Option.map_eq_some_iff.1 h
        obtain ⟨rfl, rfl⟩ := Prod.mk.inj he
        exact ⟨s, rfl, by simp, by simpa using hc, hnext⟩
    · cases h

theorem longestRun_complete {run rest : List Char} {b : β} (hne : run ≠ [])
    (hall : ∀ c ∈ run, allowed c) (hnext : next rest = some b) :
    ∃ r, longestRun allowed next (run ++ rest) = some r ∧
      (r = (run, b) ∨ run.length < r.1.length) := by
  induction run with
  | nil => exact absurd rfl hne
  | cons c run ih =>
    obtain ⟨hc, hall⟩ := List.forall_mem_cons.1 hall
    rw [List.cons_append, longestRun, if_pos hc]
    by_cases hrun : run = []
    · subst hrun
      cases hrec : longestRun allowed next ([] ++ rest) with
      | none => exact ⟨([c], b), by simpa using hnext, Or.inl rfl⟩
      | some r =>
        obtain ⟨_, -, hpos, -⟩ := longestRun_sound hrec
        refine ⟨(c :: r.1, r.2), rfl, Or.inr ?_⟩
        simpa using List.length_pos_iff.2 hpos
    · obtain ⟨r, hr, hlong⟩ := ih hrun hall
      rw [hr]
      refine ⟨(c :: r.1, r.2), rfl, ?_⟩
      rcases hlong with rfl | hlong
      · exact Or.inl rfl
      · exact Or.inr (Nat.succ_lt_succ hlong)

theorem longestRunOrNone_sound {s run : List Char} {b : β}
    (h : longestRunOrNone allowed next s = some (run, b)) :
    ∃ rest, s = run ++ rest ∧ (∀ c ∈ run, allowed c) ∧ next rest = some b := by
  unfold longestRunOrNone at h
  split at h
  · next r hr =>
    cases h
    obtain ⟨rest, hs, -, hall, hnext⟩ := longestRun_sound hr
    exact ⟨rest, hs, hall, hnext⟩
  · obtain ⟨b', hnext, he⟩ := Option.map_eq_some_iff.1 h
    obtain ⟨rfl, rfl⟩ := Prod.mk.inj he
    exact ⟨s, rfl, by simp, hnext⟩

theorem longestRunOrNone_complete {run rest : List Char} {b : β} (hall : ∀ c ∈ run, allowed c)
    (hnext : next rest = some b) :
    ∃ r, longestRunOrNone allowed next (run ++ rest) = some r ∧
      (r = (run, b) ∨ run.length < r.1.length) := by
  unfold longestRunOrNone
  by_cases hrun : run = []
  · subst hrun
    cases hrec : longestRun allowed next ([] ++ rest) with
    | none => exact ⟨([], b), by simpa using hnext, Or.inl rfl⟩
    | some r =>
      obtain ⟨_, -, hpos, -⟩ := longestRun_sound hrec
      exact ⟨r, rfl, Or.inr (List.length_pos_iff.2 hpos)⟩
  · obtain ⟨r, hr, hlong⟩ := longestRun_complete hrun hall hnext
    rw [hr]
    exact ⟨r, rfl, hlong⟩

end LongestRun

theorem cut_of_captures? {items : List Item} {s : List Char} {cs : Captures}
    (h : captures? items s = some cs) : Cut items s cs := by
  induction items generalizing s cs with
  | nil =>
    by_cases hs : s = []
    · subst hs
      simp only [captures?, if_true, Option.some.injEq] at h
      exact h ▸ .nil
    · simp [captures?, hs] at h
  | cons item rest ih =>
    cases item with
    | separator =>
      cases s with
      | nil => simp [captures?] at h
      | cons c s =>
        simp only [captures?] at h
        split at h
        · next hc => exact hc ▸ .separator (ih h)
        · cases h
    | literal a =>
      cases s with
      | nil => simp [captures?] at h
      | cons c s =>
        simp only [captures?] at h
        split at h
        · next hc => exact .literal hc (ih h)
        · cases h
    | hole kind name =>
      obtain ⟨⟨run, cs'⟩, hr, rfl⟩ := Option.map_eq_some_iff.1 h
      obtain ⟨s', rfl, hne, hall, hnext⟩ := longestRun_sound hr
      exact .hole (Hole.fits_iff.2 ⟨hne, hall⟩) (ih hnext)
    | query =>
      simp only [captures?] at h
      split at h
      · next run cs' hq =>
        cases h
        cases s with
        | nil => simp [captures?.withQuery] at hq
        | cons c s =>
          simp only [captures?.withQuery] at hq
          split at hq
          · next hc =>
            obtain ⟨s', rfl, hall, hnext⟩ := longestRunOrNone_sound hq
            exact hc ▸ .query (List.forall_mem_ne'.1 (by simpa using hall)) (ih hnext)
          · cases hq
      · obtain ⟨cs', hnext, rfl⟩ := Option.map_eq_some_iff.1 h
        exact .noQuery (ih hnext)

theorem eq_nil_of_cut_nil {s : List Char} {cs : Captures} (h : Cut [] s cs) :
    s = [] ∧ cs = [] := by
  cases h
  exact ⟨rfl, rfl⟩

/-- The matcher finds a cut whose captures are no shorter, at the first difference, than those of
any other. -/
theorem captures?_of_cut {items : List Item} {s : List Char} {cs : Captures}
    (hw : Item.WellFormed items) (h : Cut items s cs) :
    ∃ cs' : Captures, captures? items s = some cs' ∧ (cs = cs' ∨ cs.lengths < cs'.lengths) := by
  induction h with
  | nil => exact ⟨[], rfl, Or.inl rfl⟩
  | separator _ ih =>
    obtain ⟨cs', hcs, hle⟩ := ih hw.tail
    exact ⟨cs', by simpa [captures?] using hcs, hle⟩
  | literal hc _ ih =>
    obtain ⟨cs', hcs, hle⟩ := ih hw.tail
    exact ⟨cs', by simpa [captures?, hc] using hcs, hle⟩
  | @hole kind name run items s cs hrun _ ih =>
    obtain ⟨cs', hcs, hle⟩ := ih hw.tail
    obtain ⟨hne, hall⟩ := Hole.fits_iff.1 hrun
    obtain ⟨r, hr, hlong⟩ := longestRun_complete hne hall hcs
    refine ⟨some r.1 :: r.2, by simp [captures?, hr], ?_⟩
    rcases hlong with rfl | hlong
    · rcases hle with rfl | hlt
      · exact Or.inl rfl
      · exact Or.inr (List.Lex.cons hlt)
    · exact Or.inr (List.Lex.rel hlong)
  | noQuery h _ =>
    rw [Item.wellFormed_query] at hw
    subst hw
    obtain ⟨rfl, rfl⟩ := eq_nil_of_cut_nil h
    exact ⟨[none], rfl, Or.inl rfl⟩
  | @query run items s cs hrun h _ =>
    rw [Item.wellFormed_query] at hw
    subst hw
    obtain ⟨rfl, rfl⟩ := eq_nil_of_cut_nil h
    have hall : ∀ c ∈ run, (c != '\n') = true := by simpa using List.forall_mem_ne'.2 hrun
    obtain ⟨⟨run', cs'⟩, hr, hlong⟩ := longestRunOrNone_complete hall (rfl : captures? [] [] = _)
    refine ⟨some run' :: cs', by rw [captures?, captures?.withQuery, if_pos rfl, hr], ?_⟩
    rcases hlong with he | hlong
    · cases he
      exact Or.inl rfl
    · exact Or.inr (List.Lex.rel hlong)

theorem captures?_eq_some_iff {items : List Item} {s : List Char} {cs : Captures}
    (hw : Item.WellFormed items) :
    captures? items s = some cs ↔
      Cut items s cs ∧ ∀ cs' : Captures, Cut items s cs' → cs' = cs ∨ cs'.lengths < cs.lengths := by
  constructor
  · intro h
    refine ⟨cut_of_captures? h, fun cs' hcut => ?_⟩
    obtain ⟨found, hfound, hle⟩ := captures?_of_cut hw hcut
    rw [h] at hfound
    exact Option.some.inj hfound ▸ hle
  · rintro ⟨hcut, hgreatest⟩
    obtain ⟨found, hfound, hle⟩ := captures?_of_cut hw hcut
    rcases hle with rfl | hlt
    · exact hfound
    · rcases hgreatest found (cut_of_captures? hfound) with rfl | hgt
      · exact hfound
      · exact absurd hlt (List.lt_asymm hgt)

def present (names : List String) (cs : Captures) : List (String × List Char) :=
  (names.zip cs).filterMap fun (name, c) => c.map (name, ·)

/-- The parameters are the captures by name: a repeated name keeps its first place and takes the
last text. -/
structure Assigned (names : List String) (cs : Captures) (params : Params) : Prop where
  keys : params.keys = ((present names cs).map Prod.fst).eraseDups
  value : ∀ key, params.get? key =
    ((present names cs).reverse.lookup key).map fun run => .str (String.ofList run)

theorem bind_eq_ofList (names : List String) (cs : Captures) :
    bind names cs =
      .ofList ((present names cs).map fun e => (e.1, .str (String.ofList e.2))) := by
  rw [bind, present, List.map_filterMap]
  congr 2
  funext e
  simp [Option.map_map, Function.comp_def]

theorem assigned_bind (names : List String) (cs : Captures) :
    Assigned names cs (bind names cs) := by
  constructor
  · rw [bind_eq_ofList, OrderedMap.keys_ofList, List.map_map]
    rfl
  · intro key
    rw [bind_eq_ofList, OrderedMap.get?_ofList, ← List.map_reverse]
    exact OrderedMap.lookup_map_snd (fun run => Value.str (String.ofList run)) _ key

theorem assigned_iff {names : List String} {cs : Captures} {params : Params} :
    Assigned names cs params ↔ params = bind names cs := by
  constructor
  · intro h
    have hb := assigned_bind names cs
    exact OrderedMap.ext_get? (h.keys.trans hb.keys.symm)
      fun key => (h.value key).trans (hb.value key).symm
  · rintro rfl
    exact assigned_bind names cs

/-- A path matches exactly when it can be cut, and the parameters are those of its greatest cut. -/
theorem match?_greatest_cut (t : Template) (path : String) :
    ((t.match? path).isSome ↔ ∃ cs, Cut t.items path.toList cs) ∧
      ∀ params, t.match? path = some params ↔
        ∃ cs : Captures, Cut t.items path.toList cs ∧
          (∀ cs' : Captures, Cut t.items path.toList cs' → cs' = cs ∨ cs'.lengths < cs.lengths) ∧
          Assigned t.names cs params := by
  constructor
  · rw [match?, Option.isSome_map, Option.isSome_iff_exists]
    constructor
    · rintro ⟨cs, h⟩
      exact ⟨cs, cut_of_captures? h⟩
    · rintro ⟨cs, h⟩
      obtain ⟨cs', hcs, -⟩ := captures?_of_cut t.wellFormed h
      exact ⟨cs', hcs⟩
  · intro params
    rw [match?, Option.map_eq_some_iff]
    refine exists_congr fun cs => ?_
    rw [captures?_eq_some_iff t.wellFormed, assigned_iff, and_assoc, eq_comm (a := params)]

end Template

end NamedRoutes
