import NamedRoutes.Proofs.Template.Cut
import NamedRoutes.Proofs.Url.Filling

/-!
# Paths assembled from captures

Captures, by ordinal, go back to the path that they are cut from, up to the case of its letters. A
template whose names are all different builds its URLs this way: every value is the capture of its
name, and the query is the capture of the query marker.
-/
namespace NamedRoutes

namespace Template

def queryText (capture : Option (List Char)) : List Char := capture.elim [] ('?' :: ·)

/-- The path that has these captures, with literals as the template spells them. -/
def assemble : List Item → Captures → List Char
  | .separator :: items, cs => '/' :: assemble items cs
  | .literal a :: items, cs => a :: assemble items cs
  | .hole _ _ :: items, some run :: cs => run ++ assemble items cs
  | .query :: items, c :: cs => queryText c ++ assemble items cs
  | _, _ => []

/-- All names are different, and none of them ends in a line end. -/
structure DistinctlyNamed (t : Template) : Prop where
  nodup : t.names.Nodup
  endsOpen : ∀ n ∈ t.names, EndsOpen n.toList

variable {items : List Item} {texts : String → Option (List Char)} {params : Params}

theorem mem_captureNames_iff {n : String} :
    n ∈ captureNames items ↔ n ∈ holeNames items ∨ .query ∈ items ∧ n = queryName := by
  induction items with
  | nil => simp [holeNames]
  | cons item rest ih =>
    cases item with
    | hole kind name => simp [holeNames, ih, or_assoc]
    | separator => simp [holeNames, ih]
    | literal c => simp [holeNames, ih]
    | query =>
      rw [captureNames_query, List.mem_cons, ih, holeNames]
      constructor
      · rintro (rfl | h | ⟨-, rfl⟩)
        · exact Or.inr ⟨List.mem_cons_self, rfl⟩
        · exact Or.inl h
        · exact Or.inr ⟨List.mem_cons_self, rfl⟩
      · rintro (h | ⟨-, rfl⟩)
        · exact Or.inr (Or.inl h)
        · exact Or.inl rfl

theorem mem_names_iff {t : Template} {n : String} :
    n ∈ t.names ↔ n ∈ holeNames t.items ∨ t.hasQueryMarker ∧ n = queryName := by
  rw [names, mem_captureNames_iff, hasQueryMarker_iff]

theorem DistinctlyNamed.endsOpen_hole {t : Template} (h : t.DistinctlyNamed) :
    ∀ n ∈ holeNames t.items, EndsOpen n.toList :=
  fun n hn => h.endsOpen n (mem_names_iff.2 (Or.inl hn))

theorem query_not_mem_holeNames (hd : (captureNames items).Nodup)
    (hq : .query ∈ items) : queryName ∉ holeNames items := by
  induction items with
  | nil => cases hq
  | cons item rest ih =>
    cases item with
    | separator => exact ih hd (by simpa using hq)
    | literal c => exact ih hd (by simpa using hq)
    | query =>
      obtain ⟨hn, -⟩ := List.nodup_cons.1 hd
      exact fun hm => hn (mem_captureNames_iff.2 (Or.inl hm))
    | hole kind name =>
      obtain ⟨hn, hd⟩ := List.nodup_cons.1 hd
      have hq : .query ∈ rest := by simpa using hq
      have hne : queryName ≠ knownAs name :=
        fun he => hn (he ▸ mem_captureNames_iff.2 (Or.inr ⟨hq, rfl⟩))
      simp [holeNames, hne, ih hd hq]

theorem isKey_knownAs {kind : Hole} {name : String} (h : kind.AllowsName name.toList) :
    IsKey (knownAs name) := by
  by_cases hn : name = ""
  · rw [knownAs, if_pos hn]
    decide
  · rw [knownAs, if_neg hn]
    exact ⟨fun he => hn (String.toList_eq_nil_iff.1 he), h.isOrdinary⟩

theorem allowsName_of_mem {kind : Hole} {name : String} (hw : Item.WellFormed items)
    (h : .hole kind name ∈ items) : kind.AllowsName name.toList := by
  induction items with
  | nil => cases h
  | cons item rest ih =>
    rcases List.mem_cons.1 h with rfl | h
    · exact (Item.wellFormed_hole.1 hw).1.1
    · exact ih hw.tail h

theorem isKey_of_mem_holeNames {n : String} (hw : Item.WellFormed items)
    (h : n ∈ holeNames items) : IsKey n := by
  obtain ⟨kind, name, hm, rfl⟩ := mem_holeNames_iff.1 h
  exact isKey_knownAs (allowsName_of_mem hw hm)

theorem isKey_of_mem_names {t : Template} {n : String} (h : n ∈ t.names) : IsKey n := by
  rcases mem_names_iff.1 h with h | ⟨-, rfl⟩
  · exact isKey_of_mem_holeNames t.wellFormed h
  · decide

/-- What is assembled from texts that fit can be cut to these texts. -/
theorem cut_assemble
    (hholes : ∀ kind name, .hole kind name ∈ items →
      ∃ run, texts (knownAs name) = some run ∧ kind.Fits run)
    (hquery : .query ∈ items → ∀ run, texts queryName = some run → '\n' ∉ run) :
    Cut items (assemble items ((captureNames items).map texts))
      ((captureNames items).map texts) := by
  induction items with
  | nil => exact .nil
  | cons item rest ih =>
    have ih := ih (fun kind name h => hholes kind name (List.mem_cons_of_mem _ h))
      fun h => hquery (List.mem_cons_of_mem _ h)
    cases item with
    | separator => exact .separator ih
    | literal a => exact .literal (Text.sameLetter_refl a) ih
    | hole kind name =>
      obtain ⟨run, hrun, hfits⟩ := hholes kind name List.mem_cons_self
      rw [captureNames_hole, List.map_cons, hrun]
      exact .hole hfits ih
    | query =>
      rw [captureNames_query, List.map_cons]
      cases hrun : texts queryName with
      | none => exact .noQuery ih
      | some run => exact .query (hquery List.mem_cons_self run hrun) ih

theorem fillHoles_eq_assemble (hw : Item.WellFormed items)
    (hd : (captureNames items).Nodup)
    (h : ∀ n ∈ holeNames items, (texts n).isSome) :
    fillHoles texts items ++ (if .query ∈ items then queryText (texts queryName) else []) =
      assemble items ((captureNames items).map texts) := by
  induction items with
  | nil => rfl
  | cons item rest ih =>
    cases item with
    | separator => simpa [fillHoles, assemble] using ih hw.tail hd h
    | literal a => simpa [fillHoles, assemble] using ih hw.tail hd h
    | query =>
      rw [Item.wellFormed_query.1 hw]
      simp [fillHoles, assemble]
    | hole kind name =>
      obtain ⟨hn, hd⟩ := List.nodup_cons.1 hd
      obtain ⟨hhead, hrest⟩ := List.forall_mem_cons.1 h
      obtain ⟨text, ht⟩ := Option.isSome_iff_exists.1 hhead
      have hsame : fillHoles (Function.update texts (knownAs name) none) rest =
          fillHoles texts rest := by
        apply fillHoles_congr
        intro n hm
        have hne : n ≠ knownAs name := fun he => hn (he ▸ mem_captureNames_iff.2 (Or.inl hm))
        exact Function.update_of_ne hne _ _
      rw [fillHoles_hole_some ht, hsame, List.append_assoc]
      have ih := ih hw.tail hd hrest
      simp [assemble, ht, ← ih]

theorem keys_present_sublist (names : List String) (cs : Captures) :
    ((present names cs).map Prod.fst).Sublist names := by
  induction names generalizing cs with
  | nil => simp [present]
  | cons n names ih =>
    cases cs with
    | nil => simp [present]
    | cons c cs =>
      have hrest := ih cs
      cases c with
      | none => exact hrest.cons n
      | some run => exact hrest.cons_cons n

theorem entries_bind {names : List String} (cs : Captures) (hd : names.Nodup) :
    (bind names cs).entries =
      (present names cs).map fun e => (e.1, .str (String.ofList e.2)) := by
  rw [bind_eq_ofList, OrderedMap.entries_ofList_of_nodup]
  rw [List.map_map]
  exact hd.sublist (keys_present_sublist names cs)

theorem mem_of_mem_keys_bind {names : List String} {cs : Captures} {key : String}
    (hd : names.Nodup) (h : key ∈ (bind names cs).keys) : key ∈ names := by
  rw [OrderedMap.keys, entries_bind cs hd, List.map_map] at h
  exact (keys_present_sublist names cs).subset h

theorem present_map (names : List String) (texts : String → Option (List Char)) :
    present names (names.map texts) = names.filterMap fun n => (texts n).map (n, ·) := by
  induction names with
  | nil => rfl
  | cons n names ih =>
    rw [List.map_cons, List.filterMap_cons, ← ih]
    cases texts n <;> simp [present]

theorem map_lookup_present {names : List String} {cs : Captures} (hd : names.Nodup)
    (hl : cs.length = names.length) : names.map (fun n => (present names cs).lookup n) = cs := by
  induction names generalizing cs with
  | nil => exact (List.eq_nil_of_length_eq_zero hl).symm
  | cons n names ih =>
    obtain ⟨hn, hd⟩ := List.nodup_cons.1 hd
    cases cs with
    | nil => cases hl
    | cons c cs =>
      have ih := ih hd (Nat.succ.inj hl)
      have hnone : (present names cs).lookup n = none :=
        OrderedMap.lookup_eq_none fun hm => hn ((keys_present_sublist names cs).subset hm)
      cases c with
      | none =>
        have hp : present (n :: names) (none :: cs) = present names cs := rfl
        rw [hp, List.map_cons, hnone, ih]
      | some run =>
        have hp : present (n :: names) (some run :: cs) = (n, run) :: present names cs := rfl
        rw [hp, List.map_cons, List.lookup_cons_self]
        congr 1
        rw [← ih]
        apply List.map_congr_left
        intro m hm
        have hne : m ≠ n := fun he => hn (he ▸ hm)
        rw [lookup_cons_of_ne hne, ih]

theorem get?_bind {names : List String} (cs : Captures) (hd : names.Nodup) (n : String) :
    (bind names cs).get? n =
      ((present names cs).lookup n).map fun run => .str (String.ofList run) := by
  rw [OrderedMap.get?, entries_bind cs hd]
  exact OrderedMap.lookup_map_snd (fun run => Value.str (String.ofList run)) _ n

/-- The query of the URL, without its question mark. -/
def query? (t : Template) (params : Params) : Option (List Char) :=
  if t.queryParts params = [] then none
  else some (List.intercalate ['&'] (t.queryParts params))

/-- What the URL has for the capture of this name. -/
def given (t : Template) (params : Params) (n : String) : Option (List Char) :=
  if t.hasQueryMarker ∧ n = queryName then t.query? params else (params.get? n).map Value.inUrl

theorem given_query {t : Template} (h : t.hasQueryMarker) :
    t.given params queryName = t.query? params := if_pos ⟨h, rfl⟩

theorem not_query_of_mem_holeNames {t : Template} (hd : t.names.Nodup) {n : String}
    (h : n ∈ holeNames t.items) : ¬ (t.hasQueryMarker ∧ n = queryName) := by
  rintro ⟨hq, rfl⟩
  exact query_not_mem_holeNames hd ((hasQueryMarker_iff t).1 hq) h

theorem given_hole {t : Template} (hd : t.names.Nodup) {n : String}
    (h : n ∈ holeNames t.items) : t.given params n = (params.get? n).map Value.inUrl :=
  if_neg (not_query_of_mem_holeNames hd h)

theorem leftOver_eq_nil {marked : Bool} {es : List (String × Value)}
    (h : ∀ e ∈ es, e.1 ∈ holeNames items ∨ marked ∧ e.1 = queryName) :
    leftOver marked items es = [] := by
  rw [leftOver, List.map_eq_nil_iff, List.filter_eq_nil_iff]
  intro e he
  rcases h e he with hm | hq
  · simp [hm]
  · simp [hq]

theorem verbatim_unmarked (es : List (String × Value)) : verbatim false es = [] := by
  rw [verbatim]
  split <;> simp

/-- When all parameters have a name of the template, the query is at most the verbatim one. -/
theorem queryParts_eq_verbatim {t : Template} (h : ∀ key ∈ params.keys, key ∈ t.names) :
    t.queryParts params = verbatim t.hasQueryMarker params.entries := by
  have hleft : leftOver t.hasQueryMarker t.items params.entries = [] :=
    leftOver_eq_nil fun e he => mem_names_iff.1 (h e.1 (List.mem_map_of_mem he))
  rw [queryParts, hleft, List.append_nil]

theorem url_eq_assemble {t : Template} (hd : t.DistinctlyNamed)
    (hkeys : ∀ key ∈ params.keys, IsKey key)
    (hvalues : ∀ n ∈ holeNames t.items, ∃ v, params.get? n = some v ∧ Unmarked v.inUrl)
    (hrest : t.hasQueryMarker = false → ∀ key ∈ params.keys, key ∈ t.names) :
    (t.url params).toList = assemble t.items (t.names.map (t.given params)) := by
  have hclean : ∀ n ∈ holeNames t.items, ∀ v, params.get? n = some v → Unmarked v.inUrl := by
    intro n hn v hv
    obtain ⟨w, hw, hu⟩ := hvalues n hn
    rw [hv] at hw
    exact Option.some.inj hw ▸ hu
  have hfill : fillHoles (textsOf t.hasQueryMarker params.entries) t.items =
      fillHoles (t.given params) t.items := by
    apply fillHoles_congr
    intro n hn
    rw [given_hole hd.nodup hn, textsOf, if_neg (not_query_of_mem_holeNames hd.nodup hn)]
    rfl
  have hsome : ∀ n ∈ holeNames t.items, (t.given params n).isSome := by
    intro n hn
    obtain ⟨v, hv, -⟩ := hvalues n hn
    simp [given_hole hd.nodup hn, hv]
  have htext : (t.url params).toList =
      fillHoles (t.given params) t.items ++ queryText (t.query? params) := by
    rw [url, String.toList_ofList, urlDraft_eq t params hd.endsOpen_hole hkeys hclean, hfill,
      UrlDraft.text, query?]
    split <;> simp [queryText]
  rw [htext, names, ← fillHoles_eq_assemble t.wellFormed hd.nodup hsome]
  cases hq : t.hasQueryMarker with
  | true => rw [if_pos ((hasQueryMarker_iff t).1 hq), given_query hq]
  | false =>
    have hnone : t.query? params = none := by
      rw [query?, queryParts_eq_verbatim (hrest hq), hq, verbatim_unmarked, if_pos rfl]
    have hm : .query ∉ t.items := fun hm => by simp [(hasQueryMarker_iff t).2 hm] at hq
    rw [hnone, if_neg hm]
    rfl

end Template

end NamedRoutes
