import NamedRoutes.Proofs.Template.Grammar
import NamedRoutes.Proofs.Template.Scores
import NamedRoutes.Proofs.Url.Assembly
import NamedRoutes.Template.Source

/-!
# Adding a query marker

A query marker behind a template leaves its segments, its holes and their names as they are, but
that a parameter at its end now stops at `?`. It makes the template heavier. Whether a match takes a
query cannot be told from its parameters, since a hole may be named like the query.
-/
namespace NamedRoutes

/-- What becomes of an item at the end when a query marker follows it. -/
def Item.beforeQuery : Item → Item
  | .hole .param name => .hole .paramBeforeQuery name
  | item => item

namespace Template

def markItems : List Item → List Item
  | [] => [.query]
  | item :: rest => (if rest = [] then item.beforeQuery else item) :: markItems rest

variable {items : List Item} {s : List Char} {cs : Captures} {t t' : Template}

/-- What does not depend on whether a parameter stops at `?` stays the same. -/
theorem beforeQuery_if {α : Type} (f : Item → α)
    (hf : ∀ name, f (.hole .paramBeforeQuery name) = f (.hole .param name)) (item : Item)
    (rest : List Item) : f (if rest = [] then item.beforeQuery else item) = f item := by
  split
  · cases item with
    | hole kind name =>
      cases kind with
      | param => exact hf name
      | _ => rfl
    | _ => rfl
  · rfl

theorem writtenItems_markItems (items : List Item) :
    writtenItems (markItems items) = writtenItems items ++ ['?'] := by
  induction items with
  | nil => rfl
  | cons item rest ih =>
    rw [markItems, writtenItems_cons, writtenItems_cons,
      beforeQuery_if Item.written fun _ => rfl, ih, List.append_assoc]

theorem query_mem_markItems (items : List Item) : .query ∈ markItems items := by
  induction items with
  | nil => exact List.mem_cons_self
  | cons item rest ih => exact List.mem_cons_of_mem _ ih

theorem holeNames_markItems (items : List Item) :
    holeNames (markItems items) = holeNames items := by
  induction items with
  | nil => rfl
  | cons item rest ih =>
    rw [markItems]
    cases item with
    | hole kind name => cases kind <;> split <;> simpa [Item.beforeQuery, holeNames] using ih
    | _ => simpa [Item.beforeQuery, holeNames] using ih

theorem scores_markItems (items : List Item) : scores (markItems items) = scores items := by
  induction items with
  | nil => rfl
  | cons item rest ih =>
    rw [markItems]
    by_cases h : item = .separator
    · subst h
      simp [Item.beforeQuery, scores, ih]
    · have h' : (if rest = [] then item.beforeQuery else item) ≠ .separator := by
        cases item with
        | separator => exact absurd rfl h
        | hole kind name => cases kind <;> split <;> simp [Item.beforeQuery]
        | _ => split <;> simp [Item.beforeQuery]
      rw [scores_cons_of_ne_separator h', scores_cons_of_ne_separator h,
        beforeQuery_if Item.score fun _ => rfl, ih]

theorem wellFormed_markItems (hw : Item.WellFormed items) (hq : .query ∉ items) :
    Item.WellFormed (markItems items) := by
  induction items with
  | nil => simp [markItems]
  | cons item rest ih =>
    have hrest := ih hw.tail fun h => hq (List.mem_cons_of_mem _ h)
    rw [markItems]
    cases item with
    | separator => simpa [Item.beforeQuery] using hrest
    | literal c => simpa [Item.beforeQuery] using ⟨hw.1, hrest⟩
    | query => exact absurd List.mem_cons_self hq
    | hole kind name =>
      obtain ⟨⟨hname, hnext⟩, -⟩ := Item.wellFormed_hole.1 hw
      cases rest with
      | nil =>
        cases kind with
        | param => exact ⟨⟨hname, by simp [markItems, Hole.followers]⟩, hrest⟩
        | paramBeforeQuery => simp [Hole.followers] at hnext
        | wildcard => exact ⟨⟨hname, by simp [markItems, Hole.followers]⟩, hrest⟩
      | cons next rest =>
        have hne : next ≠ .query := fun h => hq (h ▸ List.mem_cons_of_mem _ List.mem_cons_self)
        have hsep : next = .separator := by
          cases kind <;> simp_all [Hole.followers]
        subst hsep
        exact ⟨⟨hname, by simpa [markItems, Item.beforeQuery] using hnext⟩, hrest⟩

/-- A template whose path goes on with `?` where that of another ends has the items of that one with
a marker behind them. -/
theorem items_eq_markItems (hq : t.hasQueryMarker = false) (hpath : t'.path = t.path ++ "?") :
    t'.items = markItems t.items := by
  have hq' : .query ∉ t.items := fun h => by simp [(hasQueryMarker_iff t).2 h] at hq
  have hwritten : writtenItems t'.items = writtenItems (markItems t.items) := by
    rw [writtenItems_markItems, ← String.toList_ofList (l := writtenItems t'.items)]
    change t'.path.toList = _
    rw [hpath, path, String.toList_append, String.toList_ofList]
    rfl
  have h := scan_writtenItems t'.wellFormed
  rw [hwritten, scan_writtenItems (wellFormed_markItems t.wellFormed hq')] at h
  exact (Except.ok.inj h).symm

theorem countP_isWildcard_markItems (items : List Item) :
    (markItems items).countP Item.isWildcard = items.countP Item.isWildcard := by
  induction items with
  | nil => rfl
  | cons item rest ih =>
    rw [markItems, List.countP_cons, List.countP_cons, ih,
      beforeQuery_if Item.isWildcard fun _ => rfl]

theorem followedParams_le_markItems (items : List Item) :
    followedParams items ≤ followedParams (markItems items) := by
  induction items with
  | nil => exact Nat.le_refl 0
  | cons item rest ih =>
    rw [markItems]
    cases item with
    | hole kind name =>
      cases rest with
      | nil => cases kind <;> simp [followedParams]
      | cons next rest =>
        rw [if_neg (List.cons_ne_nil next rest)]
        cases kind <;> simpa [followedParams, markItems] using ih
    | _ => simpa [followedParams, Item.beforeQuery] using ih

theorem length_source_lt_markItems (items : List Item) :
    (items.flatMap Item.source).length < ((markItems items).flatMap Item.source).length := by
  induction items with
  | nil => decide
  | cons item rest ih =>
    have hitem : item.source.length ≤
        (if rest = [] then item.beforeQuery else item).source.length := by
      split
      · cases item with
        | hole kind name => cases kind <;> simp [Item.beforeQuery, Item.source, Hole.source]
        | _ => exact Nat.le_refl _
      · exact Nat.le_refl _
    rw [markItems, List.flatMap_cons, List.flatMap_cons, List.length_append, List.length_append]
    omega

theorem countP_isWildcard_le_length_source (items : List Item) :
    items.countP Item.isWildcard ≤ (items.flatMap Item.source).length := by
  induction items with
  | nil => decide
  | cons item rest ih =>
    have hitem : (if item.isWildcard then 1 else 0) ≤ item.source.length := by
      cases item with
      | hole kind name => cases kind <;> simp [Item.isWildcard, Item.source, Hole.source]
      | _ => exact Nat.zero_le _
    rw [List.countP_cons, List.flatMap_cons, List.length_append]
    omega

theorem weight_lt_of_items_eq (h : t'.items = markItems t.items) : t.weight < t'.weight := by
  have hsource := length_source_lt_markItems t.items
  have hparams := followedParams_le_markItems t.items
  have hwild := countP_isWildcard_le_length_source t.items
  rw [weight, weight, sourceChars, sourceChars, h, countP_isWildcard_markItems]
  simp only [List.length_cons, List.length_append, List.length_nil]
  omega

/-- What the query marker captures of a path that matches. -/
def queryCapture? (t : Template) (path : String) : Option (List Char) :=
  if t.hasQueryMarker then ((captures? t.items path.toList).bind List.getLast?).join else none

theorem none_mem_iff_of_cut (hw : Item.WellFormed items) (hq : .query ∈ items)
    (h : Cut items s cs) : ∃ last, cs.getLast? = some last ∧ (last = none ↔ none ∈ cs) := by
  induction h with
  | nil => cases hq
  | separator _ ih => exact ih hw.tail (by simpa using hq)
  | literal _ _ ih => exact ih hw.tail (by simpa using hq)
  | @hole kind name run _ _ cs _ _ ih =>
    obtain ⟨last, hlast, hnone⟩ := ih hw.tail (by simpa using hq)
    have hne : cs ≠ [] := by
      rintro rfl
      cases hlast
    exact ⟨last, by rw [List.getLast?_cons_of_ne_nil hne, hlast], by simpa using hnone⟩
  | noQuery h =>
    rw [Item.wellFormed_query.1 hw] at h
    rw [(eq_nil_of_cut_nil h).2]
    exact ⟨none, rfl, by simp⟩
  | @query run _ _ _ _ h =>
    rw [Item.wellFormed_query.1 hw] at h
    rw [(eq_nil_of_cut_nil h).2]
    exact ⟨some run, rfl, by simp⟩

theorem queryCapture?_isSome_iff {path : String} (hcs : captures? t.items path.toList = some cs) :
    (t.queryCapture? path).isSome ↔ t.hasQueryMarker ∧ none ∉ cs := by
  rw [queryCapture?]
  by_cases hq : t.hasQueryMarker
  · obtain ⟨last, hlast, hnone⟩ :=
      none_mem_iff_of_cut t.wellFormed ((hasQueryMarker_iff t).1 hq) (cut_of_captures? hcs)
    rw [if_pos hq, hcs, Option.bind_some, hlast, ← hnone]
    cases last <;> simp [hq]
  · simp [hq]

theorem mem_keys_bind_iff {n : String} (hw : Item.WellFormed items) (h : Cut items s cs) :
    n ∈ (bind (captureNames items) cs).keys ↔
      n ∈ holeNames items ∨ n = queryName ∧ .query ∈ items ∧ none ∉ cs := by
  rw [(assigned_bind _ _).keys, List.mem_eraseDups]
  induction h with
  | nil => simp [present, holeNames]
  | separator _ ih => simpa [holeNames] using ih hw.tail
  | literal _ _ ih => simpa [holeNames] using ih hw.tail
  | @hole kind name run items _ cs _ _ ih =>
    have hpresent : present (captureNames (.hole kind name :: items)) (some run :: cs) =
        (knownAs name, run) :: present (captureNames items) cs := rfl
    rw [hpresent, List.map_cons, List.mem_cons, ih hw.tail, holeNames, List.mem_cons]
    simp [or_assoc]
  | noQuery h _ =>
    rw [Item.wellFormed_query.1 hw] at h ⊢
    rw [(eq_nil_of_cut_nil h).2]
    simp [present, holeNames]
  | query _ h _ =>
    rw [Item.wellFormed_query.1 hw] at h ⊢
    rw [(eq_nil_of_cut_nil h).2]
    simp [present, holeNames]

theorem question_mem_of_cut (hq : .query ∈ items) (hcs : none ∉ cs) (h : Cut items s cs) :
    '?' ∈ s := by
  induction h with
  | nil => cases hq
  | separator _ ih => exact List.mem_cons_of_mem _ (ih (by simpa using hq) hcs)
  | literal _ _ ih => exact List.mem_cons_of_mem _ (ih (by simpa using hq) hcs)
  | hole _ _ ih => exact List.mem_append_right _ (ih (by simpa using hq) (by simpa using hcs))
  | noQuery _ => exact absurd List.mem_cons_self hcs
  | query _ _ => exact List.mem_cons_self

end Template

end NamedRoutes
