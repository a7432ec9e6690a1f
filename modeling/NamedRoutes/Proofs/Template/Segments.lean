import NamedRoutes.Proofs.Template.Grammar
import NamedRoutes.Proofs.Template.Scores
import NamedRoutes.Proofs.Url.Assembly
import NamedRoutes.Template.Source

/-!
# What segments tell

A template is read in one pass, and all that is known of it can be read off its segments one by one:
the names of its captures, the scores, the matching text, and the weight, which is a sum over what
stands in the segments and how each of them ends.
-/
namespace NamedRoutes

namespace Template

instance (c : Char) : Decidable (IsMark c) := inferInstanceAs (Decidable (_ ∨ _))

def textOf (seg : List Char) : List Char := seg.takeWhile (¬ IsMark ·)

/-- The mark of a segment, if it has one, and the name behind it. -/
def holeText (seg : List Char) : List Char := seg.dropWhile (¬ IsMark ·)

def mark? (seg : List Char) : Option Char := (holeText seg).head?

/-- The name of what a segment captures. -/
def segmentName? (seg : List Char) : Option String :=
  (holeText seg).tail?.map fun name => knownAs (String.ofList name)

def markScore : Option Char → Nat
  | none => 2
  | some mark => if mark = ':' then 1 else 0

def outline (seg : List Char) : List Char × Option Char := (textOf seg, mark? seg)

/-- The hole that is written so, where a parameter would be of this kind. -/
def holeItems (kind : Hole) : List Char → List Item
  | [] => []
  | mark :: name => [.hole (if mark = ':' then kind else .wildcard) (String.ofList name)]

def segmentItems (kind : Hole) (seg : List Char) : List Item :=
  (textOf seg).map .literal ++ holeItems kind (holeText seg)

/-- The kind of a parameter at the end of a template, that may be marked for a query. -/
def lastKind (marked : Bool) : Hole := if marked then .paramBeforeQuery else .param

/-- The items of the segments, with a separator between any two and perhaps a query marker. -/
def itemsOf (marked : Bool) : List (List Char) → List Item
  | [] => []
  | [seg] => segmentItems (lastKind marked) seg ++ if marked then [.query] else []
  | seg :: next :: rest => segmentItems .param seg ++ .separator :: itemsOf marked (next :: rest)

variable {c : Char} {seg : List Char} {segs segs' : List (List Char)} {kind : Hole} {marked : Bool}
  {items : List Item}

theorem segmentItems_nil (kind : Hole) : segmentItems kind [] = [] := rfl

theorem segmentItems_cons (hc : ¬ IsMark c) (kind : Hole) (seg : List Char) :
    segmentItems kind (c :: seg) = .literal c :: segmentItems kind seg := by
  simp [segmentItems, textOf, holeText, hc]

theorem segmentItems_mark (hc : IsMark c) (kind : Hole) (name : List Char) :
    segmentItems kind (c :: name) =
      [.hole (if c = ':' then kind else .wildcard) (String.ofList name)] := by
  simp [segmentItems, textOf, holeText, holeItems, hc]

theorem isMark_of_mark? (h : mark? seg = some c) : IsMark c := by
  have hhead := List.head?_dropWhile_not (¬ IsMark ·) seg
  rw [mark?, holeText] at h
  rw [h] at hhead
  simpa using hhead

theorem lastKind_ne_wildcard (marked : Bool) : lastKind marked ≠ .wildcard := by
  cases marked <;> decide

theorem itemsOf_modifyHead (hc : ¬ IsMark c) (hsegs : segs ≠ []) :
    itemsOf marked (segs.modifyHead (c :: ·)) = .literal c :: itemsOf marked segs := by
  cases segs using itemsOf.induct with
  | case1 => exact absurd rfl hsegs
  | case2 seg => rw [List.modifyHead_cons, itemsOf, itemsOf, segmentItems_cons hc, List.cons_append]
  | case3 seg next rest _ =>
    rw [List.modifyHead_cons, itemsOf, itemsOf, segmentItems_cons hc, List.cons_append]

theorem itemsOf_cons (hsegs : segs ≠ []) :
    itemsOf marked (seg :: segs) =
      segmentItems .param seg ++ .separator :: itemsOf marked segs := by
  obtain ⟨next, rest, rfl⟩ := List.exists_cons_of_ne_nil hsegs
  rw [itemsOf]

theorem segmentItems_hole {kind' : Hole} (hk : kind = .wildcard ∨ kind = kind') (name : String) :
    segmentItems kind' (kind.marker :: name.toList) = [.hole kind name] := by
  have hmark : IsMark kind.marker := by cases kind <;> decide
  rw [segmentItems_mark hmark, String.ofList_toList]
  rcases hk with rfl | rfl
  · rfl
  · cases kind <;> rfl

/-- A hole ends its segment, and how the segment ends decides what a parameter is read as. -/
theorem hole_cases {name : String} {rest : List Item}
    (hw : Item.WellFormed (.hole kind name :: rest)) :
    rest = [] ∧ (kind = .wildcard ∨ kind = .param) ∨
      (∃ rest', rest = .separator :: rest' ∧ (kind = .wildcard ∨ kind = .param)) ∨
      rest = [.query] ∧ (kind = .wildcard ∨ kind = .paramBeforeQuery) := by
  obtain ⟨⟨-, hnext⟩, hwrest⟩ := Item.wellFormed_hole.1 hw
  cases rest with
  | nil =>
    left
    revert hnext
    cases kind <;> simp [Hole.followers]
  | cons next rest =>
    right
    cases next with
    | separator =>
      left
      revert hnext
      cases kind <;> simp [Hole.followers]
    | query =>
      right
      rw [Item.wellFormed_query.1 hwrest]
      revert hnext
      cases kind <;> simp [Hole.followers]
    | literal c => cases kind <;> simp [Hole.followers] at hnext
    | hole _ _ => cases kind <;> simp [Hole.followers] at hnext

theorem items_eq_itemsOf (hw : Item.WellFormed items) :
    items = itemsOf (.query ∈ items) (segments (writtenItems items)) := by
  induction items with
  | nil => rfl
  | cons item rest ih =>
    have hrest := ih hw.tail
    have hne := segments_ne_nil (writtenItems rest)
    cases item with
    | separator =>
      rw [writtenItems_cons, Item.written, List.singleton_append, segments_slash, itemsOf_cons hne,
        segmentItems_nil, List.nil_append]
      simpa using hrest
    | literal c =>
      obtain ⟨hslash, hquestion, hmark⟩ := isOrdinary_iff.1 hw.1
      rw [writtenItems_cons, Item.written, List.singleton_append, segments_cons _ hslash hquestion,
        itemsOf_modifyHead (not_or.2 hmark) hne]
      simpa using hrest
    | query =>
      rw [Item.wellFormed_query.1 hw]
      simp [Item.written, itemsOf, segmentItems_nil]
    | hole kind name =>
      obtain ⟨⟨hname, -⟩, -⟩ := Item.wellFormed_hole.1 hw
      rw [writtenItems_cons, Item.written, segments_append _ (ne_of_mem_hole hname)]
      rcases hole_cases hw with ⟨rfl, hk⟩ | ⟨rest, rfl, hk⟩ | ⟨rfl, hk⟩
      · simp [itemsOf, lastKind, segmentItems_hole hk]
      · have hne' := segments_ne_nil (writtenItems rest)
        rw [writtenItems_cons, Item.written, List.singleton_append, segments_slash] at hrest ⊢
        rw [itemsOf_cons hne', segmentItems_nil, List.nil_append] at hrest
        rw [List.modifyHead_cons, List.append_nil, itemsOf_cons hne', segmentItems_hole hk]
        simpa using hrest
      · simp [Item.written, itemsOf, lastKind, segmentItems_hole hk]

theorem captureNames_append (items items' : List Item) :
    captureNames (items ++ items') = captureNames items ++ captureNames items' :=
  List.filterMap_append

theorem captureNames_segmentItems (kind : Hole) (seg : List Char) :
    captureNames (segmentItems kind seg) = (segmentName? seg).toList := by
  have htext : captureNames ((textOf seg).map .literal) = [] := by
    simp [captureNames, List.filterMap_map, Item.captureName?]
  rw [segmentItems, captureNames_append, htext, segmentName?]
  cases holeText seg <;> rfl

theorem captureNames_itemsOf (hsegs : segs ≠ []) :
    captureNames (itemsOf marked segs) =
      segs.filterMap segmentName? ++ if marked then [queryName] else [] := by
  induction segs using itemsOf.induct with
  | case1 => exact absurd rfl hsegs
  | case2 seg =>
    rw [itemsOf, captureNames_append, captureNames_segmentItems]
    cases marked <;> cases h : segmentName? seg <;> simp [h]
  | case3 seg next rest ih =>
    rw [itemsOf, captureNames_append, captureNames_segmentItems, captureNames_separator,
      ih (List.cons_ne_nil _ _), ← List.append_assoc]
    cases h : segmentName? seg <;> simp [h]

theorem scores_map_literal_append (text : List Char) (items : List Item) :
    scores (text.map .literal ++ items) = scores items := by
  induction text with
  | nil => rfl
  | cons c text ih =>
    obtain ⟨x, xs, hs⟩ := exists_scores_eq_cons items
    have hx : x ≤ 2 := le_two_of_mem_scores x (hs ▸ List.mem_cons_self)
    rw [List.map_cons, List.cons_append, scores_cons_of_ne_separator (by simp), ih, hs]
    exact congrArg (· :: xs) (Nat.min_eq_right hx)

theorem scores_segmentItems_append (hk : kind ≠ .wildcard) (seg : List Char)
    (h : (scores items).head? = some 2) :
    scores (segmentItems kind seg ++ items) = markScore (mark? seg) :: (scores items).tail := by
  obtain ⟨xs, hs⟩ := List.head?_eq_some_iff.1 h
  rw [segmentItems, List.append_assoc, scores_map_literal_append, mark?]
  cases holeText seg with
  | nil => simp [holeItems, hs, markScore]
  | cons mark name =>
    rw [holeItems, List.singleton_append, scores_cons_of_ne_separator (by simp), hs]
    cases kind with
    | wildcard => exact absurd rfl hk
    | _ => by_cases hm : mark = ':' <;> simp [hm, Item.score, markScore]

theorem scores_itemsOf (hsegs : segs ≠ []) :
    scores (itemsOf marked segs) = (segs.map mark?).map markScore := by
  induction segs using itemsOf.induct with
  | case1 => exact absurd rfl hsegs
  | case2 seg =>
    have hend : scores (if marked then [.query] else []) = [2] := by cases marked <;> rfl
    rw [itemsOf, scores_segmentItems_append (lastKind_ne_wildcard marked) seg (by rw [hend]; rfl),
      hend]
    rfl
  | case3 seg next rest ih =>
    rw [itemsOf, scores_segmentItems_append (by decide) seg rfl, scores, ih (List.cons_ne_nil _ _)]
    rfl

def markSource (kind : Hole) (mark : Char) : List Char :=
  (if mark = ':' then kind else .wildcard).source

theorem source_segmentItems (kind : Hole) (seg : List Char) :
    (segmentItems kind seg).flatMap Item.source =
      (textOf seg).flatMap escapeMeta ++ ((mark? seg).elim [] (markSource kind)) := by
  rw [segmentItems, List.flatMap_append, List.flatMap_map, mark?]
  congr 1
  cases holeText seg <;> simp [holeItems, markSource, Item.source]

theorem source_itemsOf_congr (h : segs.map outline = segs'.map outline) :
    (itemsOf marked segs).flatMap Item.source = (itemsOf marked segs').flatMap Item.source := by
  have hseg : ∀ {kind seg seg'}, outline seg = outline seg' →
      (segmentItems kind seg).flatMap Item.source =
        (segmentItems kind seg').flatMap Item.source := by
    intro kind seg seg' h
    obtain ⟨htext, hmark⟩ := Prod.ext_iff.1 h
    rw [source_segmentItems, source_segmentItems]
    exact congrArg₂ _ (congrArg _ htext) (congrArg (Option.elim · _ _) hmark)
  induction segs using itemsOf.induct generalizing segs' with
  | case1 => rw [List.map_eq_nil_iff.1 h.symm]
  | case2 seg =>
    obtain ⟨seg', rest', rfl, hfirst, hrest⟩ := List.map_eq_cons_iff.1 h.symm
    rw [List.map_eq_nil_iff.1 hrest, itemsOf, itemsOf, List.flatMap_append, List.flatMap_append,
      hseg hfirst]
  | case3 seg next rest ih =>
    obtain ⟨seg', rest', rfl, hfirst, hrest⟩ := List.map_eq_cons_iff.1 h.symm
    have hne : rest' ≠ [] := by rintro rfl; cases hrest
    rw [itemsOf, itemsOf_cons hne, List.flatMap_append, List.flatMap_append, hseg hfirst,
      List.flatMap_cons, List.flatMap_cons, ih hrest.symm]

/-- The weight of segments with these marks and this literal text between them. -/
def weightOf (marked : Bool) (marks : List (Option Char)) (text : List Char) : Nat :=
  2 * marks.length + 1 + (text.flatMap escapeMeta).length
    + 9 * marks.dropLast.count (some ':')
    + (if marks.getLast? = some (some ':') then if marked then 10 else 8 else 0)
    + 10 * marks.count (some '*') + if marked then 11 else 0

theorem weightOf_cons {marks : List (Option Char)} (h : marks ≠ []) (mark : Option Char)
    (text text' : List Char) :
    weightOf marked (mark :: marks) (text ++ text') =
      2 + (text.flatMap escapeMeta).length + 9 * [mark].count (some ':')
        + 10 * [mark].count (some '*') + weightOf marked marks text' := by
  rw [weightOf, weightOf, List.dropLast_cons_of_ne_nil h, List.getLast?_cons_of_ne_nil h,
    List.count_cons, List.count_cons, List.count_singleton, List.count_singleton,
    List.flatMap_append, List.length_append, List.length_cons]
  omega

theorem mark?_cases (seg : List Char) :
    mark? seg = none ∨ mark? seg = some ':' ∨ mark? seg = some '*' := by
  cases h : mark? seg with
  | none => exact .inl rfl
  | some mark =>
    rcases isMark_of_mark? h with rfl | rfl
    · exact .inr (.inl rfl)
    · exact .inr (.inr rfl)

theorem countP_isWildcard_segmentItems (hk : kind ≠ .wildcard) (seg : List Char) :
    (segmentItems kind seg).countP Item.isWildcard = [mark? seg].count (some '*') := by
  have htext : ((textOf seg).map Item.literal).countP Item.isWildcard = 0 := by
    simp [Item.isWildcard]
  rw [segmentItems, List.countP_append, htext, Nat.zero_add]
  have hmark := mark?_cases seg
  rw [mark?] at hmark ⊢
  cases hhole : holeText seg with
  | nil => rfl
  | cons mark name =>
    rw [hhole] at hmark
    cases kind with
    | wildcard => exact absurd rfl hk
    | _ => rcases hmark with hmark | hmark | hmark <;> cases hmark <;> rfl

theorem countP_isWildcard_itemsOf (segs : List (List Char)) :
    (itemsOf marked segs).countP Item.isWildcard = (segs.map mark?).count (some '*') := by
  induction segs using itemsOf.induct with
  | case1 => rfl
  | case2 seg =>
    have hend : (if marked then [Item.query] else []).countP Item.isWildcard = 0 := by
      cases marked <;> rfl
    rw [itemsOf, List.countP_append, hend,
      countP_isWildcard_segmentItems (lastKind_ne_wildcard marked)]
    rfl
  | case3 seg next rest ih =>
    rw [itemsOf, List.countP_append, List.countP_cons_of_neg (by simp [Item.isWildcard]), ih,
      countP_isWildcard_segmentItems (by decide), ← List.count_append]
    rfl

theorem followedParams_segmentItems_append (hk : kind ≠ .wildcard) (seg : List Char)
    (items : List Item) :
    followedParams (segmentItems kind seg ++ items) =
      (if items = [] then 0 else [mark? seg].count (some ':')) + followedParams items := by
  have htext : ∀ (text : List Char) (items : List Item),
      followedParams (text.map .literal ++ items) = followedParams items := by
    intro text items
    induction text with
    | nil => rfl
    | cons c text ih => exact ih
  rw [segmentItems, List.append_assoc, htext]
  have hmark := mark?_cases seg
  rw [mark?] at hmark ⊢
  cases hhole : holeText seg with
  | nil => simp [holeItems]
  | cons mark name =>
    rw [hhole] at hmark
    cases kind with
    | wildcard => exact absurd rfl hk
    | _ =>
      rcases hmark with hmark | hmark | hmark <;> cases hmark <;>
        simp [holeItems, followedParams, Nat.add_comm]

theorem length_source_segmentItems (kind : Hole) (seg : List Char) :
    ((segmentItems kind seg).flatMap Item.source).length =
      ((textOf seg).flatMap escapeMeta).length + kind.source.length * [mark? seg].count (some ':')
        + 11 * [mark? seg].count (some '*') := by
  rw [source_segmentItems, List.length_append, Nat.add_assoc]
  rcases mark?_cases seg with hmark | hmark | hmark <;> simp [hmark, markSource, Hole.source]

/-- What stands in the source, and what its parameters add, make up the weight but for what its
wildcards take away. -/
theorem length_source_itemsOf (hsegs : segs ≠ []) :
    ((itemsOf marked segs).flatMap Item.source).length + followedParams (itemsOf marked segs) + 3 =
      weightOf marked (segs.map mark?) (segs.flatMap textOf)
        + (segs.map mark?).count (some '*') := by
  induction segs using itemsOf.induct with
  | case1 => exact absurd rfl hsegs
  | case2 seg =>
    rw [itemsOf, List.flatMap_append, List.length_append, length_source_segmentItems,
      followedParams_segmentItems_append (lastKind_ne_wildcard marked)]
    rcases mark?_cases seg with hmark | hmark | hmark <;> cases marked <;>
      simp [hmark, weightOf, lastKind, Hole.source, Item.source, followedParams] <;> omega
  | case3 seg next rest ih =>
    have hne : next :: rest ≠ [] := List.cons_ne_nil _ _
    have ih := ih hne
    generalize next :: rest = segs at hne ih ⊢
    have hcount : (mark? seg :: segs.map mark?).count (some '*') =
        [mark? seg].count (some '*') + (segs.map mark?).count (some '*') := by
      rw [← List.count_append]
      rfl
    rw [itemsOf_cons hne, List.flatMap_append, List.flatMap_cons, List.length_append,
      List.length_append, length_source_segmentItems,
      followedParams_segmentItems_append (by decide), if_neg (List.cons_ne_nil _ _),
      List.map_cons, List.flatMap_cons, weightOf_cons (by simpa using hne), hcount]
    simp only [followedParams, Item.source, Hole.source, List.length_cons, List.length_nil]
    omega

theorem question_mem_writtenItems_iff (hw : Item.WellFormed items) :
    '?' ∈ writtenItems items ↔ .query ∈ items := by
  induction items with
  | nil => simp
  | cons item rest ih =>
    rw [writtenItems_cons, List.mem_append, List.mem_cons, ih hw.tail]
    by_cases hq : item = .query
    · simp [hq, Item.written]
    · simp [question_not_mem_written hw.1 hq, Ne.symm hq]

theorem getLast?_eq_question_iff {s : List Char} (h : '?' ∉ s.dropLast) :
    s.getLast? = some '?' ↔ '?' ∈ s := by
  rcases List.eq_nil_or_concat s with rfl | ⟨init, c, rfl⟩
  · simp
  · rw [List.concat_eq_append] at h ⊢
    rw [List.dropLast_concat] at h
    simp [h, eq_comm]

theorem length_segments {s : List Char} (h : '?' ∉ s.dropLast) :
    (segments s).length = s.count '/' + 1 := by
  induction s with
  | nil => rfl
  | cons c s ih =>
    have htail : '?' ∉ s.dropLast := by cases s <;> simp_all
    by_cases hslash : c = '/'
    · rw [hslash, segments_slash, List.length_cons, ih htail, List.count_cons_self]
    · by_cases hquestion : c = '?'
      · have hs : s = [] := by cases s <;> simp_all
        rw [hs, hquestion]
        rfl
      · rw [segments_cons s hslash hquestion, List.length_modifyHead, ih htail,
          List.count_cons_of_ne hslash]

theorem toList_path (t : Template) : t.path.toList = writtenItems t.items := String.toList_ofList

theorem question_not_mem_dropLast_path (t : Template) : '?' ∉ t.path.toList.dropLast := by
  rw [toList_path]
  exact question_not_mem_dropLast t.wellFormed

theorem hasQueryMarker_eq (t : Template) :
    t.hasQueryMarker = (t.path.toList.getLast? == some '?') := by
  rw [Bool.eq_iff_iff, hasQueryMarker_iff, beq_iff_eq,
    getLast?_eq_question_iff t.question_not_mem_dropLast_path, toList_path,
    question_mem_writtenItems_iff t.wellFormed]

theorem items_eq (t : Template) :
    t.items = itemsOf t.hasQueryMarker (segments t.path.toList) := by
  have hmarked : t.hasQueryMarker = decide (.query ∈ t.items) := by
    rw [Bool.eq_iff_iff, hasQueryMarker_iff, decide_eq_true_iff]
  rw [hmarked, toList_path]
  exact items_eq_itemsOf t.wellFormed

theorem weight_eq (t : Template) :
    t.weight =
      weightOf t.hasQueryMarker ((segments t.path.toList).map mark?)
        ((segments t.path.toList).flatMap textOf) := by
  have hsource := @length_source_itemsOf _ t.hasQueryMarker (segments_ne_nil t.path.toList)
  have hwild := @countP_isWildcard_itemsOf t.hasQueryMarker (segments t.path.toList)
  rw [← items_eq] at hsource hwild
  rw [weight, sourceChars, hwild]
  simp only [List.length_cons, List.length_append, List.length_nil]
  omega

theorem segment_of_cons (hc : ¬ IsMark c) (h : Segment (c :: seg)) : Segment seg := by
  generalize hs : c :: seg = s at h
  cases h with
  | text h => exact .text (unmarked_cons.1 (hs ▸ h)).2
  | @param text name h hne hn =>
    cases text with
    | nil => exact absurd (.inl (List.cons.inj hs).1) hc
    | cons d text =>
      obtain ⟨-, rfl⟩ := List.cons.inj hs
      exact .param (unmarked_cons.1 h).2 hne hn
  | @wildcard text name h hn =>
    cases text with
    | nil => exact absurd (.inr (List.cons.inj hs).1) hc
    | cons d text =>
      obtain ⟨-, rfl⟩ := List.cons.inj hs
      exact .wildcard (unmarked_cons.1 h).2 hn

theorem segment_append_iff {text : List Char} (h : Unmarked text) (seg : List Char) :
    Segment (text ++ seg) ↔ Segment seg := by
  induction text with
  | nil => rfl
  | cons c text ih =>
    obtain ⟨hc, htext⟩ := unmarked_cons.1 h
    rw [List.cons_append, ← ih htext]
    exact ⟨segment_of_cons hc, segment_cons hc⟩

theorem textOf_append {text : List Char} (h : Unmarked text) (seg : List Char) :
    textOf (text ++ seg) = text ++ textOf seg :=
  List.takeWhile_append_of_pos (by simpa using unmarked_iff.1 h)

theorem mark?_append {text : List Char} (h : Unmarked text) (seg : List Char) :
    mark? (text ++ seg) = mark? seg :=
  congrArg List.head? (List.dropWhile_append_of_pos (by simpa using unmarked_iff.1 h))

/-- The segment that a text breaks off in. -/
def openSegment (s : List Char) : List Char := (segments s).getLast (segments_ne_nil s)

theorem dropLast_append_openSegment (s : List Char) :
    (segments s).dropLast ++ [openSegment s] = segments s :=
  List.dropLast_concat_getLast _

theorem segments_append_eq {a : List Char} (h : '?' ∉ a) (s : List Char) :
    segments (a ++ s) = (segments a).dropLast ++ (segments s).modifyHead (openSegment a ++ ·) := by
  obtain ⟨first, tail, hs⟩ := List.exists_cons_of_ne_nil (segments_ne_nil s)
  suffices ∀ before last, segments a = before ++ [last] →
      segments (a ++ s) = before ++ (last ++ first) :: tail by
    rw [hs, List.modifyHead_cons]
    exact this _ _ (dropLast_append_openSegment a).symm
  induction a with
  | nil =>
    intro before last hsplit
    have hsplit : [] ++ [[]] = before ++ [last] := hsplit
    obtain ⟨rfl, hlast⟩ := List.append_inj' hsplit rfl
    cases hlast
    exact hs
  | cons c a ih =>
    intro before last hsplit
    obtain ⟨hquestion, hrest⟩ := not_or.1 (mt List.mem_cons.2 h)
    have ih := ih hrest
    by_cases hslash : c = '/'
    · rw [hslash, segments_slash] at hsplit
      rw [hslash, List.cons_append, segments_slash]
      cases before with
      | nil => exact absurd (List.cons.inj hsplit).2 (segments_ne_nil a)
      | cons seg before =>
        obtain ⟨rfl, htail⟩ := List.cons.inj hsplit
        rw [ih before last htail]
        rfl
    · rw [segments_cons a hslash (Ne.symm hquestion), ← dropLast_append_openSegment a] at hsplit
      rw [List.cons_append, segments_cons _ hslash (Ne.symm hquestion),
        ih _ _ (dropLast_append_openSegment a).symm]
      cases hbefore : (segments a).dropLast with
      | nil =>
        rw [hbefore] at hsplit
        have hsplit : [] ++ [c :: openSegment a] = before ++ [last] := hsplit
        obtain ⟨rfl, hlast⟩ := List.append_inj' hsplit rfl
        cases hlast
        rfl
      | cons seg segs =>
        rw [hbefore] at hsplit
        have hsplit : ((c :: seg) :: segs) ++ [openSegment a] = before ++ [last] := hsplit
        obtain ⟨rfl, hlast⟩ := List.append_inj' hsplit rfl
        cases hlast
        rfl

theorem exists_segments_insert {a : List Char} (h : '?' ∉ a) (hc : isOrdinary c) (b : List Char) :
    ∃ before seg after, segments (a ++ b) = before ++ (openSegment a ++ seg) :: after ∧
      segments (a ++ c :: b) = before ++ (openSegment a ++ c :: seg) :: after := by
  obtain ⟨hslash, hquestion, -⟩ := isOrdinary_iff.1 hc
  obtain ⟨seg, after, hb⟩ := List.exists_cons_of_ne_nil (segments_ne_nil b)
  refine ⟨(segments a).dropLast, seg, after, ?_, ?_⟩
  · rw [segments_append_eq h, hb, List.modifyHead_cons]
  · rw [segments_append_eq h, segments_cons b hslash hquestion, hb, List.modifyHead_cons,
      List.modifyHead_cons]

/-- A template with a character put into its text is a template. -/
theorem isTemplate_insert {a b : List Char} (h : IsTemplate (a ++ b)) (hq : '?' ∉ a)
    (hopen : Unmarked (openSegment a)) (hc : isOrdinary c) : IsTemplate (a ++ c :: b) := by
  obtain ⟨-, hquestion, hmark⟩ := isOrdinary_iff.1 hc
  obtain ⟨before, seg, after, hab, hacb⟩ := exists_segments_insert hq hc b
  obtain ⟨hlast, hsegs⟩ := isTemplate_iff.1 h
  rw [hab, List.forall_mem_append, List.forall_mem_cons] at hsegs
  obtain ⟨hbefore, hseg, hafter⟩ := hsegs
  refine isTemplate_iff.2 ⟨fun hmem => ?_, ?_⟩
  · rcases mem_dropLast_append hmem with hmem | hmem
    · exact hq hmem
    · cases b with
      | nil => cases hmem
      | cons d b =>
        rw [List.dropLast_append_of_ne_nil (List.cons_ne_nil _ _)] at hlast
        rcases List.mem_cons.1 hmem with rfl | hmem
        · exact hquestion rfl
        · exact hlast (List.mem_append_right _ hmem)
  · rw [hacb, List.forall_mem_append, List.forall_mem_cons]
    rw [segment_append_iff hopen] at hseg ⊢
    exact ⟨hbefore, segment_cons (not_or.2 hmark) hseg, hafter⟩

/-- A character that is put into the text of a template adds to the weight what it adds to the
source. -/
theorem weight_insert {t t' : Template} {a b : List Char} (ht : t.path.toList = a ++ b)
    (ht' : t'.path.toList = a ++ c :: b) (hq : '?' ∉ a) (hopen : Unmarked (openSegment a))
    (hc : isOrdinary c) : t'.weight = t.weight + (escapeMeta c).length := by
  obtain ⟨-, hquestion, hmark⟩ := isOrdinary_iff.1 hc
  have hm : ¬ IsMark c := not_or.2 hmark
  obtain ⟨before, seg, after, hab, hacb⟩ := exists_segments_insert hq hc b
  have hmarked : t'.hasQueryMarker = t.hasQueryMarker := by
    rw [Bool.eq_iff_iff, hasQueryMarker_iff, hasQueryMarker_iff,
      ← question_mem_writtenItems_iff t'.wellFormed, ← question_mem_writtenItems_iff t.wellFormed,
      ← toList_path, ← toList_path, ht, ht']
    simp [Ne.symm hquestion]
  have hmarks : mark? (c :: seg) = mark? seg :=
    mark?_append (unmarked_cons.2 ⟨hm, unmarked_nil⟩) seg
  have htext : textOf (c :: seg) = c :: textOf seg :=
    textOf_append (unmarked_cons.2 ⟨hm, unmarked_nil⟩) seg
  rw [weight_eq, weight_eq, hmarked, ht, ht', hab, hacb]
  simp only [weightOf, List.map_append, List.map_cons, List.flatMap_append, List.flatMap_cons,
    mark?_append hopen, textOf_append hopen, hmarks, htext, List.length_append]
  omega

def segmentsOf (s : String) : List (List Char) := (withoutLastQuery s.toList).splitOn '/'

def isMarked (s : String) : Bool := s.toList.getLast? == some '?'

theorem segmentsOf_path (t : Template) : segmentsOf t.path = segments t.path.toList := by
  rw [segmentsOf, segments, takeWhile_ne_question t.question_not_mem_dropLast_path]

theorem eq_of_map_outline_eq {t t' : Template}
    (h : (segments t'.path.toList).map outline = (segments t.path.toList).map outline)
    (hmarked : t'.hasQueryMarker = t.hasQueryMarker) :
    t'.source = t.source ∧ t'.weight = t.weight ∧ t'.specificity = t.specificity := by
  have hmarks := congrArg (List.map Prod.snd) h
  have htext := congrArg (List.flatMap Prod.fst) h
  rw [List.map_map, List.map_map] at hmarks
  rw [List.flatMap_map, List.flatMap_map] at htext
  refine ⟨?_, ?_, ?_⟩
  · rw [source, source, sourceChars, sourceChars, t'.items_eq, t.items_eq, hmarked,
      source_itemsOf_congr h]
  · rw [weight_eq, weight_eq, hmarked]
    exact congrArg₂ _ hmarks htext
  · have hne := segments_ne_nil t.path.toList
    have hne' := segments_ne_nil t'.path.toList
    rw [specificity, specificity, t'.items_eq, t.items_eq, hmarked, scores_itemsOf hne,
      scores_itemsOf hne']
    exact congrArg _ hmarks

theorem exists_ofPath_of_isTemplate {s : String} (h : IsTemplate s.toList) :
    ∃ t, ofPath s = .ok t := by
  cases hr : read s with
  | ok t => exact ⟨t, ofPath_eq_ok_iff.2 hr⟩
  | error v =>
    exact absurd h (leftmostViolation_of_scan (read_eq_error_iff.1 hr)).not_isTemplate

/-- All that is known of a template is read off its segments and whether `?` comes last: the names
of its captures, the scores, and the weight, which grows with every separator, every literal
character, every hole by its mark and by how its segment ends, and the query marker. So names do not
matter to the source, the weight and the specificity, and a character put into literal text makes a
template heavier. -/
theorem read_off_segments {s : String} {t : Template} (h : ofPath s = .ok t) :
    let segs := segmentsOf s
    let marks := segs.map mark?
    t.names = segs.filterMap segmentName? ++ (if isMarked s then [queryName] else []) ∧
    t.hasQueryMarker = isMarked s ∧
    t.specificity = marks.map markScore ∧
    t.weight = 3 + 2 * s.toList.count '/' + ((segs.flatMap textOf).flatMap escapeMeta).length
      + 9 * marks.dropLast.count (some ':')
      + (if marks.getLast? = some (some ':') then if isMarked s then 10 else 8 else 0)
      + 10 * marks.count (some '*') + (if isMarked s then 11 else 0) ∧
    (∀ s' t', ofPath s' = .ok t' → (segmentsOf s').map outline = segs.map outline →
      isMarked s' = isMarked s →
      t'.source = t.source ∧ t'.weight = t.weight ∧ t'.specificity = t.specificity) ∧
    ∀ a b c, s.toList = a ++ b → '?' ∉ a → Unmarked (openSegment a) → isOrdinary c →
      ∃ t', ofPath (String.ofList (a ++ c :: b)) = .ok t' ∧ t.weight < t'.weight := by
  obtain rfl := path_of_ofPath h
  have hne := segments_ne_nil t.path.toList
  have hmarked : isMarked t.path = t.hasQueryMarker := t.hasQueryMarker_eq.symm
  rw [hmarked, segmentsOf_path]
  refine ⟨?_, rfl, ?_, ?_, ?_, ?_⟩
  · rw [names, items_eq, captureNames_itemsOf hne]
  · rw [specificity, items_eq, scores_itemsOf hne]
  · rw [weight_eq, weightOf, List.length_map, length_segments t.question_not_mem_dropLast_path]
    omega
  · intro s' t' h' houtline hsame
    obtain rfl := path_of_ofPath h'
    rw [segmentsOf_path] at houtline
    exact eq_of_map_outline_eq houtline (t'.hasQueryMarker_eq.trans hsame)
  · intro a b c hs hq hopen hc
    have htemplate : IsTemplate (a ++ b) := by
      rw [← hs, toList_path]
      exact isTemplate_of_scan (scan_writtenItems t.wellFormed)
    obtain ⟨t', ht'⟩ := @exists_ofPath_of_isTemplate (String.ofList (a ++ c :: b))
      (by rw [String.toList_ofList]; exact isTemplate_insert htemplate hq hopen hc)
    have hpath : t'.path.toList = a ++ c :: b := by rw [path_of_ofPath ht', String.toList_ofList]
    have hlonger : 0 < (escapeMeta c).length := by
      rw [escapeMeta]
      split <;> exact Nat.succ_pos _
    refine ⟨t', ht', ?_⟩
    rw [weight_insert hs hpath hq hopen hc]
    omega

def mixed : Template :=
  ⟨[.separator, .literal 'v', .literal '.', .hole .param "id", .separator, .hole .wildcard "",
    .separator, .literal 'e', .hole .paramBeforeQuery "x", .query], by decide⟩

theorem read_off_segments_mixed :
    ofPath "/v.:id/*/e:x?" = .ok mixed ∧ mixed.names = ["id", "wildcard", "x", "query"] ∧
      mixed.hasQueryMarker ∧ mixed.specificity = [2, 1, 0, 1] ∧ mixed.weight = 53 ∧
      ∃ t', ofPath "/vv.:id/*/e:x?" = .ok t' ∧ mixed.weight < t'.weight := by
  have h : ofPath "/v.:id/*/e:x?" = .ok mixed := ofPath_path mixed
  obtain ⟨hnames, hmarker, hspecificity, hweight, -, hinsert⟩ := read_off_segments h
  obtain ⟨t', ht', hheavier⟩ :=
    hinsert ['/', 'v'] ['.', ':', 'i', 'd', '/', '*', '/', 'e', ':', 'x', '?'] 'v' rfl (by decide)
      (by decide +kernel) rfl
  refine ⟨h, ?_, ?_, ?_, ?_, t', ht', hheavier⟩
  · rw [hnames]
    decide +kernel
  · rw [hmarker]
    decide +kernel
  · rw [hspecificity]
    decide +kernel
  · rw [hweight]
    decide +kernel

end Template

end NamedRoutes
