import Mathlib.Data.List.Basic
import NamedRoutes.Template.Match
import NamedRoutes.Template.Source

/-!
# Reading the source of a template

The source of a template is read back, from left to right and in only one way, into its items
without the names of the holes. Its capturing groups are the captures of the template, ordinal by
ordinal, whatever the literal characters would mean elsewhere in a regular expression. So the source
alone tells which paths match, and what each ordinal captures of them.
-/
namespace NamedRoutes

def Item.unnamed : Item → Item
  | hole kind _ => hole kind ""
  | item => item

/-- What its group holds and what it is called, if the item is a capture. -/
def Item.capture? : Item → Option (List Char × String)
  | hole kind name => some (kind.source.tail.dropLast, knownAs name)
  | query => some (['.', '*'], queryName)
  | _ => none

namespace Template

variable {items : List Item} {item : Item} {s rest : List Char}

def sourceText (items : List Item) : List Char := '^' :: (items.flatMap Item.source ++ ['$'])

def readEscaped? : List Char → Option (Item × List Char)
  | [] => none
  | c :: s =>
    if c = '/' then some (.separator, s)
    else if isMeta c then some (.literal c, s) else none

def groupItems : List Item :=
  [.hole .param "", .hole .paramBeforeQuery "", .hole .wildcard "", .query]

def readGroup? (s : List Char) : Option (Item × List Char) :=
  groupItems.findSome? fun item => (item.source.isPrefixOf? s).map (item, ·)

/-- The item at the beginning of a text, and what follows it. -/
def readItem? : List Char → Option (Item × List Char)
  | [] => none
  | c :: s =>
    if c = '\\' then readEscaped? s
    else if c = '(' then readGroup? (c :: s)
    else if isMeta c ∨ c = '/' then none else some (.literal c, s)

/-- An item as it is read: without a name, and no literal character that would be a separator. -/
def IsRead (item : Item) : Prop := item.unnamed = item ∧ item ≠ .literal '/'

instance (item : Item) : Decidable (IsRead item) :=
  inferInstanceAs (Decidable (item.unnamed = item ∧ item ≠ .literal '/'))

theorem readEscaped?_sound (h : readEscaped? s = some (item, rest)) :
    '\\' :: s = item.source ++ rest ∧ IsRead item := by
  cases s with
  | nil => cases h
  | cons c s =>
    rw [readEscaped?] at h
    split at h
    · next hc =>
      cases h
      exact ⟨by rw [hc]; rfl, rfl, by simp⟩
    · next hc =>
      split at h
      · next hm =>
        cases h
        exact ⟨by simp [Item.source, escapeMeta, hm], rfl, by simpa using hc⟩
      · cases h

theorem readGroup?_sound (h : readGroup? s = some (item, rest)) :
    s = item.source ++ rest ∧ IsRead item := by
  have hread : ∀ item ∈ groupItems, IsRead item := by decide
  obtain ⟨found, hmem, hfound⟩ := List.exists_of_findSome?_eq_some h
  obtain ⟨rest', hrest, he⟩ := Option.map_eq_some_iff.1 hfound
  cases he
  exact ⟨(List.isPrefixOf?_eq_some_iff_append_eq.1 hrest).symm, hread _ hmem⟩

theorem readItem?_sound (h : readItem? s = some (item, rest)) :
    s = item.source ++ rest ∧ IsRead item := by
  cases s with
  | nil => cases h
  | cons c s =>
    rw [readItem?] at h
    split at h
    · next hc => exact hc ▸ readEscaped?_sound h
    · split at h
      · exact readGroup?_sound h
      · split at h
        · cases h
        · next hc =>
          cases h
          rw [not_or] at hc
          exact ⟨by simp [Item.source, escapeMeta, hc.1], rfl, by simpa using hc.2⟩

theorem readGroup?_source (kind : Hole) (s : List Char) :
    readGroup? (kind.source ++ s) = some (.hole kind "", s) := by
  cases kind <;> rfl

theorem readGroup?_query (s : List Char) :
    readGroup? (Item.query.source ++ s) = some (.query, s) := rfl

theorem readItem?_source (h : item.unnamed ≠ .literal '/') (s : List Char) :
    readItem? (item.source ++ s) = some (item.unnamed, s) := by
  cases item with
  | separator => rfl
  | literal c =>
    have hc : c ≠ '/' := by simpa [Item.unnamed] using h
    by_cases hm : isMeta c
    · rw [Item.source, escapeMeta, if_pos hm]
      change readEscaped? (c :: s) = _
      rw [readEscaped?, if_neg hc, if_pos hm]
      rfl
    · have hback : c ≠ '\\' := by
        rintro rfl
        exact hm (by decide)
      have hopen : c ≠ '(' := by
        rintro rfl
        exact hm (by decide)
      rw [Item.source, escapeMeta, if_neg hm, List.singleton_append, readItem?, if_neg hback,
        if_neg hopen, if_neg (by simp [hm, hc])]
      rfl
  | hole kind name =>
    have hopen : readItem? (kind.source ++ s) = readGroup? (kind.source ++ s) := by
      cases kind <;> rfl
    exact hopen.trans (readGroup?_source kind s)
  | query => exact readGroup?_query s

theorem source_ne_nil (item : Item) : item.source ≠ [] := by
  cases item with
  | literal c =>
    rw [Item.source, escapeMeta]
    split <;> simp
  | hole kind name => cases kind <;> simp [Item.source, Hole.source]
  | _ => simp [Item.source]

theorem length_lt_of_readItem? (h : readItem? s = some (item, rest)) :
    rest.length < s.length := by
  rw [(readItem?_sound h).1, List.length_append]
  exact Nat.lt_add_of_pos_left (List.length_pos_iff.2 (source_ne_nil item))

def readItems? (s : List Char) : Option (List Item) :=
  if s = ['$'] then some []
  else
    match _h : readItem? s with
    | none => none
    | some (item, rest) => (readItems? rest).map (item :: ·)
termination_by s.length
decreasing_by exact length_lt_of_readItem? _h

def readSource? : List Char → Option (List Item)
  | [] => none
  | c :: s => if c = '^' then readItems? s else none

theorem readItem?_end : readItem? ['$'] = none := by decide

theorem readItems?_of_readItem? (h : readItem? s = some (item, rest)) :
    readItems? s = (readItems? rest).map (item :: ·) := by
  have hs : s ≠ ['$'] := by
    rintro rfl
    rw [readItem?_end] at h
    cases h
  rw [readItems?, if_neg hs]
  split
  · next hnone =>
    rw [h] at hnone
    cases hnone
  · next hsome =>
    rw [h] at hsome
    cases hsome
    rfl

theorem readItems?_source (h : ∀ item ∈ items, item.unnamed ≠ .literal '/') :
    readItems? (items.flatMap Item.source ++ ['$']) = some (items.map Item.unnamed) := by
  induction items with
  | nil =>
    rw [readItems?]
    rfl
  | cons item rest ih =>
    obtain ⟨hitem, hrest⟩ := List.forall_mem_cons.1 h
    rw [List.flatMap_cons, List.append_assoc, readItems?_of_readItem? (readItem?_source hitem _),
      ih hrest]
    rfl

theorem readItems?_sound (h : readItems? s = some items) :
    s = items.flatMap Item.source ++ ['$'] ∧ ∀ item ∈ items, IsRead item := by
  fun_induction readItems? s generalizing items with
  | case1 =>
    cases h
    exact ⟨rfl, by simp⟩
  | case2 => cases h
  | case3 s _ item rest hitem ih =>
    obtain ⟨items, hrest, rfl⟩ := Option.map_eq_some_iff.1 h
    obtain ⟨hs, hread⟩ := readItem?_sound hitem
    obtain ⟨hrest, hreads⟩ := ih hrest
    refine ⟨?_, List.forall_mem_cons.2 ⟨hread, hreads⟩⟩
    rw [hs, hrest, List.flatMap_cons, List.append_assoc]

theorem readSource?_sourceText (h : ∀ item ∈ items, item.unnamed ≠ .literal '/') :
    readSource? (sourceText items) = some (items.map Item.unnamed) := by
  rw [sourceText, readSource?, if_pos rfl, readItems?_source h]

theorem readSource?_eq_some_iff :
    readSource? s = some items ↔ s = sourceText items ∧ ∀ item ∈ items, IsRead item := by
  constructor
  · intro h
    cases s with
    | nil => cases h
    | cons c s =>
      rw [readSource?] at h
      split at h
      · next hc =>
        obtain ⟨hs, hread⟩ := readItems?_sound h
        exact ⟨by rw [hc, hs]; rfl, hread⟩
      · cases h
  · rintro ⟨rfl, hread⟩
    have hunnamed : items.map Item.unnamed = items :=
      (List.map_congr_left fun item hitem => (hread item hitem).1).trans (List.map_id' items)
    rw [readSource?_sourceText, hunnamed]
    intro item hitem
    rw [(hread item hitem).1]
    exact (hread item hitem).2

/-- What a group holds, up to the parenthesis that closes it. The flag tells that the first
character is escaped. -/
def groupText : Bool → List Char → List Char
  | _, [] => []
  | true, c :: s => c :: groupText false s
  | false, c :: s => if c = ')' then [] else c :: groupText (c == '\\') s

/-- What the capturing groups of a regular expression hold, in the order in which they open. A group
opens at a parenthesis that is not escaped, and captures unless a question mark follows. -/
def capturingGroups : Bool → List Char → List (List Char)
  | _, [] => []
  | true, _ :: s => capturingGroups false s
  | false, c :: s =>
    if c = '(' ∧ s.head? ≠ some '?' then groupText false s :: capturingGroups false s
    else capturingGroups (c == '\\') s

theorem capturingGroups_cons {c : Char} (h : c ≠ '(') (s : List Char) :
    capturingGroups false (c :: s) = capturingGroups (c == '\\') s := by
  rw [capturingGroups, if_neg fun hc => h hc.1]

theorem capturingGroups_source (item : Item) (s : List Char) :
    capturingGroups false (item.source ++ s) =
      (item.capture?.map Prod.fst).toList ++ capturingGroups false s := by
  cases item with
  | separator => rfl
  | literal c =>
    rw [Item.source, escapeMeta]
    split
    · exact capturingGroups_cons (by decide) (c :: s)
    · next hm =>
      have hback : (c == '\\') = false := by
        rw [beq_eq_false_iff_ne]
        rintro rfl
        exact hm (by decide)
      have hopen : c ≠ '(' := by
        rintro rfl
        exact hm (by decide)
      rw [List.singleton_append, capturingGroups_cons hopen, hback]
      rfl
  | hole kind name => cases kind <;> rfl
  | query => rfl

theorem capturingGroups_sourceText (items : List Item) :
    capturingGroups false (sourceText items) = (items.filterMap Item.capture?).map Prod.fst := by
  have hitems : capturingGroups false (items.flatMap Item.source ++ ['$']) =
      (items.filterMap Item.capture?).map Prod.fst := by
    induction items with
    | nil => rfl
    | cons item rest ih =>
      rw [List.flatMap_cons, List.append_assoc, capturingGroups_source, ih, List.filterMap_cons]
      cases item.capture? <;> rfl
  rw [sourceText, capturingGroups_cons (by decide)]
  exact hitems

/-- The names of the captures by ordinal, the first of which is one. -/
def paramMap (t : Template) : List (Nat × String) := t.names.zipIdx.map fun e => (e.2 + 1, e.1)

theorem captureNames_eq (items : List Item) :
    captureNames items = (items.filterMap Item.capture?).map Prod.snd := by
  rw [captureNames, List.map_filterMap]
  congr 1
  funext item
  cases item <;> rfl

theorem fst_paramMap (t : Template) :
    t.paramMap.map Prod.fst = List.range' 1 t.names.length := by
  apply List.ext_getElem <;> simp [paramMap, Nat.add_comm]

theorem getElem?_paramMap (t : Template) (i : Nat) :
    t.paramMap[i]? = ((t.items.filterMap Item.capture?)[i]?).map fun e => (i + 1, e.2) := by
  rw [paramMap, names, captureNames_eq]
  simp [List.getElem?_zipIdx, Function.comp_def]

/-- A parenthesis of a literal opens no group. -/
example :
    capturingGroups false (sourceText [.literal '(', .literal ')', .query]) = [['.', '*']] := by
  decide

theorem captures?_unnamed (items : List Item) :
    captures? (items.map Item.unnamed) = captures? items := by
  induction items with
  | nil => rfl
  | cons item rest ih =>
    funext s
    cases item with
    | query => simp only [List.map_cons, Item.unnamed, captures?, ih]
    | hole kind name => simp only [List.map_cons, Item.unnamed, captures?, ih]
    | _ => cases s <;> simp only [List.map_cons, Item.unnamed, captures?, ih]

theorem unnamed_ne_slash (t : Template) : ∀ item ∈ t.items, item.unnamed ≠ .literal '/' := by
  obtain ⟨items, hw⟩ := t
  change ∀ item ∈ items, _
  induction items with
  | nil => simp
  | cons item rest ih =>
    refine List.forall_mem_cons.2 ⟨?_, ih hw.tail⟩
    cases item with
    | literal c => simpa [Item.unnamed] using (isOrdinary_iff.1 hw.1).1
    | _ => simp [Item.unnamed]

theorem toList_source (t : Template) : t.source.toList = sourceText t.items :=
  String.toList_ofList

/-- The source of a template is read as its items without names, and it is the source of no other
items without names. It has one capturing group for each capture of the template, in their order:
the `i`-th is what the `i`-th capture is written as, and the ordinals count them from one. Templates
with the same source match the same paths, and every ordinal captures the same text. -/
theorem source_readable (t : Template) :
    readSource? t.source.toList = some (t.items.map Item.unnamed) ∧
    (∀ items, (∀ item ∈ items, IsRead item) → sourceText items = t.source.toList →
      items = t.items.map Item.unnamed) ∧
    (t.paramMap.map Prod.fst =
        List.range' 1 (capturingGroups false t.source.toList).length ∧
      ∀ i : Nat, (capturingGroups false t.source.toList)[i]? =
          ((t.items.filterMap Item.capture?)[i]?).map Prod.fst ∧
        t.paramMap[i]? = ((t.items.filterMap Item.capture?)[i]?).map fun e => (i + 1, e.2)) ∧
    ∀ t' : Template, t'.source = t.source → ∀ path : String,
      captures? t'.items path.toList = captures? t.items path.toList ∧
        ((t'.match? path).isSome ↔ (t.match? path).isSome) := by
  have hread : ∀ t : Template, readSource? t.source.toList = some (t.items.map Item.unnamed) := by
    intro t
    rw [toList_source, readSource?_sourceText (unnamed_ne_slash t)]
  refine ⟨hread t, ?_, ⟨?_, ?_⟩, ?_⟩
  · intro items hitems hsource
    have h := readSource?_eq_some_iff.2 ⟨hsource.symm, hitems⟩
    rw [hread t] at h
    exact (Option.some.inj h).symm
  · rw [fst_paramMap, toList_source, capturingGroups_sourceText, names, captureNames_eq,
      List.length_map, List.length_map]
  · intro i
    rw [toList_source, capturingGroups_sourceText, List.getElem?_map, getElem?_paramMap]
    exact ⟨rfl, rfl⟩
  · intro t' hsource path
    have hitems : t'.items.map Item.unnamed = t.items.map Item.unnamed := by
      have h := hread t'
      rw [hsource, hread t] at h
      exact (Option.some.inj h).symm
    have hcaptures : captures? t'.items path.toList = captures? t.items path.toList := by
      rw [← captures?_unnamed, hitems, captures?_unnamed]
    refine ⟨hcaptures, ?_⟩
    rw [match?, match?, Option.isSome_map, Option.isSome_map, hcaptures]

end Template

end NamedRoutes
