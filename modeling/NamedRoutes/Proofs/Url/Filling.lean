import Mathlib.Logic.Function.Basic
import NamedRoutes.Proofs.Url.Placeholder

/-!
# Filling the holes of a template

The text of a path under construction is again that of a template, some of whose holes are filled.
As long as what is filled in holds no placeholder of a parameter that comes later, the placeholders
left are those of the holes left, and a parameter fills the first hole of its name or none. Giving
the parameters one after another then amounts to giving them all at once.
-/
namespace NamedRoutes

namespace Template

/-- The path of items where every name that has a text gives it to the first hole that goes by the
name, and every other hole stays as it is written. A query marker is not part of the path. -/
def fillHoles : (String → Option (List Char)) → List Item → List Char
  | _, [] => []
  | texts, .hole kind name :: rest =>
    match texts (knownAs name) with
    | some text => text ++ fillHoles (Function.update texts (knownAs name) none) rest
    | none => kind.marker :: (name.toList ++ fillHoles texts rest)
  | texts, .query :: rest => fillHoles texts rest
  | texts, .separator :: rest => '/' :: fillHoles texts rest
  | texts, .literal c :: rest => c :: fillHoles texts rest

def holeNames : List Item → List String
  | [] => []
  | .hole _ name :: rest => knownAs name :: holeNames rest
  | .separator :: rest | .literal _ :: rest | .query :: rest => holeNames rest

theorem mem_holeNames_iff {n : String} {items : List Item} :
    n ∈ holeNames items ↔ ∃ kind name, .hole kind name ∈ items ∧ knownAs name = n := by
  induction items with
  | nil => simp [holeNames]
  | cons item rest ih =>
    cases item with
    | separator => simp [holeNames, ih]
    | literal c => simp [holeNames, ih]
    | query => simp [holeNames, ih]
    | hole kind name =>
      rw [holeNames, List.mem_cons, ih]
      constructor
      · rintro (rfl | ⟨k, m, hm, he⟩)
        · exact ⟨kind, name, List.mem_cons_self, rfl⟩
        · exact ⟨k, m, List.mem_cons_of_mem _ hm, he⟩
      · rintro ⟨k, m, hm, rfl⟩
        rcases List.mem_cons.1 hm with he | hm
        · cases he
          exact Or.inl rfl
        · exact Or.inr ⟨k, m, hm, rfl⟩

variable {texts : String → Option (List Char)} {items : List Item}

theorem fillHoles_hole_some {kind : Hole} {name : String} {text : List Char} {rest : List Item}
    (h : texts (knownAs name) = some text) :
    fillHoles texts (.hole kind name :: rest) =
      text ++ fillHoles (Function.update texts (knownAs name) none) rest := by
  rw [fillHoles, h]

theorem fillHoles_hole_none {kind : Hole} {name : String} {rest : List Item}
    (h : texts (knownAs name) = none) :
    fillHoles texts (.hole kind name :: rest) =
      kind.marker :: (name.toList ++ fillHoles texts rest) := by
  rw [fillHoles, h]

theorem fillHoles_congr {texts' : String → Option (List Char)}
    (h : ∀ n ∈ holeNames items, texts n = texts' n) :
    fillHoles texts items = fillHoles texts' items := by
  induction items generalizing texts texts' with
  | nil => rfl
  | cons item rest ih =>
    cases item with
    | hole kind name =>
      obtain ⟨hhead, hrest⟩ := List.forall_mem_cons.1 h
      cases ht : texts (knownAs name) with
      | none =>
        rw [fillHoles_hole_none ht, fillHoles_hole_none (hhead ▸ ht), ih hrest]
      | some text =>
        rw [fillHoles_hole_some ht, fillHoles_hole_some (hhead ▸ ht)]
        congr 1
        apply ih
        intro n hn
        by_cases he : n = knownAs name
        · simp [he]
        · simp [he, hrest n hn]
    | separator => simp only [fillHoles, ih h]
    | literal c => simp only [fillHoles, ih h]
    | query => simp only [fillHoles, ih h]

theorem head?_fillHoles {kind : Hole} (hw : Item.WellFormed items)
    (h : items.head? ∈ kind.followers) :
    (fillHoles texts items).head? ∈ [none, some '/'] := by
  cases items with
  | nil => simp [fillHoles]
  | cons item rest =>
    cases item with
    | separator => simp [fillHoles]
    | literal c => cases kind <;> simp [Hole.followers] at h
    | hole k name => cases kind <;> simp [Hole.followers] at h
    | query => simp [fillHoles, Item.wellFormed_query.1 hw]

/-- Nothing that is filled in holds a placeholder of the key. -/
def Clean (key : List Char) (texts : String → Option (List Char)) (items : List Item) : Prop :=
  ∀ n ∈ holeNames items, ∀ text, texts n = some text → Lacks key text

theorem Clean.update_none {key : List Char} {kind : Hole} {name : String} {rest : List Item}
    (h : Clean key texts (.hole kind name :: rest)) (m : String) :
    Clean key (Function.update texts m none) rest := by
  intro n hn text ht
  by_cases he : n = m
  · simp [he] at ht
  · rw [Function.update_of_ne he] at ht
    exact h n (List.mem_cons_of_mem _ hn) text ht

theorem Clean.update_some {key : List Char} {m : String} {text : List Char}
    (h : Clean key texts items) (htext : Lacks key text) :
    Clean key (Function.update texts m (some text)) items := by
  intro n hn run ht
  by_cases he : n = m
  · rw [he, Function.update_self] at ht
    exact Option.some.inj ht ▸ htext
  · rw [Function.update_of_ne he] at ht
    exact h n hn run ht

/-- The key takes no hole for its own but those that go by it. -/
def RespectsAll (key : List Char) (items : List Item) : Prop :=
  ∀ kind name, .hole kind name ∈ items → Respects key name.toList

theorem RespectsAll.tail {key : List Char} {item : Item} {rest : List Item}
    (h : RespectsAll key (item :: rest)) : RespectsAll key rest :=
  fun kind name hm => h kind name (List.mem_cons_of_mem _ hm)

/-- One parameter fills the first hole that goes by its name, as if its text had been given from the
beginning. -/
theorem fill?_fillHoles {key : String} (text : List Char) (hw : Item.WellFormed items)
    (hkey : RespectsAll key.toList items) (hclean : Clean key.toList texts items)
    (hfree : texts key = none) :
    fill? key.toList text (fillHoles texts items) =
      if key ∈ holeNames items then
        some (fillHoles (Function.update texts key (some text)) items)
      else none := by
  induction items generalizing texts with
  | nil => simp [fillHoles, fill?, holeNames]
  | cons item rest ih =>
    cases item with
    | separator =>
      have hs : ¬ IsMark '/' := by simp [IsMark]
      rw [fillHoles, fill?_cons_of_not_isMark hs, ih hw.tail hkey.tail hclean hfree]
      by_cases hm : key ∈ holeNames rest <;> simp [holeNames, fillHoles, hm]
    | literal c =>
      have hs : ¬ IsMark c := not_or.2 (isOrdinary_iff.1 hw.1).2.2
      rw [fillHoles, fill?_cons_of_not_isMark hs, ih hw.tail hkey.tail hclean hfree]
      by_cases hm : key ∈ holeNames rest <;> simp [holeNames, fillHoles, hm]
    | query => exact ih hw.tail hkey.tail hclean hfree
    | hole kind name =>
      obtain ⟨⟨hname, hnext⟩, hrest⟩ := Item.wellFormed_hole.1 hw
      cases ht : texts (knownAs name) with
      | some s =>
        have hne : key ≠ knownAs name := by
          rintro rfl
          rw [hfree] at ht
          cases ht
        have hs : Lacks key.toList s := hclean _ List.mem_cons_self _ ht
        have ht' : Function.update texts key (some text) (knownAs name) = some s := by
          rw [Function.update_of_ne hne.symm, ht]
        have hfree' : Function.update texts (knownAs name) none key = none := by
          rw [Function.update_of_ne hne, hfree]
        rw [fillHoles_hole_some ht, fillHoles_hole_some ht',
          fill?_append text (head?_fillHoles hrest hnext) hs,
          ih hrest hkey.tail (hclean.update_none _) hfree', Function.update_comm hne]
        by_cases hm : key ∈ holeNames rest <;> simp [holeNames, hne, hm]
      | none =>
        have hclean' : Clean key.toList texts rest :=
          fun n hn => hclean n (List.mem_cons_of_mem _ hn)
        rw [fillHoles_hole_none ht, fill?_hole hname (hkey kind name List.mem_cons_self)
          (head?_fillHoles hrest hnext)]
        by_cases hk : key = knownAs name
        · subst hk
          have hm : knownAs name ∈ holeNames (.hole kind name :: rest) := List.mem_cons_self
          rw [if_pos rfl, if_pos hm, fillHoles_hole_some (Function.update_self _ _ _),
            Function.update_idem, Function.update_eq_self_iff.2 ht.symm]
        · have ht' : Function.update texts key (some text) (knownAs name) = none := by
            rw [Function.update_of_ne (Ne.symm hk), ht]
          rw [if_neg hk, ih hrest hkey.tail hclean' hfree, fillHoles_hole_none ht']
          by_cases hm : key ∈ holeNames rest <;> simp [holeNames, hk, hm]

/-- What the parameters give to the holes of each name. The verbatim query gives nothing. -/
def textsOf (marked : Bool) (es : List (String × Value)) (n : String) : Option (List Char) :=
  if marked ∧ n = queryName then none else (es.lookup n).map Value.inUrl

def verbatim (marked : Bool) (es : List (String × Value)) : List (List Char) :=
  match es.lookup queryName with
  | some value => if marked ∧ value.isTruthy then [value.plain] else []
  | none => []

def leftOver (marked : Bool) (items : List Item) (es : List (String × Value)) :
    List (List Char) :=
  (es.filter fun e => ¬ (marked ∧ e.1 = queryName) ∧ e.1 ∉ holeNames items).map fun e =>
    UrlDraft.pair e.1 e.2

theorem give_fillHoles (marked : Bool) (q : List (List Char)) {key : String} (value : Value)
    (hw : Item.WellFormed items)
    (hkey : ¬ (marked ∧ key = queryName) → RespectsAll key.toList items)
    (hclean : ¬ (marked ∧ key = queryName) → Clean key.toList texts items)
    (hfree : texts key = none) :
    UrlDraft.give marked ⟨fillHoles texts items, q⟩ key value =
      if marked ∧ key = queryName then
        ⟨fillHoles texts items, if value.isTruthy then value.plain :: q else q⟩
      else if key ∈ holeNames items then
        ⟨fillHoles (Function.update texts key (some value.inUrl)) items, q⟩
      else ⟨fillHoles texts items, q ++ [UrlDraft.pair key value]⟩ := by
  rw [UrlDraft.give]
  by_cases hq : marked ∧ key = queryName
  · rw [if_pos hq, if_pos hq]
    split <;> rfl
  · rw [if_neg hq, if_neg hq, fill?_fillHoles value.inUrl hw (hkey hq) (hclean hq) hfree]
    by_cases hm : key ∈ holeNames items <;> simp [hm]

theorem lookup_cons_of_ne {α : Type} {e : String × α} {es : List (String × α)} {n : String}
    (h : n ≠ e.1) : (e :: es).lookup n = es.lookup n := by
  have h' : (n == e.1) = false := by simpa using h
  obtain ⟨k, v⟩ := e
  rw [List.lookup_cons, h']

theorem textsOf_cons_of_ne {marked : Bool} {e : String × Value} {es : List (String × Value)}
    {n : String} (h : n ≠ e.1) : textsOf marked (e :: es) n = textsOf marked es n := by
  rw [textsOf, textsOf, lookup_cons_of_ne h]

theorem textsOf_cons_query {marked : Bool} {e : String × Value} (es : List (String × Value))
    (h : marked ∧ e.1 = queryName) : textsOf marked (e :: es) = textsOf marked es := by
  funext n
  by_cases he : n = e.1
  · rw [textsOf, textsOf, he, if_pos h, if_pos h]
  · exact textsOf_cons_of_ne he

theorem textsOf_cons_or {marked : Bool} {e : String × Value} {es : List (String × Value)}
    (hq : ¬ (marked ∧ e.1 = queryName)) (he : es.lookup e.1 = none) (n : String) :
    (textsOf marked (e :: es) n).or (texts n) =
      (textsOf marked es n).or (Function.update texts e.1 (some e.2.inUrl) n) := by
  by_cases hn : n = e.1
  · subst hn
    have hfirst : (e :: es).lookup e.1 = some e.2 := List.lookup_cons_self
    simp [textsOf, hq, he, hfirst]
  · rw [textsOf_cons_of_ne hn, Function.update_of_ne hn]

theorem verbatim_cons_of_not {marked : Bool} {e : String × Value} (es : List (String × Value))
    (h : ¬ (marked ∧ e.1 = queryName)) : verbatim marked (e :: es) = verbatim marked es := by
  by_cases he : e.1 = queryName
  · have hm : marked = false := by simpa [he] using h
    simp only [verbatim, hm, Bool.false_eq_true, false_and, if_false]
    split <;> split <;> rfl
  · rw [verbatim, lookup_cons_of_ne (Ne.symm he), verbatim]

theorem verbatim_of_lookup {marked : Bool} {es : List (String × Value)}
    (h : es.lookup queryName = none) : verbatim marked es = [] := by
  rw [verbatim, h]

theorem verbatim_cons_query {marked : Bool} {e : String × Value} (es : List (String × Value))
    (h : marked ∧ e.1 = queryName) :
    verbatim marked (e :: es) = if e.2.isTruthy then [e.2.plain] else [] := by
  rw [verbatim, ← h.2, List.lookup_cons_self]
  simp [h.1]

theorem leftOver_cons_query {marked : Bool} (items : List Item) {e : String × Value}
    (es : List (String × Value)) (h : marked ∧ e.1 = queryName) :
    leftOver marked items (e :: es) = leftOver marked items es := by
  rw [leftOver, List.filter_cons_of_neg (by simp [h]), leftOver]

theorem leftOver_cons_hole {marked : Bool} {e : String × Value} (es : List (String × Value))
    (h : e.1 ∈ holeNames items) : leftOver marked items (e :: es) = leftOver marked items es := by
  rw [leftOver, List.filter_cons_of_neg (by simp [h]), leftOver]

theorem leftOver_cons_pair {marked : Bool} {e : String × Value} (es : List (String × Value))
    (hq : ¬ (marked ∧ e.1 = queryName)) (h : e.1 ∉ holeNames items) :
    leftOver marked items (e :: es) = UrlDraft.pair e.1 e.2 :: leftOver marked items es := by
  rw [leftOver, List.filter_cons_of_pos (by simp [h, hq]), List.map_cons, leftOver]

/-- No two parameters contend for a placeholder. None takes a hole that goes by another name, and
what one puts into a hole holds no placeholder of another. The verbatim query replaces nothing. -/
structure Uncontested (marked : Bool) (items : List Item) (es : List (String × Value)) : Prop where
  respects : ∀ e ∈ es, ¬ (marked ∧ e.1 = queryName) → RespectsAll e.1.toList items
  lacks : ∀ e ∈ es, ∀ f ∈ es, e.1 ∈ holeNames items → f.1 ≠ e.1 →
    ¬ (marked ∧ e.1 = queryName) → ¬ (marked ∧ f.1 = queryName) → Lacks f.1.toList e.2.inUrl

theorem Uncontested.tail {marked : Bool} {e : String × Value} {es : List (String × Value)}
    (h : Uncontested marked items (e :: es)) : Uncontested marked items es :=
  ⟨fun e he => h.respects e (List.mem_cons_of_mem _ he), fun e he f hf =>
    h.lacks e (List.mem_cons_of_mem _ he) f (List.mem_cons_of_mem _ hf)⟩

/-- All parameters given in turn are as good as given at once. -/
theorem giveAll_fillHoles (marked : Bool) (q : List (List Char)) {es : List (String × Value)}
    (hw : Item.WellFormed items) (hd : (es.map Prod.fst).Nodup)
    (hes : Uncontested marked items es)
    (hclean : ∀ e ∈ es, ¬ (marked ∧ e.1 = queryName) → Clean e.1.toList texts items)
    (hfree : ∀ e ∈ es, texts e.1 = none) :
    UrlDraft.giveAll marked ⟨fillHoles texts items, q⟩ es =
      ⟨fillHoles (fun n => (textsOf marked es n).or (texts n)) items,
        verbatim marked es ++ q ++ leftOver marked items es⟩ := by
  induction es generalizing texts q with
  | nil => simp [textsOf, verbatim, leftOver]
  | cons e rest ih =>
    obtain ⟨hnew, hd⟩ := List.nodup_cons.1 hd
    obtain ⟨hclean₀, hclean⟩ := List.forall_mem_cons.1 hclean
    obtain ⟨hfree₀, hfree⟩ := List.forall_mem_cons.1 hfree
    have hne : ∀ f ∈ rest, f.1 ≠ e.1 := fun f hf he => hnew (he ▸ List.mem_map_of_mem hf)
    have hlookup : rest.lookup e.1 = none := OrderedMap.lookup_eq_none hnew
    rw [UrlDraft.giveAll_cons,
      give_fillHoles marked q e.2 hw (hes.respects e List.mem_cons_self) hclean₀ hfree₀]
    by_cases hq : marked ∧ e.1 = queryName
    · rw [if_pos hq, ih _ hd hes.tail hclean hfree, textsOf_cons_query rest hq,
        leftOver_cons_query items rest hq, verbatim_cons_query rest hq,
        verbatim_of_lookup (hq.2 ▸ hlookup)]
      split <;> simp
    · rw [if_neg hq, verbatim_cons_of_not rest hq]
      by_cases hm : e.1 ∈ holeNames items
      · have hclean' : ∀ f ∈ rest, ¬ (marked ∧ f.1 = queryName) →
            Clean f.1.toList (Function.update texts e.1 (some e.2.inUrl)) items :=
          fun f hf hqf => (hclean f hf hqf).update_some (hes.lacks e List.mem_cons_self f
            (List.mem_cons_of_mem _ hf) hm (hne f hf) hq hqf)
        have hfree' : ∀ f ∈ rest, Function.update texts e.1 (some e.2.inUrl) f.1 = none := by
          intro f hf
          rw [Function.update_of_ne (hne f hf), hfree f hf]
        rw [if_pos hm, ih _ hd hes.tail hclean' hfree', leftOver_cons_hole rest hm,
          funext (textsOf_cons_or hq hlookup)]
      · have htexts : ∀ n ∈ holeNames items, (textsOf marked (e :: rest) n).or (texts n) =
            (textsOf marked rest n).or (texts n) := by
          intro n hn
          rw [textsOf_cons_of_ne (ne_of_mem_of_not_mem hn hm)]
        rw [if_neg hm, ih _ hd hes.tail hclean hfree, leftOver_cons_pair rest hq hm,
          fillHoles_congr htexts]
        simp

theorem getLast?_eq_query_iff (hw : Item.WellFormed items) :
    items.getLast? = some .query ↔ .query ∈ items := by
  refine ⟨List.mem_of_getLast?, fun h => ?_⟩
  induction items with
  | nil => cases h
  | cons item rest ih =>
    rcases List.mem_cons.1 h with rfl | h
    · rw [Item.wellFormed_query.1 hw]
      rfl
    · have hne : rest ≠ [] := List.ne_nil_of_mem h
      rw [List.getLast?_cons_of_ne_nil hne]
      exact ih hw.tail h

theorem hasQueryMarker_iff (t : Template) : t.hasQueryMarker ↔ .query ∈ t.items := by
  rw [hasQueryMarker, beq_iff_eq, getLast?_eq_query_iff t.wellFormed]

theorem writtenItems_eq_fillHoles (hw : Item.WellFormed items) :
    writtenItems items =
      fillHoles (fun _ => none) items ++ if .query ∈ items then ['?'] else [] := by
  induction items with
  | nil => rfl
  | cons item rest ih =>
    rw [writtenItems_cons]
    cases item with
    | separator => simp [fillHoles, Item.written, ih hw.tail]
    | literal c => simp [fillHoles, Item.written, ih hw.tail]
    | hole kind name => simp [fillHoles, Item.written, ih hw.tail]
    | query => simp [fillHoles, Item.written, Item.wellFormed_query.1 hw]

theorem basePath_eq_fillHoles (t : Template) :
    t.basePath = fillHoles (fun _ => none) t.items := by
  rw [basePath, writtenItems_eq_fillHoles t.wellFormed]
  by_cases h : .query ∈ t.items
  · rw [if_pos ((hasQueryMarker_iff t).2 h), if_pos h, List.dropLast_concat]
  · rw [if_neg (mt (hasQueryMarker_iff t).1 h), if_neg h, List.append_nil]

def queryParts (t : Template) (params : Params) : List (List Char) :=
  verbatim t.hasQueryMarker params.entries ++ leftOver t.hasQueryMarker t.items params.entries

/-- The path of the URL has all holes filled at once, and what fills none makes up the query. -/
theorem urlDraft_of_uncontested {t : Template} {params : Params}
    (h : Uncontested t.hasQueryMarker t.items params.entries) :
    t.urlDraft params =
      ⟨fillHoles (textsOf t.hasQueryMarker params.entries) t.items, t.queryParts params⟩ := by
  rw [urlDraft, basePath_eq_fillHoles,
    giveAll_fillHoles t.hasQueryMarker [] t.wellFormed params.distinct h (by simp [Clean])
      (by simp)]
  simp [queryParts]

theorem endsOpen_of_knownAs {name : String} (h : EndsOpen (knownAs name).toList) :
    EndsOpen name.toList := by
  by_cases hn : name = ""
  · simp [hn, EndsOpen]
  · rwa [knownAs, if_neg hn] at h

theorem respects_of_isKey {key : String} {name : List Char} (hkey : IsKey key)
    (hname : EndsOpen name) : Respects key.toList name := by
  refine ⟨fun h => hname (by simp [h]), ?_⟩
  rintro (h | h)
  · exact absurd h hkey.1
  · exact absurd rfl (isOrdinary_iff.1 (hkey.2 _ h)).1

theorem urlDraft_eq (t : Template) (params : Params)
    (hn : ∀ n ∈ holeNames t.items, EndsOpen n.toList) (hkeys : ∀ key ∈ params.keys, IsKey key)
    (hvalues : ∀ n ∈ holeNames t.items, ∀ v, params.get? n = some v → Unmarked v.inUrl) :
    t.urlDraft params =
      ⟨fillHoles (textsOf t.hasQueryMarker params.entries) t.items, t.queryParts params⟩ := by
  refine urlDraft_of_uncontested ⟨?_, ?_⟩
  · intro e he _ kind name hm
    have hopen := hn (knownAs name) (mem_holeNames_iff.2 ⟨kind, name, hm, rfl⟩)
    exact respects_of_isKey (hkeys e.1 (List.mem_map_of_mem he)) (endsOpen_of_knownAs hopen)
  · intro e he f _ hm _ _ _
    exact lacks_of_unmarked _ (hvalues e.1 hm e.2 (OrderedMap.mem_entries_iff.1 he))

end Template

end NamedRoutes
