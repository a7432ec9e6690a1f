import NamedRoutes.Proofs.Url.Assembly

/-!
# URLs piece by piece

A URL has a piece for each item of its template. Where a parameter is given under the name of a
hole, its text stands in the place of the first hole of that name. Everything else stands as it is
written, and the marker of the query not at all. What has no place in the path follows in the query.
-/
namespace NamedRoutes

namespace Template

variable {texts : String → Option (List Char)} {t : Template} {params : Params}

/-- The texts of the names that no hole before has gone by. -/
def unused (texts : String → Option (List Char)) (before : List Item) (n : String) :
    Option (List Char) :=
  if n ∈ holeNames before then none else texts n

/-- What stands in the path for an item behind others. The text of a name goes to the first hole
that goes by the name. -/
def piece (texts : String → Option (List Char)) (before : List Item) : Item → List Char
  | .hole kind name =>
    (unused texts before (knownAs name)).getD (Item.written (.hole kind name))
  | .query => []
  | item => item.written

def pieces (texts : String → Option (List Char)) (before items : List Item) : List (List Char) :=
  items.mapIdx fun i item => piece texts (before ++ items.take i) item

@[simp] theorem pieces_nil (before : List Item) : pieces texts before [] = [] := rfl

@[simp] theorem pieces_cons (before : List Item) (item : Item) (rest : List Item) :
    pieces texts before (item :: rest) =
      piece texts before item :: pieces texts (before ++ [item]) rest := by
  simp [pieces, List.mapIdx_cons]

theorem holeNames_append (items rest : List Item) :
    holeNames (items ++ rest) = holeNames items ++ holeNames rest := by
  induction items with
  | nil => rfl
  | cons item items ih => cases item <;> simp [holeNames, ih]

theorem unused_append_of_not_hole {item : Item} (h : holeNames [item] = []) (before : List Item) :
    unused texts (before ++ [item]) = unused texts before := by
  funext n
  rw [unused, unused, holeNames_append, h, List.append_nil]

theorem unused_append_hole (before : List Item) (kind : Hole) (name : String) :
    unused texts (before ++ [.hole kind name]) =
      Function.update (unused texts before) (knownAs name) none := by
  funext n
  by_cases h : n = knownAs name <;> simp [unused, holeNames_append, holeNames, h]

theorem fillHoles_unused (before items : List Item) :
    fillHoles (unused texts before) items = (pieces texts before items).flatten := by
  induction items generalizing before with
  | nil => rfl
  | cons item rest ih =>
    rw [pieces_cons, List.flatten_cons, ← ih]
    cases item with
    | hole kind name =>
      rw [unused_append_hole, piece]
      cases ht : unused texts before (knownAs name) with
      | some text => rw [fillHoles_hole_some ht, Option.getD_some]
      | none =>
        rw [fillHoles_hole_none ht, Option.getD_none, Function.update_eq_self_iff.2 ht.symm]
        rfl
    | separator =>
      rw [unused_append_of_not_hole rfl, fillHoles]
      rfl
    | literal c =>
      rw [unused_append_of_not_hole rfl, fillHoles]
      rfl
    | query =>
      rw [unused_append_of_not_hole rfl, fillHoles]
      rfl

theorem textsOf_erase {marked : Bool} {key n : String} (h : n ≠ key) :
    textsOf marked (params.erase key).entries n = textsOf marked params.entries n := by
  have hget : (params.erase key).entries.lookup n = params.entries.lookup n :=
    (OrderedMap.get?_erase params key n).trans (if_neg h)
  rw [textsOf, hget, textsOf]

/-- The URL of parameters whose keys are plain and whose values have no marks where the template has
holes. Its path is put together piece by piece, each hole on its own account, and what is given
under a name that no hole goes by makes no difference to it. In the query the verbatim text comes
first, if the template asks for one, and then a pair for each of the parameters that have no
placeholder, in their order. -/
theorem url_of_pieces (t : Template) (params : Params) (hnames : ∀ n ∈ t.names, EndsOpen n.toList)
    (hkeys : ∀ key ∈ params.keys, IsKey key)
    (hvalues : ∀ n ∈ t.names, ∀ value, params.get? n = some value → Unmarked value.inUrl) :
    let path := (pieces (textsOf t.hasQueryMarker params.entries) [] t.items).flatten
    let parts := verbatim t.hasQueryMarker params.entries ++
      leftOver t.hasQueryMarker t.items params.entries
    (t.url params).toList =
        path ++ (if parts = [] then [] else '?' :: List.intercalate ['&'] parts) ∧
      (t.urlDraft params).path = path ∧
      ∀ key, key ∉ holeNames t.items → (t.urlDraft (params.erase key)).path = path := by
  intro path parts
  have hopen : ∀ n ∈ holeNames t.items, EndsOpen n.toList :=
    fun n hn => hnames n (mem_names_iff.2 (.inl hn))
  have hclean : ∀ n ∈ holeNames t.items, ∀ value, params.get? n = some value →
      Unmarked value.inUrl := fun n hn => hvalues n (mem_names_iff.2 (.inl hn))
  have hpath : ∀ texts, fillHoles texts t.items = (pieces texts [] t.items).flatten :=
    fun texts => fillHoles_unused [] t.items
  have hdraft : t.urlDraft params = ⟨path, parts⟩ := by
    rw [urlDraft_eq t params hopen hkeys hclean, hpath, queryParts]
  refine ⟨?_, ?_, ?_⟩
  · rw [url, String.toList_ofList, hdraft, UrlDraft.text]
    split <;> simp
  · rw [hdraft]
  · intro key hkey
    have hkeys' : ∀ k ∈ (params.erase key).keys, IsKey k := by
      intro k hk
      rw [OrderedMap.keys_erase] at hk
      exact hkeys k (List.mem_filter.1 hk).1
    have hclean' : ∀ n ∈ holeNames t.items, ∀ value, (params.erase key).get? n = some value →
        Unmarked value.inUrl := by
      intro n hn value hvalue
      rw [OrderedMap.get?_erase, if_neg (ne_of_mem_of_not_mem hn hkey)] at hvalue
      exact hclean n hn value hvalue
    rw [urlDraft_eq t (params.erase key) hopen hkeys' hclean']
    refine Eq.trans (fillHoles_congr fun n hn => ?_) (hpath _)
    exact textsOf_erase (ne_of_mem_of_not_mem hn hkey)

def ideaTemplate : Template :=
  ⟨[.separator, .hole .param "id", .separator, .hole .wildcard "", .separator, .hole .param "id",
    .separator, .hole .paramBeforeQuery "idea", .query], by decide⟩

def ideaParams : List (String × Value) :=
  [("é", .int 1), ("wildcard", .str "a/b"), ("ide", .null), ("query", .bool true), ("id", .int 7)]

theorem entries_ideaParams : (OrderedMap.ofList ideaParams).entries = ideaParams :=
  OrderedMap.entries_ofList_of_nodup (by decide)

theorem url_of_pieces_idea :
    (ideaTemplate.url (.ofList ideaParams)).toList =
        "/7/a/b/:id/:idea?True&%C3%A9=1&ide=null".toList ∧
      (ideaTemplate.urlDraft ((OrderedMap.ofList ideaParams).erase "ide")).path =
        "/7/a/b/:id/:idea".toList := by
  have hunmarked : ∀ e ∈ ideaParams, Unmarked e.2.inUrl := by decide
  have hvalues : ∀ n ∈ ideaTemplate.names, ∀ value,
      (OrderedMap.ofList ideaParams).get? n = some value → Unmarked value.inUrl := by
    intro n _ value hvalue
    have hmem := OrderedMap.mem_entries_iff.2 hvalue
    rw [entries_ideaParams] at hmem
    exact hunmarked (n, value) hmem
  have hkeys : ∀ key ∈ (OrderedMap.ofList ideaParams).keys, IsKey key := by
    rw [OrderedMap.keys, entries_ideaParams]
    decide
  obtain ⟨hurl, -, herase⟩ := url_of_pieces ideaTemplate _ (by decide) hkeys hvalues
  rw [entries_ideaParams] at hurl herase
  constructor
  · rw [hurl]
    decide +kernel
  · rw [herase "ide" (by decide)]
    decide +kernel

end Template

end NamedRoutes
