import Mathlib.Data.List.DropRight
import NamedRoutes.App
import NamedRoutes.Proofs.Text.Decoding

/-!
# Reading the query of a URL

When no query is put in verbatim, what follows the last question mark of a URL tells which
parameters found no placeholder, their keys and the texts of their values in order. Values that are
put into the path may hold question marks and separators of their own, since none is left in encoded
text.
-/
namespace NamedRoutes

open Text

def afterLastMark (url : List Char) : List Char := url.rtakeWhile (· != '?')

/-- Reads a pair at its only equals sign. -/
def readPair? (s : List Char) : Option (List Char × List Char) :=
  match s.splitOn '=' with
  | [key, value] =>
    (Percent.decode? key).bind fun key => (Percent.decode? value).map fun value => (key, value)
  | _ => none

def readPairs? : List (List Char) → Option (List (List Char × List Char))
  | [] => some []
  | s :: rest => (readPair? s).bind fun e => (readPairs? rest).map (e :: ·)

def readQuery? (s : List Char) : Option (List (List Char × List Char)) :=
  readPairs? (s.splitOn '&')

/-- What the query is made of: unreserved characters, escapes and separators. -/
def IsQueryText (s : List Char) : Prop :=
  Percent.Escaped (fun c => Percent.isUnreserved c = true ∨ c = '=' ∨ c = '&') s

theorem afterLastMark_append {path query : List Char} (h : '?' ∉ query) :
    afterLastMark (path ++ '?' :: query) = query := by
  have hquery : ∀ c ∈ query.reverse, (c != '?') = true := by
    intro c hc
    rw [bne_iff_ne]
    rintro rfl
    exact h (List.mem_reverse.1 hc)
  rw [afterLastMark, List.rtakeWhile, List.reverse_append, List.reverse_cons, List.append_assoc,
    List.takeWhile_append_of_pos hquery]
  simp

theorem IsQueryText.mark_not_mem {s : List Char} (h : IsQueryText s) : '?' ∉ s :=
  Percent.Escaped.not_mem h (by decide) (by decide) (by decide)

theorem isQueryText_encode (s : List Char) : IsQueryText (Percent.encode s) :=
  (Percent.escaped_encode s).mono fun _ hc => .inl hc

theorem isQueryText_intercalate {parts : List (List Char)} (h : ∀ s ∈ parts, IsQueryText s) :
    IsQueryText (List.intercalate ['&'] parts) := by
  induction parts with
  | nil => exact .nil
  | cons s rest ih =>
    obtain ⟨hs, hrest⟩ := List.forall_mem_cons.1 h
    cases rest with
    | nil => simpa using hs
    | cons t rest =>
      rw [List.intercalate_cons_cons, List.append_assoc]
      exact hs.append (.plain (.inr (.inr rfl)) (ih hrest))

namespace UrlDraft

variable {marked : Bool} {path : List Char} {es : List (String × Value)}

/-- The parameters that find no placeholder in the path, which changes as others find theirs. A
query that is not put in counts as neither. -/
def unplaced (marked : Bool) : List Char → List (String × Value) → List (String × Value)
  | _, [] => []
  | path, e :: es =>
    if marked ∧ e.1 = queryName then unplaced marked path es
    else
      match fill? e.1.toList e.2.inUrl path with
      | some path => unplaced marked path es
      | none => e :: unplaced marked path es

theorem isQueryText_pair (key : String) (value : Value) : IsQueryText (pair key value) :=
  (isQueryText_encode _).append (.plain (.inr (.inl rfl)) (isQueryText_encode _))

theorem readPair?_pair (key : String) (value : Value) :
    readPair? (pair key value) = some (key.toList, value.inUrl) := by
  have hsign : ∀ s, '=' ∉ Percent.encode s :=
    fun s => (Percent.escaped_encode s).not_mem (by decide) (by decide) (by decide)
  rw [readPair?, pair, List.splitOn_append_cons_self_of_not_mem (hsign _),
    List.splitOn_eq_singleton (hsign _)]
  simp only [Percent.decode?_encode, Option.bind_some, Option.map_some]

theorem readPairs?_pairs (es : List (String × Value)) :
    readPairs? (es.map fun e => pair e.1 e.2) = some (es.map fun e => (e.1.toList, e.2.inUrl)) := by
  induction es with
  | nil => rfl
  | cons e es ih =>
    rw [List.map_cons, readPairs?, readPair?_pair, ih]
    rfl

theorem separator_not_mem_pair (key : String) (value : Value) : '&' ∉ pair key value := by
  have h : ∀ s, '&' ∉ Percent.encode s :=
    fun s => (Percent.escaped_encode s).not_mem (by decide) (by decide) (by decide)
  simp [pair, h]

theorem readQuery?_intercalate (hes : es ≠ []) :
    readQuery? (List.intercalate ['&'] (es.map fun e => pair e.1 e.2)) =
      some (es.map fun e => (e.1.toList, e.2.inUrl)) := by
  rw [readQuery?, List.splitOn_intercalate, readPairs?_pairs]
  · intro s hs
    obtain ⟨e, -, rfl⟩ := List.mem_map.1 hs
    exact separator_not_mem_pair e.1 e.2
  · simpa using hes

theorem query_giveAll (q : List (List Char))
    (h : ∀ e ∈ es, marked ∧ e.1 = queryName → ¬ e.2.isTruthy) :
    (giveAll marked ⟨path, q⟩ es).query =
      q ++ (unplaced marked path es).map fun e => pair e.1 e.2 := by
  induction es generalizing path q with
  | nil => simp [unplaced]
  | cons e es ih =>
    obtain ⟨he, hes⟩ := List.forall_mem_cons.1 h
    rw [giveAll_cons, give, unplaced]
    by_cases hquery : marked ∧ e.1 = queryName
    · rw [if_pos hquery, if_neg (he hquery), if_pos hquery]
      exact ih q hes
    · rw [if_neg hquery, if_neg hquery]
      cases fill? e.1.toList e.2.inUrl path with
      | some path => exact ih q hes
      | none =>
        rw [ih _ hes]
        simp

end UrlDraft

namespace Template

variable {t : Template} {params : Params}

/-- The parameters that find no placeholder in the path of the template. -/
def unplaced (t : Template) (params : Params) : List (String × Value) :=
  UrlDraft.unplaced t.hasQueryMarker t.basePath params.entries

/-- No query is put in verbatim. -/
def QueryOmitted (t : Template) (params : Params) : Prop :=
  t.hasQueryMarker → ∀ value, params.get? queryName = some value → ¬ value.isTruthy

theorem query_urlDraft (h : t.QueryOmitted params) :
    (t.urlDraft params).query =
      (t.unplaced params).map fun e => UrlDraft.pair e.1 e.2 := by
  rw [urlDraft, UrlDraft.query_giveAll]
  · rfl
  · rintro e he ⟨hmarked, hkey⟩
    exact h hmarked e.2 (hkey ▸ OrderedMap.mem_entries_iff.1 he)

end Template

namespace App

open Template

variable {κ ω : Type} {app : App κ ω} {name : String} {route : Route κ} {params : Params}

/-- The query that follows the last question mark of a URL is read back, pair by pair, as the
parameters that found no placeholder. -/
theorem query_of_urlFor (hroute : app.router.routes.get? name = some route)
    (hquery : route.template.QueryOmitted params) (hne : route.template.unplaced params ≠ []) :
    ∃ url : String, urlFor name params app = (.ok url, app) ∧
      url.toList = (route.template.urlDraft params).path ++ '?' :: afterLastMark url.toList ∧
      readQuery? (afterLastMark url.toList) =
        some ((route.template.unplaced params).map fun e => (e.1.toList, e.2.inUrl)) ∧
      IsQueryText (afterLastMark url.toList) := by
  let query := List.intercalate ['&']
    ((route.template.unplaced params).map fun e => UrlDraft.pair e.1 e.2)
  have htext : IsQueryText query := by
    apply isQueryText_intercalate
    intro s hs
    obtain ⟨e, -, rfl⟩ := List.mem_map.1 hs
    exact UrlDraft.isQueryText_pair e.1 e.2
  have hurl : (route.template.url params).toList =
      (route.template.urlDraft params).path ++ '?' :: query := by
    rw [url, String.toList_ofList, UrlDraft.text, query_urlDraft hquery,
      if_neg (by simpa using hne)]
  have hafter : afterLastMark (route.template.url params).toList = query := by
    rw [hurl, afterLastMark_append htext.mark_not_mem]
  refine ⟨route.template.url params, urlFor_of_get? params hroute, ?_, ?_, ?_⟩
  · rw [hafter, hurl]
  · rw [hafter, UrlDraft.readQuery?_intercalate hne]
  · rw [hafter]
    exact htext

def searchRoute : Route Unit :=
  ⟨"search", ⟨[.separator, .hole .paramBeforeQuery "what", .query], by decide⟩, []⟩

def searchApp : App Unit Unit :=
  ⟨(Router.empty {} true).register searchRoute, { behaviour := .memory true }, ()⟩

def searchParams : List (String × Value) :=
  [("what", .str "a?b=c&d"), ("query", .str ""), ("", .str "&=?"), ("é", .str "😀"), ("z", .null)]

theorem entries_searchParams : (OrderedMap.ofList searchParams).entries = searchParams :=
  OrderedMap.entries_ofList_of_nodup (by decide)

theorem unplaced_searchParams : searchRoute.template.unplaced (.ofList searchParams) =
    [("", .str "&=?"), ("é", .str "😀"), ("z", .null)] := by
  rw [unplaced, entries_searchParams]
  rfl

theorem queryOmitted_searchParams : searchRoute.template.QueryOmitted (.ofList searchParams) := by
  intro _ value hvalue
  rw [OrderedMap.get?, entries_searchParams] at hvalue
  cases hvalue
  decide

theorem query_of_urlFor_search :
    urlFor "search" (.ofList searchParams) searchApp =
        (.ok "/a?b=c&d?=%26%3D%3F&%C3%A9=%F0%9F%98%80&z=null", searchApp) ∧
      readQuery? "=%26%3D%3F&%C3%A9=%F0%9F%98%80&z=null".toList =
        some [([], "&=?".toList), (['é'], ['😀']), (['z'], "null".toList)] := by
  have hne : searchRoute.template.unplaced (.ofList searchParams) ≠ [] := by
    rw [unplaced_searchParams]
    exact List.cons_ne_nil _ _
  obtain ⟨url, hurl, -, hread, -⟩ := query_of_urlFor
    (rfl : searchApp.router.routes.get? "search" = some searchRoute) queryOmitted_searchParams hne
  have hbuilt : url = "/a?b=c&d?=%26%3D%3F&%C3%A9=%F0%9F%98%80&z=null" := by
    have hsame := (urlFor_of_get? (.ofList searchParams)
      (rfl : searchApp.router.routes.get? "search" = some searchRoute)).symm.trans hurl
    cases hsame
    rw [Template.url, urlDraft, entries_searchParams]
    decide +kernel
  have hafter : afterLastMark url.toList = "=%26%3D%3F&%C3%A9=%F0%9F%98%80&z=null".toList := by
    rw [hbuilt]
    decide +kernel
  rw [hafter, unplaced_searchParams] at hread
  exact ⟨hbuilt ▸ hurl, hread⟩

end App

end NamedRoutes
