import NamedRoutes.App
import NamedRoutes.Proofs.Resolution
import NamedRoutes.Proofs.Url.Assembly

/-!
# Paths rebuilt from their matches

From the parameters of a path that it matches, a route builds that path again. Only the letters that
literals fit may change their case: they come out as the template spells them.
-/
namespace NamedRoutes

namespace Template

variable {items : List Item} {s : List Char} {cs : Captures}

/-- For every position of a path that is cut to these captures, the literal that takes it, if it is
a literal that does. -/
def lettering : List Item → Captures → List (Option Char)
  | .separator :: items, cs => none :: lettering items cs
  | .literal a :: items, cs => some a :: lettering items cs
  | .hole _ _ :: items, some run :: cs => List.replicate run.length none ++ lettering items cs
  | .query :: items, c :: cs => List.replicate (queryText c).length none ++ lettering items cs
  | _, _ => []

/-- What is built is as long as the path. It has the same character wherever no literal stands, and
elsewhere the literal, which is the same letter. -/
structure Respells (letters : List (Option Char)) (path built : List Char) : Prop where
  positions : letters.length = path.length
  length : built.length = path.length
  literal : ∀ (i : Nat) (a : Char), letters[i]? = some (some a) →
    built[i]? = some a ∧ ∃ c, path[i]? = some c ∧ Text.sameLetter a c
  other : ∀ i : Nat, letters[i]? = some none → built[i]? = path[i]?

theorem respells_nil : Respells [] [] [] := by
  constructor <;> simp

theorem Respells.keep {letters : List (Option Char)} {path built : List Char}
    (h : Respells letters path built) (run : List Char) :
    Respells (List.replicate run.length none ++ letters) (run ++ path) (run ++ built) := by
  constructor
  · simp [h.positions]
  · simp [h.length]
  · intro i a hi
    by_cases hlt : i < run.length
    · rw [List.getElem?_append_left (by simpa using hlt)] at hi
      simp [hlt] at hi
    · have hge : run.length ≤ i := Nat.le_of_not_lt hlt
      rw [List.getElem?_append_right (by simpa using hge), List.length_replicate] at hi
      rw [List.getElem?_append_right hge, List.getElem?_append_right hge]
      exact h.literal _ a hi
  · intro i hi
    by_cases hlt : i < run.length
    · rw [List.getElem?_append_left hlt, List.getElem?_append_left hlt]
    · have hge : run.length ≤ i := Nat.le_of_not_lt hlt
      rw [List.getElem?_append_right (by simpa using hge), List.length_replicate] at hi
      rw [List.getElem?_append_right hge, List.getElem?_append_right hge]
      exact h.other _ hi

theorem Respells.respell {letters : List (Option Char)} {path built : List Char} {a c : Char}
    (h : Respells letters path built) (hac : Text.sameLetter a c) :
    Respells (some a :: letters) (c :: path) (a :: built) := by
  constructor
  · simp [h.positions]
  · simp [h.length]
  · intro i b hi
    cases i with
    | zero =>
      have hb : a = b := by simpa using hi
      simpa [← hb] using hac
    | succ i => simpa using h.literal i b (by simpa using hi)
  · intro i hi
    cases i with
    | zero => simp at hi
    | succ i => simpa using h.other i (by simpa using hi)

theorem respells_assemble (h : Cut items s cs) :
    Respells (lettering items cs) s (assemble items cs) := by
  induction h with
  | nil => exact respells_nil
  | separator _ ih => exact ih.keep ['/']
  | literal hac _ ih => exact ih.respell hac
  | @hole _ _ run _ _ _ _ _ ih => exact ih.keep run
  | noQuery _ ih => exact ih.keep []
  | @query run _ _ _ _ _ ih => exact ih.keep ('?' :: run)

theorem length_of_cut (h : Cut items s cs) : cs.length = (captureNames items).length := by
  induction h with
  | nil => rfl
  | separator _ ih => exact ih
  | literal _ _ ih => exact ih
  | hole _ _ ih => simp [ih]
  | noQuery _ ih => simp [ih]
  | query _ _ ih => simp [ih]

theorem lookup_isSome_of_cut {n : String} (h : Cut items s cs) (hn : n ∈ holeNames items) :
    ((present (captureNames items) cs).lookup n).isSome := by
  induction h with
  | nil => cases hn
  | separator _ ih => exact ih hn
  | literal _ _ ih => exact ih hn
  | noQuery _ ih => exact ih hn
  | @hole kind name run items s cs _ _ ih =>
    have hp : present (captureNames (.hole kind name :: items)) (some run :: cs) =
        (knownAs name, run) :: present (captureNames items) cs := rfl
    rw [hp]
    by_cases he : n = knownAs name
    · simp [he]
    · rw [lookup_cons_of_ne he]
      exact ih ((List.mem_cons.1 hn).resolve_left he)
  | @query run items s cs _ _ ih =>
    have hp : present (captureNames (.query :: items)) (some run :: cs) =
        (queryName, run) :: present (captureNames items) cs := rfl
    rw [hp]
    by_cases he : n = queryName
    · simp [he]
    · rw [lookup_cons_of_ne he]
      exact ih hn

variable {t : Template} {path : String} {params : Params}

theorem query?_bind (hd : t.names.Nodup) (hq : t.hasQueryMarker)
    (hquery : (bind t.names cs).get? queryName ≠ some (.str "")) :
    t.query? (bind t.names cs) = (present t.names cs).lookup queryName := by
  have hparts : t.queryParts (bind t.names cs) =
      verbatim t.hasQueryMarker (bind t.names cs).entries :=
    queryParts_eq_verbatim fun key hkey => mem_of_mem_keys_bind hd hkey
  have hget := get?_bind cs hd queryName
  rw [hget] at hquery
  rw [OrderedMap.get?] at hget
  rw [query?, hparts, verbatim, hget]
  cases hl : (present t.names cs).lookup queryName with
  | none => rfl
  | some run =>
    have hne : String.ofList run ≠ "" := by simpa [hl] using hquery
    simp [hq, Value.isTruthy, hne]

theorem given_bind {n : String} (hd : t.names.Nodup) (hn : n ∈ t.names)
    (hquery : t.hasQueryMarker → (bind t.names cs).get? queryName ≠ some (.str "")) :
    t.given (bind t.names cs) n = (present t.names cs).lookup n := by
  rcases mem_names_iff.1 hn with hh | ⟨hq, rfl⟩
  · rw [given_hole hd hh, get?_bind cs hd]
    simp [Option.map_map, Function.comp_def]
  · rw [given_query hq, query?_bind hd hq (hquery hq)]

theorem toList_url_bind (hd : t.DistinctlyNamed) (hcut : Cut t.items s cs)
    (hmarks : ∀ n ∈ holeNames t.items, ∀ text,
      (bind t.names cs).get? n = some (.str text) → Unmarked text.toList)
    (hquery : t.hasQueryMarker → (bind t.names cs).get? queryName ≠ some (.str "")) :
    (t.url (bind t.names cs)).toList = assemble t.items cs := by
  have hkeys : ∀ key ∈ (bind t.names cs).keys, key ∈ t.names :=
    fun key hkey => mem_of_mem_keys_bind hd.nodup hkey
  have hvalues : ∀ n ∈ holeNames t.items,
      ∃ v, (bind t.names cs).get? n = some v ∧ Unmarked v.inUrl := by
    intro n hn
    obtain ⟨run, hrun⟩ := Option.isSome_iff_exists.1 (lookup_isSome_of_cut hcut hn)
    have hget : (bind t.names cs).get? n = some (.str (String.ofList run)) := by
      rw [get?_bind cs hd.nodup, names, hrun]
      rfl
    exact ⟨_, hget, hmarks n hn _ hget⟩
  have hgiven : t.names.map (t.given (bind t.names cs)) = cs := by
    have hl : cs.length = t.names.length := length_of_cut hcut
    calc t.names.map (t.given (bind t.names cs))
        = t.names.map (fun n => (present t.names cs).lookup n) :=
          List.map_congr_left fun n hn => given_bind hd.nodup hn hquery
      _ = cs := map_lookup_present hd.nodup hl
  rw [url_eq_assemble hd (fun key hkey => isKey_of_mem_names (hkeys key hkey)) hvalues
    fun _ => hkeys, hgiven]

end Template

namespace App

variable {κ ω : Type} {call : Caller κ ω}

/-- In turn, the callbacks leave the parameters as they are and return no dictionary. -/
inductive RunsQuietly (call : Caller κ ω) (params : Params) :
    List κ → App κ ω → App κ ω → Prop
  | nil {app} : RunsQuietly call params [] app app
  | cons {callback rest returned app app₁ app'}
      (hcall : call callback params app = (.ok (params, returned), app₁))
      (hreturned : ∀ entries, returned ≠ .dict entries)
      (hrest : RunsQuietly call params rest app₁ app') :
      RunsQuietly call params (callback :: rest) app app'

theorem mergeDefaults_of_not_dict (params : Params) {v : Value} (h : ∀ entries, v ≠ .dict entries) :
    params.mergeDefaults v = params := by
  cases v with
  | dict entries => exact absurd rfl (h entries)
  | _ => rfl

theorem runCallbacks_of_runsQuietly {params : Params} {callbacks : List κ} {app app' : App κ ω}
    (h : RunsQuietly call params callbacks app app') :
    runCallbacks call callbacks params app = (.ok params, app') := by
  induction h with
  | nil => rfl
  | cons hcall hreturned _ ih =>
    rw [runCallbacks, Action.bind_apply, hcall]
    simpa only [mergeDefaults_of_not_dict params hreturned] using ih

theorem visit_of_runsQuietly {app app' : App κ ω} {name : String} {route : Route κ}
    {params : Params} (hroute : app.router.routes.get? name = some route)
    (hhistory : app.router.supportsHistory) (h : RunsQuietly call params route.callbacks app app') :
    visit call name params false app =
      (.ok (some ⟨name, params, some (route.template.url params), false⟩), app') := by
  rw [visit_of_get? params false hroute, Action.bind_apply, runCallbacks_of_runsQuietly h]
  simp only [Action.bind_apply, arrive_false, Action.pure_apply]
  rw [if_pos hhistory, app.router.named hroute]

/-- The parameters of a path that a route matches build a URL that is the path, with its literals
respelled. A visit that comes from the path by matching ends at this URL. -/
theorem urlFor_match? {app : App κ ω} {name path : String} {route : Route κ} {params : Params}
    (hroute : app.router.routes.get? name = some route) (hd : route.template.DistinctlyNamed)
    (hmatch : route.template.match? path = some params)
    (hmarks : ∀ n ∈ Template.holeNames route.template.items, ∀ text,
      params.get? n = some (.str text) → Template.Unmarked text.toList)
    (hquery : route.template.hasQueryMarker → params.get? queryName ≠ some (.str "")) :
    ∃ cs url, Template.captures? route.template.items path.toList = some cs ∧
      urlFor name params app = (.ok url, app) ∧
      Template.Respells (Template.lettering route.template.items cs) path.toList url.toList ∧
      ∀ (call : Caller κ ω) (args : Params) (updateUrl : Bool) (best : Candidate)
        (app' : App κ ω),
        app.router.supportsHistory → app.router.routes.get? path = none →
        app.router.rootCandidate? path = none →
        (app.router.resolve path).head? = some best → best.name = name →
        RunsQuietly call params route.callbacks app app' →
        go call path args updateUrl app = (.ok (some ⟨name, params, some url, false⟩), app') := by
  obtain ⟨cs, hcs, hbind⟩ := Option.map_eq_some_iff.1 hmatch
  have hcut := Template.cut_of_captures? hcs
  refine ⟨cs, route.template.url params, hcs, urlFor_of_get? params hroute, ?_, ?_⟩
  · subst hbind
    rw [Template.toList_url_bind hd hcut hmarks hquery]
    exact Template.respells_assemble hcut
  · intro call args updateUrl best app' hhistory hname hroot hbest hbestName hquiet
    have hmem : best ∈ app.router.resolve path := List.mem_of_head? hbest
    obtain ⟨route', hroute', hcand⟩ := Router.exists_route_of_mem_resolve hroot hmem
    rw [hbestName, hroute] at hroute'
    cases hroute'
    have hparams : best.params = params := by
      obtain ⟨found, hfound, rfl⟩ := Option.map_eq_some_iff.1 hcand
      rw [hmatch] at hfound
      exact (Option.some.inj hfound).symm
    rw [go_of_resolve hname hbest, hbestName, hparams]
    exact visit_of_runsQuietly hroute hhistory hquiet

/-- The route `/F/*/*rest?` in a router of its own, with one callback. -/
def files : Route Unit :=
  ⟨"files", ⟨[.separator, .literal 'F', .separator, .hole .wildcard "", .separator,
    .hole .wildcard "rest", .query], by decide⟩, [()]⟩

def filesApp : App Unit Unit :=
  ⟨(Router.empty {} true).register files, { behaviour := .memory true }, ()⟩

def filesParams : Params :=
  .ofList [("wildcard", .str "a/b"), ("rest", .str "c"), ("query", .str "x/y")]

def returnsNull : Caller Unit Unit := fun _ params => pure (params, .null)

theorem urlFor_match?_files :
    ∃ cs url, Template.captures? files.template.items "/f/a/b/c?x/y".toList = some cs ∧
      urlFor "files" filesParams filesApp = (.ok url, filesApp) ∧
      Template.Respells (Template.lettering files.template.items cs) "/f/a/b/c?x/y".toList
        url.toList ∧
      go returnsNull "/f/a/b/c?x/y" .empty true filesApp =
        (.ok (some ⟨"files", filesParams, some url, false⟩), filesApp) := by
  have hd : files.template.DistinctlyNamed :=
    ⟨by decide, by simp [files, Template.names, EndsOpen, knownAs, wildcardName, queryName]⟩
  have hmarks : ∀ n ∈ Template.holeNames files.template.items, ∀ text,
      filesParams.get? n = some (.str text) → Template.Unmarked text.toList := by
    intro n hn text htext
    have hn' : n = "wildcard" ∨ n = "rest" := by
      simpa [files, Template.holeNames, knownAs, wildcardName] using hn
    rcases hn' with rfl | rfl
    · cases (show some (Value.str "a/b") = some (.str text) from htext)
      simp [Template.Unmarked]
    · cases (show some (Value.str "c") = some (.str text) from htext)
      simp [Template.Unmarked]
  have hmatch : files.template.match? "/f/a/b/c?x/y" = some filesParams := rfl
  have hquery : filesParams.get? queryName ≠ some (.str "") := by
    change some (Value.str "x/y") ≠ some (.str "")
    simp
  have hquiet : RunsQuietly returnsNull filesParams files.callbacks filesApp filesApp :=
    .cons rfl (by simp) .nil
  obtain ⟨cs, url, hcs, hurl, hrespells, hgo⟩ :=
    urlFor_match? (rfl : filesApp.router.routes.get? "files" = some files) hd hmatch hmarks
      fun _ => hquery
  exact ⟨cs, url, hcs, hurl, hrespells,
    hgo returnsNull .empty true ⟨"files", filesParams, files.template⟩ filesApp rfl rfl rfl rfl rfl
      hquiet⟩

end App

end NamedRoutes
