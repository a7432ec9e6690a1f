import NamedRoutes.Proofs.Session.Registry

/-!
# Registering in bulk

To register a row of entries comes to the same as to register them one by one, each under the name
of its path, up to the first whose path is no template; that one is the fault. What scripts are
numbered is decided before, for all of them. Paths may give the same name. Then the last of them
stands for the name, in the place that the name had or got first.
-/
namespace NamedRoutes

theorem OrderedMap.lookup_map_key {α β : Type} (f : α → String) (g : α → β) (es : List α)
    (key : String) :
    (es.map fun e => (f e, g e)).lookup key = (es.find? fun e => f e == key).map g := by
  induction es with
  | nil => rfl
  | cons e es ih =>
    rw [List.map_cons, List.lookup_cons, List.find?_cons, ih, Bool.beq_comm]
    cases f e == key <;> rfl

namespace Router

variable {κ : Type}

theorem routes_foldl_register (routes : List (Route κ)) (r : Router κ) :
    (routes.foldl register r).routes =
      r.routes.insertAll (routes.map fun route => (route.name, route)) := by
  induction routes generalizing r with
  | nil => rfl
  | cons route rest ih => exact ih _

theorem keys_foldl_register (routes : List (Route κ)) (r : Router κ) :
    (routes.foldl register r).routes.keys =
      r.routes.keys ++ ((routes.map Route.name).filter (· ∉ r.routes.keys)).eraseDups := by
  rw [routes_foldl_register, OrderedMap.keys_insertAll, List.map_map]
  rfl

theorem get?_foldl_register (routes : List (Route κ)) (r : Router κ) (name : String) :
    (routes.foldl register r).routes.get? name =
      (routes.reverse.find? fun route => route.name == name).or (r.routes.get? name) := by
  rw [routes_foldl_register, OrderedMap.get?_insertAll, ← List.map_reverse,
    OrderedMap.lookup_map_key, Option.map_id']

theorem get?_foldl_register_of_last {before after : List (Route κ)} {route : Route κ}
    (h : ∀ later ∈ after, later.name ≠ route.name) (r : Router κ) :
    ((before ++ route :: after).foldl register r).routes.get? route.name = some route := by
  have hnone : after.reverse.find? (fun later => later.name == route.name) = none := by
    simpa using h
  rw [get?_foldl_register, List.reverse_append, List.reverse_cons, List.find?_append,
    List.find?_append, hnone, List.find?_cons_of_pos (by simp)]
  rfl

theorem get?_foldl_register_of_not_mem {routes : List (Route κ)} {name : String}
    (h : ∀ route ∈ routes, route.name ≠ name) (r : Router κ) :
    (routes.foldl register r).routes.get? name = r.routes.get? name := by
  have hnone : routes.reverse.find? (fun route => route.name == name) = none := by simpa using h
  rw [get?_foldl_register, hnone, Option.none_or]

end Router

def Compiles {α : Type} (e : String × α) : Prop := (Template.ofPath e.1).isOk

instance {α : Type} (e : String × α) : Decidable (Compiles e) :=
  inferInstanceAs (Decidable (_ = true))

theorem compiles_iff {α : Type} {e : String × α} :
    Compiles e ↔ ∃ template, Template.ofPath e.1 = .ok template := by
  rw [Compiles]
  cases Template.ofPath e.1 <;> simp [Except.isOk, Except.toBool]

namespace App

variable {κ : Type}

theorem compile_append {entries : List (String × List κ)} (h : (compile entries).2 = none)
    (rest : List (String × List κ)) :
    compile (entries ++ rest) =
      ((compile entries).1 ++ (compile rest).1, (compile rest).2) := by
  induction entries with
  | nil => rfl
  | cons e entries ih =>
    obtain ⟨path, callbacks⟩ := e
    cases htemplate : Template.ofPath path with
    | ok template =>
      rw [compile_cons_ok htemplate] at h
      rw [List.cons_append, compile_cons_ok htemplate, compile_cons_ok htemplate, ih h]
      rfl
    | error fault =>
      rw [compile_cons_error htemplate] at h
      cases h

end App

namespace Session

open NamedRoutes.Action

abbrev Entry := String × CallbackSpec Step

def oneByOne (entries : List Entry) : List Step :=
  entries.map fun e => .addRoute (RouteName.ofPath e.1) e.1 e.2

/-- These are made of the entries, wherever the handles and the number of scripts are the same. -/
structure Makes (handles : OrderedMap String) (serials : Nat) (entries : List Entry)
    (items : List (String × List (Callback Step))) (serials' : Nat) : Prop where
  prepared : List.Forall₂ (PreparedFor handles) entries items
  prepareAll_eq : ∀ t : Session, t.stage.handles = handles → t.stage.serials = serials →
    prepareAll entries t = (.ok items, { t with stage.serials := serials' })

variable {s : Session} {handles : OrderedMap String} {serials serials' serials'' : Nat}
  {entries rest : List Entry} {items items' : List (String × List (Callback Step))}

theorem prepareAll_append (entries rest : List Entry) :
    prepareAll (entries ++ rest) = do
      let items ← prepareAll entries
      let items' ← prepareAll rest
      return items ++ items' := by
  induction entries with
  | nil => simp [prepareAll]
  | cons e entries ih => simp [prepareAll, ih]

theorem makes_nil (handles : OrderedMap String) (serials : Nat) :
    Makes handles serials [] [] serials :=
  ⟨.nil, by rintro t - rfl; rfl⟩

theorem Makes.append (h : Makes handles serials entries items serials')
    (h' : Makes handles serials' rest items' serials'') :
    Makes handles serials (entries ++ rest) (items ++ items') serials'' where
  prepared := List.rel_append h.prepared h'.prepared
  prepareAll_eq t hhandles hserials := by
    rw [prepareAll_append, Action.bind_apply, h.prepareAll_eq t hhandles hserials]
    dsimp only
    rw [Action.bind_apply, h'.prepareAll_eq { t with stage.serials := serials' } hhandles rfl]
    rfl

structure MakesOne (handles : OrderedMap String) (serials : Nat) (spec : CallbackSpec Step)
    (callback : Callback Step) (serials' : Nat) : Prop where
  prepared : Prepared handles spec callback
  prepare_eq : ∀ t : Session, t.stage.handles = handles → t.stage.serials = serials →
    prepare spec t = (.ok callback, { t with stage.serials := serials' })

theorem exists_makesOne {spec : CallbackSpec Step} (h : ∃ c, Prepared handles spec c)
    (serials : Nat) : ∃ callback serials', MakesOne handles serials spec callback serials' := by
  obtain ⟨callback, hcallback⟩ := h
  cases hcallback with
  | value v => exact ⟨.value v, serials, .value v, by rintro t - rfl; rfl⟩
  | script serial script =>
    exact ⟨.script serials script, serials + 1, .script serials script, by rintro t - rfl; rfl⟩
  | @invoker handle route hroute =>
    refine ⟨.invoker route, serials, .invoker hroute, ?_⟩
    rintro t rfl rfl
    rw [prepare, Action.bind_apply, routeOf, Action.get_bind_apply, hroute]
    rfl

theorem MakesOne.makes {e : Entry} {callback : Callback Step}
    (h : MakesOne handles serials e.2 callback serials') :
    Makes handles serials [e] [(e.1, callback.callables)] serials' where
  prepared := .cons ⟨rfl, callback, h.prepared, rfl⟩ .nil
  prepareAll_eq t hhandles hserials := by
    rw [prepareAll, Action.bind_apply, h.prepare_eq t hhandles hserials]
    rfl

theorem exists_makes (h : ∀ e ∈ entries, ∃ c, Prepared handles e.2 c) (serials : Nat) :
    ∃ items serials', Makes handles serials entries items serials' := by
  induction entries generalizing serials with
  | nil => exact ⟨[], serials, makes_nil handles serials⟩
  | cons e entries ih =>
    obtain ⟨he, hentries⟩ := List.forall_mem_cons.1 h
    obtain ⟨callback, serials', hfirst⟩ := exists_makesOne he serials
    obtain ⟨items, serials'', hrest⟩ := ih hentries serials'
    exact ⟨_, serials'', hfirst.makes.append hrest⟩

/-- What is registered for an entry: its path under the name that this gives, and the callback that
was made for it, if it can be called. -/
structure RegisteredFor (handles : OrderedMap String) (e : Entry) (route : Route (Callback Step)) :
    Prop where
  name : route.name = RouteName.ofPath e.1
  template : Template.ofPath e.1 = .ok route.template
  callbacks : ∃ callback, Prepared handles e.2 callback ∧ route.callbacks = callback.callables

theorem forall₂_registeredFor (hcompile : ∀ e ∈ entries, Compiles e)
    (h : List.Forall₂ (PreparedFor handles) entries items) :
    List.Forall₂ (RegisteredFor handles) entries (App.compile items).1 ∧
      (App.compile items).2 = none := by
  induction h with
  | nil => exact ⟨.nil, rfl⟩
  | @cons e item entries items hfirst _ ih =>
    obtain ⟨he, hentries⟩ := List.forall_mem_cons.1 hcompile
    obtain ⟨hrest, hfault⟩ := ih hentries
    obtain ⟨template, htemplate⟩ := compiles_iff.1 he
    obtain ⟨path, callbacks⟩ := item
    obtain ⟨rfl, hcallbacks⟩ := hfirst
    rw [App.compile_cons_ok htemplate]
    exact ⟨.cons ⟨rfl, htemplate, hcallbacks⟩ hrest, hfault⟩

theorem names_of_forall₂_registeredFor {routes : List (Route (Callback Step))}
    (h : List.Forall₂ (RegisteredFor handles) entries routes) :
    routes.map Route.name = entries.map fun e => RouteName.ofPath e.1 := by
  induction h with
  | nil => rfl
  | cons hfirst _ ih => rw [List.map_cons, List.map_cons, hfirst.name, ih]

/-- How the routes of `r` stand when these entries have been added to them. -/
structure Replaces (handles : OrderedMap String) (added : List Entry)
    (r r' : Router (Callback Step)) : Prop where
  /-- Names keep their places, and new ones follow in the order in which they first come. -/
  keys : r'.routes.keys = r.routes.keys ++
    ((added.map fun e => RouteName.ofPath e.1).filter (· ∉ r.routes.keys)).eraseDups
  /-- The last entry that gives a name stands for it alone. -/
  last : ∀ before e after, added = before ++ e :: after →
    (∀ later ∈ after, RouteName.ofPath later.1 ≠ RouteName.ofPath e.1) →
    ∃ route, RegisteredFor handles e route ∧
      r'.routes.get? (RouteName.ofPath e.1) = some route
  /-- What stands under other names stays. -/
  others : ∀ name, (∀ e ∈ added, RouteName.ofPath e.1 ≠ name) →
    r'.routes.get? name = r.routes.get? name

theorem replaces_of_forall₂ {added : List Entry} {routes : List (Route (Callback Step))}
    (h : List.Forall₂ (RegisteredFor handles) added routes) (r : Router (Callback Step)) :
    Replaces handles added r (routes.foldl Router.register r) where
  keys := by rw [Router.keys_foldl_register, names_of_forall₂_registeredFor h]
  last := by
    rintro before e after rfl hlast
    have hroutes := List.forall₂_drop_append _ _ _ h.flip
    obtain ⟨route, routes', hroute, hafter, hdrop⟩ := List.forall₂_cons_right_iff.1 hroutes
    refine ⟨route, hroute, ?_⟩
    rw [← List.take_append_drop before.length routes, hdrop, ← hroute.name]
    refine Router.get?_foldl_register_of_last (fun later hlater => ?_) r
    have hname : later.name ∈ after.map fun e => RouteName.ofPath e.1 := by
      rw [← names_of_forall₂_registeredFor hafter.flip]
      exact List.mem_map_of_mem hlater
    obtain ⟨e', he', hsame⟩ := List.mem_map.1 hname
    rw [← hsame, hroute.name]
    exact hlast e' he'
  others := by
    intro name hname
    refine Router.get?_foldl_register_of_not_mem (fun route hroute => ?_) r
    have hmem : route.name ∈ added.map fun e => RouteName.ofPath e.1 := by
      rw [← names_of_forall₂_registeredFor h]
      exact List.mem_map_of_mem hroute
    obtain ⟨e, he, hsame⟩ := List.mem_map.1 hmem
    exact hsame ▸ hname e he

theorem exec_addRoutes (depth : Nat) (s : Session)
    (h : Makes s.stage.handles s.stage.serials entries items serials') :
    exec (depth + 1) (.addRoutes entries) s =
      (⟨.addRoutes entries, (App.compile items).2.elim (.ok .nothing) .error, [], []⟩,
        { s with
          router := (App.compile items).1.foldl Router.register s.router
          stage.serials := serials' }) := by
  rw [exec_succ, answer_apply, perform, Action.bind_apply,
    h.prepareAll_eq { s with stage.calls := [] } rfl rfl]
  dsimp only
  rw [Action.bind_apply, App.addRoutes_apply]
  cases (App.compile items).2 <;> simp [Action.pure_apply]

theorem exec_addRoute (depth : Nat) {name path : String} {spec : CallbackSpec Step}
    {callback : Callback Step} {template : Template}
    (htemplate : Template.ofPath path = .ok template)
    (h : MakesOne s.stage.handles s.stage.serials spec callback serials') :
    exec (depth + 1) (.addRoute name path spec) s =
      (⟨.addRoute name path spec, .ok (.route ⟨name, template, callback.callables⟩), [], []⟩,
        { s with
          router := s.router.register ⟨name, template, callback.callables⟩
          stage.serials := serials' }) := by
  rw [exec_succ, answer_apply, perform, Action.bind_apply,
    h.prepare_eq { s with stage.calls := [] } rfl rfl]
  dsimp only
  rw [Action.bind_apply, App.addRoute_apply, htemplate]
  simp [Action.pure_apply]

theorem execAll_oneByOne (depth : Nat) (s : Session) (hcompile : ∀ e ∈ entries, Compiles e)
    (hknown : ∀ e ∈ entries, ∃ c, Prepared s.stage.handles e.2 c) :
    ∃ items serials', Makes s.stage.handles s.stage.serials entries items serials' ∧
      (∀ a ∈ (execAll (depth + 1) (oneByOne entries) s).1, ∃ route, a.result = .ok (.route route)) ∧
      (execAll (depth + 1) (oneByOne entries) s).2 =
        { s with
          router := (App.compile items).1.foldl Router.register s.router
          stage.serials := serials' } := by
  induction entries generalizing s with
  | nil => exact ⟨[], s.stage.serials, makes_nil _ _, by simp [oneByOne, execAll_nil], rfl⟩
  | cons e entries ih =>
    obtain ⟨he, hentries⟩ := List.forall_mem_cons.1 hcompile
    obtain ⟨hspec, hspecs⟩ := List.forall_mem_cons.1 hknown
    obtain ⟨template, htemplate⟩ := compiles_iff.1 he
    obtain ⟨callback, serials₁, hfirst⟩ := exists_makesOne hspec s.stage.serials
    have hexec := @exec_addRoute s _ depth (RouteName.ofPath e.1) _ _ _ _ htemplate hfirst
    obtain ⟨items, serials', hrest, hresults, hstate⟩ :=
      ih { s with
        router := s.router.register ⟨RouteName.ofPath e.1, template, callback.callables⟩
        stage.serials := serials₁ } hentries hspecs
    refine ⟨_, serials', hfirst.makes.append hrest, ?_, ?_⟩
    · rw [oneByOne, List.map_cons, execAll_cons, hexec]
      exact List.forall_mem_cons.2 ⟨⟨_, rfl⟩, hresults⟩
    · rw [oneByOne, List.map_cons, execAll_cons, hexec, List.singleton_append,
        App.compile_cons_ok htemplate]
      exact hstate

/-- The entries up to the first whose path is no template. -/
def admitted (entries : List Entry) : List Entry := entries.takeWhile (Compiles ·)

theorem compiles_of_mem_admitted : ∀ e ∈ admitted entries, Compiles e := by
  intro e he
  have hall : (admitted entries).all (Compiles ·) := List.all_takeWhile
  exact of_decide_eq_true (List.all_eq_true.1 hall e he)

def omitted (entries : List Entry) : List Entry := entries.dropWhile (Compiles ·)

theorem admitted_append_omitted (entries : List Entry) :
    admitted entries ++ omitted entries = entries := List.takeWhile_append_dropWhile

theorem compile_of_omitted {e : Entry} {after : List Entry}
    (homitted : omitted entries = e :: after)
    (h : List.Forall₂ (PreparedFor handles) (omitted entries) items) :
    ∃ reason, Template.ofPath e.1 = .error (.invalidTemplate e.1 reason) ∧
      App.compile items = ([], some (.invalidTemplate e.1 reason)) := by
  have he : ¬ Compiles e := by
    have hhead := List.head?_dropWhile_not (Compiles ·) entries
    rw [← omitted, homitted] at hhead
    simpa using hhead
  rw [homitted] at h
  obtain ⟨⟨path, callbacks⟩, items', ⟨hpath, -⟩, -, rfl⟩ := List.forall₂_cons_left_iff.1 h
  obtain rfl : path = e.1 := hpath
  cases htemplate : Template.ofPath e.1 with
  | ok template => exact absurd (compiles_iff.2 ⟨template, htemplate⟩) he
  | error fault =>
    obtain ⟨v, -, rfl⟩ := Template.ofPath_eq_error_iff.1 htemplate
    exact ⟨_, rfl, App.compile_cons_error htemplate⟩

/-- No entry from the first faulty one on leaves anything behind but numbers of scripts. -/
theorem exec_addRoutes_of_admitted (depth : Nat) (s : Session)
    (hmakes : Makes s.stage.handles s.stage.serials (admitted entries) items serials')
    (hnone : (App.compile items).2 = none)
    (hknown : ∀ e ∈ omitted entries, ∃ callback, Prepared s.stage.handles e.2 callback) :
    ∃ serials'' fault,
      exec (depth + 1) (.addRoutes entries) s =
        (⟨.addRoutes entries, Option.elim fault (.ok .nothing) .error, [], []⟩,
          { s with
            router := (App.compile items).1.foldl Router.register s.router
            stage.serials := serials'' }) ∧
      (omitted entries = [] → fault = none) ∧
      ∀ e after, omitted entries = e :: after → ∃ reason,
        Template.ofPath e.1 = .error (.invalidTemplate e.1 reason) ∧
        fault = some (.invalidTemplate e.1 reason) := by
  obtain ⟨items', serials'', hrest⟩ := exists_makes hknown serials'
  have hexec := exec_addRoutes depth s (hmakes.append hrest)
  rw [admitted_append_omitted, App.compile_append hnone] at hexec
  refine ⟨serials'', (App.compile items').2, ?_, fun hnil => ?_, fun e after hafter => ?_⟩
  · have hnil : (App.compile items').1 = [] := by
      cases hafter : omitted entries with
      | nil =>
        rw [hafter] at hrest
        cases hrest.prepared
        rfl
      | cons e after =>
        obtain ⟨reason, -, hfault⟩ := compile_of_omitted hafter hrest.prepared
        rw [hfault]
    rw [hexec, hnil, List.append_nil]
  · rw [hnil] at hrest
    cases hrest.prepared
    rfl
  · obtain ⟨reason, htemplate, hfault⟩ := compile_of_omitted hafter hrest.prepared
    exact ⟨reason, htemplate, by rw [hfault]⟩

/-- Entries that are registered in a row are registered one by one, up to the first whose path is no
template: the session is the same but for the numbers of scripts, as it is when the row ends before
this entry. The fault is that of its path. Afterwards the last of the entries that gave a name
stands for it, with the callback that came with it and no other. Names keep their places, new ones
follow in order, and what stands under other names stays as it is, and so do the host and the
lifecycles. -/
theorem addRoutes_one_by_one (depth : Nat) (s : Session) (entries : List Entry)
    (hknown : ∀ e ∈ entries, ∃ callback, Prepared s.stage.handles e.2 callback) :
    let added := admitted entries
    let single := execAll (depth + 1) (oneByOne added) s
    let row := exec (depth + 1) (.addRoutes added) s
    let r := exec (depth + 1) (.addRoutes entries) s
    (∀ a ∈ single.1, ∃ route, a.result = .ok (.route route)) ∧ Numbered single.2 r.2 ∧
    row.1.result = .ok .nothing ∧ Numbered row.2 r.2 ∧
    (added = entries → r.1.result = .ok .nothing) ∧
    (∀ e after, entries = added ++ e :: after → ∃ reason,
      Template.ofPath e.1 = .error (.invalidTemplate e.1 reason) ∧
      r.1.result = .error (.invalidTemplate e.1 reason)) ∧
    r.1.calls = [] ∧ r.1.pushes = [] ∧
    Replaces s.stage.handles added s.router r.2.router ∧
    r.2.host = s.host ∧ r.2.stage.lifecycles = s.stage.lifecycles ∧
    r.2.stage.handles = s.stage.handles := by
  intro added single row r
  have hcompile : ∀ e ∈ added, Compiles e := compiles_of_mem_admitted
  have hsplit : added ++ omitted entries = entries := admitted_append_omitted entries
  obtain ⟨hadded, homitted⟩ := List.forall_mem_append.1 (hsplit ▸ hknown)
  obtain ⟨items, serials', hmakes, hresults, hsingle⟩ :=
    execAll_oneByOne depth s hcompile hadded
  obtain ⟨hregistered, hnone⟩ := forall₂_registeredFor hcompile hmakes.prepared
  have hrow : row = _ := exec_addRoutes depth s hmakes
  obtain ⟨serials'', fault, hr, hall, hfault⟩ :=
    exec_addRoutes_of_admitted depth s hmakes hnone homitted
  have hr : r = _ := hr
  refine ⟨hresults, ?_, ?_, ?_, ?_, ?_, ?_, ?_, ?_, ?_, ?_, ?_⟩
  · exact ⟨serials'', by rw [hr]; exact hsingle ▸ rfl⟩
  · rw [hrow, hnone]
    rfl
  · exact ⟨serials'', by rw [hr, hrow]⟩
  · intro hadded
    have hempty : omitted entries = [] :=
      List.append_cancel_left (by rw [List.append_nil, hsplit, hadded])
    rw [hr, hall hempty]
    rfl
  · intro e after heq
    obtain ⟨reason, htemplate, hinvalid⟩ :=
      hfault e after (List.append_cancel_left (hsplit.trans heq))
    exact ⟨reason, htemplate, by rw [hr, hinvalid]; rfl⟩
  · rw [hr]
  · rw [hr]
  · rw [hr]
    exact replaces_of_forall₂ hregistered s.router
  all_goals rw [hr]

def observed : Session :=
  let script : Script Step := ⟨"x", [], [], [], false, true, none, .null⟩
  (execAll 1 [.addRoute "a" "/x" (.script script), .observe "a" (.script script),
    .enroll "b" "handle" none] (start { behaviour := .silent } {})).2

def bulk : List Entry :=
  [("/a", .handle "handle"), ("/b", .handle "handle"), ("/a/", .value .null),
    ("/:", .handle "handle"), ("/c", .value .null)]

theorem addRoutes_one_by_one_bulk :
    let r := exec 1 (.addRoutes bulk) observed
    Numbered (execAll 1 (oneByOne (bulk.take 3)) observed).2 r.2 ∧
    (∃ reason, r.1.result = .error (.invalidTemplate "/:" reason)) ∧
    r.2.router.routes.keys = ["a", "b"] ∧
    ∃ route, r.2.router.routes.get? "a" = some route ∧ route.template.path = "/a/" ∧
      route.callbacks = [] := by
  dsimp only
  have hknown : ∀ e ∈ bulk, ∃ callback, Prepared observed.stage.handles e.2 callback := by
    have hhandle : observed.stage.handles.get? "handle" = some "b" := by decide +kernel
    simp only [bulk, List.mem_cons, List.not_mem_nil, or_false]
    rintro e (rfl | rfl | rfl | rfl | rfl)
    exacts [⟨_, .invoker hhandle⟩, ⟨_, .invoker hhandle⟩, ⟨_, .value .null⟩,
      ⟨_, .invoker hhandle⟩, ⟨_, .value .null⟩]
  have hadmitted : admitted bulk = bulk.take 3 := by
    have hok : ∀ path ∈ ["/a", "/b", "/a/"], (Template.ofPath path).isOk := by decide +kernel
    have hfault : (Template.ofPath "/:").isOk = false := by decide +kernel
    simp_all [admitted, bulk, Compiles]
  have hrow := addRoutes_one_by_one 0 observed bulk hknown
  rw [hadmitted, Nat.zero_add] at hrow
  obtain ⟨-, hsame, -, -, -, hfault, -, -, hroutes, -⟩ := hrow
  obtain ⟨reason, -, hresult⟩ := hfault _ _ rfl
  obtain ⟨route, ⟨-, htemplate, callback, hcallback, hcallbacks⟩, hget⟩ :=
    hroutes.last (bulk.take 2) ("/a/", .value .null) [] rfl (by simp)
  have hname : RouteName.ofPath "/a/" = "a" := by decide +kernel
  have hpath : route.template.path = "/a/" := Template.path_of_ofPath htemplate
  rw [hname] at hget
  cases hcallback
  refine ⟨hsame, ⟨reason, hresult⟩, ?_, route, hget, hpath, hcallbacks⟩
  rw [hroutes.keys]
  decide +kernel

end Session

end NamedRoutes
