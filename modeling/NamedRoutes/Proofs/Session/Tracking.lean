import NamedRoutes.Proofs.Session.Chronicle
import NamedRoutes.Session.Run

/-!
# Keeping track of lifecycles

A session tracks a chronicle when it stores, for every route, the lifecycle that was the first to be
given to the route, initialized if and only if the chronicle says so. Each kind of event, with the
change of the session that goes with it, is lawful in a session that tracks its past, and leaves one
that tracks the event as well. A lifecycle that is stored is never replaced by these changes, but
only used up.
-/
namespace NamedRoutes

/-- What a stored lifecycle may have become: the same one, further used up, and initialized for good
once it is. -/
structure Lifecycle.Continues {σ : Type} (l l' : Lifecycle σ) : Prop where
  id : l'.id = l.id
  initialized : l.initialized → l'.initialized
  steps : ∀ hook, (l'.plan hook).steps <:+ (l.plan hook).steps
  outcomes : ∀ hook, (l'.plan hook).outcomes <:+ (l.plan hook).outcomes

namespace Lifecycle.Continues

variable {σ : Type} {l l' l'' : Lifecycle σ}

theorem refl (l : Lifecycle σ) : l.Continues l :=
  ⟨rfl, fun h => h, fun _ => List.suffix_rfl, fun _ => List.suffix_rfl⟩

theorem trans (h : l.Continues l') (h' : l'.Continues l'') : l.Continues l'' where
  id := h'.id.trans h.id
  initialized := h'.initialized ∘ h.initialized
  steps hook := (h'.steps hook).trans (h.steps hook)
  outcomes hook := (h'.outcomes hook).trans (h.outcomes hook)

theorem setPlan (l : Lifecycle σ) {hook : Hook} {plan : HookPlan σ}
    (hsteps : plan.steps <:+ (l.plan hook).steps)
    (houtcomes : plan.outcomes <:+ (l.plan hook).outcomes) : l.Continues (l.setPlan hook plan) := by
  refine ⟨by simp, by simp, ?_, ?_⟩
  · intro other
    cases hook <;> cases other <;> first | exact hsteps | exact List.suffix_rfl
  · intro other
    cases hook <;> cases other <;> first | exact houtcomes | exact List.suffix_rfl

theorem markInitialized (l : Lifecycle σ) : l.Continues { l with initialized := true } :=
  ⟨rfl, fun _ => rfl, fun hook => by cases hook <;> exact List.suffix_rfl,
    fun hook => by cases hook <;> exact List.suffix_rfl⟩

end Lifecycle.Continues

namespace Session

open NamedRoutes.Action Event

variable {s t u : Session} {past events : List Event} {e : Event} {route : String}
  {first l l' : Lifecycle Step}

/-- The lifecycle is stored for the route of which it was the first. -/
structure StandsFor (past : List Event) (route : String) (first l : Lifecycle Step) : Prop where
  continues : first.Continues l
  shows : Shows past route first l.view

/-- The session stores, under each name, what its chronicle says. -/
structure Tracks (past : List Event) (s : Session) : Prop where
  handles : ∀ handle, s.stage.handles.get? handle = lastRoute past handle
  stored : ∀ {route l}, s.stage.lifecycles.get? route = some l →
    ∃ first, firstEnrolled past route = some first ∧ StandsFor past route first l
  vacant : ∀ {route}, s.stage.lifecycles.get? route = none →
    firstEnrolled past route = none ∧ ¬ Told past route

def Persists (s t : Session) : Prop :=
  ∀ route l, s.stage.lifecycles.get? route = some l →
    ∃ l', t.stage.lifecycles.get? route = some l' ∧ l.Continues l'

/-- From one session to another the events happen. -/
structure Leads (s : Session) (events : List Event) (t : Session) : Prop where
  persists : Persists s t
  lawful : ∀ past, Tracks past s → AllLawful past events
  tracks : ∀ past, Tracks past s → Tracks (past ++ events) t

theorem Persists.refl (s : Session) : Persists s s := fun _ l hl => ⟨l, hl, .refl l⟩

theorem Persists.trans (h : Persists s t) (h' : Persists t u) : Persists s u := by
  intro route l hl
  obtain ⟨l', hl', hcont⟩ := h route l hl
  obtain ⟨l'', hl'', hcont'⟩ := h' route l' hl'
  exact ⟨l'', hl'', hcont.trans hcont'⟩

theorem Leads.nothing (hhandles : t.stage.handles = s.stage.handles)
    (hlifecycles : t.stage.lifecycles = s.stage.lifecycles) : Leads s [] t where
  persists := by
    intro route l hl
    exact ⟨l, by rw [hlifecycles, hl], .refl l⟩
  lawful _ _ := trivial
  tracks past h := by
    rw [List.append_nil]
    refine ⟨by rw [hhandles]; exact h.handles, ?_, ?_⟩ <;> rw [hlifecycles]
    · exact h.stored
    · exact h.vacant

theorem Leads.trans {events' : List Event} (h : Leads s events t) (h' : Leads t events' u) :
    Leads s (events ++ events') u where
  persists := h.persists.trans h'.persists
  lawful past hpast :=
    (allLawful_append _ _ _).2 ⟨h.lawful past hpast, h'.lawful _ (h.tracks past hpast)⟩
  tracks past hpast := by
    rw [← List.append_assoc]
    exact h'.tracks _ (h.tracks past hpast)

theorem get?_setLifecycle (route : String) (l : Lifecycle Step) (s : Session) (name : String) :
    (setLifecycle route l s).2.stage.lifecycles.get? name =
      if name = route then some l else s.stage.lifecycles.get? name :=
  OrderedMap.get?_insert s.stage.lifecycles route name l

theorem persists_setLifecycle (hl : s.stage.lifecycles.get? route = some l)
    (hcont : l.Continues l') : Persists s (setLifecycle route l' s).2 := by
  intro name found hfound
  rw [get?_setLifecycle]
  by_cases hname : name = route
  · subst hname
    rw [hl] at hfound
    cases hfound
    exact ⟨l', if_pos rfl, hcont⟩
  · exact ⟨found, by rw [if_neg hname, hfound], .refl found⟩

/-- After an event that enrolls nothing, what was stored is stored as the event leaves it. -/
theorem Tracks.concat (h : Tracks past s) (henrolled : ∀ r handle l, e ≠ .enrolled r handle l)
    (hhandles : t.stage.handles = s.stage.handles)
    (hstored : ∀ {r l'}, t.stage.lifecycles.get? r = some l' →
      ∃ l, s.stage.lifecycles.get? r = some l ∧ l.Continues l' ∧
        ∀ first, Shows past r first l.view → Shows (past ++ [e]) r first l'.view)
    (hvacant : ∀ {r}, t.stage.lifecycles.get? r = none →
      s.stage.lifecycles.get? r = none ∧ ¬ e.TellsInitialized r) : Tracks (past ++ [e]) t where
  handles handle := by
    have hnone : lastRoute [e] handle = none := by
      cases e <;> first | rfl | exact absurd rfl (henrolled _ _ _)
    rw [hhandles, h.handles, lastRoute_concat, hnone, Option.none_or]
  stored := by
    intro r l' hl'
    obtain ⟨l, hl, hcont, hshows⟩ := hstored hl'
    obtain ⟨first, hfirst, hstands⟩ := h.stored hl
    exact ⟨first, by rw [firstEnrolled_concat, hfirst, Option.some_or],
      hstands.continues.trans hcont, hshows first hstands.shows⟩
  vacant := by
    intro r hr
    obtain ⟨hs, htells⟩ := hvacant hr
    obtain ⟨hfirst, htold⟩ := h.vacant hs
    have hnone : firstEnrolled [e] r = none := by
      cases e <;> first | rfl | exact absurd rfl (henrolled _ _ _)
    refine ⟨by rw [firstEnrolled_concat, hfirst, Option.none_or, hnone], fun h => ?_⟩
    exact (told_concat.1 h).elim htold htells

theorem leads_event (hlawful : ∀ past, Tracks past s → e.Lawful past)
    (henrolled : ∀ r handle l, e ≠ .enrolled r handle l)
    (htells : ∀ r, e.TellsInitialized r →
      ∃ l, s.stage.lifecycles.get? r = some l ∧ l.initialized) : Leads s [e] s where
  persists := .refl s
  lawful past h := ⟨hlawful past h, trivial⟩
  tracks past h := by
    refine h.concat henrolled rfl ?_ ?_
    · intro r l hl
      refine ⟨l, hl, .refl l, fun first hshows => hshows.concat fun he => ?_⟩
      obtain ⟨m, hm, hinit⟩ := htells r he
      rw [hl] at hm
      cases hm
      exact hinit
    · intro r hr
      refine ⟨hr, fun he => ?_⟩
      obtain ⟨l, hl, -⟩ := htells r he
      rw [hr] at hl
      cases hl

/-- A change that shows in no event leaves the flag of a lifecycle, unless it is a plain one. -/
theorem leads_setLifecycle (hl : s.stage.lifecycles.get? route = some l) (hcont : l.Continues l')
    (hflag : l'.initialized → l.initialized ∨ l.id = none) :
    Leads s [] (setLifecycle route l' s).2 where
  persists := persists_setLifecycle hl hcont
  lawful _ _ := trivial
  tracks past h := by
    rw [List.append_nil]
    refine ⟨h.handles, ?_, ?_⟩
    · intro r m hm
      rw [get?_setLifecycle] at hm
      split at hm
      · next hr =>
        subst hr
        cases hm
        obtain ⟨first, hfirst, hstands⟩ := h.stored hl
        refine ⟨first, hfirst, hstands.continues.trans hcont, hcont.id.trans hstands.shows.id,
          fun ht => hcont.initialized (hstands.shows.after ht), fun hinit hid => ?_⟩
        rcases hflag hinit with hflag | hplain
        · exact hstands.shows.before hflag fun h => hid (hcont.id.trans h)
        · exact absurd (hcont.id.trans hplain) hid
      · exact h.stored hm
    · intro r hr
      rw [get?_setLifecycle] at hr
      split at hr
      · cases hr
      · exact h.vacant hr

theorem leads_setPlan {hook : Hook} {plan : HookPlan Step}
    (hl : s.stage.lifecycles.get? route = some l) (hsteps : plan.steps <:+ (l.plan hook).steps)
    (houtcomes : plan.outcomes <:+ (l.plan hook).outcomes) :
    Leads s [] (setLifecycle route (l.setPlan hook plan) s).2 := by
  refine leads_setLifecycle hl (.setPlan l hsteps houtcomes) ?_
  rw [Lifecycle.initialized_setPlan]
  exact .inl

theorem leads_returns (id : String) (hl : s.stage.lifecycles.get? route = some l) :
    Leads s [.ends .firstVisit route id none]
      (setLifecycle route { l with initialized := true } s).2 where
  persists := persists_setLifecycle hl (.markInitialized l)
  lawful _ _ := ⟨trivial, trivial⟩
  tracks past h := by
    refine h.concat (by simp) rfl ?_ ?_
    · intro r m hm
      rw [get?_setLifecycle] at hm
      split at hm
      · next hr =>
        subst hr
        cases hm
        refine ⟨l, hl, .markInitialized l, fun first hshows => ⟨hshows.id, fun _ => rfl, ?_⟩⟩
        exact fun _ _ => .inr ⟨id, List.mem_append_right _ List.mem_cons_self⟩
      · next hr =>
        refine ⟨m, hm, .refl m, fun first hshows => hshows.concat fun he => ?_⟩
        exact absurd (he : route = r).symm hr
    · intro r hr
      rw [get?_setLifecycle] at hr
      split at hr
      · cases hr
      · next hne => exact ⟨hr, fun he => hne (he : route = r).symm⟩

theorem leads_shown (route : String) (s : Session) :
    Leads s [.shown route ((s.stage.lifecycles.get? route).map Lifecycle.view)] s := by
  refine leads_event ?_ (by simp) ?_
  · intro past h
    change Option.Rel _ _ _
    cases hl : s.stage.lifecycles.get? route with
    | none =>
      rw [(h.vacant hl).1]
      exact .none
    | some l =>
      obtain ⟨first, hfirst, hstands⟩ := h.stored hl
      rw [hfirst]
      exact .some hstands.shows
  · intro r he
    cases hl : s.stage.lifecycles.get? route with
    | none =>
      rw [hl] at he
      cases he
    | some l =>
      rw [hl] at he
      obtain ⟨rfl, hinit⟩ := he
      exact ⟨l, hl, hinit⟩

theorem leads_begins {hook : Hook} {id : String} (hl : s.stage.lifecycles.get? route = some l)
    (hid : l.id = some id) (hhook : l.initialized = (hook == .revisit)) :
    Leads s [.begins hook route id] s := by
  refine leads_event ?_ (by simp) (fun r he => by cases he)
  intro past h
  obtain ⟨first, hfirst, hstands⟩ := h.stored hl
  have hshows := hstands.shows
  refine ⟨first, hfirst, by rw [← hshows.id, ← hid]; rfl, ?_⟩
  cases hook with
  | firstVisit =>
    have hflag : ¬ l.initialized := by simp [hhook]
    refine ⟨?_, fun hret => hflag (hshows.after (.inr hret.told))⟩
    rw [← Bool.not_eq_true]
    exact fun hinit => hflag (hshows.after (.inl hinit))
  | revisit => exact hshows.before hhook (by rw [Lifecycle.view, hid]; simp)

theorem leads_ends {hook : Hook} (id : String) {fault : Option Fault}
    (h : hook = .revisit ∨ fault ≠ none) (s : Session) : Leads s [.ends hook route id fault] s := by
  refine leads_event (fun _ _ => trivial) (by simp) ?_
  intro r he
  rcases h with rfl | h
  · cases he
  · cases hook <;> cases fault <;> simp [TellsInitialized] at he h

theorem enroll_apply (name handle : String) (lifecycle : Lifecycle Step) (s : Session) :
    enroll name handle lifecycle s =
      (.ok ((s.stage.lifecycles.insertIfNew name lifecycle).get? name),
        { s with
          stage.lifecycles := s.stage.lifecycles.insertIfNew name lifecycle
          stage.handles := s.stage.handles.insert handle name }) :=
  rfl

theorem get?_enroll (name handle : String) (lifecycle : Lifecycle Step) (s : Session)
    (route : String) :
    (enroll name handle lifecycle s).2.stage.lifecycles.get? route =
      (s.stage.lifecycles.get? route).or (if route = name then some lifecycle else none) := by
  rw [enroll_apply, OrderedMap.get?_insertIfNew]
  cases s.stage.lifecycles.get? route <;> rfl

theorem leads_enrolled (name handle : String) (lifecycle : Lifecycle Step) (s : Session) :
    Leads s [.enrolled name handle lifecycle] (enroll name handle lifecycle s).2 where
  persists := by
    intro route l hl
    exact ⟨l, by rw [get?_enroll, hl, Option.some_or], .refl l⟩
  lawful _ _ := ⟨trivial, trivial⟩
  tracks past h := by
    have htold : ∀ route, ¬ (enrolled name handle lifecycle).TellsInitialized route := fun _ h => h
    refine ⟨fun handle' => ?_, ?_, ?_⟩
    · change (s.stage.handles.insert handle name).get? handle' = _
      rw [OrderedMap.get?_insert, lastRoute_concat, h.handles]
      by_cases hh : handle = handle'
      · simp [lastRoute, hh]
      · simp [lastRoute, hh, Ne.symm hh]
    · intro route l hl
      rw [get?_enroll] at hl
      rw [firstEnrolled_concat]
      cases hfound : s.stage.lifecycles.get? route with
      | some found =>
        rw [hfound] at hl
        cases hl
        obtain ⟨first, hfirst, hstands⟩ := h.stored hfound
        exact ⟨first, by rw [hfirst, Option.some_or], hstands.continues,
          hstands.shows.concat fun he => absurd he (htold route)⟩
      | none =>
        obtain ⟨hfirst, hnot⟩ := h.vacant hfound
        rw [hfound, Option.none_or] at hl
        split at hl
        · next hname =>
          cases hl
          refine ⟨lifecycle, ?_, .refl lifecycle, rfl, ?_, fun hinit _ => .inl hinit⟩
          · rw [hfirst, Option.none_or]
            simp [firstEnrolled, hname]
          · rintro (hinit | ht)
            · exact hinit
            · exact absurd (told_concat.1 ht) (not_or.2 ⟨hnot, htold route⟩)
        · cases hl
    · intro route hroute
      rw [get?_enroll, Option.or_eq_none_iff] at hroute
      obtain ⟨hfirst, hnot⟩ := h.vacant hroute.1
      have hname : name ≠ route := by
        rintro rfl
        simp at hroute
      refine ⟨?_, fun ht => absurd (told_concat.1 ht) (not_or.2 ⟨hnot, htold route⟩)⟩
      rw [firstEnrolled_concat, hfirst]
      simp [firstEnrolled, hname]

end Session

end NamedRoutes
