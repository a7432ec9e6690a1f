/-!
# Ordered maps

A map from names to values that remembers the order in which its names first came. Setting a name
again keeps its place. The statements say what each operation does to the names, in order, and to
the value found under a name.
-/
namespace NamedRoutes

structure OrderedMap (α : Type) where
  entries : List (String × α)
  distinct : (entries.map Prod.fst).Nodup

namespace OrderedMap

variable {α β : Type}

/-- Replaces the value at a name, or adds the name at the end. -/
def setEntry (name : String) (value : α) : List (String × α) → List (String × α)
  | [] => [(name, value)]
  | e :: rest => if e.1 = name then (name, value) :: rest else e :: setEntry name value rest

theorem map_fst_setEntry (name : String) (value : α) (es : List (String × α)) :
    (setEntry name value es).map Prod.fst =
      if name ∈ es.map Prod.fst then es.map Prod.fst else es.map Prod.fst ++ [name] := by
  induction es with
  | nil => simp [setEntry]
  | cons e rest ih =>
    by_cases h : e.1 = name
    · simp [setEntry, h]
    · have h' : ¬ name = e.1 := fun hn => h hn.symm
      simp only [setEntry, h, if_false, List.map_cons, ih, List.mem_cons, h', false_or]
      split <;> simp

theorem lookup_setEntry (name key : String) (value : α) (es : List (String × α)) :
    (setEntry name value es).lookup key =
      if key = name then some value else es.lookup key := by
  induction es with
  | nil =>
    by_cases h : key = name
    · simp [setEntry, h]
    · have h' : (key == name) = false := by simpa using h
      simp [setEntry, List.lookup_cons, h, h']
  | cons e rest ih =>
    obtain ⟨k, v⟩ := e
    by_cases hk : k = name
    · subst hk
      by_cases h : key = k
      · simp [setEntry, h]
      · have h' : (key == k) = false := by simpa using h
        simp [setEntry, List.lookup_cons, h, h']
    · by_cases h : key = k
      · subst h
        simp [setEntry, hk]
      · have h' : (key == k) = false := by simpa using h
        simp [setEntry, hk, List.lookup_cons, h', ih]

theorem nodup_setEntry (name : String) (value : α) {es : List (String × α)}
    (h : (es.map Prod.fst).Nodup) : ((setEntry name value es).map Prod.fst).Nodup := by
  rw [map_fst_setEntry]
  split
  · exact h
  · next hn =>
    rw [List.nodup_append]
    refine ⟨h, List.nodup_cons.2 ⟨List.not_mem_nil, List.nodup_nil⟩, ?_⟩
    intro a ha b hb hab
    rw [List.mem_singleton.1 hb] at hab
    exact hn (hab ▸ ha)

def empty : OrderedMap α := ⟨[], List.nodup_nil⟩

def keys (m : OrderedMap α) : List String := m.entries.map Prod.fst

def values (m : OrderedMap α) : List α := m.entries.map Prod.snd

def size (m : OrderedMap α) : Nat := m.entries.length

def get? (m : OrderedMap α) (key : String) : Option α := m.entries.lookup key

def contains (m : OrderedMap α) (key : String) : Bool := (m.get? key).isSome

def insert (m : OrderedMap α) (name : String) (value : α) : OrderedMap α :=
  ⟨setEntry name value m.entries, nodup_setEntry name value m.distinct⟩

/-- A name that is there already keeps its value. -/
def insertIfNew (m : OrderedMap α) (name : String) (value : α) : OrderedMap α :=
  if m.contains name then m else m.insert name value

def erase (m : OrderedMap α) (name : String) : OrderedMap α :=
  ⟨m.entries.filter (·.1 != name), m.distinct.sublist (List.filter_sublist.map _)⟩

def insertAll (m : OrderedMap α) (es : List (String × α)) : OrderedMap α :=
  es.foldl (fun m e => m.insert e.1 e.2) m

def insertAllNew (m : OrderedMap α) (es : List (String × α)) : OrderedMap α :=
  es.foldl (fun m e => m.insertIfNew e.1 e.2) m

def eraseAll (m : OrderedMap α) (names : List String) : OrderedMap α :=
  names.foldl erase m

def ofList (es : List (String × α)) : OrderedMap α := empty.insertAll es

def map (f : α → β) (m : OrderedMap α) : OrderedMap β :=
  ⟨m.entries.map fun e => (e.1, f e.2), by
    simpa [List.map_map, Function.comp_def] using m.distinct⟩

@[ext] theorem ext {m n : OrderedMap α} (h : m.entries = n.entries) : m = n := by
  cases m; cases n; cases h; rfl

@[simp] theorem keys_empty : (empty : OrderedMap α).keys = [] := rfl

@[simp] theorem get?_empty (key : String) : (empty : OrderedMap α).get? key = none := rfl

@[simp] theorem entries_empty : (empty : OrderedMap α).entries = [] := rfl

theorem nodup_keys (m : OrderedMap α) : m.keys.Nodup := m.distinct

theorem contains_iff_mem_keys {m : OrderedMap α} {key : String} :
    m.contains key ↔ key ∈ m.keys := by
  simp only [contains, get?, keys]
  induction m.entries with
  | nil => simp
  | cons e rest ih =>
    obtain ⟨k, v⟩ := e
    by_cases h : key = k
    · subst h; simp
    · have h' : (key == k) = false := by simpa using h
      simp only [List.lookup_cons, h', List.map_cons, List.mem_cons, h, false_or]
      exact ih

theorem get?_eq_none_iff {m : OrderedMap α} {key : String} :
    m.get? key = none ↔ key ∉ m.keys := by
  rw [← contains_iff_mem_keys]
  simp [contains]

@[simp] theorem get?_insert (m : OrderedMap α) (name key : String) (value : α) :
    (m.insert name value).get? key = if key = name then some value else m.get? key :=
  lookup_setEntry name key value m.entries

theorem keys_insert (m : OrderedMap α) (name : String) (value : α) :
    (m.insert name value).keys = if name ∈ m.keys then m.keys else m.keys ++ [name] :=
  map_fst_setEntry name value m.entries

theorem get?_insertIfNew (m : OrderedMap α) (name key : String) (value : α) :
    (m.insertIfNew name value).get? key =
      (m.get? key <|> if key = name then some value else none) := by
  unfold insertIfNew
  split
  · next h =>
    by_cases hk : key = name
    · subst hk
      obtain ⟨v, hv⟩ := Option.isSome_iff_exists.1 h
      simp [hv]
    · simp [hk]
  · next h =>
    have h' : m.get? name = none := by simpa [contains] using h
    by_cases hk : key = name
    · subst hk; simp [h']
    · simp [hk]

theorem keys_insertIfNew (m : OrderedMap α) (name : String) (value : α) :
    (m.insertIfNew name value).keys = if name ∈ m.keys then m.keys else m.keys ++ [name] := by
  unfold insertIfNew
  by_cases h : name ∈ m.keys
  · simp [h, contains_iff_mem_keys.2 h]
  · have h' : ¬ m.contains name = true := fun hc => h (contains_iff_mem_keys.1 hc)
    simp [h, h', keys_insert]

theorem mem_entries_iff {m : OrderedMap α} {key : String} {value : α} :
    (key, value) ∈ m.entries ↔ m.get? key = some value := by
  obtain ⟨es, hd⟩ := m
  simp only [get?]
  induction es with
  | nil => simp
  | cons e rest ih =>
    obtain ⟨k, v⟩ := e
    rw [List.map_cons, List.nodup_cons] at hd
    by_cases h : key = k
    · subst h
      have hn : (key, value) ∉ rest := fun hm => hd.1 (List.mem_map.2 ⟨_, hm, rfl⟩)
      simp [hn, eq_comm]
    · have h' : (key == k) = false := by simpa using h
      simp only [List.mem_cons, Prod.mk.injEq, h, false_and, false_or, List.lookup_cons, h']
      exact ih hd.2

theorem lookup_eq_none {es : List (String × α)} {key : String} (h : key ∉ es.map Prod.fst) :
    es.lookup key = none := by
  rw [List.lookup_eq_none_iff]
  intro e he
  have hne : key ≠ e.1 := fun hk => h (hk ▸ List.mem_map.2 ⟨e, he, rfl⟩)
  simpa using hne

theorem lookup_map_snd (f : α → β) (es : List (String × α)) (key : String) :
    (es.map fun e => (e.1, f e.2)).lookup key = (es.lookup key).map f := by
  induction es with
  | nil => rfl
  | cons e es ih =>
    rw [List.map_cons, List.lookup_cons, List.lookup_cons, ih]
    split <;> rfl

theorem keys_erase (m : OrderedMap α) (name : String) :
    (m.erase name).keys = m.keys.filter (· != name) := by
  rw [keys, erase, keys, List.filter_map]
  rfl

theorem get?_erase (m : OrderedMap α) (name key : String) :
    (m.erase name).get? key = if key = name then none else m.get? key := by
  by_cases h : key = name
  · rw [if_pos h, get?_eq_none_iff, keys_erase]
    simp [h]
  · rw [if_neg h]
    apply Option.ext
    intro value
    rw [← mem_entries_iff, ← mem_entries_iff, erase, List.mem_filter]
    simp [h]

theorem eq_of_lookup_eq {es fs : List (String × α)} (hd : (es.map Prod.fst).Nodup)
    (hk : es.map Prod.fst = fs.map Prod.fst) (hg : ∀ key, es.lookup key = fs.lookup key) :
    es = fs := by
  induction es generalizing fs with
  | nil => exact (List.map_eq_nil_iff.1 hk.symm).symm
  | cons e es ih =>
    cases fs with
    | nil => simp at hk
    | cons f fs =>
      obtain ⟨k, v⟩ := e
      obtain ⟨k', w⟩ := f
      obtain ⟨rfl, hks⟩ := List.cons.inj hk
      obtain ⟨hn, hd'⟩ := List.nodup_cons.1 hd
      have hv : v = w := by simpa using hg k
      have hrest : ∀ key, es.lookup key = fs.lookup key := by
        intro key
        by_cases h : key = k
        · subst h
          rw [lookup_eq_none hn, lookup_eq_none (hks ▸ hn)]
        · have h' : (key == k) = false := by simpa using h
          simpa only [List.lookup_cons, h'] using hg key
      rw [hv, ih hd' hks hrest]

/-- A map is its names, in order, and the values found under them. -/
theorem ext_get? {m n : OrderedMap α} (hk : m.keys = n.keys)
    (hg : ∀ key, m.get? key = n.get? key) : m = n :=
  ext (eq_of_lookup_eq m.distinct hk hg)

/-- Setting a name to its own value changes nothing. -/
theorem insert_of_get? {m : OrderedMap α} {name : String} {value : α}
    (h : m.get? name = some value) : m.insert name value = m := by
  refine ext_get? ?_ fun key => ?_
  · have hmem : name ∈ m.keys := contains_iff_mem_keys.1 (by rw [contains, h]; rfl)
    rw [keys_insert, if_pos hmem]
  · rw [get?_insert]
    split
    · next hk => rw [hk, h]
    · rfl

theorem insert_insert (m : OrderedMap α) (name : String) (a b : α) :
    (m.insert name a).insert name b = m.insert name b := by
  refine ext_get? ?_ fun key => ?_
  · have hmem : name ∈ (m.insert name a).keys :=
      contains_iff_mem_keys.1 (by rw [contains, get?_insert, if_pos rfl]; rfl)
    rw [keys_insert, if_pos hmem, keys_insert, keys_insert]
  · rw [get?_insert, get?_insert, get?_insert]
    split <;> rfl

@[simp] theorem keys_map (f : α → β) (m : OrderedMap α) : (m.map f).keys = m.keys := by
  rw [keys, map, List.map_map]
  rfl

@[simp] theorem get?_map (f : α → β) (m : OrderedMap α) (key : String) :
    (m.map f).get? key = (m.get? key).map f :=
  lookup_map_snd f m.entries key

theorem map_insert (f : α → β) (m : OrderedMap α) (name : String) (value : α) :
    (m.insert name value).map f = (m.map f).insert name (f value) := by
  refine ext_get? ?_ fun key => ?_
  · simp only [keys_map, keys_insert]
  · simp only [get?_map, get?_insert]
    split <;> rfl

theorem setEntry_of_not_mem {name : String} (value : α) {es : List (String × α)}
    (h : name ∉ es.map Prod.fst) : setEntry name value es = es ++ [(name, value)] := by
  induction es with
  | nil => rfl
  | cons e es ih =>
    rw [List.map_cons, List.mem_cons, not_or] at h
    rw [setEntry, if_neg (Ne.symm h.1), ih h.2, List.cons_append]

@[simp] theorem insertAll_nil (m : OrderedMap α) : m.insertAll [] = m := rfl

@[simp] theorem insertAll_cons (m : OrderedMap α) (e : String × α) (es : List (String × α)) :
    m.insertAll (e :: es) = (m.insert e.1 e.2).insertAll es := rfl

theorem insertAll_append (m : OrderedMap α) (es fs : List (String × α)) :
    m.insertAll (es ++ fs) = (m.insertAll es).insertAll fs :=
  List.foldl_append

theorem keys_insertAll (m : OrderedMap α) (es : List (String × α)) :
    (m.insertAll es).keys = m.keys ++ ((es.map Prod.fst).filter (· ∉ m.keys)).eraseDups := by
  induction es generalizing m with
  | nil => simp
  | cons e es ih =>
    rw [insertAll_cons, ih, keys_insert, List.map_cons]
    by_cases h : e.1 ∈ m.keys
    · simp [h]
    · rw [if_neg h, List.filter_cons_of_pos (by simpa using h), List.eraseDups_cons,
        List.filter_filter, List.append_assoc, List.singleton_append]
      congr 3
      apply List.filter_congr
      intro x _
      by_cases hx : x = e.1 <;> simp [hx]

theorem get?_insertAll (m : OrderedMap α) (es : List (String × α)) (key : String) :
    (m.insertAll es).get? key = (es.reverse.lookup key).or (m.get? key) := by
  induction es generalizing m with
  | nil => rfl
  | cons e es ih =>
    rw [insertAll_cons, ih, get?_insert, List.reverse_cons, List.lookup_append, Option.or_assoc]
    obtain ⟨k, v⟩ := e
    by_cases h : key = k
    · simp [h]
    · have h' : (key == k) = false := by simpa using h
      simp [h, List.lookup_cons, h']

theorem entries_insertAll_of_nodup {m : OrderedMap α} {es : List (String × α)}
    (h : (m.keys ++ es.map Prod.fst).Nodup) : (m.insertAll es).entries = m.entries ++ es := by
  induction es generalizing m with
  | nil => simp
  | cons e es ih =>
    have he : e.1 ∉ m.keys := fun hm =>
      (List.nodup_append.1 h).2.2 e.1 hm e.1 List.mem_cons_self rfl
    have hi : (m.insert e.1 e.2).entries = m.entries ++ [e] := setEntry_of_not_mem e.2 he
    have hk : (m.insert e.1 e.2).keys = m.keys ++ [e.1] := by rw [keys_insert, if_neg he]
    rw [insertAll_cons, ih (by simpa [hk] using h), hi, List.append_assoc, List.singleton_append]

@[simp] theorem insertAllNew_nil (m : OrderedMap α) : m.insertAllNew [] = m := rfl

@[simp] theorem insertAllNew_cons (m : OrderedMap α) (e : String × α) (es : List (String × α)) :
    m.insertAllNew (e :: es) = (m.insertIfNew e.1 e.2).insertAllNew es := rfl

theorem insertAllNew_append (m : OrderedMap α) (es fs : List (String × α)) :
    m.insertAllNew (es ++ fs) = (m.insertAllNew es).insertAllNew fs :=
  List.foldl_append

theorem eraseDups_of_nodup {names : List String} (h : names.Nodup) : names.eraseDups = names := by
  induction names with
  | nil => rfl
  | cons name names ih =>
    obtain ⟨hn, hnames⟩ := List.nodup_cons.1 h
    have hkept : names.filter (fun n => !n == name) = names := by
      rw [List.filter_eq_self]
      intro n hmem
      simpa using fun he : n = name => hn (he ▸ hmem)
    rw [List.eraseDups_cons, hkept, ih hnames]

/-- Names that are new follow those that are there, in the order in which they first come. -/
theorem keys_insertAllNew (m : OrderedMap α) (es : List (String × α)) :
    (m.insertAllNew es).keys = (m.keys ++ es.map Prod.fst).eraseDups := by
  induction es generalizing m with
  | nil => rw [insertAllNew_nil, List.map_nil, List.append_nil, eraseDups_of_nodup m.nodup_keys]
  | cons e es ih =>
    rw [insertAllNew_cons, ih, keys_insertIfNew, List.map_cons]
    split
    · next h => simp [List.eraseDups_append, List.removeAll, h]
    · rw [List.append_assoc, List.singleton_append]

/-- A name that is there keeps its value, and a new one takes the first that is given. -/
theorem get?_insertAllNew (m : OrderedMap α) (es : List (String × α)) (key : String) :
    (m.insertAllNew es).get? key = (m.get? key).or (es.lookup key) := by
  induction es generalizing m with
  | nil => rw [List.lookup_nil, Option.or_none, insertAllNew_nil]
  | cons e es ih =>
    obtain ⟨k, v⟩ := e
    rw [insertAllNew_cons, ih, get?_insertIfNew, List.lookup_cons]
    by_cases h : key = k
    · cases m.get? key <;> simp [h]
    · have h' : (key == k) = false := by simpa using h
      cases m.get? key <;> simp [h, h']

/-- What has no new name adds nothing. -/
theorem insertAllNew_of_subset {m : OrderedMap α} {es : List (String × α)}
    (h : ∀ e ∈ es, e.1 ∈ m.keys) : m.insertAllNew es = m := by
  induction es with
  | nil => rfl
  | cons e es ih =>
    obtain ⟨he, hes⟩ := List.forall_mem_cons.1 h
    have hsame : m.insertIfNew e.1 e.2 = m := if_pos (contains_iff_mem_keys.2 he)
    rw [insertAllNew_cons, hsame, ih hes]

/-- Filling in one map after another is filling in what the second is when it is filled in. -/
theorem insertAllNew_insertAllNew (m n : OrderedMap α) (es : List (String × α)) :
    m.insertAllNew (n.insertAllNew es).entries = (m.insertAllNew n.entries).insertAllNew es := by
  induction es generalizing n with
  | nil => rfl
  | cons e es ih =>
    rw [insertAllNew_cons, ih, insertAllNew_cons]
    congr 1
    by_cases h : e.1 ∈ n.keys
    · have hkeys : e.1 ∈ (m.insertAllNew n.entries).keys := by
        rw [keys_insertAllNew, List.mem_eraseDups]
        exact List.mem_append_right _ h
      rw [insertIfNew, insertIfNew, if_pos (contains_iff_mem_keys.2 h),
        if_pos (contains_iff_mem_keys.2 hkeys)]
    · have hentries : (n.insertIfNew e.1 e.2).entries = n.entries ++ [e] := by
        rw [insertIfNew, if_neg fun hc => h (contains_iff_mem_keys.1 hc)]
        exact setEntry_of_not_mem e.2 h
      rw [hentries, insertAllNew_append]
      rfl

/-- A repeated name keeps its first place. -/
theorem keys_ofList (es : List (String × α)) :
    (ofList es : OrderedMap α).keys = (es.map Prod.fst).eraseDups := by
  rw [ofList, keys_insertAll, keys_empty, List.nil_append, List.filter_eq_self.2 (by simp)]

/-- A repeated name takes its last value. -/
theorem get?_ofList (es : List (String × α)) (key : String) :
    (ofList es).get? key = es.reverse.lookup key := by
  rw [ofList, get?_insertAll]
  simp

theorem entries_ofList_of_nodup {es : List (String × α)} (h : (es.map Prod.fst).Nodup) :
    (ofList es).entries = es := by
  rw [ofList, entries_insertAll_of_nodup (by simpa using h), entries_empty, List.nil_append]

end OrderedMap

end NamedRoutes
