import NamedRoutes.Template.Basic

/-!
# Reading templates

A template is read in one pass. `:` begins a parameter, whose name runs to the next `/` or `?` and
is neither empty nor interrupted by another `:` or `*`. `*` begins a wildcard, whose name, possibly
empty, is made of word characters and `-` and ends in the same way. `?` must come last.
-/
namespace NamedRoutes

namespace Template

/-- Why a text is not a template. -/
inductive Violation where
  | invalidCharacter
  | wildcardNotLast
  | queryNotLast
  deriving DecidableEq

def Violation.text : Violation → String
  | invalidCharacter => "Invalid character in route path"
  | wildcardNotLast => "Wildcards must end a route or be followed by a path marker"
  | queryNotLast => "Cannot have additional path/parameters after a query string marker"

def scanParam (s : List Char) : Except Violation Item :=
  let name := s.takeWhile isOrdinary
  if name = [] then .error .invalidCharacter
  else
    match (s.dropWhile isOrdinary).head? with
    | none | some '/' => .ok (.hole .param (String.ofList name))
    | some '?' => .ok (.hole .paramBeforeQuery (String.ofList name))
    | some _ => .error .invalidCharacter

def scanWildcard (s : List Char) : Except Violation Item :=
  let name := s.takeWhile isWildcardNameChar
  match (s.dropWhile isWildcardNameChar).head? with
  | none | some '/' | some '?' => .ok (.hole .wildcard (String.ofList name))
  | some _ => .error .wildcardNotLast

theorem length_dropWhile_lt {p : Char → Bool} (c : Char) (s : List Char) :
    (s.dropWhile p).length < (c :: s).length :=
  Nat.lt_succ_of_le (List.dropWhile_sublist p).length_le

def scan : List Char → Except Violation (List Item)
  | [] => .ok []
  | c :: s =>
    if c = '/' then (scan s).map (.separator :: ·)
    else if c = ':' then
      match scanParam s with
      | .ok item => (scan (s.dropWhile isOrdinary)).map (item :: ·)
      | .error violation => .error violation
    else if c = '*' then
      match scanWildcard s with
      | .ok item => (scan (s.dropWhile isWildcardNameChar)).map (item :: ·)
      | .error violation => .error violation
    else if c = '?' then
      if s = [] then .ok [.query] else .error .queryNotLast
    else (scan s).map (.literal c :: ·)
termination_by s => s.length
decreasing_by
  all_goals first | exact Nat.lt_succ_self _ | exact length_dropWhile_lt c s

@[simp] theorem scan_nil : scan [] = .ok [] := by rw [scan]

@[simp] theorem scan_slash (s : List Char) :
    scan ('/' :: s) = (scan s).map (.separator :: ·) := by
  rw [scan, if_pos rfl]

/-- How the next item, or the end, shows in the text. -/
def nextChar : Option Item → Option Char
  | some item => item.written.head?
  | none => none

theorem scanParam_eq_ok {s : List Char} {item : Item} (h : scanParam s = .ok item) :
    ∃ kind, kind ≠ .wildcard ∧ item = .hole kind (String.ofList (s.takeWhile isOrdinary)) ∧
      s.takeWhile isOrdinary ≠ [] ∧
      (s.dropWhile isOrdinary).head? ∈ kind.followers.map nextChar := by
  unfold scanParam at h
  by_cases hn : s.takeWhile isOrdinary = []
  · simp [hn] at h
  · simp only [hn, if_false] at h
    split at h
    · exact ⟨.param, by decide, (Except.ok.inj h).symm, hn, by simp [*, Hole.followers, nextChar]⟩
    · exact ⟨.param, by decide, (Except.ok.inj h).symm, hn,
        by simp [*, Hole.followers, nextChar, Item.written]⟩
    · exact ⟨.paramBeforeQuery, by decide, (Except.ok.inj h).symm, hn,
        by simp [*, Hole.followers, nextChar, Item.written]⟩
    · cases h

theorem scanParam_of_followers {s : List Char} {kind : Hole} (hk : kind ≠ .wildcard)
    (hn : s.takeWhile isOrdinary ≠ [])
    (hf : (s.dropWhile isOrdinary).head? ∈ kind.followers.map nextChar) :
    scanParam s = .ok (.hole kind (String.ofList (s.takeWhile isOrdinary))) := by
  unfold scanParam
  simp only [hn, if_false]
  cases kind with
  | wildcard => exact absurd rfl hk
  | param =>
    have hf' : (s.dropWhile isOrdinary).head? = none ∨
        (s.dropWhile isOrdinary).head? = some '/' := by
      simpa [Hole.followers, nextChar, Item.written] using hf
    rcases hf' with hf | hf <;> simp [hf]
  | paramBeforeQuery =>
    have hf' : (s.dropWhile isOrdinary).head? = some '?' := by
      simpa [Hole.followers, nextChar, Item.written] using hf
    simp [hf']

theorem scanWildcard_eq_ok_iff {s : List Char} {item : Item} :
    scanWildcard s = .ok item ↔
      item = .hole .wildcard (String.ofList (s.takeWhile isWildcardNameChar)) ∧
        (s.dropWhile isWildcardNameChar).head? ∈ Hole.wildcard.followers.map nextChar := by
  have hnext : (s.dropWhile isWildcardNameChar).head? ∈ Hole.wildcard.followers.map nextChar ↔
      (s.dropWhile isWildcardNameChar).head? = none ∨
        (s.dropWhile isWildcardNameChar).head? = some '/' ∨
          (s.dropWhile isWildcardNameChar).head? = some '?' := by
    simp [Hole.followers, nextChar, Item.written]
  rw [hnext, scanWildcard]
  split
  · next h => simp [h, eq_comm (a := item)]
  · next h => simp [h, eq_comm (a := item)]
  · next h => simp [h, eq_comm (a := item)]
  · next hs hq h => simpa [h] using fun _ => ⟨hs, hq⟩

theorem scanParam_eq_error {s : List Char} {v : Violation} (h : scanParam s = .error v) :
    v = .invalidCharacter := by
  simp only [scanParam] at h
  split at h
  · exact (Except.error.inj h).symm
  · split at h <;> cases h
    rfl

theorem scanWildcard_eq_error {s : List Char} {v : Violation} (h : scanWildcard s = .error v) :
    v = .wildcardNotLast := by
  simp only [scanWildcard] at h
  split at h <;> cases h
  rfl

theorem head?_writtenItems (items : List Item) :
    (writtenItems items).head? = nextChar items.head? := by
  cases items with
  | nil => rfl
  | cons item rest => cases item <;> rfl

/-- The mark that a text goes on with tells the item that it is read as. -/
theorem head?_mem_followers {kind : Hole} {items : List Item} (hw : Item.WellFormed items)
    (h : nextChar items.head? ∈ kind.followers.map nextChar) : items.head? ∈ kind.followers := by
  cases items with
  | nil => cases kind <;> simp_all [Hole.followers, nextChar, Item.written]
  | cons item rest =>
    cases item with
    | literal c =>
      have hc := isOrdinary_iff.1 hw.1
      cases kind <;> simp_all [Hole.followers, nextChar, Item.written]
    | hole k name =>
      cases kind <;> cases k <;> simp_all [Hole.followers, nextChar, Item.written, Hole.marker]
    | _ => cases kind <;> simp_all [Hole.followers, nextChar, Item.written]

theorem exists_of_map_eq_ok {ε α β : Type} {f : α → β} {e : Except ε α} {b : β}
    (h : e.map f = .ok b) : ∃ a, e = .ok a ∧ f a = b := by
  cases e with
  | error _ => cases h
  | ok a => exact ⟨a, rfl, Except.ok.inj h⟩

theorem marker_of_ne_wildcard {kind : Hole} (hk : kind ≠ .wildcard) : kind.marker = ':' := by
  cases kind with
  | wildcard => exact absurd rfl hk
  | _ => rfl

theorem allowsName_takeWhile {kind : Hole} (hk : kind ≠ .wildcard) {s : List Char}
    (hn : s.takeWhile isOrdinary ≠ []) : kind.AllowsName (s.takeWhile isOrdinary) := by
  have ho : ∀ c ∈ s.takeWhile isOrdinary, isOrdinary c := List.all_eq_true.1 List.all_takeWhile
  cases kind with
  | wildcard => exact absurd rfl hk
  | _ => exact ⟨hn, ho⟩

/-- The items that are read are well-formed, and they are written as the text. -/
theorem scan_sound {s : List Char} {items : List Item} (h : scan s = .ok items) :
    Item.WellFormed items ∧ writtenItems items = s := by
  fun_induction scan s generalizing items with
  | case1 => cases h; simp
  | case2 s ih =>
    obtain ⟨rest, hr, rfl⟩ := exists_of_map_eq_ok h
    obtain ⟨hw, rfl⟩ := ih hr
    exact ⟨Item.wellFormed_separator.2 hw, rfl⟩
  | case3 s item hp _ ih =>
    obtain ⟨rest, hr, rfl⟩ := exists_of_map_eq_ok h
    obtain ⟨hw, hs⟩ := ih hr
    obtain ⟨kind, hk, rfl, hn, hf⟩ := scanParam_eq_ok hp
    rw [← hs, head?_writtenItems] at hf
    refine ⟨⟨⟨?_, head?_mem_followers hw hf⟩, hw⟩, ?_⟩
    · simpa using allowsName_takeWhile hk hn
    · simp [Item.written, marker_of_ne_wildcard hk, hs]
  | case4 => cases h
  | case5 s item hp _ _ ih =>
    obtain ⟨rest, hr, rfl⟩ := exists_of_map_eq_ok h
    obtain ⟨hw, hs⟩ := ih hr
    obtain ⟨rfl, hf⟩ := scanWildcard_eq_ok_iff.1 hp
    rw [← hs, head?_writtenItems] at hf
    refine ⟨⟨⟨?_, head?_mem_followers hw hf⟩, hw⟩, ?_⟩
    · simpa [Hole.AllowsName] using List.all_eq_true.1 List.all_takeWhile
    · simp [Item.written, Hole.marker, hs]
  | case6 => cases h
  | case7 => cases h; simp [Item.written]
  | case8 => cases h
  | case9 c s h₁ h₂ h₃ h₄ ih =>
    obtain ⟨rest, hr, rfl⟩ := exists_of_map_eq_ok h
    obtain ⟨hw, rfl⟩ := ih hr
    exact ⟨⟨isOrdinary_iff.2 ⟨h₁, h₄, h₂, h₃⟩, hw⟩, rfl⟩

def read (path : String) : Except Violation Template :=
  match h : scan path.toList with
  | .ok items => .ok ⟨items, (scan_sound h).1⟩
  | .error violation => .error violation

theorem read_eq_ok_iff {path : String} {t : Template} :
    read path = .ok t ↔ scan path.toList = .ok t.items := by
  unfold read
  split
  · next items h => simp [h, Template.ext_iff]
  · next h => simp [h]

theorem read_eq_error_iff {path : String} {v : Violation} :
    read path = .error v ↔ scan path.toList = .error v := by
  unfold read
  split
  · next h => simp [h]
  · next h => simp [h]

end Template

end NamedRoutes
