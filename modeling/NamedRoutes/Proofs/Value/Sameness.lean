import Mathlib.Algebra.Order.Field.Rat
import Mathlib.Data.List.Perm.Subperm
import Mathlib.Order.WithBot
import Mathlib.Tactic.Ring
import NamedRoutes.Value.Equality

/-!
# Values that are the same

Values are the same when they have the same shape, but for the order of the pairs in dictionaries,
and the same texts and numbers in it. A number is taken for what it is worth, whether it is written
as a truth value, as a whole number or in floating point. Where dictionaries list each name once,
equality decides this, so it is reflexive there, and does not see how pairs are ordered at any
depth.
-/
namespace NamedRoutes

/-- The rational numbers with the two infinite ones. -/
abbrev Number := WithBot (WithTop ℚ)

def Number.ofRat (q : ℚ) : Number := ((q : WithTop ℚ) : WithBot (WithTop ℚ))

def Number.infinite (negative : Bool) : Number := if negative then ⊥ else ⊤

theorem Number.ofRat_injective : Function.Injective Number.ofRat :=
  WithBot.coe_injective.comp WithTop.coe_injective

theorem Number.ofRat_ne_infinite (q : ℚ) (negative : Bool) :
    Number.ofRat q ≠ Number.infinite negative := by
  cases negative with
  | true => exact WithBot.coe_ne_bot
  | false => exact fun h => WithTop.coe_ne_top (WithBot.coe_injective h)

theorem Number.infinite_injective : Function.Injective Number.infinite := by
  intro a b h
  cases a <;> cases b <;> first | rfl | exact absurd h (by simp [Number.infinite])

def Binary64.number : Binary64 → Number
  | finite negative significand scale =>
    .ofRat ((if negative then -1 else 1) * significand * 2 ^ scale / unitsPerOne)
  | infinite negative => .infinite negative

theorem Binary64.unitsPerOne_ne_zero : unitsPerOne ≠ 0 := by decide +kernel

namespace Magnitude

def number : Magnitude → Number
  | finite units => .ofRat (units / Binary64.unitsPerOne)
  | infinite negative => .infinite negative

theorem number_injective : Function.Injective number := by
  intro a b h
  cases a with
  | finite m =>
    cases b with
    | finite n =>
      have hdiv : (m / Binary64.unitsPerOne : ℚ) = n / Binary64.unitsPerOne :=
        Number.ofRat_injective h
      rw [div_left_inj' (Nat.cast_ne_zero.2 Binary64.unitsPerOne_ne_zero)] at hdiv
      rw [Int.cast_injective hdiv]
    | infinite negative => exact absurd h (Number.ofRat_ne_infinite _ _)
  | infinite negative =>
    cases b with
    | finite n => exact absurd h.symm (Number.ofRat_ne_infinite _ _)
    | infinite negative' => rw [Number.infinite_injective h]

end Magnitude

namespace Value

/-- What a truth value, a whole number or a floating-point number is worth. -/
def number? : Value → Option Number
  | bool b => some (.ofRat (if b then 1 else 0))
  | int n => some (.ofRat n)
  | float x => some x.number
  | _ => none

theorem number_magnitudeOfFloat (x : Binary64) : (magnitudeOfFloat x).number = x.number := by
  cases x with
  | infinite negative => rfl
  | finite negative significand scale =>
    have hsize : (((if negative then -(significand * Nat.pow 2 scale : Nat)
          else (significand * Nat.pow 2 scale : Nat) : Int) : Int) : ℚ) =
        (if negative then -1 else 1) * significand * 2 ^ scale := by
      cases negative <;> simp
    exact congrArg (fun q : ℚ => Number.ofRat (q / Binary64.unitsPerOne)) hsize

theorem number_finite_mul (n : Int) :
    (Magnitude.finite (n * Binary64.unitsPerOne)).number = .ofRat n := by
  have hunits : (Binary64.unitsPerOne : ℚ) ≠ 0 := Nat.cast_ne_zero.2 Binary64.unitsPerOne_ne_zero
  rw [Magnitude.number, Int.cast_mul, Int.cast_natCast, mul_div_cancel_right₀ _ hunits]

theorem number?_eq (v : Value) : v.number? = v.magnitude?.map Magnitude.number := by
  cases v with
  | bool b =>
    have hone := number_finite_mul (if b then 1 else 0)
    rw [ite_mul, one_mul, zero_mul, Int.cast_ite, Int.cast_one, Int.cast_zero] at hone
    exact congrArg some hone.symm
  | int n => exact congrArg some (number_finite_mul n).symm
  | float x => exact congrArg some (number_magnitudeOfFloat x).symm
  | _ => rfl

/-- In every dictionary, at any depth, each name stands once. -/
inductive WellFormed : Value → Prop
  | null : WellFormed .null
  | bool (b) : WellFormed (.bool b)
  | int (n) : WellFormed (.int n)
  | float (x) : WellFormed (.float x)
  | str (s) : WellFormed (.str s)
  | list {items} (h : ∀ v ∈ items, WellFormed v) : WellFormed (.list items)
  | dict {entries} (distinct : (entries.map Prod.fst).Nodup)
      (h : ∀ e ∈ entries, WellFormed e.2) : WellFormed (.dict entries)

theorem wellFormed_list_iff {items : List Value} :
    (Value.list items).WellFormed ↔ ∀ v ∈ items, v.WellFormed := by
  refine ⟨fun h => ?_, .list⟩
  cases h with
  | list h => exact h

theorem wellFormed_dict_iff {entries : List (String × Value)} :
    (Value.dict entries).WellFormed ↔
      (entries.map Prod.fst).Nodup ∧ ∀ e ∈ entries, e.2.WellFormed := by
  refine ⟨fun h => ?_, fun h => .dict h.1 h.2⟩
  cases h with
  | dict hd h => exact ⟨hd, h⟩

theorem lookup_eq_some_iff {es : List (String × Value)} (hd : (es.map Prod.fst).Nodup)
    {key : String} {v : Value} : es.lookup key = some v ↔ (key, v) ∈ es :=
  (OrderedMap.mem_entries_iff (m := ⟨es, hd⟩)).symm

theorem eq_of_mem_of_nodup {es : List (String × Value)} (hd : (es.map Prod.fst).Nodup)
    {key : String} {v w : Value} (hv : (key, v) ∈ es) (hw : (key, w) ∈ es) : v = w := by
  rw [← lookup_eq_some_iff hd] at hv hw
  exact Option.some.inj (hv.symm.trans hw)

/-- Numbers are the same that are worth the same, lists item by item, and dictionaries when they
have the same names, in whatever order, with the same values. -/
inductive Same : Value → Value → Prop
  | null : Same .null .null
  | str (s) : Same (.str s) (.str s)
  | number {v w x} (hv : v.number? = some x) (hw : w.number? = some x) : Same v w
  | list {vs ws} (length : vs.length = ws.length)
      (items : ∀ (i : Nat) v w, vs[i]? = some v → ws[i]? = some w → Same v w) :
      Same (.list vs) (.list ws)
  | dict {es fs} (names : (es.map Prod.fst).Perm (fs.map Prod.fst))
      (values : ∀ k v w, (k, v) ∈ es → (k, w) ∈ fs → Same v w) : Same (.dict es) (.dict fs)

theorem Same.refl {v : Value} (hv : v.WellFormed) : Same v v := by
  induction hv with
  | null => exact .null
  | bool b => exact .number rfl rfl
  | int n => exact .number rfl rfl
  | float x => exact .number rfl rfl
  | str s => exact .str s
  | list _ ih =>
    refine .list rfl fun i v w hv hw => ?_
    cases hv.symm.trans hw
    exact ih v (List.mem_of_getElem? hv)
  | dict hd _ ih =>
    refine .dict (.refl _) fun k v w hv hw => ?_
    cases eq_of_mem_of_nodup hd hv hw
    exact ih _ hv

theorem Same.trans {u v w : Value} (h : Same u v) (h' : Same v w) : Same u w := by
  induction h generalizing w with
  | null => exact h'
  | str s => exact h'
  | number hu hv =>
    cases h' with
    | number hv' hw => exact .number hu (hw.trans (hv'.symm.trans hv))
    | _ => cases hv
  | list hlength hitems ih =>
    cases h' with
    | number hv _ => cases hv
    | @list _ ws hlength' hitems' =>
      refine .list (hlength.trans hlength') fun i u w hu hw => ?_
      obtain ⟨hi, -⟩ := List.getElem?_eq_some_iff.1 hw
      exact ih i _ _ hu (List.getElem?_eq_getElem (hlength' ▸ hi))
        (hitems' i _ _ (List.getElem?_eq_getElem (hlength' ▸ hi)) hw)
  | dict hnames hvalues ih =>
    cases h' with
    | number hv _ => cases hv
    | dict hnames' hvalues' =>
      refine .dict (hnames.trans hnames') fun k u w hu hw => ?_
      obtain ⟨⟨_, v⟩, hv, rfl⟩ :=
        List.mem_map.1 ((hnames.mem_iff).1 (List.mem_map_of_mem hu))
      exact ih _ u v hu hv (hvalues' _ v w hv hw)

theorem same_iff_of_number? {v w : Value} {x : Number} (hv : v.number? = some x) :
    Same v w ↔ w.number? = some x := by
  refine ⟨fun h => ?_, .number hv⟩
  cases h with
  | number hv' hw => exact hw.trans (hv'.symm.trans hv)
  | _ => cases hv

theorem equal_of_magnitude? {v : Value} {m : Magnitude} (hv : v.magnitude? = some m) (w : Value) :
    equal v w = w.magnitude?.any (m == ·) := by
  cases v with
  | bool b =>
    cases hv
    cases w <;> rfl
  | int n =>
    cases hv
    cases w <;> rfl
  | float x =>
    cases hv
    cases w <;> rfl
  | _ => cases hv

theorem equal_iff_of_magnitude? {v : Value} {m : Magnitude} (hv : v.magnitude? = some m)
    (w : Value) : equal v w = true ↔ w.magnitude? = some m := by
  rw [equal_of_magnitude? hv]
  cases w.magnitude? with
  | none => simp
  | some m' => rw [Option.any_some, beq_iff_eq, Option.some_inj, eq_comm]

theorem equalItems_iff {vs ws : List Value} :
    equalItems vs ws = true ↔ vs.length = ws.length ∧
      ∀ (i : Nat) v w, vs[i]? = some v → ws[i]? = some w → equal v w = true := by
  induction vs generalizing ws with
  | nil => cases ws <;> simp [equalItems]
  | cons v vs ih =>
    cases ws with
    | nil => simp [equalItems]
    | cons w ws =>
      rw [equalItems, Bool.and_eq_true, ih]
      constructor
      · rintro ⟨hfirst, hlength, hrest⟩
        refine ⟨congrArg (· + 1) hlength, fun i => ?_⟩
        cases i with
        | zero =>
          rintro _ _ ⟨⟩ ⟨⟩
          exact hfirst
        | succ i => exact hrest i
      · rintro ⟨hlength, h⟩
        exact ⟨h 0 v w rfl rfl, Nat.succ.inj hlength, fun i => h (i + 1)⟩

theorem equalEntries_iff {es fs : List (String × Value)} :
    equalEntries es fs = true ↔ ∀ e ∈ es, ∃ w, fs.lookup e.1 = some w ∧ equal e.2 w = true := by
  induction es with
  | nil => simp [equalEntries]
  | cons e es ih =>
    obtain ⟨k, v⟩ := e
    rw [equalEntries, Bool.and_eq_true, ih, List.forall_mem_cons]
    cases fs.lookup k <;> simp

/-- Equality looks the values of one dictionary up in the other. Among as many names, each of them
once, these are all names. -/
theorem equal_dict_iff {es fs : List (String × Value)} (hd : (es.map Prod.fst).Nodup) :
    equal (.dict es) (.dict fs) = true ↔ (es.map Prod.fst).Perm (fs.map Prod.fst) ∧
      ∀ k v w, (k, v) ∈ es → (k, w) ∈ fs → equal v w = true := by
  rw [equal, Bool.and_eq_true, beq_iff_eq, equalEntries_iff]
  constructor
  · rintro ⟨hlength, h⟩
    have hsubset : es.map Prod.fst ⊆ fs.map Prod.fst := by
      intro k hk
      obtain ⟨e, he, rfl⟩ := List.mem_map.1 hk
      obtain ⟨w, hw, -⟩ := h e he
      by_contra hnot
      rw [OrderedMap.lookup_eq_none hnot] at hw
      cases hw
    have hnames : (es.map Prod.fst).Perm (fs.map Prod.fst) :=
      (List.subperm_of_subset hd hsubset).perm_of_length_le (by simp [hlength])
    refine ⟨hnames, fun k v w hv hw => ?_⟩
    obtain ⟨w', hw', hequal⟩ := h _ hv
    rw [(lookup_eq_some_iff (hnames.nodup_iff.1 hd)).2 hw] at hw'
    cases hw'
    exact hequal
  · rintro ⟨hnames, h⟩
    refine ⟨by simpa using hnames.length_eq, fun e he => ?_⟩
    obtain ⟨f, hf, hkey⟩ := List.mem_map.1 (hnames.mem_iff.1 (List.mem_map_of_mem he))
    have hf' : (e.1, f.2) ∈ fs := hkey ▸ hf
    exact ⟨f.2, (lookup_eq_some_iff (hnames.nodup_iff.1 hd)).2 hf', h e.1 e.2 f.2 he hf'⟩

theorem equal_iff_same_of_magnitude? {v : Value} {m : Magnitude} (hv : v.magnitude? = some m)
    (w : Value) : equal v w = true ↔ Same v w := by
  have hnumber : v.number? = some m.number := by rw [number?_eq, hv, Option.map_some]
  rw [equal_iff_of_magnitude? hv, same_iff_of_number? hnumber, number?_eq]
  exact (Option.map_injective Magnitude.number_injective).eq_iff (b := some m).symm

/-- Equality of a well-formed value with another tells whether they are the same. -/
theorem equal_iff_same {v : Value} (hv : v.WellFormed) (w : Value) :
    equal v w = true ↔ Same v w := by
  induction hv generalizing w with
  | bool b => exact equal_iff_same_of_magnitude? rfl w
  | int n => exact equal_iff_same_of_magnitude? rfl w
  | float x => exact equal_iff_same_of_magnitude? rfl w
  | null =>
    constructor
    · intro h
      cases w <;> first | exact .null | cases h
    · intro h
      cases h with
      | null => rfl
      | number hv _ => cases hv
  | str s =>
    constructor
    · intro h
      cases w with
      | str t =>
        rw [equal, beq_iff_eq] at h
        rw [h]
        exact .str t
      | _ => cases h
    · intro h
      cases h with
      | str s => rw [equal, beq_self_eq_true]
      | number hv _ => cases hv
  | list _ ih =>
    constructor
    · intro h
      cases w with
      | list ws =>
        rw [equal, equalItems_iff] at h
        exact .list h.1 fun i v w hv hw =>
          (ih v (List.mem_of_getElem? hv) w).1 (h.2 i v w hv hw)
      | _ => cases h
    · intro h
      cases h with
      | list hlength h =>
        rw [equal, equalItems_iff]
        exact ⟨hlength, fun i v w hv hw =>
          (ih v (List.mem_of_getElem? hv) w).2 (h i v w hv hw)⟩
      | number hv _ => cases hv
  | dict hd _ ih =>
    constructor
    · intro h
      cases w with
      | dict fs =>
        rw [equal_dict_iff hd] at h
        exact .dict h.1 fun k v w hv hw => (ih _ hv w).1 (h.2 k v w hv hw)
      | _ => cases h
    · intro h
      cases h with
      | dict hnames h =>
        rw [equal_dict_iff hd]
        exact ⟨hnames, fun k v w hv hw => (ih _ hv w).2 (h k v w hv hw)⟩
      | number hv _ => cases hv

example : equal (.dict [("a", .bool true), ("b", .list [.int 1, .null])])
    (.dict [("b", .list [.float (.finite false (2 ^ 52) 1022), .null]), ("a", .int 1)]) = true := by
  decide +kernel

/-- The pairs of dictionaries are put in another order, here or there, at any depth. -/
inductive Reordered : Value → Value → Prop
  | refl (v) : Reordered v v
  | trans {u v w} (h : Reordered u v) (h' : Reordered v w) : Reordered u w
  | permute {es fs} (h : es.Perm fs) : Reordered (.dict es) (.dict fs)
  | entry (before : List (String × Value)) (k) (after) {v w} (h : Reordered v w) :
      Reordered (.dict (before ++ (k, v) :: after)) (.dict (before ++ (k, w) :: after))
  | item (before : List Value) (after) {v w} (h : Reordered v w) :
      Reordered (.list (before ++ v :: after)) (.list (before ++ w :: after))

section

variable {v w : Value} (hw : w.WellFormed) (hsame : Same v w)

include hw hsame

theorem wellFormed_and_same_entry {before after : List (String × Value)} {k : String}
    (hd : (Value.dict (before ++ (k, v) :: after)).WellFormed) :
    (Value.dict (before ++ (k, w) :: after)).WellFormed ∧
      Same (.dict (before ++ (k, v) :: after)) (.dict (before ++ (k, w) :: after)) := by
  obtain ⟨hnodup, hvalues⟩ := wellFormed_dict_iff.1 hd
  have hnames : (before ++ (k, v) :: after).map Prod.fst =
      (before ++ (k, w) :: after).map Prod.fst := by simp
  have hcases : ∀ e ∈ before ++ (k, w) :: after, e = (k, w) ∨ e ∈ before ++ (k, v) :: after := by
    intro e he
    simp only [List.mem_append, List.mem_cons] at he ⊢
    tauto
  constructor
  · refine .dict (hnames ▸ hnodup) fun e he => ?_
    rcases hcases e he with rfl | he
    · exact hw
    · exact hvalues e he
  · refine .dict (.of_eq hnames) fun key a b ha hb => ?_
    rcases hcases _ hb with hb | hb
    · cases hb
      have hv : (k, v) ∈ before ++ (k, v) :: after := by simp
      rw [eq_of_mem_of_nodup hnodup ha hv]
      exact hsame
    · cases eq_of_mem_of_nodup hnodup ha hb
      exact .refl (hvalues _ ha)

theorem wellFormed_and_same_item {before after : List Value}
    (hl : (Value.list (before ++ v :: after)).WellFormed) :
    (Value.list (before ++ w :: after)).WellFormed ∧
      Same (.list (before ++ v :: after)) (.list (before ++ w :: after)) := by
  have hitems := wellFormed_list_iff.1 hl
  constructor
  · refine .list fun u hu => ?_
    have hcases : u = w ∨ u ∈ before ++ v :: after := by
      simp only [List.mem_append, List.mem_cons] at hu ⊢
      tauto
    rcases hcases with rfl | hu
    · exact hw
    · exact hitems u hu
  · refine .list (by simp) fun i a b ha hb => ?_
    by_cases hi : i = before.length
    · have hv : some v = some a := by simpa [hi] using ha
      have hw : some w = some b := by simpa [hi] using hb
      cases hv
      cases hw
      exact hsame
    · have helsewhere : (before ++ w :: after)[i]? = (before ++ v :: after)[i]? := by
        rw [List.getElem?_append, List.getElem?_append]
        grind
      cases hb.symm.trans (helsewhere.trans ha)
      exact .refl (hitems _ (List.mem_of_getElem? ha))

end

/-- A value whose pairs are put in another order stays well-formed, and it stays the same. -/
theorem Reordered.wellFormed_and_same {v w : Value} (h : Reordered v w) (hv : v.WellFormed) :
    w.WellFormed ∧ Same v w := by
  induction h with
  | refl v => exact ⟨hv, .refl hv⟩
  | trans _ _ ih ih' =>
    obtain ⟨hv, hsame⟩ := ih hv
    obtain ⟨hw, hsame'⟩ := ih' hv
    exact ⟨hw, hsame.trans hsame'⟩
  | permute hperm =>
    obtain ⟨hd, hvalues⟩ := wellFormed_dict_iff.1 hv
    have hnames := hperm.map Prod.fst
    refine ⟨.dict (hnames.nodup_iff.1 hd) fun e he => hvalues e (hperm.mem_iff.2 he),
      .dict hnames fun k v w hv hw => ?_⟩
    cases eq_of_mem_of_nodup hd hv (hperm.mem_iff.2 hw)
    exact .refl (hvalues _ hv)
  | entry before k after _ ih =>
    obtain ⟨hw, hsame⟩ := ih ((wellFormed_dict_iff.1 hv).2 (k, _) (by simp))
    exact wellFormed_and_same_entry hw hsame hv
  | item before after _ ih =>
    obtain ⟨hw, hsame⟩ := ih (wellFormed_list_iff.1 hv _ (by simp))
    exact wellFormed_and_same_item hw hsame hv

end Value

end NamedRoutes
