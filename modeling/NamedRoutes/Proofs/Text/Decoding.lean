import NamedRoutes.Text.Percent

/-!
# Percent decoding

Percent encoding loses nothing. An escape stands for a byte, every other character for itself, and
the bytes are read as UTF-8. Encoded text consists of unreserved characters and escapes.
-/
namespace NamedRoutes.Text.Percent

/-- The value of a hexadecimal digit, in upper or lower case. -/
def digit? (c : Char) : Option Nat :=
  if '0' ≤ c ∧ c ≤ '9' then some (c.toNat - '0'.toNat)
  else if 'A' ≤ c ∧ c ≤ 'F' then some (c.toNat - 'A'.toNat + 10)
  else if 'a' ≤ c ∧ c ≤ 'f' then some (c.toNat - 'a'.toNat + 10)
  else none

/-- The bytes of a text. A percent sign without two digits after it is no text. -/
def bytes? : List Char → Option (List UInt8)
  | [] => some []
  | '%' :: a :: b :: s =>
    match digit? a, digit? b with
    | some m, some n => (bytes? s).map (UInt8.ofNat (16 * m + n) :: ·)
    | _, _ => none
  | c :: s => if c = '%' then none else (bytes? s).map (String.utf8EncodeChar c ++ ·)

def decode? (s : List Char) : Option (List Char) :=
  (bytes? s).bind fun bs => bs.toByteArray.utf8Decode?.map Array.toList

variable {c : Char} {s : List Char}

theorem bytes?_escape {a b : Char} {m n : Nat} (ha : digit? a = some m) (hb : digit? b = some n)
    (s : List Char) :
    bytes? ('%' :: a :: b :: s) = (bytes? s).map (UInt8.ofNat (16 * m + n) :: ·) := by
  rw [bytes?, ha, hb]

theorem bytes?_cons_of_ne (h : c ≠ '%') (s : List Char) :
    bytes? (c :: s) = (bytes? s).map (String.utf8EncodeChar c ++ ·) := by
  rw [bytes?, if_neg h]
  rintro a b rest rfl
  exact absurd rfl h

theorem digit?_digitChar : ∀ n < 16, digit? (Nat.digitChar n).toUpper = some n := by decide

theorem encodeByte_eq (b : UInt8) :
    encodeByte b = ['%', (Nat.digitChar (b.toNat / 16 % 16)).toUpper,
      (Nat.digitChar (b.toNat % 16)).toUpper] := rfl

theorem bytes?_encodeByte (b : UInt8) (s : List Char) :
    bytes? (encodeByte b ++ s) = (bytes? s).map (b :: ·) := by
  have hvalue : 16 * (b.toNat / 16 % 16) + b.toNat % 16 = b.toNat := by
    have := b.toNat_lt
    omega
  have hdigits := bytes?_escape (digit?_digitChar (b.toNat / 16 % 16) (Nat.mod_lt _ (by decide)))
    (digit?_digitChar (b.toNat % 16) (Nat.mod_lt _ (by decide))) s
  rwa [hvalue, UInt8.ofNat_toNat] at hdigits

theorem bytes?_flatMap_encodeByte (bs : List UInt8) (s : List Char) :
    bytes? (bs.flatMap encodeByte ++ s) = (bytes? s).map (bs ++ ·) := by
  induction bs with
  | nil => simp
  | cons b bs ih =>
    rw [List.flatMap_cons, List.append_assoc, bytes?_encodeByte, ih, Option.map_map]
    rfl

theorem bytes?_encodeChar (c : Char) (s : List Char) :
    bytes? (encodeChar c ++ s) = (bytes? s).map (String.utf8EncodeChar c ++ ·) := by
  rw [encodeChar]
  split
  · next hc =>
    refine bytes?_cons_of_ne ?_ s
    rintro rfl
    cases hc
  · exact bytes?_flatMap_encodeByte _ s

theorem bytes?_encode (s : List Char) :
    bytes? (encode s) = some (s.flatMap String.utf8EncodeChar) := by
  induction s with
  | nil => rfl
  | cons c s ih =>
    rw [encode_cons, bytes?_encodeChar, ih]
    rfl

theorem decode?_encode (s : List Char) : decode? (encode s) = some s := by
  have hutf8 := List.utf8Decode?_utf8Encode (l := s)
  rw [List.utf8Encode] at hutf8
  rw [decode?, bytes?_encode, Option.bind_some, hutf8]
  rfl

/-- The text has only allowed characters and escapes. -/
inductive Escaped (allowed : Char → Prop) : List Char → Prop
  | nil : Escaped allowed []
  | plain {d : Char} {rest : List Char} : allowed d → Escaped allowed rest →
      Escaped allowed (d :: rest)
  | escape {a b : Char} {rest : List Char} : (digit? a).isSome → (digit? b).isSome →
      Escaped allowed rest → Escaped allowed ('%' :: a :: b :: rest)

variable {p q : Char → Prop} {t : List Char}

theorem Escaped.append (hs : Escaped p s) (ht : Escaped p t) : Escaped p (s ++ t) := by
  induction hs with
  | nil => exact ht
  | plain hc _ ih => exact .plain hc ih
  | escape ha hb _ ih => exact .escape ha hb ih

theorem Escaped.mono (hpq : ∀ c, p c → q c) (hs : Escaped p s) : Escaped q s := by
  induction hs with
  | nil => exact .nil
  | plain hc _ ih => exact .plain (hpq _ hc) ih
  | escape ha hb _ ih => exact .escape ha hb ih

theorem Escaped.flatMap {α : Type} {f : α → List Char} (h : ∀ x, Escaped p (f x)) (xs : List α) :
    Escaped p (xs.flatMap f) := by
  induction xs with
  | nil => exact .nil
  | cons x xs ih => exact (h x).append ih

/-- A character that is neither allowed nor part of an escape does not occur. -/
theorem Escaped.not_mem (hs : Escaped p s) (hp : ¬ p c) (hpercent : c ≠ '%')
    (hdigit : digit? c = none) : c ∉ s := by
  have hne : ∀ a, (digit? a).isSome → c ≠ a := by
    rintro a ha rfl
    rw [hdigit] at ha
    cases ha
  induction hs with
  | nil => exact List.not_mem_nil
  | plain hd _ ih =>
    refine List.not_mem_cons_of_ne_of_not_mem ?_ ih
    rintro rfl
    exact hp hd
  | escape ha hb _ ih => simp [hpercent, hne _ ha, hne _ hb, ih]

theorem escaped_encodeByte (b : UInt8) : Escaped p (encodeByte b) := by
  rw [encodeByte_eq]
  refine .escape ?_ ?_ .nil
  · rw [digit?_digitChar _ (Nat.mod_lt _ (by decide))]
    rfl
  · rw [digit?_digitChar _ (Nat.mod_lt _ (by decide))]
    rfl

theorem escaped_encode (s : List Char) : Escaped (isUnreserved · = true) (encode s) := by
  refine Escaped.flatMap (fun c => ?_) s
  rw [encodeChar]
  split
  · next hc => exact .plain hc .nil
  · exact Escaped.flatMap escaped_encodeByte _

end NamedRoutes.Text.Percent
