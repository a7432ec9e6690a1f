import NamedRoutes.Text.Hex

/-!
# Percent encoding

Letters, digits and the marks `- _ . ! ~ * ' ( )` stand for themselves. Every other character is
written as the bytes of its UTF-8 form, each as `%` and two upper-case hexadecimal digits.
-/
namespace NamedRoutes.Text.Percent

def isUnreserved (c : Char) : Bool :=
  c.isAlphanum || ['-', '_', '.', '!', '~', '*', '\x27', '(', ')'].contains c

def encodeByte (b : UInt8) : List Char :=
  '%' :: (hex 2 b.toNat).map Char.toUpper

def encodeChar (c : Char) : List Char :=
  if isUnreserved c then [c] else (String.utf8EncodeChar c).flatMap encodeByte

def encode (s : List Char) : List Char := s.flatMap encodeChar

@[simp] theorem encode_nil : encode [] = [] := rfl

@[simp] theorem encode_cons (c : Char) (s : List Char) :
    encode (c :: s) = encodeChar c ++ encode s := rfl

theorem isUnreserved_of_mem_encode {s : List Char} {c : Char} (h : c ∈ encode s) :
    isUnreserved c ∨ c = '%' := by
  have hdigits : ∀ d < 16, isUnreserved (Nat.digitChar d).toUpper := by decide
  obtain ⟨a, -, h⟩ := List.mem_flatMap.1 h
  rw [encodeChar] at h
  split at h
  · next ha => exact Or.inl (List.mem_singleton.1 h ▸ ha)
  · obtain ⟨b, -, h⟩ := List.mem_flatMap.1 h
    rcases List.mem_cons.1 h with rfl | h
    · exact Or.inr rfl
    · obtain ⟨e, he, rfl⟩ := List.mem_map.1 h
      obtain ⟨d, hd, rfl⟩ := exists_digit_of_mem_hex he
      exact Or.inl (hdigits d hd)

example : encode ['a', ' ', 'é'] = ['a', '%', '2', '0', '%', 'C', '3', '%', 'A', '9'] := by
  decide

end NamedRoutes.Text.Percent
