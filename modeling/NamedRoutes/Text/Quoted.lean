import NamedRoutes.Text.Hex
import NamedRoutes.Text.Printable

/-!
# Quoted text

Text is quoted with single quotes, unless it holds a single quote and no double one. Inside, a
backslash and the quote in use follow a backslash, and what is not printable is spelled out.
-/
namespace NamedRoutes.Text

def singleQuote : Char := '\x27'

def doubleQuote : Char := '\x22'

def quoteFor (s : List Char) : Char :=
  if singleQuote ∈ s ∧ doubleQuote ∉ s then doubleQuote else singleQuote

/-- A code point in the shortest of the three widths that holds it. -/
def spellOut (n : Nat) : List Char :=
  if n < 0x100 then '\\' :: 'x' :: hex 2 n
  else if n < 0x10000 then '\\' :: 'u' :: hex 4 n
  else '\\' :: 'U' :: hex 8 n

def escapeWithin (quote c : Char) : List Char :=
  if c = '\\' ∨ c = quote then ['\\', c]
  else if c = '\t' then ['\\', 't']
  else if c = '\n' then ['\\', 'n']
  else if c = '\r' then ['\\', 'r']
  else if isPrintable c then [c]
  else spellOut c.toNat

def quotedChars (s : List Char) : List Char :=
  quoteFor s :: (s.flatMap (escapeWithin (quoteFor s)) ++ [quoteFor s])

def quoted (s : String) : String := String.ofList (quotedChars s.toList)

example : quotedChars ['i', 't', '\x27', 's'] = ['"', 'i', 't', '\x27', 's', '"'] := by decide

example : quotedChars ['\u200b', '\x7f'] =
    ['\x27', '\\', 'u', '2', '0', '0', 'b', '\\', 'x', '7', 'f', '\x27'] := by decide +kernel

end NamedRoutes.Text
