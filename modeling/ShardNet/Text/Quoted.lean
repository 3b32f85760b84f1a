-- SUMMARY: Texts and characters between quotation marks, with escapes for what has no shape of its own.
import ShardNet.Text.Unprintable

/-!
# Quoted text

The form in which messages and descriptions show a text or a character taken from an input: the
enclosing mark and the backslash are escaped, the usual controls have their letter, and every other
unprintable character appears by its code.
-/

namespace ShardNet.Text.Quoted

/-- One character inside the quotation marks `mark`. -/
def escape (mark c : Char) : List Char :=
  if c = mark ∨ c = '\\' then ['\\', c]
  else if c = '\t' then ['\\', 't']
  else if c = '\r' then ['\\', 'r']
  else if c = '\n' then ['\\', 'n']
  else if c = '\x00' then ['\\', '0']
  else if isUnprintable c then ['\\', 'u', '\x7b'] ++ Nat.toDigits 16 c.toNat ++ ['\x7d']
  else [c]

/-- A character between apostrophes. -/
def char (c : Char) : String := String.ofList ('\'' :: escape '\'' c ++ ['\''])

/-- A text between double quotation marks. -/
def text (s : String) : String := String.ofList ('"' :: s.toList.flatMap (escape '"') ++ ['"'])

end ShardNet.Text.Quoted
