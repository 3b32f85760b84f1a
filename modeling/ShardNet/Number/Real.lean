-- SUMMARY: The text of a real number: sign, decimal digits, point and exponent, or a special value.
import ShardNet.Number.Binary

/-!
# Text of real numbers

`Format.read?` reads a decimal number into the nearest magnitude of a format, rounding once. The
digits may stand on either side of the point alone, the exponent may be absent, and infinity and
the value that is not a number have names, in any case.
-/

namespace ShardNet.Number

/-- A decimal number taken apart into its digits. -/
structure Decimal where
  whole : List Char
  fraction : List Char
  exponent : Int

/-- The number of a run of ASCII digits. -/
def ofDigits (digits : List Char) : Nat := Nat.ofDigitChars 10 digits 0

/-- Takes a sign off the front of a text. -/
def takeSign : List Char → Bool × List Char
  | '-' :: rest => (true, rest)
  | '+' :: rest => (false, rest)
  | text => (false, text)

/-- An exponent with its letter, up to the end of the text; no exponent is zero. -/
def readExponent? : List Char → Option Int
  | [] => some 0
  | letter :: rest =>
    if letter ≠ 'e' ∧ letter ≠ 'E' then none
    else
      let (negative, digits) := takeSign rest
      if digits.isEmpty ∨ ¬ digits.all Char.isDigit then none
      else some (if negative then -(ofDigits digits : Int) else ofDigits digits)

/-- A number without a sign. -/
def Decimal.read? (text : List Char) : Option Decimal :=
  let whole := text.takeWhile Char.isDigit
  let (fraction, rest) := match text.dropWhile Char.isDigit with
    | '.' :: rest => (rest.takeWhile Char.isDigit, rest.dropWhile Char.isDigit)
    | rest => ([], rest)
  if whole.isEmpty ∧ fraction.isEmpty then none
  else (readExponent? rest).map fun exponent => ⟨whole, fraction, exponent⟩

/-- The magnitude in a format nearest to a decimal number. -/
def Decimal.magnitude (f : Format) (d : Decimal) : Nat :=
  f.ofDecimal (ofDigits (d.whole ++ d.fraction)) (d.exponent - d.fraction.length)

/-- The sign and the magnitude of a text. -/
def Format.read? (f : Format) (text : List Char) : Option (Bool × Nat) :=
  let (negative, body) := takeSign text
  let name := body.map Char.toLower
  if name = ['i', 'n', 'f'] ∨ name = ['i', 'n', 'f', 'i', 'n', 'i', 't', 'y'] then
    some (negative, f.infinity)
  else if name = ['n', 'a', 'n'] then some (negative, f.notANumber)
  else (Decimal.read? body).map fun d => (negative, d.magnitude f)

def Binary64.read? (text : List Char) : Option Binary64 :=
  (Format.double.read? text).map fun (negative, magnitude) => .ofMagnitude negative magnitude

def Binary32.read? (text : List Char) : Option Binary32 :=
  (Format.single.read? text).map fun (negative, magnitude) => .ofMagnitude negative magnitude

end ShardNet.Number
