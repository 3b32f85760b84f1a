-- SUMMARY: Decimal integers as text: the canonical digits of a number, with or without a point, and a bounded reader.
import ShardNet.Text.Blank
import ShardNet.Unsigned

/-!
# Decimal integers

`Decimal.text` writes a number without leading zeros; `Decimal.pointed` writes one that counts some
fraction of a unit.

`Decimal.read` is the reader for unsigned integers below a bound: one optional plus sign, then one
or more ASCII digits, any number of them zeros. The reader stops at the first fault, so of a bad
character and an overflow the one further to the left is reported.
-/

namespace ShardNet.Text.Decimal

/-- The digits of a number, most significant first, without leading zeros. -/
def digits (value : Nat) : List Char := Nat.toDigits 10 value

def text (value : Nat) : String := String.ofList (digits value)

/-- The digits of an integer, with a minus sign in front of a negative one. -/
def signedDigits (value : Int) : List Char :=
  if value < 0 then '-' :: digits value.natAbs else digits value.natAbs

/-- A number divided by a power of ten, without needless zeros: its digits with a point so many
places before the end, and neither zeros at the end of the fraction nor a point before nothing. -/
def pointed (value places : Nat) : List Char :=
  let digits := digits value
  let padded := List.replicate (places + 1 - digits.length) '0' ++ digits
  let whole := padded.take (padded.length - places)
  let fraction := ((padded.drop (padded.length - places)).reverse.dropWhile (· = '0')).reverse
  if fraction.isEmpty then whole else whole ++ '.' :: fraction

/-- What keeps a text from being an unsigned integer below a bound. -/
inductive Fault where
  | empty
  | invalidDigit
  | tooLarge
  deriving DecidableEq, Repr

def Fault.message : Fault → String
  | .empty => "cannot parse integer from empty string"
  | .invalidDigit => "invalid digit found in string"
  | .tooLarge => "number too large to fit in target type"

/-- Value of an ASCII digit. -/
def digitValue (c : Char) : Nat := c.toNat - '0'.toNat

/-- Appends digits to `value`, as long as the result stays below `bound`. -/
def readDigits (bound : Nat) : (value : Nat) → List Char → Except Fault Nat
  | value, [] => .ok value
  | value, c :: rest =>
    if ¬ c.isDigit then .error .invalidDigit
    else if bound ≤ value * 10 + digitValue c then .error .tooLarge
    else readDigits bound (value * 10 + digitValue c) rest

/-- Reads an unsigned integer below `bound`. A sign alone counts as a bad digit. -/
def read (bound : Nat) : List Char → Except Fault Nat
  | [] => .error .empty
  | ['+'] => .error .invalidDigit
  | '+' :: rest => readDigits bound 0 rest
  | input => readDigits bound 0 input

/-- Reads an integer of an unsigned type. -/
def readUnsigned (ω : Type) [Unsigned ω] (text : List Char) : Except Fault ω :=
  (read (Unsigned.bound ω) text).map Unsigned.ofNat

end ShardNet.Text.Decimal
