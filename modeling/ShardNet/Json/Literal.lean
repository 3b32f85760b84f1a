-- SUMMARY: JSON numbers between their text and their value, with the rounding of numbers that are not integers.
import ShardNet.Json.Basic
import ShardNet.Number.Real
import ShardNet.Number.Shortest
import ShardNet.Text.Decimal

/-!
# JSON numbers

A number without point and exponent that fits a signed or an unsigned 64-bit integer is an integer.
Every other number is real: the first digits that fit 64 bits are kept, the rest only move the
point, and the kept digits are multiplied with or divided by a power of ten, each step rounded. The
last digit of a long number is therefore not always the nearest one. Minus zero is real.

A real number is written with the shortest digits that read back, positionally where the point
lies near them and with a signed exponent elsewhere.
-/

namespace ShardNet.Json

-- A power is that of the core library, whatever is imported beside it.
attribute [local instance (2000)] instPowNat

open Number (Binary64 Format)

/-- The text of a number, taken apart. -/
structure Literal where
  negative : Bool
  whole : List Char
  fraction : List Char
  exponent : Option Int

namespace Literal

/-- Kept digits, and the power of ten they are to be multiplied with. -/
structure Kept where
  digits : Nat
  exponent : Int
  /-- A digit did not fit; the later ones are not kept either. -/
  full : Bool

/-- One more digit before the point. -/
def Kept.whole (kept : Kept) (c : Char) : Kept :=
  let next := kept.digits * 10 + Text.Decimal.digitValue c
  if kept.full ∨ UInt64.size ≤ next then { kept with exponent := kept.exponent + 1, full := true }
  else { kept with digits := next }

/-- One more digit after the point. -/
def Kept.fraction (kept : Kept) (c : Char) : Kept :=
  let next := kept.digits * 10 + Text.Decimal.digitValue c
  if kept.full ∨ UInt64.size ≤ next then { kept with full := true }
  else { kept with digits := next, exponent := kept.exponent - 1 }

/-- Greatest power of ten within the range of the format. -/
def maxPower : Nat := 308

/-- The magnitude nearest to a power of ten. -/
def power (exponent : Nat) : Nat := Format.double.round (10 ^ exponent) 1

/-- Multiplies a magnitude with a power of ten; `none` when it leaves the range. Powers below the
range of the format are divided out in steps, and after three of them nothing is left. -/
def applyPower : (fuel : Nat) → (magnitude : Nat) → (exponent : Int) → Option Nat
  | 0, _, _ => some 0
  | fuel + 1, magnitude, exponent =>
    if exponent.natAbs ≤ maxPower then
      if 0 ≤ exponent then
        let product := Format.double.mul magnitude (power exponent.toNat)
        if Format.double.isFinite product then some product else none
      else some (Format.double.div magnitude (power exponent.natAbs))
    else if magnitude = 0 then some 0
    else if 0 ≤ exponent then none
    else applyPower fuel (Format.double.div magnitude (power maxPower)) (exponent + maxPower)

/-- The real number of a literal; `none` when it leaves the range. -/
def real? (negative : Bool) (kept : Kept) (exponent : Int) : Option Json :=
  (applyPower 4 (Format.double.round kept.digits 1) (kept.exponent + exponent)).map fun magnitude =>
    .real (.ofMagnitude negative magnitude)

/-- The value of a literal; `none` when it leaves the range of real numbers. -/
def value? (literal : Literal) : Option Json :=
  let whole := literal.whole.foldl Kept.whole ⟨0, 0, false⟩
  if literal.fraction.isEmpty ∧ literal.exponent.isNone ∧ ¬ whole.full then
    if ¬ literal.negative then some (.int whole.digits)
    else if whole.digits ≠ 0 ∧ whole.digits ≤ 2 ^ (63 : Nat) then some (.int (-whole.digits))
    else real? true whole 0
  else
    -- Only the digits before the point decide whether a digit after it is still looked at.
    let kept := literal.fraction.foldl Kept.fraction { whole with full := false }
    real? literal.negative kept (literal.exponent.getD 0)

end Literal

/-- How many positions to the left and to the right of the digits the point may lie without an
exponent. -/
structure RealText where
  leftLimit : Int
  rightLimit : Int

/-- Real numbers in JSON text: up to sixteen digits before the point, up to four zeros after it. -/
def realText : RealText := ⟨-5, 16⟩

/-- An exponent with its letter. Its sign is always written. -/
def writeExponent (exponent : Int) : List Char :=
  if exponent < 0 then 'e' :: '-' :: Text.Decimal.digits exponent.natAbs
  else 'e' :: '+' :: Text.Decimal.digits exponent.natAbs

/-- The text of a finite magnitude. -/
def RealText.write (style : RealText) (magnitude : Nat) : List Char :=
  if magnitude = 0 then ['0', '.', '0']
  else
    let shortest := Format.double.shortest magnitude
    let digits := Text.Decimal.digits shortest.digits
    let point : Int := digits.length + shortest.exponent
    if 0 ≤ shortest.exponent ∧ point ≤ style.rightLimit then
      digits ++ List.replicate shortest.exponent.toNat '0' ++ ['.', '0']
    else if 0 < point ∧ point ≤ style.rightLimit then
      digits.take point.toNat ++ '.' :: digits.drop point.toNat
    else if style.leftLimit < point ∧ point ≤ 0 then
      '0' :: '.' :: List.replicate (-point).toNat '0' ++ digits
    else
      let exponent := writeExponent (point - 1)
      match digits with
      | [digit] => digit :: exponent
      | first :: rest => first :: '.' :: rest ++ exponent
      | [] => exponent

/-- The text of a real number. What is not finite has no number in JSON and is written as null. -/
def writeReal (value : Binary64) : List Char :=
  if ¬ value.isFinite then ['n', 'u', 'l', 'l']
  else if value.isNegative then '-' :: realText.write value.magnitude
  else realText.write value.magnitude

end ShardNet.Json
