-- SUMMARY: The shortest decimal number that reads back as a given binary number.
import ShardNet.Number.Binary

/-!
# Shortest decimal

Every finite magnitude owns the interval of reals that round to it: half way to each neighbour, the
ends included when its significand is even. For one, two, up to seventeen digits, the two neighbours
of the magnitude on that decimal grid are tried; the first grid with a neighbour in the interval
gives the digits, and of two such neighbours the nearer one, or the even one of two equally near.
-/

namespace ShardNet.Number

-- A power is that of the core library, whatever is imported beside it.
attribute [local instance (2000)] instPowNat

/-- `digits` times ten to the power `exponent`. -/
structure Scientific where
  digits : Nat
  exponent : Int
  deriving DecidableEq, Repr

namespace Scientific

def fraction (s : Scientific) : Nat × Nat :=
  if 0 ≤ s.exponent then (s.digits * 10 ^ s.exponent.toNat, 1)
  else (s.digits, 10 ^ (-s.exponent).toNat)

/-- The same number without zeros at the end of its digits. -/
def trimZeros : (fuel : Nat) → Scientific → Scientific
  | 0, s => s
  | fuel + 1, s =>
    if s.digits ≠ 0 ∧ s.digits % 10 = 0 then trimZeros fuel ⟨s.digits / 10, s.exponent + 1⟩ else s

end Scientific

/-- The position of the decimal point: the power of ten next above a fraction. -/
def pointOf (num den : Nat) : Int :=
  if den ≤ num then (Nat.toDigits 10 (num / den)).length
  else
    let size := (Nat.toDigits 10 (den / num)).length
    if num * 10 ^ (size - 1) = den then 2 - size else 1 - size

/-- The reals that round to a magnitude: from `low` to `high` times `2 ^ exponent`, with the
magnitude itself at `value`. -/
structure Interval where
  low : Nat
  value : Nat
  high : Nat
  exponent : Int
  /-- Whether the ends belong to the interval. -/
  closed : Bool

namespace Interval

/-- The interval of a finite magnitude other than zero. -/
def ofMagnitude (f : Format) (magnitude : Nat) : Interval :=
  let (significand, exponent) := f.parts magnitude
  -- Just below a power of two the numbers lie twice as dense.
  let dense := significand = 2 ^ f.fractionBits ∧ f.minExponent < exponent
  { low := if dense then 4 * significand - 1 else 4 * significand - 2
    value := 4 * significand
    high := 4 * significand + 2
    exponent := exponent - 2
    closed := significand % 2 = 0 }

def contains (i : Interval) (s : Scientific) : Bool :=
  let (num, den) := s.fraction
  let (low, unit) := Format.scale i.low 1 i.exponent
  let (high, _) := Format.scale i.high 1 i.exponent
  if i.closed then low * den ≤ num * unit && num * unit ≤ high * den
  else low * den < num * unit && num * unit < high * den

/-- Distance of a decimal number from the magnitude, over a denominator that depends only on the
exponents. -/
def distance (i : Interval) (s : Scientific) : Nat :=
  let (num, den) := s.fraction
  let (value, unit) := Format.scale i.value 1 i.exponent
  (num * unit - value * den) + (value * den - num * unit)

/-- The better neighbour of the magnitude among the multiples of `10 ^ exponent`, if one is in the
interval. -/
def neighbour? (i : Interval) (exponent : Int) : Option Scientific :=
  let (num, den) := Format.scale i.value 1 i.exponent
  let quotient :=
    if 0 ≤ exponent then num / (den * 10 ^ exponent.toNat) else num * 10 ^ (-exponent).toNat / den
  let below : Scientific := ⟨quotient, exponent⟩
  let above : Scientific := ⟨quotient + 1, exponent⟩
  let better :=
    if i.distance above < i.distance below then above
    else if i.distance above = i.distance below ∧ quotient % 2 = 1 then above
    else below
  match i.contains below, i.contains above with
  | true, true => some better
  | true, false => some below
  | false, true => some above
  | false, false => none

end Interval

/-- The shortest decimal number that rounds to a finite magnitude other than zero. -/
def Format.shortest (f : Format) (magnitude : Nat) : Scientific :=
  let i := Interval.ofMagnitude f magnitude
  let (num, den) := Format.scale i.value 1 i.exponent
  let point := pointOf num den
  let found := (List.range 17).findSome? fun (size : Nat) => i.neighbour? (point - (size + 1))
  (found.getD ⟨0, 0⟩).trimZeros 18

end ShardNet.Number
