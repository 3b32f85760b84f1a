-- SUMMARY: Binary floating-point numbers by their bits, with exact rounding to the nearest, ties to even.

/-!
# Binary floating point

A `Format` fixes the width of the stored fraction and of the exponent. The magnitude of a number,
its bits without the sign, is kept as a natural number; a finite magnitude is an exact fraction
(`Format.fraction`), and `Format.round` gives the magnitude nearest to any fraction, the even one
of two equally near. Products, quotients and decimal numbers are computed exactly and rounded once.

`Binary32` and `Binary64` are the two formats in use, with their signs.
-/

namespace ShardNet.Number

-- A power is that of the core library, whatever is imported beside it.
attribute [local instance (2000)] instPowNat

structure Format where
  fractionBits : Nat
  exponentBits : Nat

namespace Format

def single : Format := ⟨23, 8⟩

def double : Format := ⟨52, 11⟩

/-- The exponent of the lowest bit of the smallest numbers. -/
def minExponent (f : Format) : Int := 2 - 2 ^ (f.exponentBits - 1) - (f.fractionBits : Int)

/-- The magnitude of infinity; the greater ones are not numbers. -/
def infinity (f : Format) : Nat := (2 ^ f.exponentBits - 1) * 2 ^ f.fractionBits

def notANumber (f : Format) : Nat := f.infinity + 2 ^ (f.fractionBits - 1)

def isFinite (f : Format) (magnitude : Nat) : Bool := magnitude < f.infinity

/-- A fraction times a power of two. -/
def scale (num den : Nat) (exponent : Int) : Nat × Nat :=
  if 0 ≤ exponent then (num * 2 ^ exponent.toNat, den) else (num, den * 2 ^ (-exponent).toNat)

/-- A finite magnitude as an integer times a power of two. -/
def parts (f : Format) (magnitude : Nat) : Nat × Int :=
  let field := magnitude / 2 ^ f.fractionBits
  let stored := magnitude % 2 ^ f.fractionBits
  if field = 0 then (stored, f.minExponent)
  else (stored + 2 ^ f.fractionBits, f.minExponent + field - 1)

/-- A finite magnitude as a fraction. -/
def fraction (f : Format) (magnitude : Nat) : Nat × Nat :=
  let (significand, exponent) := f.parts magnitude
  scale significand 1 exponent

/-- The integer nearest to a fraction, the even one of two. -/
def nearest (num den : Nat) : Nat :=
  let quotient := num / den
  let rest := num % den
  if 2 * rest > den ∨ (2 * rest = den ∧ quotient % 2 = 1) then quotient + 1 else quotient

/-- The magnitude nearest to a fraction. -/
def round (f : Format) (num den : Nat) : Nat :=
  if num = 0 then 0
  else
    -- One of two neighbouring exponents makes the quotient one bit longer than the stored fraction.
    let guess : Int := (num.log2 : Int) - den.log2 - f.fractionBits
    let (n, d) := scale num den (-guess)
    let exponent := max f.minExponent (if n < d * 2 ^ f.fractionBits then guess - 1 else guess)
    let (n, d) := scale num den (-exponent)
    let magnitude := (exponent - f.minExponent).toNat * 2 ^ f.fractionBits + nearest n d
    min magnitude f.infinity

/-- Product of two finite magnitudes. -/
def mul (f : Format) (x y : Nat) : Nat :=
  let (a, b) := f.fraction x
  let (c, d) := f.fraction y
  f.round (a * c) (b * d)

/-- Quotient of two finite magnitudes, the second not zero. -/
def div (f : Format) (x y : Nat) : Nat :=
  let (a, b) := f.fraction x
  let (c, d) := f.fraction y
  f.round (a * d) (b * c)

/-- The magnitude nearest to `digits` times a power of ten. Far outside the range of both formats
the answer is known without the power. -/
def ofDecimal (f : Format) (digits : Nat) (exponent : Int) : Nat :=
  let point : Int := (Nat.toDigits 10 digits).length + exponent
  if digits = 0 ∨ point < -400 then 0
  else if 400 < point then f.infinity
  else if 0 ≤ exponent then f.round (digits * 10 ^ exponent.toNat) 1
  else f.round digits (10 ^ (-exponent).toNat)

end Format

/-- A number of 64 bits: sign, eleven bits of exponent, 52 bits of fraction. -/
structure Binary64 where
  bits : UInt64
  deriving DecidableEq, Repr, Inhabited

/-- A number of 32 bits: sign, eight bits of exponent, 23 bits of fraction. -/
structure Binary32 where
  bits : UInt32
  deriving DecidableEq, Repr, Inhabited

namespace Binary64

def ofMagnitude (negative : Bool) (magnitude : Nat) : Binary64 :=
  ⟨UInt64.ofNat (negative.toNat * 2 ^ (63 : Nat) + magnitude)⟩

def isNegative (x : Binary64) : Bool := 2 ^ (63 : Nat) ≤ x.bits.toNat

def magnitude (x : Binary64) : Nat := x.bits.toNat % 2 ^ (63 : Nat)

def isFinite (x : Binary64) : Bool := Format.double.isFinite x.magnitude

/-- The number nearest to an integer. -/
def ofInt (value : Int) : Binary64 :=
  ofMagnitude (value < 0) (Format.double.round value.natAbs 1)

end Binary64

namespace Binary32

def ofMagnitude (negative : Bool) (magnitude : Nat) : Binary32 :=
  ⟨UInt32.ofNat (negative.toNat * 2 ^ (31 : Nat) + magnitude)⟩

def isNegative (x : Binary32) : Bool := 2 ^ (31 : Nat) ≤ x.bits.toNat

def magnitude (x : Binary32) : Nat := x.bits.toNat % 2 ^ (31 : Nat)

/-- The number nearest to an integer. -/
def ofInt (value : Int) : Binary32 :=
  ofMagnitude (value < 0) (Format.single.round value.natAbs 1)

end Binary32

/-- The magnitude in one format nearest to a magnitude of another. -/
def Format.convert (source target : Format) (magnitude : Nat) : Nat :=
  if source.isFinite magnitude then
    let (num, den) := source.fraction magnitude
    target.round num den
  else if magnitude = source.infinity then target.infinity
  else target.notANumber

/-- The nearest number of 32 bits. -/
def Binary64.narrow (x : Binary64) : Binary32 :=
  .ofMagnitude x.isNegative (Format.double.convert .single x.magnitude)

/-- The same number with 64 bits. -/
def Binary32.widen (x : Binary32) : Binary64 :=
  .ofMagnitude x.isNegative (Format.single.convert .double x.magnitude)

end ShardNet.Number
