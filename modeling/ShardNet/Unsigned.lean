-- SUMMARY: Unsigned integers of a fixed width, seen as the natural numbers below a bound.

/-!
# Unsigned integers

The program counts with integers of 32 and of 64 bits, and holds amounts of 128 bits. `Unsigned`
says what they have in common: each of them is one of the natural numbers below a bound.
-/

namespace ShardNet

-- A power is that of the core library, whatever is imported beside it.
attribute [local instance (2000)] instPowNat

/-- A type of unsigned integers: the natural numbers below `bound`. -/
class Unsigned (ω : Type) where
  bound : Nat
  toNat : ω → Nat
  ofNat : Nat → ω
  toNat_lt (w : ω) : toNat w < bound
  ofNat_toNat (w : ω) : ofNat (toNat w) = w
  toNat_ofNat {n : Nat} (h : n < bound) : toNat (ofNat n) = n

instance : Unsigned UInt32 where
  bound := UInt32.size
  toNat := UInt32.toNat
  ofNat := UInt32.ofNat
  toNat_lt := UInt32.toNat_lt_size
  ofNat_toNat _ := UInt32.ofNat_toNat
  toNat_ofNat h := UInt32.toNat_ofNat_of_lt h

instance : Unsigned UInt64 where
  bound := UInt64.size
  toNat := UInt64.toNat
  ofNat := UInt64.ofNat
  toNat_lt := UInt64.toNat_lt_size
  ofNat_toNat _ := UInt64.ofNat_toNat
  toNat_ofNat h := UInt64.toNat_ofNat_of_lt h

/-- An amount in the smallest denomination, of 128 bits. -/
structure Amount where
  toNat : Nat
  toNat_lt : toNat < 2 ^ (128 : Nat)
  deriving DecidableEq, Repr

namespace Amount

def ofNat (value : Nat) : Amount := ⟨value % 2 ^ (128 : Nat), Nat.mod_lt _ (by decide)⟩

instance : Unsigned Amount where
  bound := 2 ^ (128 : Nat)
  toNat := toNat
  ofNat := ofNat
  toNat_lt := toNat_lt
  ofNat_toNat w := by simp only [ofNat, Nat.mod_eq_of_lt w.toNat_lt]
  toNat_ofNat h := Nat.mod_eq_of_lt h

end Amount

namespace Unsigned

variable {ω : Type} [Unsigned ω]

theorem bound_pos (w : ω) : 0 < bound ω := Nat.lt_of_le_of_lt (Nat.zero_le _) (toNat_lt w)

theorem toNat_inj {v w : ω} (h : toNat v = toNat w) : v = w := by
  rw [← ofNat_toNat v, h, ofNat_toNat]

/-- The integer of a number that is in range. -/
def ofInt? (ω : Type) [Unsigned ω] (value : Int) : Option ω :=
  if 0 ≤ value ∧ value < bound ω then some (ofNat value.toNat) else none

theorem ofInt?_toNat (w : ω) : ofInt? ω (toNat w) = some w := by
  have := toNat_lt w
  simp [ofInt?, ofNat_toNat]
  omega

end Unsigned

end ShardNet
