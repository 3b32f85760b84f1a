-- SUMMARY: Byte strings, and the integers they stand for in either byte order.

/-!
# Byte strings

A byte string is a list of bytes. `toNatBE` reads it as an integer with the most significant byte
first, `toNatLE` with the least significant byte first; `ofNatLE` writes the latter form back at a
fixed length.
-/

namespace ShardNet

-- A power is that of the core library, whatever is imported beside it.
attribute [local instance (2000)] instPowNat

abbrev Bytes := List UInt8

namespace Bytes

/-- The integer whose base-256 digits are the bytes, the first byte most significant. -/
def toNatBE (bytes : Bytes) : Nat :=
  bytes.foldl (fun value byte => value * 256 + byte.toNat) 0

/-- The integer whose base-256 digits are the bytes, the first byte least significant. -/
def toNatLE : Bytes → Nat
  | [] => 0
  | byte :: rest => byte.toNat + 256 * toNatLE rest

/-- The lowest `size` base-256 digits of an integer, the least significant first. -/
def ofNatLE : (size : Nat) → Nat → Bytes
  | 0, _ => []
  | size + 1, value => UInt8.ofNat (value % 256) :: ofNatLE size (value / 256)

@[simp] theorem length_ofNatLE (size value : Nat) : (ofNatLE size value).length = size := by
  induction size generalizing value with
  | zero => rfl
  | succ size ih => simp [ofNatLE, ih]

theorem toNatLE_ofNatLE (size value : Nat) :
    (ofNatLE size value).toNatLE = value % 256 ^ size := by
  induction size generalizing value with
  | zero => simp [ofNatLE, toNatLE, Nat.mod_one]
  | succ size ih =>
    rw [Nat.pow_succ, Nat.mul_comm, Nat.mod_mul]
    simp [ofNatLE, toNatLE, ih]

end Bytes

end ShardNet
