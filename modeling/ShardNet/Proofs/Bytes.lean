-- SUMMARY: The integer of a byte string: its digits, its size, and which byte strings have the same one.
import Mathlib.Data.Nat.Digits.Lemmas
import ShardNet.Bytes

/-!
# Integers of byte strings

The bytes are digits in base 256, the first one most significant. Zeros at the front add nothing,
and without them the bytes are the digits of their integer, so nothing else is lost.
-/

namespace ShardNet.Bytes

variable {front back bytes other : Bytes} {byte : UInt8}

theorem toNatBE_snoc : toNatBE (front ++ [byte]) = toNatBE front * 256 + byte.toNat := by
  simp [toNatBE]

theorem toNatBE_append :
    toNatBE (front ++ back) = toNatBE front * 256 ^ back.length + toNatBE back := by
  induction back using List.reverseRecOn with
  | nil => simp [toNatBE]
  | append_singleton back byte ih =>
      rw [← List.append_assoc, toNatBE_snoc, ih, toNatBE_snoc, List.length_append,
        List.length_singleton, Nat.pow_succ, Nat.add_mul, Nat.mul_assoc, Nat.add_assoc]

theorem toNatBE_lt (bytes : Bytes) : toNatBE bytes < 256 ^ bytes.length := by
  induction bytes using List.reverseRecOn with
  | nil => simp [toNatBE]
  | append_singleton bytes byte ih =>
      have hbyte := byte.toNat_lt
      rw [toNatBE_snoc, List.length_append, List.length_singleton, Nat.pow_succ]
      omega

theorem toNatBE_reverse (bytes : Bytes) : toNatBE bytes.reverse = toNatLE bytes := by
  induction bytes with
  | nil => rfl
  | cons byte rest ih =>
      rw [List.reverse_cons, toNatBE_snoc, ih, toNatLE, Nat.mul_comm, Nat.add_comm]

theorem toNatBE_eq_ofDigits (bytes : Bytes) :
    toNatBE bytes = Nat.ofDigits 256 (bytes.reverse.map UInt8.toNat) := by
  induction bytes using List.reverseRecOn with
  | nil => rfl
  | append_singleton bytes byte ih =>
      rw [toNatBE_snoc, ih, List.reverse_append, List.reverse_singleton, List.singleton_append,
        List.map_cons, Nat.ofDigits_cons, Nat.mul_comm, Nat.add_comm]

/-! ## Zeros at the front -/

/-- A byte string from its first byte on that is not zero. -/
def significant (bytes : Bytes) : Bytes := bytes.dropWhile (· = 0)

theorem toNatBE_significant (bytes : Bytes) : toNatBE (significant bytes) = toNatBE bytes := by
  induction bytes with
  | nil => rfl
  | cons byte bytes ih =>
      rw [significant, List.dropWhile_cons]
      split
      · next hzero =>
        obtain rfl : byte = 0 := of_decide_eq_true hzero
        rw [← significant, ih, ← List.singleton_append, toNatBE_append]
        simp [toNatBE]
      · rfl

/-- What is significant are the digits of the integer. -/
theorem digits_toNatBE (bytes : Bytes) :
    Nat.digits 256 (toNatBE bytes) = (significant bytes).reverse.map UInt8.toNat := by
  rw [← toNatBE_significant, toNatBE_eq_ofDigits]
  refine Nat.digits_ofDigits 256 (by decide) _ (fun digit hdigit => ?_) fun hne => ?_
  · obtain ⟨byte, -, rfl⟩ := List.mem_map.1 hdigit
    exact byte.toNat_lt
  · have hsignificant : significant bytes ≠ [] := by simpa using hne
    have hfirst : (significant bytes).head hsignificant ≠ 0 :=
      of_decide_eq_false (List.head_dropWhile_not (fun byte : UInt8 =>
        decide (byte = 0)) hsignificant)
    rw [List.getLast_map, List.getLast_reverse]
    exact fun hzero => hfirst (UInt8.toNat_inj.1 hzero)

/-- Byte strings have the same integer exactly if they differ by zeros at the front. -/
theorem toNatBE_eq_iff : toNatBE bytes = toNatBE other ↔ significant bytes = significant other := by
  constructor
  · intro hsame
    have hdigits := digits_toNatBE bytes
    rw [hsame, digits_toNatBE other] at hdigits
    have hreverse := List.map_injective_iff.2 (fun _ _ => UInt8.toNat_inj.1) hdigits
    exact (List.reverse_injective hreverse).symm
  · intro hsame
    rw [← toNatBE_significant, hsame, toNatBE_significant]

end ShardNet.Bytes
