-- SUMMARY: Hexadecimal reads back what it writes, which is the spelling in lowercase.
import ShardNet.Proofs.Text.Hex.Spelling

/-!
# The round trip of hexadecimal

What is written is a spelling of the bytes, so the reader takes it. Other spellings have a digit in
uppercase.
-/

namespace ShardNet.Text.Hex

variable {c : Char} {value : Nat} {byte : UInt8} {bytes : Bytes} {digits : List Char}

theorem high_lt (byte : UInt8) : byte.toNat / 16 < 16 := by
  have hbyte := byte.toNat_lt
  omega

theorem low_lt (byte : UInt8) : byte.toNat % 16 < 16 := Nat.mod_lt _ (by decide)

theorem encode_cons (byte : UInt8) (bytes : Bytes) :
    encode (byte :: bytes) = digit (byte.toNat / 16) :: digit (byte.toNat % 16) :: encode bytes :=
  List.flatMap_cons

/-- Every byte string has a spelling, the one that is written. -/
theorem spells_encode (bytes : Bytes) : Spells (encode bytes) bytes := by
  induction bytes with
  | nil => exact .nil
  | cons byte bytes ih =>
      have hhigh : Digit (digit (byte.toNat / 16)) (byte.toNat / 16) :=
        digit_iff.2 ⟨high_lt byte, .inl rfl⟩
      have hlow : Digit (digit (byte.toNat % 16)) (byte.toNat % 16) :=
        digit_iff.2 ⟨low_lt byte, .inl rfl⟩
      have hspells := Spells.cons hhigh hlow ih
      rwa [Nat.div_add_mod, UInt8.ofNat_toNat, ← encode_cons] at hspells

/-- Every byte string is read back from its text. -/
theorem decode_encode (bytes : Bytes) : decode (encode bytes) = .ok bytes :=
  decode_eq_ok_iff.2 (spells_encode bytes)

theorem decode_text (bytes : Bytes) : decode (text bytes).toList = .ok bytes := by
  rw [text, String.toList_ofList, decode_encode]

theorem length_text (bytes : Bytes) : (text bytes).length = 2 * bytes.length := by
  rw [text, String.length_ofList, (spells_encode bytes).length]

/-! ## Lowercase -/

theorem digit_mem : ∀ value < 16, digit value ∈ "0123456789abcdef".toList := by decide

/-- A text has lowercase digits only. -/
theorem mem_of_mem_text (hmem : c ∈ (text bytes).toList) : c ∈ "0123456789abcdef".toList := by
  rw [text, String.toList_ofList, encode] at hmem
  obtain ⟨byte, -, hc⟩ := List.mem_flatMap.1 hmem
  cases hc with
  | head => exact digit_mem _ (high_lt byte)
  | tail _ hlow =>
      rw [List.mem_singleton.1 hlow]
      exact digit_mem _ (low_lt byte)

theorem toUpper_digit_of_lower : ∀ value < 16, (digit value).toUpper ∈ "0123456789abcdef".toList →
    (digit value).toUpper = digit value := by
  decide

theorem Digit.eq_digit (h : Digit c value) (hlower : c ∈ "0123456789abcdef".toList) :
    c = digit value := by
  obtain ⟨hlt, rfl | rfl⟩ := digit_iff.1 h
  · rfl
  · exact toUpper_digit_of_lower value hlt hlower

/-- The spelling in lowercase is the one that is written. -/
theorem Spells.eq_encode (h : Spells digits bytes)
    (hlower : ∀ c ∈ digits, c ∈ "0123456789abcdef".toList) :
    digits = encode bytes := by
  induction h with
  | nil => rfl
  | @cons first second high low digits bytes hfirst hsecond _ ih =>
    obtain ⟨hfirstLower, hlower⟩ := List.forall_mem_cons.1 hlower
    obtain ⟨hsecondLower, hlower⟩ := List.forall_mem_cons.1 hlower
    have hhigh := hfirst.lt
    have hlow := hsecond.lt
    have hbyte : (UInt8.ofNat (16 * high + low)).toNat = 16 * high + low :=
      Utf8.toNat_ofNat (by omega)
    have hhighPart : (16 * high + low) / 16 = high := by omega
    have hlowPart : (16 * high + low) % 16 = low := by omega
    rw [encode_cons, hbyte, hhighPart, hlowPart, ← ih hlower, ← hfirst.eq_digit hfirstLower,
      ← hsecond.eq_digit hsecondLower]

end ShardNet.Text.Hex
