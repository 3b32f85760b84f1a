-- SUMMARY: The texts that are read as hexadecimal: two digits of either case for each byte, and nothing else.
import Mathlib.Data.List.Induction
import ShardNet.Proofs.Gather
import ShardNet.Proofs.Text.Blank
import ShardNet.Proofs.Text.Utf8
import ShardNet.Text.Hex

/-!
# Spellings of bytes

`Spells` says which texts stand for given bytes: each byte has two digits, either of which may be
lowercase or uppercase. The reader works on the bytes of a text. A digit is one byte, and only a
digit has this byte, so the reader takes these texts and no others.
-/

namespace ShardNet.Text.Hex

variable {c : Char} {value : Nat} {byte : UInt8} {index : Nat} {digits input : List Char}
  {bytes : Bytes}

/-! ## Digits -/

/-- A digit in lowercase or in uppercase, and its value. -/
def Digit (c : Char) (value : Nat) : Prop :=
  "0123456789abcdef".toList[value]? = some c ∨ "0123456789ABCDEF".toList[value]? = some c

instance (c : Char) (value : Nat) : Decidable (Digit c value) := inferInstanceAs (Decidable (_ ∨ _))

theorem lower_getElem? : ∀ value < 16, "0123456789abcdef".toList[value]? = some (digit value) := by
  decide

theorem upper_getElem? :
    ∀ value < 16, "0123456789ABCDEF".toList[value]? = some (digit value).toUpper := by decide

theorem digit_iff : Digit c value ↔ value < 16 ∧ (c = digit value ∨ c = (digit value).toUpper) := by
  by_cases hlt : value < 16
  · simp only [Digit, lower_getElem? value hlt, upper_getElem? value hlt, Option.some.injEq,
      hlt, true_and, eq_comm (a := c)]
  · simp [Digit, hlt]

theorem Digit.lt (h : Digit c value) : value < 16 := (digit_iff.1 h).1

/-- The byte of a digit. -/
def digitByte (value : Nat) : UInt8 := UInt8.ofNat (digit value).toNat

/-- The byte of a digit in uppercase. -/
def upperByte (value : Nat) : UInt8 := UInt8.ofNat (digit value).toUpper.toNat

theorem read_digit : ∀ value < 16,
    String.utf8EncodeChar (digit value) = [digitByte value] ∧
      digitValue? (digitByte value) = some value := by
  decide

theorem read_toUpper : ∀ value < 16,
    String.utf8EncodeChar (digit value).toUpper = [upperByte value] ∧
      digitValue? (upperByte value) = some value := by
  decide

theorem digit_of_digitValue? : ∀ n < 256, ∀ value ∈ digitValue? (UInt8.ofNat n),
    Digit (Char.ofNat n) value ∧ String.utf8EncodeChar (Char.ofNat n) = [UInt8.ofNat n] := by
  decide +kernel

theorem isBlank_digit :
    ∀ value < 16, isBlank (digit value) = false ∧ isBlank (digit value).toUpper = false := by
  decide

theorem Digit.isBlank (h : Digit c value) : isBlank c = false := by
  obtain ⟨hlt, rfl | rfl⟩ := digit_iff.1 h
  · exact (isBlank_digit value hlt).1
  · exact (isBlank_digit value hlt).2

/-- A digit is one byte, which is read as its value. -/
theorem Digit.read (h : Digit c value) :
    ∃ byte, String.utf8EncodeChar c = [byte] ∧ digitValue? byte = some value := by
  obtain ⟨hlt, rfl | rfl⟩ := digit_iff.1 h
  · exact ⟨digitByte value, read_digit value hlt⟩
  · exact ⟨upperByte value, read_toUpper value hlt⟩

theorem exists_digit (h : digitValue? byte = some value) :
    ∃ c, Digit c value ∧ String.utf8EncodeChar c = [byte] := by
  rw [← UInt8.ofNat_toNat (x := byte)] at h ⊢
  exact ⟨_, digit_of_digitValue? byte.toNat byte.toNat_lt value h⟩

/-! ## Texts -/

/-- A text of digits only. -/
def AllDigits (text : List Char) : Prop := ∀ c ∈ text, ∃ value, Digit c value

/-- Two digits for each byte, the high half first. -/
inductive Spells : List Char → Bytes → Prop where
  | nil : Spells [] []
  | cons {first second : Char} {high low : Nat} {digits : List Char} {bytes : Bytes}
      (hfirst : Digit first high) (hsecond : Digit second low) (hrest : Spells digits bytes) :
      Spells (first :: second :: digits) (UInt8.ofNat (16 * high + low) :: bytes)

theorem Spells.length (h : Spells digits bytes) : digits.length = 2 * bytes.length := by
  induction h with
  | nil => rfl
  | cons _ _ _ ih =>
    simp only [List.length_cons, ih]
    omega

/-- The first digits spell the first bytes. -/
theorem Spells.take (h : Spells digits bytes) (number : Nat) :
    Spells (digits.take (2 * number)) (bytes.take number) := by
  induction h generalizing number with
  | nil => simpa using Spells.nil
  | cons hfirst hsecond _ ih =>
    cases number with
    | zero => exact .nil
    | succ number => exact .cons hfirst hsecond (ih number)

theorem Spells.allDigits (h : Spells digits bytes) : AllDigits digits := by
  induction h with
  | nil => exact List.forall_mem_nil _
  | cons hfirst hsecond _ ih =>
      exact List.forall_mem_cons.2 ⟨⟨_, hfirst⟩, List.forall_mem_cons.2 ⟨⟨_, hsecond⟩, ih⟩⟩

/-- Any even number of digits spells some bytes. -/
theorem exists_spells (hdigits : AllDigits digits) (heven : digits.length % 2 = 0) :
    ∃ bytes, Spells digits bytes := by
  induction digits using List.twoStepInduction with
  | nil => exact ⟨[], .nil⟩
  | singleton => cases heven
  | cons_cons first second digits ih _ =>
    obtain ⟨⟨high, hfirst⟩, hdigits⟩ := List.forall_mem_cons.1 hdigits
    obtain ⟨⟨low, hsecond⟩, hdigits⟩ := List.forall_mem_cons.1 hdigits
    simp only [List.length_cons] at heven
    obtain ⟨bytes, hbytes⟩ := ih hdigits (by omega)
    exact ⟨_, .cons hfirst hsecond hbytes⟩

/-! ## The reader -/

theorem exists_spells_of_decodePairs {read : Bytes} (h : decodePairs index read = .ok bytes) :
    ∃ digits, read = Utf8.encode digits ∧ Spells digits bytes := by
  fun_induction decodePairs index read generalizing bytes with
  | case1 => exact ⟨[], rfl, Except.ok.inj h ▸ .nil⟩
  | case2 => cases h
  | case3 => cases h
  | case4 => cases h
  | case5 _ _ _ _ high low hlow hhigh ih =>
    obtain ⟨first, hfirst, hfirstByte⟩ := exists_digit hhigh
    obtain ⟨second, hsecond, hsecondByte⟩ := exists_digit hlow
    obtain ⟨others, hothers, rfl⟩ := map_eq_ok_iff.1 h
    obtain ⟨digits, rfl, hdigits⟩ := ih hothers
    refine ⟨first :: second :: digits, ?_, .cons hfirst hsecond hdigits⟩
    rw [Utf8.encode_cons, Utf8.encode_cons, hfirstByte, hsecondByte]
    rfl

theorem Spells.decodePairs (h : Spells digits bytes) :
    decodePairs index (Utf8.encode digits) = .ok bytes := by
  induction h generalizing index with
  | nil => rfl
  | cons hfirst hsecond _ ih =>
    obtain ⟨firstByte, hfirstByte, hhigh⟩ := hfirst.read
    obtain ⟨secondByte, hsecondByte, hlow⟩ := hsecond.read
    rw [Utf8.encode_cons, Utf8.encode_cons, hfirstByte, hsecondByte, List.singleton_append,
      List.singleton_append, Hex.decodePairs, hhigh, hlow]
    simp only [ih, Except.map]

theorem Spells.length_encode (h : Spells digits bytes) :
    (Utf8.encode digits).length = 2 * bytes.length := by
  induction h with
  | nil => rfl
  | cons hfirst hsecond _ ih =>
    obtain ⟨firstByte, hfirstByte, -⟩ := hfirst.read
    obtain ⟨secondByte, hsecondByte, -⟩ := hsecond.read
    rw [Utf8.encode_cons, Utf8.encode_cons, hfirstByte, hsecondByte]
    simp only [List.length_append, List.length_cons, List.length_nil, ih]
    omega

/-- The texts that are read are the spellings. -/
theorem decode_eq_ok_iff : decode input = .ok bytes ↔ Spells input bytes := by
  rw [decode]
  constructor
  · intro h
    by_cases hodd : (Utf8.encode input).length % 2 = 1
    · simp only [if_pos hodd, reduceCtorEq] at h
    · simp only [if_neg hodd] at h
      obtain ⟨digits, hsame, hdigits⟩ := exists_spells_of_decodePairs h
      exact Utf8.encode_injective hsame ▸ hdigits
  · intro h
    have heven : ¬ (Utf8.encode input).length % 2 = 1 := by
      rw [h.length_encode]
      omega
    simp only [if_neg heven, h.decodePairs]

theorem exists_spells_iff :
    (∃ bytes, Spells digits bytes) ↔ AllDigits digits ∧ digits.length % 2 = 0 := by
  constructor
  · rintro ⟨bytes, h⟩
    refine ⟨h.allDigits, ?_⟩
    rw [h.length]
    omega
  · exact fun h => exists_spells h.1 h.2

theorem Spells.isBlank (h : Spells digits bytes) (hc : c ∈ digits) : isBlank c = false := by
  obtain ⟨value, hdigit⟩ := h.allDigits c hc
  exact hdigit.isBlank

/-- Blanks around a spelling do not count. -/
theorem decode_trim_eq_ok_iff :
    decode (trim input) = .ok bytes ↔ ∃ core, Padded core input ∧ Spells core bytes := by
  rw [decode_eq_ok_iff]
  constructor
  · exact fun h => ⟨trim input, padded_trim input, h⟩
  · rintro ⟨core, hpadded, h⟩
    rwa [trim_of_padded (fun _ => h.isBlank) hpadded]

theorem Spells.unique {other : Bytes} (h : Spells digits bytes) (hother : Spells digits other) :
    bytes = other :=
  Except.ok.inj ((decode_eq_ok_iff.2 h).symm.trans (decode_eq_ok_iff.2 hother))

end ShardNet.Text.Hex
