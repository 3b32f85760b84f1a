-- SUMMARY: The decimal digits of a number: what they are, and which texts are read as a number.
import ShardNet.Number.Real
import ShardNet.Proofs.Text.Blank
import ShardNet.Text.Decimal

/-!
# Decimal digits

The digits of a number are ASCII digits, at least one, without a zero in front of others, and the
number is what they stand for. The reader takes the numerals below its bound and nothing else, so it
takes the digits of a number back, and they are the only key of the number.
-/

namespace ShardNet.Text.Decimal

variable {value : Nat}

theorem digits_ne_nil : digits value ≠ [] := Nat.toDigits_ne_nil

theorem isDigit_of_mem_digits {c : Char} (hmem : c ∈ digits value) : c.isDigit :=
  Nat.isDigit_of_mem_toDigits (by omega) (by omega) hmem

theorem isBlank_of_mem_digits {c : Char} (hmem : c ∈ digits value) : isBlank c = false :=
  isBlank_of_isDigit (isDigit_of_mem_digits hmem)

theorem ofDigits_digits : Number.ofDigits (digits value) = value := Nat.ofDigitChars_ten_toDigits

theorem digits_inj {other : Nat} (hsame : digits value = digits other) : value = other :=
  calc
    value = Number.ofDigits (digits value) := ofDigits_digits.symm
    _ = Number.ofDigits (digits other) := by rw [hsame]
    _ = other := ofDigits_digits

theorem text_inj {other : Nat} (hsame : text value = text other) : value = other :=
  digits_inj (String.ofList_injective hsame)

theorem digits_of_lt_ten (hlt : value < 10) : digits value = [value.digitChar] :=
  Nat.toDigits_of_lt_base hlt

/-- The last digit is written behind the others. -/
theorem digits_of_ten_le (hle : 10 ≤ value) :
    digits value = digits (value / 10) ++ [(value % 10).digitChar] :=
  Nat.toDigits_of_base_le (by omega) hle

theorem eq_zero_of_digits (hzero : digits value = ['0']) : value = 0 := by
  have hback : Number.ofDigits (digits value) = value := ofDigits_digits
  rw [hzero] at hback
  exact hback.symm

/-- No zero stands in front of other digits. -/
theorem digits_ne_zero_cons {c : Char} {rest : List Char} : digits value ≠ '0' :: c :: rest := by
  induction value using Nat.strongRecOn generalizing c rest with
  | ind value ih =>
      intro hdigits
      by_cases hlt : value < 10
      · rw [digits_of_lt_ten hlt] at hdigits
        simp at hdigits
      · rw [digits_of_ten_le (by omega)] at hdigits
        have hne : digits (value / 10) ≠ [] := digits_ne_nil
        cases hfront : digits (value / 10) with
        | nil => exact hne hfront
        | cons first others =>
            rw [hfront, List.cons_append, List.cons.injEq] at hdigits
            obtain ⟨rfl, -⟩ := hdigits
            cases others with
            | nil =>
                have hzero : value / 10 = 0 := eq_zero_of_digits hfront
                omega
            | cons second later => exact ih (value / 10) (by omega) hfront

/-! ## Reading -/

theorem ofDigitChars_cons {c : Char} {rest : List Char} :
    Nat.ofDigitChars 10 (c :: rest) value = Nat.ofDigitChars 10 rest
      (value * 10 + digitValue c) := by
  rw [Nat.ofDigitChars_cons, Nat.mul_comm, digitValue]

theorem le_ofDigitChars {input : List Char} : value ≤ Nat.ofDigitChars 10 input value := by
  induction input generalizing value with
  | nil => exact Nat.le_refl value
  | cons c rest ih =>
      rw [ofDigitChars_cons]
      exact Nat.le_trans (by omega) ih

theorem readDigits_eq_ok_iff {bound number : Nat} {input : List Char} (hvalue : value < bound) :
    readDigits bound value input = .ok number ↔
      (∀ c ∈ input, c.isDigit) ∧ number = Nat.ofDigitChars 10 input value ∧ number < bound := by
  induction input generalizing value with
  | nil =>
      simp only [readDigits, Except.ok.injEq, Nat.ofDigitChars_nil]
      grind
  | cons c rest ih =>
      have hgrow :
          value * 10 + digitValue c ≤ Nat.ofDigitChars 10 rest (value * 10 + digitValue c) :=
        le_ofDigitChars
      simp only [readDigits, List.forall_mem_cons, ofDigitChars_cons]
      split
      · next hc => simp [hc]
      · next hc =>
        split
        · simp only [reduceCtorEq, false_iff]
          omega
        · next hsmall =>
          rw [ih (by omega)]
          simp [Decidable.not_not.1 hc]

/-! ## Numerals -/

variable {bound : Nat} {text rest : List Char}

/-- A run of ASCII digits, at least one, that stands for a number. -/
structure DigitRun (run : List Char) (value : Nat) : Prop where
  ne_nil : run ≠ []
  isDigit : ∀ c ∈ run, c.isDigit
  value_eq : Number.ofDigits run = value

/-- The texts that are read as a number: its digits, with any number of zeros in front of them,
possibly behind a plus sign. -/
def Numeral (text : List Char) (value : Nat) : Prop :=
  ∃ run, (text = run ∨ text = '+' :: run) ∧ DigitRun run value

theorem digitRun_digits : DigitRun (digits value) value :=
  ⟨digits_ne_nil, fun _ => isDigit_of_mem_digits, ofDigits_digits⟩

theorem numeral_digits : Numeral (digits value) value := ⟨_, .inl rfl, digitRun_digits⟩

theorem numeral_plus_iff : Numeral ('+' :: rest) value ↔ DigitRun rest value := by
  constructor
  · rintro ⟨run, rfl | hsign, hrun⟩
    · cases hrun.isDigit '+' List.mem_cons_self
    · obtain rfl := (List.cons.inj hsign).2
      exact hrun
  · exact fun h => ⟨rest, .inr rfl, h⟩

theorem numeral_iff_of_ne_plus (hplus : ∀ rest, text ≠ '+' :: rest) :
    Numeral text value ↔ DigitRun text value := by
  constructor
  · rintro ⟨run, rfl | hsign, hrun⟩
    · exact hrun
    · exact absurd hsign (hplus run)
  · exact fun h => ⟨text, .inl rfl, h⟩

theorem Numeral.isBlank {c : Char} (h : Numeral text value) (hmem : c ∈ text) :
    isBlank c = false := by
  obtain ⟨run, rfl | rfl, hrun⟩ := h
  · exact isBlank_of_isDigit (hrun.isDigit c hmem)
  · rcases List.mem_cons.1 hmem with rfl | hmem
    · decide
    · exact isBlank_of_isDigit (hrun.isDigit c hmem)

theorem readDigits_zero_eq_ok_iff (hbound : 0 < bound) (hne : text ≠ []) :
    readDigits bound 0 text = .ok value ↔ DigitRun text value ∧ value < bound := by
  rw [readDigits_eq_ok_iff hbound]
  constructor
  · rintro ⟨hdigits, rfl, hlt⟩
    exact ⟨⟨hne, hdigits, rfl⟩, hlt⟩
  · rintro ⟨⟨-, hdigits, rfl⟩, hlt⟩
    exact ⟨hdigits, rfl, hlt⟩

/-- The reader takes the numerals below its bound, and nothing else. -/
theorem read_eq_ok_iff (hbound : 0 < bound) :
    read bound text = .ok value ↔ Numeral text value ∧ value < bound := by
  unfold read
  split
  · -- Nothing at all is no run of digits, and neither is what stands behind a lone sign.
    refine iff_of_false nofun fun ⟨hnumeral, _⟩ => ?_
    exact ((numeral_iff_of_ne_plus fun _ => List.cons_ne_nil _ _ |>.symm).1 hnumeral).ne_nil rfl
  · refine iff_of_false nofun fun ⟨hnumeral, _⟩ => ?_
    exact (numeral_plus_iff.1 hnumeral).ne_nil rfl
  · next rest hlone =>
    rw [numeral_plus_iff, readDigits_zero_eq_ok_iff hbound]
    rintro rfl
    exact hlone rfl
  · next hempty _ hplus =>
    rw [numeral_iff_of_ne_plus hplus, readDigits_zero_eq_ok_iff hbound]
    exact hempty

theorem readUnsigned_eq_ok_iff {ω : Type} [Unsigned ω] {number : ω} :
    readUnsigned ω text = .ok number ↔ Numeral text (Unsigned.toNat number) := by
  have hread : ∀ value, read (Unsigned.bound ω) text = .ok value ↔
      Numeral text value ∧ value < Unsigned.bound ω :=
    fun value => read_eq_ok_iff (Unsigned.bound_pos number)
  constructor
  · intro h
    cases hvalue : read (Unsigned.bound ω) text with
    | error fault => simp [readUnsigned, hvalue, Except.map] at h
    | ok value =>
        obtain ⟨hnumeral, hlt⟩ := (hread value).1 hvalue
        obtain rfl : Unsigned.ofNat value = number := by
          simpa [readUnsigned, hvalue, Except.map] using h
        rwa [Unsigned.toNat_ofNat hlt]
  · intro h
    have hvalue := (hread _).2 ⟨h, Unsigned.toNat_lt number⟩
    simp [readUnsigned, hvalue, Except.map, Unsigned.ofNat_toNat]

/-- Blanks around a numeral do not count. -/
theorem readUnsigned_trim_eq_ok_iff {ω : Type} [Unsigned ω] {number : ω} :
    readUnsigned ω (trim text) = .ok number ↔
      ∃ core, Padded core text ∧ Numeral core (Unsigned.toNat number) := by
  rw [readUnsigned_eq_ok_iff]
  constructor
  · exact fun hnumeral => ⟨trim text, padded_trim text, hnumeral⟩
  · rintro ⟨core, hpadded, hnumeral⟩
    rwa [trim_of_padded (fun _ => hnumeral.isBlank) hpadded]

theorem readUnsigned_digits {ω : Type} [Unsigned ω] (number : ω) :
    readUnsigned ω (digits (Unsigned.toNat number)) = .ok number :=
  readUnsigned_eq_ok_iff.2 numeral_digits

end ShardNet.Text.Decimal
