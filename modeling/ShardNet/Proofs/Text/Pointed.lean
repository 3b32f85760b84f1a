-- SUMMARY: A number with a point is written exactly, in the shortest form, and this form is unique.
import Mathlib.Data.List.DropRight
import Mathlib.Data.Rat.Cast.Order
import Mathlib.Tactic.FieldSimp
import Mathlib.Tactic.Ring
import ShardNet.Bytes
import ShardNet.Proofs.Text.Decimal

/-!
# Numbers with a point

`Pointed` says which texts are written for numbers with so many decimal places, and what they stand
for. The whole digits have no needless zero in front, and the digits behind the point have none at
the end. So of all texts for a number there is one of this form, and the writer finds it.

Two runs of digits of one length that stand for the same number are the same. The whole digits and
the fraction of a number are compared by that, each filled up with zeros.
-/

namespace ShardNet.Text.Decimal

open Number (ofDigits)

variable {c : Char} {value number places : Nat} {run other whole fraction text : List Char}

/-! ## Runs of digits -/

theorem ofDigits_append :
    ofDigits (run ++ other) = ofDigits run * 10 ^ other.length + ofDigits other := by
  rw [ofDigits, Nat.ofDigitChars_append, Nat.ofDigitChars_eq_ofDigitChars_zero, Nat.mul_comm]
  rfl

theorem ofDigits_replicate_zero : ofDigits (List.replicate number '0') = 0 := by
  rw [ofDigits, Nat.ofDigitChars_replicate_zero, Nat.mul_zero]

theorem isDigit_of_mem_replicate (hmem : c ∈ List.replicate number '0') : c.isDigit := by
  rw [List.eq_of_mem_replicate hmem]
  rfl

theorem digitValue_of_isDigit (hdigit : c.isDigit) :
    digitValue c < 10 ∧ digitValue c + 48 = c.toNat := by
  obtain ⟨hlow, hhigh⟩ := toNat_of_isDigit hdigit
  have hzero : '0'.toNat = 48 := rfl
  rw [digitValue, hzero]
  omega

theorem ofDigits_cons : ofDigits (c :: run) = digitValue c * 10 ^ run.length + ofDigits run := by
  have hsingle : ofDigits [c] = digitValue c := by
    simp [ofDigits, digitValue, Nat.ofDigitChars_cons]
  rw [← List.singleton_append, ofDigits_append, hsingle]

theorem ofDigits_lt (hdigits : ∀ c ∈ run, c.isDigit) : ofDigits run < 10 ^ run.length := by
  induction run with
  | nil => decide
  | cons c run ih =>
      obtain ⟨hc, hrun⟩ := List.forall_mem_cons.1 hdigits
      have hbound := ih hrun
      have hdigit : digitValue c * 10 ^ run.length ≤ 9 * 10 ^ run.length :=
        Nat.mul_le_mul_right _ (Nat.le_of_lt_succ (digitValue_of_isDigit hc).1)
      rw [ofDigits_cons, List.length_cons, Nat.pow_succ]
      omega

/-- A number in front of another one below a power of ten, and the two are told apart. -/
theorem eq_of_shifted {a b r s : Nat} (hr : r < 10 ^ places) (hs : s < 10 ^ places)
    (hsame : a * 10 ^ places + r = b * 10 ^ places + s) : a = b ∧ r = s := by
  have hpos : 0 < 10 ^ places := Nat.pow_pos (by decide)
  have hfront : a = b := by
    have hdiv := congrArg (· / 10 ^ places) hsame
    simpa [Nat.add_comm _ r, Nat.add_comm _ s, Nat.add_mul_div_right _ _ hpos, Nat.div_eq_of_lt hr,
      Nat.div_eq_of_lt hs] using hdiv
  subst hfront
  exact ⟨rfl, Nat.add_left_cancel hsame⟩

/-- Runs of one length are the same if they stand for the same number. -/
theorem eq_of_ofDigits_eq (hrun : ∀ c ∈ run, c.isDigit) (hother : ∀ c ∈ other, c.isDigit)
    (hlength : run.length = other.length) (hsame : ofDigits run = ofDigits other) :
    run = other := by
  induction run generalizing other with
  | nil => exact (List.length_eq_zero_iff.1 hlength.symm).symm
  | cons c run ih =>
      cases other with
      | nil => cases hlength
      | cons d other =>
          obtain ⟨hc, hrun⟩ := List.forall_mem_cons.1 hrun
          obtain ⟨hd, hother⟩ := List.forall_mem_cons.1 hother
          have hlength : run.length = other.length := Nat.succ.inj hlength
          rw [ofDigits_cons, ofDigits_cons, hlength] at hsame
          obtain ⟨hfirst, hrest⟩ :=
            eq_of_shifted (hlength ▸ ofDigits_lt hrun) (ofDigits_lt hother) hsame
          have hcode : c.toNat = d.toNat := by
            rw [← (digitValue_of_isDigit hc).2, hfirst, (digitValue_of_isDigit hd).2]
          rw [Char.toNat_inj.1 hcode, ih hrun hother hlength hrest]

/-! ## Whole numbers and fractions -/

/-- Digits without a needless zero in front of them. -/
structure Whole (run : List Char) : Prop where
  ne_nil : run ≠ []
  isDigit : ∀ c ∈ run, c.isDigit
  noZero : ∀ c rest, run ≠ '0' :: c :: rest

/-- At most so many digits, without a needless zero behind them. -/
structure Fraction (places : Nat) (run : List Char) : Prop where
  isDigit : ∀ c ∈ run, c.isDigit
  noZero : ∀ front, run ≠ front ++ ['0']
  length_le : run.length ≤ places

theorem Whole.le_length (hrun : Whole run) (hother : Whole other)
    (hsame : ofDigits run = ofDigits other) :
    other.length ≤ run.length := by
  by_contra hlonger
  obtain ⟨gap, hgap⟩ : ∃ gap, other.length = gap + 1 + run.length :=
    ⟨other.length - run.length - 1, by omega⟩
  have hfilled : List.replicate (gap + 1) '0' ++ run = other := by
    refine eq_of_ofDigits_eq (fun c hmem => ?_) hother.isDigit (by simp [hgap]) ?_
    · exact (List.mem_append.1 hmem).elim isDigit_of_mem_replicate (hrun.isDigit c)
    · rw [ofDigits_append, ofDigits_replicate_zero, Nat.zero_mul, Nat.zero_add, hsame]
  -- The longer run begins with a zero, and does not end there.
  obtain ⟨c, rest, hrest⟩ : ∃ c rest, List.replicate gap '0' ++ run = c :: rest :=
    List.exists_cons_of_ne_nil (by simp [hrun.ne_nil])
  refine hother.noZero c rest ?_
  rw [← hfilled, List.replicate_succ, List.cons_append, hrest]

/-- Whole digits are determined by their number. -/
theorem Whole.unique (hrun : Whole run) (hother : Whole other)
    (hsame : ofDigits run = ofDigits other) :
    run = other :=
  eq_of_ofDigits_eq hrun.isDigit hother.isDigit
    (Nat.le_antisymm (hother.le_length hrun hsame.symm) (hrun.le_length hother hsame)) hsame

theorem whole_digits (value : Nat) : Whole (digits value) :=
  ⟨digits_ne_nil, fun _ => isDigit_of_mem_digits, fun _ _ => digits_ne_zero_cons⟩

/-- The digits of a number are its only ones without a needless zero. -/
theorem eq_digits_iff : run = digits value ↔ Whole run ∧ ofDigits run = value := by
  constructor
  · rintro rfl
    exact ⟨whole_digits value, ofDigits_digits⟩
  · rintro ⟨hwhole, hvalue⟩
    exact hwhole.unique (whole_digits value) (hvalue.trans ofDigits_digits.symm)

theorem rdropWhile_fill (hlast : ∀ front, run ≠ front ++ ['0']) :
    (run ++ List.replicate number '0').rdropWhile (· = '0') = run := by
  induction number with
  | zero =>
      rw [List.replicate_zero, List.append_nil, List.rdropWhile_eq_self_iff]
      intro hne hzero
      refine hlast run.dropLast ?_
      rw [← of_decide_eq_true hzero, List.dropLast_append_getLast]
  | succ number ih =>
      rw [List.replicate_succ', ← List.append_assoc, List.rdropWhile_concat_pos _ _ _ (by rfl), ih]

/-- Digits behind a point, filled up with zeros to so many places. -/
def filled (places : Nat) (run : List Char) : List Char :=
  run ++ List.replicate (places - run.length) '0'

theorem ofDigits_filled :
    ofDigits (filled places run) = ofDigits run * 10 ^ (places - run.length) := by
  rw [filled, ofDigits_append, ofDigits_replicate_zero, List.length_replicate, Nat.add_zero]

/-- Digits are had again from what is left of them without the zeros at their end. -/
theorem filled_rdropWhile : filled run.length (run.rdropWhile (· = '0')) = run := by
  have hzeros : run.rtakeWhile (· = '0') = List.replicate (run.rtakeWhile (· = '0')).length '0' :=
    List.eq_replicate_of_mem fun c hmem => by simpa using List.mem_rtakeWhile_imp hmem
  have hsplit : run.rdropWhile (· = '0') ++ run.rtakeWhile (· = '0') = run :=
    List.rdropWhile_append_rtakeWhile
  have hlength := congrArg List.length hsplit
  rw [List.length_append] at hlength
  calc filled run.length (run.rdropWhile (· = '0'))
    _ = run.rdropWhile (· = '0') ++ List.replicate (run.rtakeWhile (· = '0')).length '0' := by
      rw [filled, ← hlength, Nat.add_sub_cancel_left]
    _ = run := by rw [← hzeros, hsplit]

theorem Fraction.isDigit_filled (hrun : Fraction places run) : ∀ c ∈ filled places run, c.isDigit :=
  fun c hmem => (List.mem_append.1 hmem).elim (hrun.isDigit c) isDigit_of_mem_replicate

theorem Fraction.length_filled (hrun : Fraction places run) :
    (filled places run).length = places := by
  have hlength := hrun.length_le
  simp only [filled, List.length_append, List.length_replicate]
  omega

theorem Fraction.ofDigits_filled_lt (hrun : Fraction places run) :
    ofDigits (filled places run) < 10 ^ places :=
  calc
    ofDigits (filled places run) < 10 ^ (filled places run).length :=
  ofDigits_lt hrun.isDigit_filled
    _ = 10 ^ places := by rw [hrun.length_filled]

/-- A fraction is determined by what it comes to when it is filled up. -/
theorem Fraction.unique (hrun : Fraction places run) (hother : Fraction places other)
    (hsame : ofDigits (filled places run) = ofDigits (filled places other)) : run = other := by
  have hfilled : filled places run = filled places other := eq_of_ofDigits_eq hrun.isDigit_filled
    hother.isDigit_filled (hrun.length_filled.trans hother.length_filled.symm) hsame
  calc
    run = (filled places run).rdropWhile (· = '0') := (rdropWhile_fill hrun.noZero).symm
    _ = (filled places other).rdropWhile (· = '0') := by rw [hfilled]
    _ = other := rdropWhile_fill hother.noZero

/-! ## Texts -/

/-- The texts of numbers with at most so many decimal places, and what they stand for: whole digits,
and digits behind a point if there are any. -/
inductive Pointed (places : Nat) : List Char → ℚ → Prop where
  | whole {whole : List Char} (hwhole : Whole whole) : Pointed places whole (ofDigits whole)
  | point {whole fraction : List Char} (hwhole : Whole whole) (hfraction : Fraction places fraction)
      (hsome : fraction ≠ []) : Pointed places (whole ++ '.' :: fraction)
        (ofDigits whole + ofDigits fraction / 10 ^ fraction.length)

/-- Whole digits with a fraction behind them, and a point between the two unless there is no
fraction. -/
def joined (whole fraction : List Char) : List Char :=
  if fraction.isEmpty then whole else whole ++ '.' :: fraction

theorem pointed_joined (hwhole : Whole whole) (hfraction : Fraction places fraction) :
    Pointed places (joined whole fraction) (ofDigits whole + ofDigits fraction / 10 ^
      fraction.length) := by
  cases fraction with
  | nil => simpa [joined, ofDigits] using Pointed.whole hwhole
  | cons c rest => exact .point hwhole hfraction (List.cons_ne_nil _ _)

theorem Pointed.exists_joined {amount : ℚ} (h : Pointed places text amount) :
    ∃ whole fraction, Whole whole ∧ Fraction places fraction ∧ text = joined whole fraction ∧
      amount = ofDigits whole + ofDigits fraction / 10 ^ fraction.length := by
  cases h with
  | whole hwhole =>
      have hnone : Fraction places [] := ⟨nofun, by simp, Nat.zero_le _⟩
      exact ⟨text, [], hwhole, hnone, rfl, by simp [ofDigits]⟩
  | point hwhole hfraction hsome => exact ⟨_, _, hwhole, hfraction, by simp [joined, hsome], rfl⟩

/-- The number of whole digits and a fraction, counted in units of the last place. -/
theorem parts_mul_pow (whole : List Char) (hfraction : Fraction places fraction) :
    ((ofDigits whole : ℚ) + ofDigits fraction / 10 ^ fraction.length) * 10 ^ places =
      (ofDigits whole * 10 ^ places + ofDigits (filled places fraction) : Nat) := by
  obtain ⟨gap, rfl⟩ : ∃ gap, places = fraction.length + gap :=
    Nat.exists_eq_add_of_le hfraction.length_le
  rw [ofDigits_filled, Nat.add_sub_cancel_left]
  push_cast
  rw [pow_add]
  field_simp

/-- The text of a number is unique. -/
theorem Pointed.unique {amount : ℚ} {text' : List Char} (h : Pointed places text amount)
    (h' : Pointed places text' amount) : text = text' := by
  obtain ⟨whole, fraction, hwhole, hfraction, rfl, hamount⟩ := h.exists_joined
  obtain ⟨whole', fraction', hwhole', hfraction', rfl, hamount'⟩ := h'.exists_joined
  have hunits : ofDigits whole * 10 ^ places + ofDigits (filled places fraction) =
      ofDigits whole' * 10 ^ places + ofDigits (filled places fraction') := by
    have hunits := (parts_mul_pow whole hfraction).symm.trans
      ((congrArg (· * 10 ^ places) (hamount.symm.trans hamount')).trans
        (parts_mul_pow whole' hfraction'))
    exact_mod_cast hunits
  obtain ⟨hfront, hback⟩ :=
    eq_of_shifted hfraction.ofDigits_filled_lt hfraction'.ofDigits_filled_lt hunits
  rw [hwhole.unique hwhole' hfront, hfraction.unique hfraction' hback]

theorem point_notMem (hdigits : ∀ c ∈ run, c.isDigit) : '.' ∉ run := by
  intro hmem
  cases hdigits '.' hmem

/-- A text stands for one number only. -/
theorem Pointed.value_unique {amount amount' : ℚ} (h : Pointed places text amount)
    (h' : Pointed places text amount') : amount = amount' := by
  have hpoint : ∀ {whole fraction : List Char}, '.' ∈ whole ++ '.' :: fraction :=
    List.mem_append_right _ List.mem_cons_self
  cases h with
  | whole hwhole =>
      generalize hsame : text = text' at h'
      cases h' with
      | whole => rfl
      | point => exact absurd (hsame ▸ hpoint) (point_notMem hwhole.isDigit)
  | point hwhole hfraction =>
      generalize hsame : _ ++ '.' :: _ = text' at h'
      cases h' with
      | whole hwhole' => exact absurd (hsame ▸ hpoint) (point_notMem hwhole'.isDigit)
      | point =>
          obtain ⟨rfl, -, rfl⟩ := (List.append_cons_inj_of_notMem (point_notMem hwhole.isDigit)
            (point_notMem hfraction.isDigit)).1 hsame
          rfl

/-! ## The writer -/

/-- The digits of a number with zeros in front of them, so many that there is one before the
point. -/
def padded (value places : Nat) : List Char :=
  List.replicate (places + 1 - (digits value).length) '0' ++ digits value

/-- The digits before the point. -/
def wholeDigits (value places : Nat) : List Char :=
  (padded value places).take ((padded value places).length - places)

/-- The digits behind the point. -/
def placeDigits (value places : Nat) : List Char :=
  (padded value places).drop ((padded value places).length - places)

/-- The digits behind the point, up to the last one that is not zero. -/
def fractionDigits (value places : Nat) : List Char :=
  (placeDigits value places).rdropWhile (· = '0')

theorem pointed_eq :
    pointed value places = joined (wholeDigits value places) (fractionDigits value places) :=
  rfl

/-- There is a digit before the point. -/
theorem lt_length_padded : places < (padded value places).length := by
  simp only [padded, List.length_append, List.length_replicate]
  omega

theorem isDigit_of_mem_padded (hmem : c ∈ padded value places) : c.isDigit :=
  (List.mem_append.1 hmem).elim isDigit_of_mem_replicate isDigit_of_mem_digits

theorem ofDigits_padded : ofDigits (padded value places) = value := by
  rw [padded, ofDigits_append, ofDigits_replicate_zero, Nat.zero_mul, Nat.zero_add, ofDigits_digits]

theorem length_placeDigits : (placeDigits value places).length = places := by
  have hlong : places < (padded value places).length := lt_length_padded
  rw [placeDigits, List.length_drop]
  omega

theorem whole_wholeDigits (value places : Nat) : Whole (wholeDigits value places) where
  ne_nil := by
    have hlong : places < (padded value places).length := lt_length_padded
    rw [wholeDigits, ne_eq, List.take_eq_nil_iff, not_or]
    exact ⟨by omega, List.ne_nil_of_length_pos (by omega)⟩
  isDigit c hmem := isDigit_of_mem_padded (List.mem_of_mem_take hmem)
  noZero c rest hzero := by
    by_cases hlong : places < (digits value).length
    · -- The digits stand as they are, and have no needless zero in front of them.
      have hpadded : padded value places = digits value := by
        rw [padded, Nat.sub_eq_zero_of_le hlong]
        rfl
      have hsplit := List.take_append_drop ((digits value).length - places) (digits value)
      rw [wholeDigits, hpadded] at hzero
      rw [hzero] at hsplit
      exact digits_ne_zero_cons hsplit.symm
    · -- Zeros were put in front of the digits, and there is one digit before the point.
      have hlength := congrArg List.length hzero
      simp only [wholeDigits, padded, List.length_take, List.length_append, List.length_replicate,
        List.length_cons] at hlength
      omega

theorem fraction_fractionDigits (value places : Nat) :
    Fraction places (fractionDigits value places) where
  isDigit c hmem :=
  isDigit_of_mem_padded (List.mem_of_mem_drop ((List.rdropWhile_prefix _ _).subset hmem))
  noZero front hzero := by
    have hne : fractionDigits value places ≠ [] := by simp [hzero]
    have hlast : (fractionDigits value places).getLast hne = '0' := by simp [hzero]
    exact List.rdropWhile_last_not (· = '0') _ hne (decide_eq_true hlast)
  length_le :=
    calc
      (fractionDigits value places).length ≤ (placeDigits value places).length :=
        (List.rdropWhile_prefix _ _).length_le
      _ = places := length_placeDigits

theorem filled_fractionDigits :
    filled places (fractionDigits value places) = placeDigits value places :=
  calc
    filled places (fractionDigits value places)
    _ = filled (placeDigits value places).length (fractionDigits value places) := by
      rw [length_placeDigits]
    _ = placeDigits value places := filled_rdropWhile

/-- The digits before and behind the point are those of the number. -/
theorem ofDigits_parts (value places : Nat) : ofDigits (wholeDigits value places) * 10 ^ places +
    ofDigits (filled places (fractionDigits value places)) = value := by
  have hsplit : wholeDigits value places ++ placeDigits value places = padded value places :=
    List.take_append_drop _ _
  calc
    ofDigits (wholeDigits value places) * 10 ^ places +
      ofDigits (filled places (fractionDigits value places))
    _ = ofDigits (wholeDigits value places ++ placeDigits value places) := by
      rw [filled_fractionDigits, ofDigits_append, length_placeDigits]
    _ = value := by rw [hsplit, ofDigits_padded]

/-- The text of a number is exact, and the only one of its form. -/
theorem pointed_eq_iff : pointed value places = text ↔
    ∃ amount, Pointed places text amount ∧ amount * 10 ^ places = value := by
  have hfraction := fraction_fractionDigits value places
  have hwritten := pointed_joined (whole_wholeDigits value places) hfraction
  have hexact := (parts_mul_pow (wholeDigits value places) hfraction).trans
    (congrArg Nat.cast (ofDigits_parts value places))
  rw [← pointed_eq] at hwritten
  constructor
  · rintro rfl
    exact ⟨_, hwritten, hexact⟩
  · rintro ⟨amount, htext, hamount⟩
    have hpow : (10 : ℚ) ^ places ≠ 0 := pow_ne_zero _ (by norm_num)
    rw [← mul_right_cancel₀ hpow (hamount.trans hexact.symm)] at hwritten
    exact hwritten.unique htext

end ShardNet.Text.Decimal
