-- SUMMARY: The checksum gives a bech32 text the residue that a reader looks for.
import Mathlib.Algebra.Group.Nat.Defs
import ShardNet.Text.Bech32

/-!
# The residue of a checksum

A step of the residue moves it up by five bits, brings the new value in below, and folds what went
over the top back in. All of this is linear in exclusive or, so the residue behind six more values
is that behind six zeros, combined with what the six values alone come to. Six values of five bits
are too short to reach the top, and alone they come to the number whose digits they are. The
checksum is chosen as the digits of the residue behind six zeros, up to the residue that is wanted,
and that residue is what is left.
-/

namespace ShardNet.Text.Bech32

/-! ## Steps -/

/-- Folds one coefficient back in, if its bit is set in what went over the top. -/
def feedback (top acc : Nat) (term : Nat × Nat) : Nat :=
  if top.testBit term.2 then acc ^^^ term.1 else acc

theorem residueStep_eq (residue value : Nat) : residueStep residue value =
    generator.zipIdx.foldl (feedback (residue >>> 25))
      (((residue &&& 0x1ffffff) <<< 5) ^^^ value) := rfl

variable {a b u v top value : Nat} {values : List Nat}

theorem feedback_xor (s t : Nat) (term : Nat × Nat) :
    feedback (s ^^^ t) (a ^^^ b) term = feedback s a term ^^^ feedback t b term := by
  unfold feedback
  rw [Nat.testBit_xor]
  cases s.testBit term.2 <;> cases t.testBit term.2
  · rfl
  · exact Nat.xor_assoc ..
  · exact (Nat.xor_assoc ..).trans ((congrArg (a ^^^ ·) (Nat.xor_comm ..)).trans
      (Nat.xor_assoc ..).symm)
  · have hcancel : a ^^^ term.1 ^^^ (b ^^^ term.1) = a ^^^ b := by
      rw [Nat.xor_comm b, Nat.xor_assoc, ← Nat.xor_assoc term.1, Nat.xor_self, Nat.zero_xor]
    exact hcancel.symm

theorem foldl_feedback_xor (s t : Nat) (terms : List (Nat × Nat)) :
    terms.foldl (feedback (s ^^^ t)) (a ^^^ b) =
      terms.foldl (feedback s) a ^^^ terms.foldl (feedback t) b := by
  induction terms generalizing a b with
  | nil => rfl
  | cons term terms ih =>
      rw [List.foldl_cons, feedback_xor, ih]
      rfl

/-- A step is linear. -/
theorem residueStep_xor :
    residueStep (a ^^^ b) (u ^^^ v) = residueStep a u ^^^ residueStep b v := by
  have hshifted : (((a ^^^ b) &&& 0x1ffffff) <<< 5) ^^^ (u ^^^ v) =
      (((a &&& 0x1ffffff) <<< 5) ^^^ u) ^^^ (((b &&& 0x1ffffff) <<< 5) ^^^ v) := by
    rw [Nat.and_xor_distrib_right, Nat.shiftLeft_xor_distrib]
    ac_rfl
  simp only [residueStep_eq, Nat.shiftRight_xor_distrib, hshifted, foldl_feedback_xor]

theorem shiftLeft_xor_of_lt (hvalue : value < 2 ^ 5) : (a <<< 5) ^^^ value = 2 ^ 5 * a + value := by
  refine Nat.eq_of_testBit_eq fun place => ?_
  rw [Nat.testBit_xor, Nat.testBit_shiftLeft, Nat.testBit_two_pow_mul_add a hvalue]
  by_cases hlow : place < 5
  · simp [hlow, Nat.not_le.2 hlow]
  · have hhigh : value.testBit place = false :=
      Nat.testBit_lt_two_pow (Nat.lt_of_lt_of_le hvalue
        (Nat.pow_le_pow_right Nat.two_pos (by omega)))
    simp [hlow, hhigh, Nat.le_of_not_lt hlow]

theorem foldl_feedback_zero (terms : List (Nat × Nat)) : terms.foldl (feedback 0) a = a := by
  induction terms generalizing a with
  | nil => rfl
  | cons term terms ih =>
      rw [List.foldl_cons, ih, feedback, Nat.zero_testBit]
      rfl

/-- What stays below the top is only moved up. -/
theorem residueStep_of_lt (ha : a < 2 ^ 25) (hvalue : value < 2 ^ 5) :
    residueStep a value = 2 ^ 5 * a + value := by
  have htop : a >>> 25 = 0 := by
    rw [Nat.shiftRight_eq_div_pow]
    exact Nat.div_eq_of_lt ha
  have hkept : a &&& 0x1ffffff = a := Nat.and_two_pow_sub_one_of_lt_two_pow ha
  rw [residueStep_eq, htop, hkept, foldl_feedback_zero, shiftLeft_xor_of_lt hvalue]

theorem foldl_feedback_lt {n : Nat} {terms : List (Nat × Nat)} (ha : a < 2 ^ n)
    (hterms : ∀ term ∈ terms, term.1 < 2 ^ n) : terms.foldl (feedback top) a < 2 ^ n := by
  induction terms generalizing a with
  | nil => exact ha
  | cons term terms ih =>
      have hterm : feedback top a term < 2 ^ n := by
        unfold feedback
        split
        · exact Nat.xor_lt_two_pow ha (hterms term List.mem_cons_self)
        · exact ha
      exact ih hterm fun other hmem => hterms other (List.mem_cons_of_mem _ hmem)

/-- No residue has more than thirty bits. -/
theorem residueStep_lt (hvalue : value < 2 ^ 5) : residueStep a value < 2 ^ 30 := by
  have hkept : a &&& 0x1ffffff < 2 ^ 25 := Nat.lt_of_le_of_lt Nat.and_le_right (by decide)
  have hshifted : ((a &&& 0x1ffffff) <<< 5) ^^^ value < 2 ^ 30 := by
    rw [shiftLeft_xor_of_lt hvalue]
    omega
  rw [residueStep_eq]
  exact foldl_feedback_lt hshifted (by decide)

/-! ## Values -/

/-- Values behind a combined residue do what they do from one part of it; the other part sees
zeros. -/
theorem foldl_residueStep_xor : values.foldl residueStep (a ^^^ b) =
    (List.replicate values.length 0).foldl residueStep a ^^^ values.foldl residueStep b := by
  induction values generalizing a b with
  | nil => rfl
  | cons value values ih =>
      have hstep : residueStep (a ^^^ b) value = residueStep a 0 ^^^ residueStep b value := by
        rw [← residueStep_xor, Nat.zero_xor]
      rw [List.foldl_cons, hstep, ih]
      rfl

/-- One more digit of a number in base 32. -/
theorem residueStep_digit {total : Nat} (htotal : total < 2 ^ 30) (place : Nat) :
    residueStep (total >>> (place + 5)) ((total >>> place) &&& 31) = total >>> place := by
  have hdigit : (total >>> place) &&& 31 = total >>> place % 2 ^ 5 :=
    Nat.and_two_pow_sub_one_eq_mod _ 5
  have hrest : total >>> (place + 5) = total >>> place / 2 ^ 5 := by
    rw [Nat.shiftRight_add, Nat.shiftRight_eq_div_pow _ 5]
  have hle : total >>> place ≤ total := Nat.shiftRight_le ..
  rw [hdigit, hrest, residueStep_of_lt (by omega) (Nat.mod_lt _ (by decide)), Nat.div_add_mod]

/-- The six digits of a number in base 32 come to it. -/
theorem foldl_residueStep_digits {total : Nat} (htotal : total < 2 ^ 30) :
    ([25, 20, 15, 10, 5, 0].map fun place => (total >>> place) &&& 31).foldl residueStep
      0 = total := by
  have hnone : total >>> (25 + 5) = 0 := by
    rw [Nat.shiftRight_eq_div_pow]
    exact Nat.div_eq_of_lt htotal
  have hfirst : residueStep 0 ((total >>> 25) &&& 31) = total >>> 25 :=
    hnone ▸ residueStep_digit htotal 25
  simp only [List.map_cons, List.map_nil, List.foldl_cons, List.foldl_nil, hfirst]
  rw [residueStep_digit htotal 20, residueStep_digit htotal 15, residueStep_digit htotal 10,
    residueStep_digit htotal 5, residueStep_digit htotal 0, Nat.shiftRight_zero]

/-- Six values of five bits are the digits of the number they come to. -/
theorem digits_foldl_residueStep (hlength : values.length = 6)
    (hvalues : ∀ value ∈ values, value < 2 ^ 5) :
    values = [25, 20, 15, 10, 5, 0].map fun place =>
      (values.foldl residueStep 0 >>> place) &&& 31 := by
  match values, hlength with
  | [a, b, c, d, e, f], _ =>
      simp only [List.forall_mem_cons] at hvalues
      obtain ⟨ha, hb, hc, hd, he, hf, -⟩ := hvalues
      have hdigit : ∀ number place, (number >>> place) &&& 31 = number / 2 ^ place % 32 :=
        fun number place => by
        rw [Nat.shiftRight_eq_div_pow]
        exact Nat.and_two_pow_sub_one_eq_mod _ 5
      simp only [List.foldl_cons, List.foldl_nil, List.map_cons, List.map_nil, hdigit]
      rw [residueStep_of_lt (by decide) ha, residueStep_of_lt (by omega) hb,
        residueStep_of_lt (by omega) hc, residueStep_of_lt (by omega) hd,
        residueStep_of_lt (by omega) he, residueStep_of_lt (by omega) hf]
      simp only [List.cons.injEq, and_true]
      omega

/-! ## Checksums -/

/-- The six values that give a text a certain residue. -/
def checksumTo (target : Nat) (human : List Char) (values : List Nat) : List Nat :=
  let total := residue (expandPrefix human ++ values ++ List.replicate 6 0) ^^^ target
  [25, 20, 15, 10, 5, 0].map fun shift => (total >>> shift) &&& 31

/-- The two checksums that a reader takes. -/
inductive Variant where
  | bech32
  | bech32m
  deriving DecidableEq

def Variant.residue : Variant → Nat
  | .bech32 => bech32Residue
  | .bech32m => bech32mResidue

variable {human : List Char} {target : Nat} {check : List Nat} {variant : Variant}

theorem Variant.residue_lt (variant : Variant) : variant.residue < 2 ^ 30 := by
  cases variant <;> decide

theorem length_checksumTo (target : Nat) (human : List Char) (values : List Nat) :
    (checksumTo target human values).length = 6 := rfl

theorem lt_of_mem_checksumTo (hmem : value ∈ checksumTo target human values) : value < 32 := by
  obtain ⟨shift, -, rfl⟩ := List.mem_map.1 hmem
  exact Nat.lt_succ_of_le Nat.and_le_right

theorem residue_behind : residue (expandPrefix human ++ values ++ List.replicate 6 0) =
    (List.replicate 6 0).foldl residueStep (residue (expandPrefix human ++ values)) :=
  List.foldl_append

/-- Six more values combine what they alone come to with the residue behind six zeros. -/
theorem residue_append (hlength : check.length = 6) :
    residue (expandPrefix human ++ (values ++ check)) =
    residue (expandPrefix human ++ values ++ List.replicate 6 0) ^^^ check.foldl residueStep 0 :=
  calc
    residue (expandPrefix human ++ (values ++ check))
    _ = check.foldl residueStep (residue (expandPrefix human ++ values) ^^^ 0) := by
      rw [← List.append_assoc, residue, List.foldl_append, Nat.xor_zero]
      rfl
    _ = residue (expandPrefix human ++ values ++ List.replicate 6 0) ^^^
        check.foldl residueStep 0 := by
      rw [foldl_residueStep_xor, hlength, residue_behind]

/-- The values of a text and their checksum have the residue that is wanted. -/
theorem residue_checksumTo (htarget : target < 2 ^ 30) :
    residue (expandPrefix human ++ (values ++ checksumTo target human values)) = target := by
  have htotal :
      residue (expandPrefix human ++ values ++ List.replicate 6 0) ^^^ target < 2 ^ 30 := by
    refine Nat.xor_lt_two_pow ?_ htarget
    rw [residue_behind]
    exact residueStep_lt (by decide)
  have hdigits : (checksumTo target human values).foldl residueStep 0 = _ :=
    foldl_residueStep_digits htotal
  rw [residue_append rfl, hdigits, ← Nat.xor_assoc, Nat.xor_self, Nat.zero_xor]

/-- No other values of five bits give a text this residue. -/
theorem eq_checksumTo (hlength : check.length = 6) (hcheck : ∀ value ∈ check, value < 2 ^ 5)
    (hresidue : residue (expandPrefix human ++ (values ++ check)) = target) :
    check = checksumTo target human values := by
  have htotal : check.foldl residueStep 0 =
      residue (expandPrefix human ++ values ++ List.replicate 6 0) ^^^ target := by
    rw [← hresidue, residue_append hlength, ← Nat.xor_assoc, Nat.xor_self, Nat.zero_xor]
  have hdigits := digits_foldl_residueStep hlength hcheck
  rw [htotal] at hdigits
  exact hdigits

end ShardNet.Text.Bech32
