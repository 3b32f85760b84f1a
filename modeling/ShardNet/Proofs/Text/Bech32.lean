-- SUMMARY: Regrouping bytes into groups of five bits loses nothing, so a bech32 text determines its bytes.
import Mathlib.Data.List.Basic
import Mathlib.Data.Option.Basic
import ShardNet.Proofs.Text.Bech32.Residue
import ShardNet.Text.Bech32

/-!
# The bytes of a bech32 text

Bytes are cut into groups of five bits, and the last group is filled up with at most four zeros,
which are too few for another byte. So the groups determine the bytes, and the text, which has one
symbol for each group, determines both.
-/

namespace ShardNet.Text.Bech32

/-! ## Bits -/

@[simp] theorem length_bits (width value : Nat) : (bits width value).length = width := by
  induction width with
  | zero => rfl
  | succ width ih => simp [bits, ih]

theorem ofBits_cons (bit : Bool) (bs : List Bool) :
    ofBits (bit :: bs) = bit.toNat * 2 ^ bs.length + ofBits bs := by
  have hstart : ∀ start, bs.foldl (fun value bit => 2 * value + bit.toNat) start =
      start * 2 ^ bs.length + ofBits bs := by
    unfold ofBits
    induction bs with
    | nil => simp
    | cons other bs ih =>
        intro start
        have hdouble : 2 * start * 2 ^ bs.length = start * (2 ^ bs.length * 2) := by
          rw [Nat.mul_comm 2 start, Nat.mul_assoc, Nat.mul_comm 2]
        rw [List.foldl_cons, List.foldl_cons, ih, ih (2 * 0 + other.toNat),
          List.length_cons, Nat.pow_succ, Nat.add_mul, hdouble, Nat.mul_zero, Nat.zero_add,
          Nat.add_assoc]
  rw [ofBits, List.foldl_cons, hstart]
  simp

/-- A number is read back from its bits, as far as they go. -/
theorem ofBits_bits (width value : Nat) : ofBits (bits width value) = value % 2 ^ width := by
  induction width with
  | zero => simp [bits, ofBits, Nat.mod_one]
  | succ width ih =>
      rw [bits, ofBits_cons, length_bits, ih, Nat.toNat_testBit, Nat.mod_pow_succ,
        Nat.mul_comm (2 ^ width), Nat.add_comm]

theorem ofBits_lt (bs : List Bool) : ofBits bs < 2 ^ bs.length := by
  induction bs with
  | nil => decide
  | cons bit bs ih =>
      rw [ofBits_cons, List.length_cons, Nat.pow_succ]
      cases bit <;> simp only [Bool.toNat_false, Bool.toNat_true] <;> omega

theorem bits_congr {width value other : Nat}
    (hsame : ∀ place < width, value.testBit place = other.testBit place) :
    bits width value = bits width other := by
  induction width with
  | zero => rfl
  | succ width ih =>
      rw [bits, bits, hsame width (Nat.lt_succ_self width),
        ih fun place hplace => hsame place (Nat.lt_succ_of_lt hplace)]

/-- Bits are read back from their number. -/
theorem bits_length_ofBits (bs : List Bool) : bits bs.length (ofBits bs) = bs := by
  induction bs with
  | nil => rfl
  | cons bit bs ih =>
      have hplace : ∀ place, (ofBits (bit :: bs)).testBit place =
          if place < bs.length then (ofBits bs).testBit place
              else bit.toNat.testBit (place - bs.length) := by
        rw [ofBits_cons, Nat.mul_comm]
        exact Nat.testBit_two_pow_mul_add _ (ofBits_lt bs)
      have hrest : bits bs.length (ofBits (bit :: bs)) = bits bs.length (ofBits bs) :=
        bits_congr fun place hlt => (hplace place).trans (if_pos hlt)
      have hfirst : (ofBits (bit :: bs)).testBit bs.length = bit := by
        rw [hplace, if_neg (Nat.lt_irrefl _), Nat.sub_self]
        cases bit <;> rfl
      rw [List.length_cons, bits, hfirst, hrest, ih]

theorem bits_ofBits (a b c d e : Bool) : bits 5 (ofBits [a, b, c, d, e]) = [a, b, c, d, e] :=
  bits_length_ofBits [a, b, c, d, e]

/-! ## Regrouping -/

theorem octets_append {byte rest : List Bool} (hbyte : byte.length = 8) :
    octets (byte ++ rest) = UInt8.ofNat (ofBits byte) :: octets rest := by
  match byte, hbyte with
  | [_, _, _, _, _, _, _, _], _ => rfl

theorem octets_of_short {short : List Bool} (hshort : short.length < 8) : octets short = [] := by
  match short, hshort with
  | [], _ | [_], _ | [_, _], _ | [_, _, _], _ | [_, _, _, _], _ | [_, _, _, _, _], _
  | [_, _, _, _, _, _], _ | [_, _, _, _, _, _, _], _ => rfl

/-- The bytes of bits that came from bytes, with too few bits behind them for another byte. -/
theorem octets_bits (bytes : Bytes) {short : List Bool} (hshort : short.length < 8) :
    octets ((bytes.flatMap fun byte => bits 8 byte.toNat) ++ short) = bytes := by
  induction bytes with
  | nil => exact octets_of_short hshort
  | cons byte bytes ih =>
      have hbyte : UInt8.ofNat (ofBits (bits 8 byte.toNat)) = byte := by
        rw [ofBits_bits, Nat.mod_eq_of_lt byte.toNat_lt, UInt8.ofNat_toNat]
      rw [List.flatMap_cons, List.append_assoc, octets_append (length_bits ..), hbyte, ih]

/-- The bits of the groups are those that were cut up, and fewer than five zeros. -/
theorem bits_quintets (bs : List Bool) :
    ∃ fill : List Bool, fill.length < 5 ∧ (quintets bs).flatMap (bits 5) = bs ++ fill := by
  fun_induction quintets bs with
  | case1 a b c d e rest ih =>
      obtain ⟨fill, hfill, hbits⟩ := ih
      exact ⟨fill, hfill, by rw [List.flatMap_cons, bits_ofBits, hbits]; rfl⟩
  | case2 => exact ⟨[], by decide, rfl⟩
  | case3 short hlong hnonempty =>
      match short, hlong, hnonempty with
      | [a], _, _ => exact ⟨[false, false, false, false], by decide, by simp [bits_ofBits]⟩
      | [a, b], _, _ => exact ⟨[false, false, false], by decide, by simp [bits_ofBits]⟩
      | [a, b, c], _, _ => exact ⟨[false, false], by decide, by simp [bits_ofBits]⟩
      | [a, b, c, d], _, _ => exact ⟨[false], by decide, by simp [bits_ofBits]⟩
      | a :: b :: c :: d :: e :: rest, hlong, _ => exact absurd rfl (hlong a b c d e rest)
      | [], _, hnonempty => exact absurd rfl hnonempty

theorem length_quintets (bs : List Bool) : (quintets bs).length = (bs.length + 4) / 5 := by
  fun_induction quintets bs with
  | case1 a b c d e rest ih =>
      simp only [List.length_cons, ih]
      omega
  | case2 => rfl
  | case3 short hlong hnonempty =>
      match short, hlong, hnonempty with
      | [_], _, _ | [_, _], _, _ | [_, _, _], _, _ | [_, _, _, _], _, _ => simp
      | a :: b :: c :: d :: e :: rest, hlong, _ => exact absurd rfl (hlong a b c d e rest)
      | [], _, hnonempty => exact absurd rfl hnonempty

theorem lt_of_mem_quintets {bs : List Bool} {value : Nat} (hmem : value ∈ quintets bs) :
    value < 32 := by
  fun_induction quintets bs with
  | case1 a b c d e rest ih =>
      rcases List.mem_cons.1 hmem with rfl | hrest
      · exact ofBits_lt [a, b, c, d, e]
      · exact ih hrest
  | case2 => cases hmem
  | case3 short hlong hnonempty =>
      have hlength : ((short ++ List.replicate 4 false).take 5).length ≤ 5 := List.length_take_le ..
      rw [List.mem_singleton.1 hmem]
      exact Nat.lt_of_lt_of_le (ofBits_lt _) (Nat.pow_le_pow_right Nat.two_pos hlength)

/-- Bytes are read back from their groups. -/
theorem ofQuintets_toQuintets (bytes : Bytes) : ofQuintets (toQuintets bytes) = bytes := by
  obtain ⟨fill, hfill, hbits⟩ := bits_quintets (bytes.flatMap fun byte => bits 8 byte.toNat)
  rw [ofQuintets, toQuintets, hbits]
  exact octets_bits bytes (by omega)

theorem length_toQuintets (bytes : Bytes) :
    (toQuintets bytes).length = (8 * bytes.length + 4) / 5 := by
  have hbits : (bytes.flatMap fun byte => bits 8 byte.toNat).length = 8 * bytes.length := by
    induction bytes with
    | nil => rfl
    | cons byte bytes ih =>
        rw [List.flatMap_cons, List.length_append, length_bits, ih, List.length_cons]
        omega
  rw [toQuintets, length_quintets, hbits]

theorem lt_of_mem_toQuintets {bytes : Bytes} {value : Nat} (hmem : value ∈ toQuintets bytes) :
    value < 32 := lt_of_mem_quintets hmem

/-! ## Texts -/

variable {human text : List Char} {bytes other : Bytes}

theorem length_checksum (human : List Char) (values : List Nat) :
    (checksum human values).length = 6 := rfl

theorem lt_of_mem_checksum {values : List Nat} {value : Nat}
    (hmem : value ∈ checksum human values) :
    value < 32 := lt_of_mem_checksumTo hmem

/-- The five-bit values of the text of bytes. -/
def symbolValues (human : List Char) (bytes : Bytes) : List Nat :=
  toQuintets bytes ++ checksum human (toQuintets bytes)

theorem lt_of_mem_symbolValues {value : Nat} (hmem : value ∈ symbolValues human bytes) :
    value < 32 :=
  (List.mem_append.1 hmem).elim lt_of_mem_toQuintets lt_of_mem_checksum

theorem length_symbolValues (human : List Char) (bytes : Bytes) :
    (symbolValues human bytes).length = (8 * bytes.length + 4) / 5 + 6 := by
  rw [symbolValues, List.length_append, length_toQuintets, length_checksum]

/-- Bytes have a text unless it is too long. -/
theorem encode_eq_ok_iff : encode human bytes = .ok text ↔
    text = human ++ '1' :: (symbolValues human bytes).map symbol ∧
      human.length + (8 * bytes.length + 4) / 5 + 7 ≤ maxLength := by
  have hencode : encode human bytes =
      if maxLength < (human ++ '1' :: (symbolValues human bytes).map symbol).length then
        .error .tooLong
      else .ok (human ++ '1' :: (symbolValues human bytes).map symbol) := rfl
  have hlength : (human ++ '1' :: (symbolValues human bytes).map symbol).length =
      human.length + (8 * bytes.length + 4) / 5 + 7 := by
    rw [List.length_append, List.length_cons, List.length_map, length_symbolValues]
    omega
  rw [hencode, hlength]
  split
  · exact iff_of_false nofun fun h => absurd h.2 (by omega)
  · rw [Except.ok.injEq, eq_comm]
    exact ⟨fun h => ⟨h, by omega⟩, fun h => h.1⟩

theorem value?_symbol : ∀ value < 32, value? (symbol value) = some value := by decide

/-- The values of symbols are read back. -/
theorem map_value?_symbol {values : List Nat} (hvalues : ∀ value ∈ values, value < 32) :
    (values.map symbol).map value? = values.map some := by
  rw [List.map_map]
  exact List.map_congr_left fun value hmem => value?_symbol value (hvalues value hmem)

theorem map_symbol_inj {values others : List Nat} (hvalues : ∀ value ∈ values, value < 32)
    (hothers : ∀ value ∈ others, value < 32) :
    values.map symbol = others.map symbol ↔ values = others := by
  refine ⟨fun hsame => ?_, congrArg _⟩
  have hread := congrArg (List.map value?) hsame
  rw [map_value?_symbol hvalues, map_value?_symbol hothers] at hread
  exact List.map_injective_iff.2 (Option.some_injective _) hread

/-- A bech32 text determines its bytes. -/
theorem encode_injective (h : encode human bytes = .ok text) (h' : encode human other = .ok text) :
    bytes = other := by
  have hsymbols :
      (symbolValues human bytes).map symbol = (symbolValues human other).map symbol := by
    have htext := (encode_eq_ok_iff.1 h).1.symm.trans (encode_eq_ok_iff.1 h').1
    exact (List.cons.inj (List.append_cancel_left htext)).2
  have hvalues : symbolValues human bytes = symbolValues human other :=
    (map_symbol_inj (fun _ => lt_of_mem_symbolValues) fun _ => lt_of_mem_symbolValues).1 hsymbols
  have hquintets : toQuintets bytes = toQuintets other := (List.append_inj' hvalues rfl).1
  rw [← ofQuintets_toQuintets bytes, hquintets, ofQuintets_toQuintets]

end ShardNet.Text.Bech32
