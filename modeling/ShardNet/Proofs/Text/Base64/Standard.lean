-- SUMMARY: The writer of base64 keeps to the standard form: six bits for each symbol, zeros behind them, and padding.
import ShardNet.Proofs.Text.Base64.Canonical
import ShardNet.Proofs.Text.Bech32.Accepted

/-!
# The standard form of base64

`Standard` says what the base64 of bytes is by their bits, without a word on groups: six bits for
each symbol of the alphabet, as few zeros as fill the last of them up, and as little padding as
makes the length a multiple of four. So bytes have one such text, and the writer writes it.
-/

namespace ShardNet.Text.Base64

open Bech32 (bits byteBits ofBits bits_length_ofBits length_bits length_byteBits
  length_flatMap_bits ofBits_bits ofBits_cons)

variable {bs cs : List Bool} {values others : List Nat} {symbols : List Char}
  {bytes : Bytes} {width : Nat}

/-- The symbols of the standard alphabet, by their values. -/
def alphabet : List Char :=
  "ABCDEFGHIJKLMNOPQRSTUVWXYZabcdefghijklmnopqrstuvwxyz0123456789+/".toList

/-- The text is the base64 of the bytes: a symbol for every six bits, where fewer than six zeros
stand behind the bits of the bytes, and fewer than four padding symbols, which make the length a
multiple of four. -/
def Standard (text : String) (bytes : Bytes) : Prop :=
  ∃ (values : List Nat) (symbols : List Char) (zeros padding : Nat),
    values.flatMap (bits 6) = byteBits bytes ++ List.replicate zeros false ∧ zeros < 6 ∧
    values.mapM (alphabet[·]?) = some symbols ∧
    text.toList = symbols ++ List.replicate padding '=' ∧ padding < 4 ∧ text.toList.length % 4 = 0

theorem alphabet_getElem? : ∀ value < 64, alphabet[value]? = some (symbol value) := by decide

theorem mapM_alphabet_iff : values.mapM (alphabet[·]?) = some symbols ↔
    (∀ value ∈ values, value < 64) ∧ symbols = values.map symbol := by
  have hlength : alphabet.length = 64 := by decide
  constructor
  · intro h
    have hlt : ∀ value ∈ values, value < 64 := fun value hmem => by
      obtain ⟨c, -, hc⟩ := exists_of_mem_mapM h hmem
      exact hlength ▸ (List.getElem?_eq_some_iff.1 hc).1
    refine ⟨hlt, List.map_injective_iff.2 (Option.some_injective Char) ?_⟩
    rw [← mapM_eq_some_iff.1 h, List.map_map]
    exact List.map_congr_left fun value hmem => alphabet_getElem? value (hlt value hmem)
  · rintro ⟨hlt, rfl⟩
    rw [mapM_eq_some_iff, List.map_map]
    exact List.map_congr_left fun value hmem => alphabet_getElem? value (hlt value hmem)

/-! ## Bits -/

theorem ofBits_append (bs cs : List Bool) :
    ofBits (bs ++ cs) = ofBits bs * 2 ^ cs.length + ofBits cs := by
  induction bs with
  | nil => simp [ofBits]
  | cons bit bs ih =>
      rw [List.cons_append, ofBits_cons, ofBits_cons, ih, List.length_append, Nat.pow_add,
        Nat.add_mul, Nat.mul_assoc, Nat.add_assoc]

theorem eq_of_ofBits_eq (hlength : bs.length = cs.length) (hvalue : ofBits bs = ofBits cs) :
    bs = cs :=
  calc
    bs = bits bs.length (ofBits bs) := (bits_length_ofBits bs).symm
    _ = bits cs.length (ofBits cs) := by rw [hlength, hvalue]
    _ = cs := bits_length_ofBits cs

theorem flatMap_bits_injective (hvalues : ∀ value ∈ values, value < 2 ^ width)
    (hothers : ∀ value ∈ others, value < 2 ^ width) (hlength : values.length = others.length)
    (hsame : values.flatMap (bits width) = others.flatMap (bits width)) : values = others := by
  induction values generalizing others with
  | nil => exact (List.eq_nil_of_length_eq_zero hlength.symm).symm
  | cons value values ih =>
      cases others with
      | nil => cases hlength
      | cons other others =>
          obtain ⟨hvalue, hvalues⟩ := List.forall_mem_cons.1 hvalues
          obtain ⟨hother, hothers⟩ := List.forall_mem_cons.1 hothers
          rw [List.flatMap_cons, List.flatMap_cons] at hsame
          obtain ⟨hfirst, hrest⟩ := List.append_inj hsame (by rw [length_bits, length_bits])
          have hnumber := congrArg ofBits hfirst
          rw [ofBits_bits, ofBits_bits, Nat.mod_eq_of_lt hvalue, Nat.mod_eq_of_lt hother] at hnumber
          rw [hnumber, ih hvalues hothers (Nat.succ.inj hlength) hrest]

/-- Three bytes have the bits of their four symbols. -/
theorem bits_group (a b c : UInt8) :
    bits 6 (a.toNat / 4) ++ (bits 6 (a.toNat % 4 * 16 + b.toNat / 16) ++
      (bits 6 (b.toNat % 16 * 4 + c.toNat / 64) ++ bits 6 (c.toNat % 64))) =
    bits 8 a.toNat ++ (bits 8 b.toNat ++ bits 8 c.toNat) := by
  have ha := a.toNat_lt
  have hb := b.toNat_lt
  have hc := c.toNat_lt
  refine eq_of_ofBits_eq (by simp) ?_
  simp only [ofBits_append, ofBits_bits, List.length_append, length_bits]
  omega

theorem bits_two (a b : UInt8) :
    bits 6 (a.toNat / 4) ++ (bits 6 (a.toNat % 4 * 16 + b.toNat / 16) ++
      bits 6 (b.toNat % 16 * 4)) =
    bits 8 a.toNat ++ (bits 8 b.toNat ++ List.replicate 2 false) := by
  have ha := a.toNat_lt
  have hb := b.toNat_lt
  have hzeros : ofBits (List.replicate 2 false) = 0 := rfl
  refine eq_of_ofBits_eq (by simp) ?_
  simp only [ofBits_append, ofBits_bits, List.length_append, length_bits,
    List.length_replicate, hzeros]
  omega

theorem bits_one (a : UInt8) :
    bits 6 (a.toNat / 4) ++ bits 6 (a.toNat % 4 * 16) = bits 8 a.toNat ++
      List.replicate 4 false := by
  have ha := a.toNat_lt
  have hzeros : ofBits (List.replicate 4 false) = 0 := rfl
  refine eq_of_ofBits_eq (by simp) ?_
  simp only [ofBits_append, ofBits_bits, length_bits, List.length_replicate, hzeros]
  omega

/-! ## Texts -/

/-- The writer writes the symbols for the bits, and padding. -/
theorem exists_values (bytes : Bytes) : ∃ (values : List Nat) (zeros padding : Nat),
    values.flatMap (bits 6) = byteBits bytes ++ List.replicate zeros false ∧ zeros < 6 ∧
    (∀ value ∈ values, value < 64) ∧
      encode bytes = values.map symbol ++ List.replicate padding '=' ∧
    padding < 4 ∧ (encode bytes).length % 4 = 0 := by
  induction bytes using encode.induct with
  | case1 => exact ⟨[], 0, 0, rfl, by decide, List.forall_mem_nil _, rfl, by decide, rfl⟩
  | case2 a =>
      refine ⟨[a.toNat / 4, a.toNat % 4 * 16], 4, 2, ?_, by decide, ?_,
        rfl, by decide, by simp [encode]⟩
      · simpa [byteBits] using bits_one a
      · simp only [List.forall_mem_cons]
        exact ⟨first_lt a, by omega, List.forall_mem_nil _⟩
  | case3 a b =>
      refine ⟨[a.toNat / 4, a.toNat % 4 * 16 + b.toNat / 16, b.toNat % 16 * 4], 2, 1,
        ?_, by decide, ?_, rfl,
        by decide, by simp [encode]⟩
      · simpa [byteBits] using bits_two a b
      · simp only [List.forall_mem_cons]
        exact ⟨first_lt a, second_lt a b, by omega, List.forall_mem_nil _⟩
  | case4 a b c rest ih =>
      obtain ⟨values, zeros, padding, hbits, hzeros, hlt, hencode, hpadding, hlength⟩ := ih
      refine ⟨a.toNat / 4 :: (a.toNat % 4 * 16 + b.toNat / 16) ::
        (b.toNat % 16 * 4 + c.toNat / 64) ::
        c.toNat % 64 :: values, zeros, padding, ?_, hzeros, ?_, ?_, hpadding, ?_⟩
      · have hgroup := congrArg (· ++ values.flatMap (bits 6)) (bits_group a b c)
        simpa [byteBits, hbits] using hgroup
      · simp only [List.forall_mem_cons]
        exact ⟨first_lt a, second_lt a b, third_lt b c, fourth_lt c, hlt⟩
      · rw [encode, hencode]
        rfl
      · rw [encode]
        simp only [List.length_cons]
        omega

theorem standard_text (bytes : Bytes) : Standard (text bytes) bytes := by
  obtain ⟨values, zeros, padding, hbits, hzeros, hlt, hencode, hpadding, hlength⟩ :=
    exists_values bytes
  have htext : (text bytes).toList = encode bytes := String.toList_ofList
  exact ⟨values, _, zeros, padding, hbits, hzeros, mapM_alphabet_iff.2 ⟨hlt, rfl⟩,
    htext.trans hencode, hpadding, htext ▸ hlength⟩

/-- The number of bytes settles how many symbols, zeros and padding symbols there are. -/
theorem Standard.unique {text other : String} (h : Standard text bytes)
    (h' : Standard other bytes) :
    text = other := by
  obtain ⟨values, symbols, zeros, padding, hbits, hzeros, hsymbols, htext, hpadding, hlength⟩ := h
  obtain ⟨values', symbols', zeros', padding', hbits', hzeros', hsymbols', htext', hpadding',
    hlength'⟩ := h'
  obtain ⟨hlt, rfl⟩ := mapM_alphabet_iff.1 hsymbols
  obtain ⟨hlt', rfl⟩ := mapM_alphabet_iff.1 hsymbols'
  have hcount := congrArg List.length hbits
  have hcount' := congrArg List.length hbits'
  rw [length_flatMap_bits, List.length_append, length_byteBits, List.length_replicate]
    at hcount hcount'
  rw [htext, List.length_append, List.length_map, List.length_replicate] at hlength
  rw [htext', List.length_append, List.length_map, List.length_replicate] at hlength'
  obtain rfl : zeros = zeros' := by omega
  obtain rfl : padding = padding' := by omega
  obtain rfl := flatMap_bits_injective hlt hlt' (by omega) (hbits.trans hbits'.symm)
  rw [← String.toList_inj, htext, htext']

/-- The strict reader takes the base64 of a byte string for these bytes, and takes no other text. -/
theorem decode_eq_ok_iff_standard {input : String} :
    decode .required input.toList = .ok bytes ↔ Standard input bytes := by
  rw [decode_toList_eq_ok_iff]
  exact ⟨fun htext => htext ▸ standard_text bytes, fun h => h.unique (standard_text bytes)⟩

theorem existsUnique_standard (bytes : Bytes) : ∃! text, Standard text bytes :=
  ⟨text bytes, standard_text bytes, fun _ h => h.unique (standard_text bytes)⟩

/-- A text that is the base64 of no byte string is refused. -/
theorem exists_fault {input : String} (hnone : ∀ bytes, ¬ Standard input bytes) :
    ∃ cause, decode .required input.toList = .error cause := by
  cases hdecode : decode .required input.toList with
  | ok bytes => exact absurd (decode_eq_ok_iff_standard.1 hdecode) (hnone bytes)
  | error cause => exact ⟨cause, rfl⟩

end ShardNet.Text.Base64
