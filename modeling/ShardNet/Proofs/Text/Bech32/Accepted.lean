-- SUMMARY: Which texts the bech32 reader takes: those with either checksum, in one case, and with any bits left over.
import ShardNet.Proofs.Text.Bech32.RoundTrip

/-!
# The texts that are read

The reader drops the bits that do not fill a byte, and looks for one of two residues. So it takes,
for each of the two and for each choice of these bits, one text in lowercase and the same in
uppercase, and nothing else.
-/

namespace ShardNet.Text.Bech32

variable {human low data text : List Char} {bytes : Bytes} {values others : List Nat}
  {bs : List Bool} {variant other : Variant} {c : Char}

/-! ## Regrouping -/

/-- The bits of bytes, in their order. -/
def byteBits (bytes : Bytes) : List Bool := bytes.flatMap fun byte => bits 8 byte.toNat

@[simp] theorem length_byteBits (bytes : Bytes) : (byteBits bytes).length = 8 * bytes.length := by
  simp [byteBits, List.length_flatMap, Nat.mul_comm]

/-- Bits are those of the bytes that are cut out of them, and of a rest that is too short for
another one. -/
theorem exists_octets (bs : List Bool) :
    ∃ short : List Bool, short.length < 8 ∧ bs = byteBits (octets bs) ++ short := by
  fun_induction octets bs with
  | case1 a b c d e f g h rest ih =>
      obtain ⟨short, hshort, hrest⟩ := ih
      have hlt : ofBits [a, b, c, d, e, f, g, h] < 2 ^ 8 := ofBits_lt [a, b, c, d, e, f, g, h]
      have hbyte :
          (UInt8.ofNat (ofBits [a, b, c, d, e, f, g, h])).toNat = ofBits [a, b, c, d, e, f, g, h] :=
        Nat.mod_eq_of_lt hlt
      have hbits : bits 8 (UInt8.ofNat (ofBits [a, b, c, d, e, f, g, h])).toNat = [a, b, c, d, e,
          f, g, h] := by
        rw [hbyte]
        exact bits_length_ofBits [a, b, c, d, e, f, g, h]
      refine ⟨short, hshort, ?_⟩
      rw [byteBits, List.flatMap_cons, hbits, List.append_assoc]
      exact congrArg ([a, b, c, d, e, f, g, h] ++ ·) hrest
  | case2 short hfew =>
      refine ⟨short, ?_, rfl⟩
      match short, hfew with
      | [], _ | [_], _ | [_, _], _ | [_, _, _], _ | [_, _, _, _], _ | [_, _, _, _, _], _
      | [_, _, _, _, _, _], _ | [_, _, _, _, _, _, _], _ => simp
      | a :: b :: c :: d :: e :: f :: g :: h :: rest, hfew =>
          exact absurd rfl (hfew a b c d e f g h rest)

theorem quintets_append {group rest : List Bool} (hgroup : group.length = 5) :
    quintets (group ++ rest) = ofBits group :: quintets rest := by
  match group, hgroup with
  | [_, _, _, _, _], _ => rfl

/-- Groups are cut again out of their bits. -/
theorem quintets_flatMap_bits (hvalues : ∀ value ∈ values, value < 32) :
    quintets (values.flatMap (bits 5)) = values := by
  induction values with
  | nil => rfl
  | cons value values ih =>
      obtain ⟨hvalue, hrest⟩ := List.forall_mem_cons.1 hvalues
      have hmod : value % 2 ^ 5 = value := Nat.mod_eq_of_lt hvalue
      rw [List.flatMap_cons, quintets_append (length_bits ..), ofBits_bits, hmod, ih hrest]

theorem length_flatMap_bits (width : Nat) (values : List Nat) :
    (values.flatMap (bits width)).length = values.length * width := by
  simp [List.length_flatMap]

/-- Bits that fill their groups are had again from them. -/
theorem flatMap_bits_quintets (hfull : bs.length % 5 = 0) :
    (quintets bs).flatMap (bits 5) = bs := by
  obtain ⟨fill, hfill, hbits⟩ := bits_quintets bs
  have hlength := congrArg List.length hbits
  rw [length_flatMap_bits, List.length_append] at hlength
  obtain rfl : fill = [] := List.length_eq_zero_iff.1 (by omega)
  rw [hbits, List.append_nil]

/-- The last group is filled up with zeros. -/
theorem quintets_fill (bs : List Bool) :
    quintets (bs ++ List.replicate ((5 - bs.length % 5) % 5) false) = quintets bs := by
  fun_induction quintets bs with
  | case1 a b c d e rest ih =>
      have hlength : (a :: b :: c :: d :: e :: rest).length % 5 = rest.length % 5 := by
        simp only [List.length_cons]
        omega
      rw [hlength]
      exact congrArg (ofBits [a, b, c, d, e] :: ·) ih
  | case2 => rfl
  | case3 short hlong hnonempty =>
      rcases short with _ | ⟨a, _ | ⟨b, _ | ⟨c, _ | ⟨d, _ | ⟨e, rest⟩⟩⟩⟩⟩
      · exact absurd rfl hnonempty
      · rfl
      · rfl
      · rfl
      · rfl
      · exact absurd rfl (hlong a b c d e rest)

/-- The values that come to bytes are the groups of their bits and of any that are too few for
another byte. -/
theorem ofQuintets_eq_iff (hvalues : ∀ value ∈ values, value < 32) : ofQuintets values = bytes ↔
    ∃ short : List Bool, short.length < 8 ∧ (8 * bytes.length + short.length) % 5 = 0 ∧
      values = quintets (byteBits bytes ++ short) := by
  constructor
  · rintro rfl
    obtain ⟨short, hshort, hbits⟩ := exists_octets (values.flatMap (bits 5))
    have hlength := congrArg List.length hbits
    rw [length_flatMap_bits, List.length_append, length_byteBits] at hlength
    refine ⟨short, hshort, ?_, ?_⟩
    · rw [ofQuintets, ← hlength, Nat.mul_mod_left]
    · rw [ofQuintets, ← hbits, quintets_flatMap_bits hvalues]
  · rintro ⟨short, hshort, hfull, rfl⟩
    have hbits : (quintets (byteBits bytes ++ short)).flatMap (bits 5) = byteBits bytes ++ short :=
      flatMap_bits_quintets (by rwa [List.length_append, length_byteBits])
    rw [ofQuintets, hbits]
    exact octets_bits bytes hshort

/-! ## Letters and symbols -/

theorem toNat_toLower (c : Char) :
    c.toLower.toNat = if 65 ≤ c.toNat ∧ c.toNat ≤ 90 then c.toNat + 32 else c.toNat := by
  unfold Char.toLower Char.toNat
  split <;> grind [UInt32.toNat_add, UInt32.le_iff_toNat_le]

theorem toNat_toUpper (c : Char) :
    c.toUpper.toNat = if 97 ≤ c.toNat ∧ c.toNat ≤ 122 then c.toNat - 32 else c.toNat := by
  unfold Char.toUpper Char.toNat
  split <;> grind [UInt32.toNat_add, UInt32.le_iff_toNat_le]

theorem toLower_eq_self_iff : c.toLower = c ↔ c.isUpper = false := by
  rw [← Char.toNat_inj, toNat_toLower]
  unfold Char.isUpper Char.toNat
  grind [UInt32.le_iff_toNat_le]

theorem toUpper_eq_self_iff : c.toUpper = c ↔ c.isLower = false := by
  rw [← Char.toNat_inj, toNat_toUpper]
  unfold Char.isLower Char.toNat
  grind [UInt32.le_iff_toNat_le]

theorem toLower_toLower (c : Char) : c.toLower.toLower = c.toLower := by
  rw [← Char.toNat_inj, toNat_toLower, toNat_toLower]
  grind

theorem toUpper_toUpper (c : Char) : c.toUpper.toUpper = c.toUpper := by
  rw [← Char.toNat_inj, toNat_toUpper, toNat_toUpper]
  grind

theorem toLower_toUpper (c : Char) : c.toUpper.toLower = c.toLower := by
  rw [← Char.toNat_inj, toNat_toLower, toNat_toLower, toNat_toUpper]
  grind

theorem toUpper_toLower (c : Char) : c.toLower.toUpper = c.toUpper := by
  rw [← Char.toNat_inj, toNat_toUpper, toNat_toUpper, toNat_toLower]
  grind

theorem map_change_map_change {first second both : Char → Char}
    (hboth : ∀ c, second (first c) = both c)
    (text : List Char) : (text.map first).map second = text.map both := by
  rw [List.map_map]
  exact List.map_congr_left fun c _ => hboth c

/-- The letters of a text are of one case if one change of case leaves all of them. -/
theorem isSingleCase_iff :
    isSingleCase text ↔ text.map Char.toLower = text ∨ text.map Char.toUpper = text := by
  have hmap : ∀ change : Char → Char, text.map change = text ↔ ∀ c ∈ text, change c = c :=
    fun change => by
    rw [← List.map_inj_left, List.map_id']
  simp only [hmap, toLower_eq_self_iff, toUpper_eq_self_iff, isSingleCase, Bool.not_and,
    Bool.or_eq_true, Bool.not_eq_true', List.any_eq_false, Bool.not_eq_true]

theorem value?_eq_some_iff {value : Nat} :
    value? c = some value ↔ value < 32 ∧ c.toLower = symbol value := by
  constructor
  · intro h
    obtain ⟨hlt, hsame, -⟩ := List.findIdx?_eq_some_iff_getElem.1 h
    exact ⟨hlt, (eq_of_beq hsame).symm.trans (List.getElem_eq_getD 'q')⟩
  · rintro ⟨hlt, hc⟩
    have hsame : value? c = value? (symbol value) := by
      rw [value?, value?, ← hc, toLower_toLower]
    rw [hsame, value?_symbol value hlt]

/-- Characters have certain values if they are the symbols of them, in either case. -/
theorem map_value?_eq_iff : data.map value? = values.map some ↔
    (∀ value ∈ values, value < 32) ∧ data.map Char.toLower = values.map symbol := by
  induction data generalizing values with
  | nil => cases values <;> simp
  | cons c data ih =>
      cases values with
      | nil => simp
      | cons value values =>
          simp only [List.map_cons, List.cons.injEq, value?_eq_some_iff, ih, List.forall_mem_cons]
          tauto

theorem map_toLower_symbol (hvalues : ∀ value ∈ values, value < 32) :
    (values.map symbol).map Char.toLower = values.map symbol :=
  (map_value?_eq_iff.1 (map_value?_symbol hvalues)).2

/-! ## Texts -/

/-- The text of five-bit values under a prefix, in lowercase. -/
def textOf (variant : Variant) (human : List Char) (values : List Nat) : List Char :=
  human ++ '1' :: (values ++ checksumTo variant.residue human values).map symbol

theorem lt_of_mem_append_checksumTo {target value : Nat} (hvalues : ∀ value ∈ values, value < 32)
    (hmem : value ∈ values ++ checksumTo target human values) : value < 32 :=
  (List.mem_append.1 hmem).elim (hvalues value) lt_of_mem_checksumTo

theorem length_textOf :
    (textOf variant human values).length = human.length + values.length + 7 := by
  simp only [textOf, List.length_append, List.length_cons, List.length_map, length_checksumTo]
  omega

theorem map_toLower_textOf (hlow : low.map Char.toLower = low)
    (hvalues : ∀ value ∈ values, value < 32) :
    (textOf variant low values).map Char.toLower = textOf variant low values := by
  rw [textOf, List.map_append, List.map_cons, hlow,
    map_toLower_symbol fun _ => lt_of_mem_append_checksumTo hvalues]
  rfl

/-- A text in lowercase determines its checksum variant and its values. -/
theorem textOf_inj (hvalues : ∀ value ∈ values, value < 32)
    (hothers : ∀ value ∈ others, value < 32) :
    textOf variant human values = textOf other human others ↔
      variant = other ∧ values = others := by
  constructor
  · intro hsame
    have hsymbols := (List.cons.inj (List.append_cancel_left hsame)).2
    rw [map_symbol_inj (fun _ => lt_of_mem_append_checksumTo hvalues)
      fun _ => lt_of_mem_append_checksumTo hothers] at hsymbols
    obtain ⟨rfl, hcheck⟩ := List.append_inj' hsymbols rfl
    have hresidue : variant.residue = other.residue := by
      rw [← residue_checksumTo variant.residue_lt, hcheck, residue_checksumTo other.residue_lt]
    refine ⟨?_, rfl⟩
    cases variant <;> cases other <;> first | rfl | cases hresidue
  · rintro ⟨rfl, rfl⟩
    rfl

/-- What is read is the text of some values, up to its case. -/
theorem exists_of_decode (h : decode text = .ok (low, bytes)) :
    ∃ human variant values, isPrefix human ∧ human.map Char.toLower = low ∧
      (∀ value ∈ values, value < 32) ∧
      ofQuintets values = bytes ∧ text.length ≤ maxLength ∧ isSingleCase text ∧
      (∃ data, text = human ++ '1' :: data) ∧
        text.map Char.toLower = textOf variant low values := by
  simp only [decode] at h
  split at h
  · cases h
  next human all hparse =>
  split at h
  · cases h
  next hgood =>
  obtain ⟨rfl, rfl⟩ := Prod.mk.inj (Except.ok.inj h)
  obtain ⟨data, rfl, hdata, hbefore, hcase⟩ := parse?_eq_some_iff.1 hparse
  obtain ⟨hall, hsymbols⟩ := map_value?_eq_iff.1 hdata
  obtain ⟨hmany, hgood⟩ := not_or.1 hgood
  obtain ⟨hlength, hresidue⟩ := not_or.1 hgood
  obtain ⟨variant, hvariant⟩ : ∃ variant : Variant,
      Bech32.residue (expandPrefix (human.map Char.toLower) ++ all) = variant.residue := by
    rcases Decidable.or_iff_not_not_and_not.2 hresidue with hfirst | hsecond
    · exact ⟨.bech32, hfirst⟩
    · exact ⟨.bech32m, hsecond⟩
  have hcut : all.take (all.length - 6) ++ all.drop (all.length - 6) = all :=
    List.take_append_drop ..
  have hcheck : all.drop (all.length - 6) =
      checksumTo variant.residue (human.map Char.toLower) (all.take (all.length - 6)) := by
    refine eq_checksumTo ?_ (fun value hmem => hall value (List.mem_of_mem_drop hmem))
      (by rw [hcut, hvariant])
    rw [List.length_drop]
    omega
  have hvalues : ∀ value ∈ all.take (all.length - 6), value < 32 :=
    fun value hmem => hall value (List.mem_of_mem_take hmem)
  refine ⟨human, variant, _, hbefore, rfl, hvalues, rfl, Nat.le_of_not_lt hlength, hcase,
    ⟨data, rfl⟩, ?_⟩
  rw [textOf, ← hcheck, hcut, ← hsymbols, List.map_append, List.map_cons]
  rfl

/-- A text is read if it is that of some values, with either checksum, in lowercase or in
uppercase. -/
theorem decode_eq_ok_iff : decode text = .ok (low, bytes) ↔
    ∃ variant values, (∀ value ∈ values, value < 32) ∧ ofQuintets values = bytes ∧
      text.length ≤ maxLength ∧ low.map Char.toLower = low ∧
      (isPrefix low ∧ text = textOf variant low values ∨
        isPrefix (low.map Char.toUpper) ∧ text = (textOf variant low values).map Char.toUpper) := by
  constructor
  · intro h
    obtain ⟨human, variant, values, hbefore, rfl, hvalues, hbytes, hlength, hcase,
        ⟨data, rfl⟩, htext⟩ :=
      exists_of_decode h
    have hlow := map_change_map_change toLower_toLower human
    refine ⟨variant, values, hvalues, hbytes, hlength, hlow, ?_⟩
    rcases isSingleCase_iff.1 hcase with hlower | hupper
    · have hhuman : human.map Char.toLower = human :=
        List.append_inj_left ((List.map_append).symm.trans hlower) (List.length_map ..)
      exact .inl ⟨hhuman.symm ▸ hbefore, hlower.symm.trans htext⟩
    · have hhuman : human.map Char.toUpper = human :=
        List.append_inj_left ((List.map_append).symm.trans hupper) (List.length_map ..)
      rw [← htext, map_change_map_change toUpper_toLower,
        map_change_map_change toUpper_toLower, hhuman, hupper]
      exact .inr ⟨hbefore, rfl⟩
  · rintro ⟨variant, values, hvalues, rfl, hlength, hlow, ⟨hbefore, rfl⟩ | ⟨hbefore, rfl⟩⟩
    · have hcase : isSingleCase (textOf variant low values) :=
        isSingleCase_iff.2 (.inl (map_toLower_textOf hlow hvalues))
      exact decode_append hbefore hlow
        (map_value?_symbol fun _ => lt_of_mem_append_checksumTo hvalues) hcase hlength
    · have hcase : isSingleCase ((textOf variant low values).map Char.toUpper) :=
        isSingleCase_iff.2 (.inr (map_change_map_change toUpper_toUpper _))
      have hdata :
          (((values ++ checksumTo variant.residue low values).map symbol).map Char.toUpper).map
              value? =
            (values ++ checksumTo variant.residue low values).map some := by
        refine map_value?_eq_iff.2 ⟨fun _ => lt_of_mem_append_checksumTo hvalues, ?_⟩
        rw [map_change_map_change toLower_toUpper]
        exact map_toLower_symbol fun _ => lt_of_mem_append_checksumTo hvalues
      rw [textOf, List.map_append, List.map_cons] at hcase hlength ⊢
      have hlower : (low.map Char.toUpper).map Char.toLower = low :=
        (map_change_map_change toLower_toUpper low).trans hlow
      exact decode_append hbefore hlower hdata hcase hlength

end ShardNet.Text.Bech32
