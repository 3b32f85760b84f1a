-- SUMMARY: Which texts are read as an address: 32 of them in lowercase, one of which is the one that is written.
import Mathlib.Data.List.Nodup
import ShardNet.Proofs.Address
import ShardNet.Proofs.Text.Bech32.Accepted

/-!
# The spellings of an address

The 32 bytes of an address leave four bits of the last symbol free, and a text may have either of
two checksums. The writer sets these bits to zero and makes the first checksum; the reader looks at
neither. So an address has 32 texts in lowercase, and the same in uppercase.
-/

namespace ShardNet.Address

open Text.Bech32

variable {address : Address} {text : String} {variant other : Variant} {spare others : List Bool}

/-- The text of an address that has a certain checksum, and certain bits behind its bytes. -/
def spelling (variant : Variant) (spare : List Bool) (address : Address) : String :=
  String.ofList (textOf variant humanPart.toList (quintets (byteBits address.bytes ++ spare)))

theorem toList_spelling : (address.spelling variant spare).toList =
    textOf variant humanPart.toList (quintets (byteBits address.bytes ++ spare)) :=
  String.toList_ofList

theorem toLower_spelling :
    (address.spelling variant spare).toLower = address.spelling variant spare := by
  have hmap : (address.spelling variant spare).toLower.toList =
      (address.spelling variant spare).toList.map Char.toLower := String.toList_map
  rw [← String.toList_inj, hmap, toList_spelling]
  exact map_toLower_textOf (by decide) fun _ => lt_of_mem_quintets

theorem toLower_toUpper_spelling :
    (address.spelling variant spare).toUpper.toLower = address.spelling variant spare := by
  have hmap : (address.spelling variant spare).toUpper.toLower.toList =
      ((address.spelling variant spare).toList.map Char.toUpper).map Char.toLower :=
    String.toList_map.trans (congrArg _ String.toList_map)
  rw [← String.toList_inj, hmap, map_change_map_change toLower_toUpper, toList_spelling]
  exact map_toLower_textOf (by decide) fun _ => lt_of_mem_quintets

/-! ## Groups -/

/-- Four bits fill up the last group of the bytes of an address. -/
theorem length_bits_spare (hlength : address.bytes.length = 32) (hspare : spare.length = 4) :
    (byteBits address.bytes ++ spare).length % 5 = 0 := by
  rw [List.length_append, length_byteBits, hlength, hspare]

theorem ofQuintets_eq_bytes_iff {values : List Nat} (hlength : address.bytes.length = 32)
    (hvalues : ∀ value ∈ values, value < 32) : ofQuintets values = address.bytes ↔
      ∃ spare : List Bool, spare.length = 4 ∧
        values = quintets (byteBits address.bytes ++ spare) := by
  rw [ofQuintets_eq_iff hvalues, hlength]
  refine exists_congr fun spare => ?_
  rw [← and_assoc]
  refine and_congr_left fun _ => ?_
  omega

/-- The writer's groups are those with zeros in the bits that are left. -/
theorem toQuintets_eq (hlength : address.bytes.length = 32) :
    toQuintets address.bytes = quintets (byteBits address.bytes ++ List.replicate 4 false) := by
  have hfill := quintets_fill (byteBits address.bytes)
  rw [length_byteBits, hlength] at hfill
  exact hfill.symm

/-! ## Spellings -/

theorem ofBech32_eq_ok_iff_decode : ofBech32 text = .ok address ↔
    address.bytes.length = 32 ∧ decode text.toList = .ok (humanPart.toList, address.bytes) := by
  refine ⟨fun h => ?_, fun ⟨hlength, hdecode⟩ =>
    (ofBech32_of_decode hdecode).trans (if_pos hlength)⟩
  unfold ofBech32 at h
  split at h
  · cases h
  next human bytes hdecode =>
  split at h
  · cases h
  next hhuman =>
  split at h
  · cases h
  next hlength =>
  obtain rfl := Except.ok.inj h
  exact ⟨not_not.1 hlength, hdecode.trans (by rw [not_not.1 hhuman])⟩

/-- A text is read as an address if it is one of its spellings, in lowercase or in uppercase. -/
theorem ofBech32_eq_ok_iff : ofBech32 text = .ok address ↔ address.bytes.length = 32 ∧
    ∃ variant spare, spare.length = 4 ∧
      (text = address.spelling variant spare ∨
        text = (address.spelling variant spare).toUpper) := by
  rw [ofBech32_eq_ok_iff_decode, decode_eq_ok_iff]
  refine and_congr_right fun hlength => exists_congr fun variant => ?_
  have hupper : ∀ spare, text = (address.spelling variant spare).toUpper ↔ text.toList =
      (textOf variant humanPart.toList (quintets (byteBits address.bytes ++ spare))).map
          Char.toUpper := by
    intro spare
    have hmap : (address.spelling variant spare).toUpper.toList =
        (address.spelling variant spare).toList.map Char.toUpper := String.toList_map
    rw [← String.toList_inj, hmap, toList_spelling]
  constructor
  · rintro ⟨values, hvalues, hbytes, -, -, htext⟩
    obtain ⟨spare, hspare, rfl⟩ := (ofQuintets_eq_bytes_iff hlength hvalues).1 hbytes
    refine ⟨spare, hspare, ?_⟩
    rw [hupper, ← String.toList_inj, toList_spelling]
    exact htext.imp And.right And.right
  · rintro ⟨spare, hspare, htext⟩
    rw [hupper, ← String.toList_inj, toList_spelling] at htext
    have hvalues : ∀ value ∈ quintets (byteBits address.bytes ++ spare), value < 32 :=
      fun _ => lt_of_mem_quintets
    have htextLength : text.toList.length =
        (textOf variant humanPart.toList (quintets (byteBits address.bytes ++ spare))).length := by
      rcases htext with htext | htext
      · rw [htext]
      · rw [htext, List.length_map]
    refine ⟨_, hvalues, (ofQuintets_eq_bytes_iff hlength hvalues).2 ⟨spare, hspare, rfl⟩,
      ?_, by decide, htext.imp (⟨by decide, ·⟩) (⟨by decide, ·⟩)⟩
    rw [htextLength, length_textOf, length_quintets, List.length_append, length_byteBits,
      hlength, hspare]
    decide

/-- Spellings of an address are told apart by their checksums and their bits. -/
theorem spelling_inj (hlength : address.bytes.length = 32) (hspare : spare.length = 4)
    (hothers : others.length = 4) :
    address.spelling variant spare = address.spelling other others ↔
      variant = other ∧ spare = others := by
  rw [← String.toList_inj, toList_spelling, toList_spelling,
    textOf_inj (fun _ => lt_of_mem_quintets) fun _ => lt_of_mem_quintets]
  refine and_congr_right fun _ => ⟨fun hgroups => ?_, fun hsame => hsame ▸ rfl⟩
  have hbits := congrArg (List.flatMap (bits 5)) hgroups
  rw [flatMap_bits_quintets (length_bits_spare hlength hspare),
    flatMap_bits_quintets (length_bits_spare hlength hothers)] at hbits
  exact List.append_cancel_left hbits

/-- The spelling that is written has the first checksum, and zeros. -/
theorem bech32_eq_spelling (hlength : address.bytes.length = 32) :
    address.bech32 = .ok (address.spelling .bech32 (List.replicate 4 false)) := by
  rw [bech32_eq_ok_iff, toList_spelling, encode_eq_ok_iff, ← toQuintets_eq hlength, hlength]
  exact ⟨rfl, by decide⟩

/-! ## The number of spellings -/

/-- All choices of a checksum and of four bits. -/
def choices : List (Variant × List Bool) :=
  [Variant.bech32, .bech32m].flatMap fun variant => (List.range 16).map fun value =>
    (variant, bits 4 value)

theorem mem_choices_iff {choice : Variant × List Bool} :
    choice ∈ choices ↔ choice.2.length = 4 := by
  constructor
  · revert choice
    decide
  · obtain ⟨variant, spare⟩ := choice
    intro hspare
    match spare, hspare with
    | [a, b, c, d], _ => cases variant <;> cases a <;> cases b <;> cases c <;> cases d <;> decide

/-- A text is read as an address if it is one of its spellings, in lowercase or in uppercase. It is
the one that is written, up to its case, if it has the first checksum, and zeros behind the bytes.
So there are 32 texts of an address in lowercase. -/
theorem accepted_texts :
    (∀ text address, ofBech32 text = .ok address ↔ address.bytes.length = 32 ∧
      ∃ variant spare, spare.length = 4 ∧
        (text = address.spelling variant spare ∨ text = (address.spelling variant spare).toUpper)) ∧
    (∀ text address, ofBech32 text = .ok address → ∀ variant spare, spare.length = 4 →
      text.toLower = address.spelling variant spare →
        (address.bech32 = .ok text.toLower ↔ variant = .bech32 ∧ spare = List.replicate 4 false)) ∧
    ∀ address : Address, address.bytes.length = 32 →
      ∃ texts : List String, texts.Nodup ∧ texts.length = 32 ∧
        ∀ text, text ∈ texts ↔ text.toLower = text ∧ ofBech32 text = .ok address := by
  refine ⟨fun text address => ofBech32_eq_ok_iff,
    fun text address htext variant spare hspare hlower => ?_,
    fun address hlength =>
      ⟨choices.map fun choice => address.spelling choice.1 choice.2, ?_, rfl, fun text => ?_⟩⟩
  · have hlength := (ofBech32_eq_ok_iff.1 htext).1
    rw [bech32_eq_spelling hlength, hlower, Except.ok.injEq, eq_comm,
      spelling_inj hlength hspare rfl]
  · refine List.Nodup.map_on (fun choice hmem other hother hsame => ?_) (by decide)
    have hparts :=
      (spelling_inj hlength (mem_choices_iff.1 hmem) (mem_choices_iff.1 hother)).1 hsame
    exact Prod.ext hparts.1 hparts.2
  · rw [List.mem_map, ofBech32_eq_ok_iff]
    constructor
    · rintro ⟨⟨variant, spare⟩, hmem, rfl⟩
      exact ⟨toLower_spelling, hlength, variant, spare, mem_choices_iff.1 hmem, .inl rfl⟩
    · rintro ⟨hlower, -, variant, spare, hspare, htext⟩
      refine ⟨(variant, spare), mem_choices_iff.2 hspare, ?_⟩
      rcases htext with rfl | rfl
      · rfl
      · exact toLower_toUpper_spelling.symm.trans hlower

/-- The address of zeros is read from its text with the second checksum, which is not the one that
is written. -/
theorem accepted_texts_zeros :
    ofBech32 "erd1qqqqqqqqqqqqqqqqqqqqqqqqqqqqqqqqqqqqqqqqqqqqqqqqqqqq05sej7" =
      .ok ⟨List.replicate 32 0⟩ ∧
    (Address.mk (List.replicate 32 0)).bech32 ≠
      .ok "erd1qqqqqqqqqqqqqqqqqqqqqqqqqqqqqqqqqqqqqqqqqqqqqqqqqqqq05sej7".toLower ∧
    ∃ texts : List String, texts.Nodup ∧ texts.length = 32 ∧
      ∀ text ∈ texts, ofBech32 text = .ok ⟨List.replicate 32 0⟩ := by
  have hspelling : "erd1qqqqqqqqqqqqqqqqqqqqqqqqqqqqqqqqqqqqqqqqqqqqqqqqqqqq05sej7" =
      (Address.mk (List.replicate 32 0)).spelling .bech32m (List.replicate 4 false) := by
    decide +kernel
  have htext : ofBech32 "erd1qqqqqqqqqqqqqqqqqqqqqqqqqqqqqqqqqqqqqqqqqqqqqqqqqqqq05sej7" =
      .ok ⟨List.replicate 32 0⟩ :=
    (accepted_texts.1 _ _).2 ⟨rfl, .bech32m, List.replicate 4 false, rfl, .inl hspelling⟩
  obtain ⟨texts, hnodup, htexts, hmem⟩ := accepted_texts.2.2 ⟨List.replicate 32 0⟩ rfl
  refine ⟨htext, fun hwritten => ?_, texts, hnodup, htexts, fun text hin => ((hmem text).1 hin).2⟩
  have hfirst :=
    (accepted_texts.2.1 _ _ htext .bech32m (List.replicate 4 false) rfl (by decide +kernel)).1
      hwritten
  cases hfirst.1

/-- Texts that differ from the written one in their checksum, or in the bits behind the bytes, are
read as well. -/
theorem unwritten_texts_accepted :
    (Address.mk (List.replicate 32 0)).bech32 =
      .ok "erd1qqqqqqqqqqqqqqqqqqqqqqqqqqqqqqqqqqqqqqqqqqqqqqqqqqqq6gq4hu" ∧
    ofBech32 "erd1qqqqqqqqqqqqqqqqqqqqqqqqqqqqqqqqqqqqqqqqqqqqqqqqqqqq05sej7" =
      .ok ⟨List.replicate 32 0⟩ ∧
    ofBech32 "erd1qqqqqqqqqqqqqqqqqqqqqqqqqqqqqqqqqqqqqqqqqqqqqqqqqqqp875q2w" =
      .ok ⟨List.replicate 32 0⟩ ∧
    "erd1qqqqqqqqqqqqqqqqqqqqqqqqqqqqqqqqqqqqqqqqqqqqqqqqqqqq05sej7".toLower ≠
      "erd1qqqqqqqqqqqqqqqqqqqqqqqqqqqqqqqqqqqqqqqqqqqqqqqqqqqq6gq4hu" ∧
    "erd1qqqqqqqqqqqqqqqqqqqqqqqqqqqqqqqqqqqqqqqqqqqqqqqqqqqp875q2w".toLower ≠
      "erd1qqqqqqqqqqqqqqqqqqqqqqqqqqqqqqqqqqqqqqqqqqqqqqqqqqqq6gq4hu" := by
  decide +kernel

end ShardNet.Address
