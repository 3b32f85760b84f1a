-- SUMMARY: The bytes of a bech32 text are read back from it, in lowercase and in uppercase.
import Mathlib.Data.List.TakeDrop
import ShardNet.Proofs.Gather
import ShardNet.Proofs.Text.Bech32
import ShardNet.Proofs.Text.Bech32.Residue

/-!
# The round trip of bech32

The symbols of a text have no `1` among them, so the last one is the separator. What stands behind
it has the values that were written, in either case, and the checksum has the residue that the
reader looks for.
-/

namespace ShardNet.Text.Bech32

variable {human low data text : List Char} {bytes : Bytes} {values : List Nat} {variant : Variant}

/-! ## Letters -/

theorem isSingleCase_of_isUpper (hnone : ∀ c ∈ text, c.isUpper = false) : isSingleCase text := by
  have hany : text.any Char.isUpper = false := List.any_eq_false.2 fun c hmem => by
    simp [hnone c hmem]
  simp [isSingleCase, hany]

theorem isSingleCase_of_isLower (hnone : ∀ c ∈ text, c.isLower = false) : isSingleCase text := by
  have hany : text.any Char.isLower = false := List.any_eq_false.2 fun c hmem => by
    simp [hnone c hmem]
  simp [isSingleCase, hany]

/-- What a text is made of. -/
theorem forall_mem_of_encode {p : Char → Prop} (h : encode human bytes = .ok text)
    (hhuman : ∀ c ∈ human, p c) (hone : p '1') (hsymbols : ∀ value < 32, p (symbol value)) :
    ∀ c ∈ text, p c := by
  rw [(encode_eq_ok_iff.1 h).1]
  intro c hmem
  rcases List.mem_append.1 hmem with hc | hc
  · exact hhuman c hc
  · rcases List.mem_cons.1 hc with rfl | hc
    · exact hone
    · obtain ⟨value, hvalue, rfl⟩ := List.mem_map.1 hc
      exact hsymbols value (lt_of_mem_symbolValues hvalue)

/-! ## Reading -/

/-- A text is cut before the symbols that have no `1` among them. -/
theorem split?_eq_some_iff :
    split? text = some (human, data) ↔ text = human ++ '1' :: data ∧ '1' ∉ data := by
  have hjoined :
      text.reverse.takeWhile (· != '1') ++ text.reverse.dropWhile (· != '1') = text.reverse :=
    List.takeWhile_append_dropWhile
  rw [split?, List.span_eq_takeWhile_dropWhile]
  constructor
  · intro h
    split at h
    · next back front hspan =>
      obtain ⟨hback, hfront⟩ := Prod.mk.inj hspan
      obtain ⟨rfl, rfl⟩ := Prod.mk.inj (Option.some.inj h)
      rw [hback, hfront] at hjoined
      refine ⟨?_, fun hmem => ?_⟩
      · rw [← List.reverse_reverse text, ← hjoined]
        simp
      · -- whatever stands behind the separator was passed over while looking for one
        have hother := List.all_eq_true.1 List.all_takeWhile '1' (hback ▸ List.mem_reverse.1 hmem)
        exact bne_iff_ne.1 hother rfl
    · cases h
  · rintro ⟨rfl, hdata⟩
    have hreverse : (human ++ '1' :: data).reverse = data.reverse ++ '1' :: human.reverse := by simp
    have hsymbols : ∀ c ∈ data.reverse, (c != '1') = true := fun c hmem =>
      bne_iff_ne.2 fun hone => hdata (hone ▸ List.mem_reverse.1 hmem)
    rw [hreverse, List.takeWhile_append_of_pos hsymbols, List.dropWhile_append_of_pos hsymbols]
    simp

/-- A text is a prefix, the separator, and symbols, with letters of one case. -/
theorem parse?_eq_some_iff :
    parse? text = some (human, values) ↔ ∃ data, text = human ++ '1' :: data ∧
    data.map value? = values.map some ∧ isPrefix human ∧ isSingleCase text := by
  constructor
  · intro h
    simp only [parse?, Option.bind_eq_bind, Option.bind_eq_some_iff] at h
    obtain ⟨⟨front, data⟩, hsplit, read, hread, h⟩ := h
    split at h
    · next hvalid =>
      obtain ⟨rfl, rfl⟩ := Prod.mk.inj (Option.some.inj h)
      obtain ⟨hbefore, hcase⟩ := Bool.and_eq_true_iff.1 hvalid
      exact ⟨data, (split?_eq_some_iff.1 hsplit).1, mapM_eq_some_iff.1 hread, hbefore, hcase⟩
    · cases h
  · rintro ⟨data, rfl, hdata, hbefore, hcase⟩
    have hsymbols : '1' ∉ data := fun hmem => by
      have hone : value? '1' ∈ values.map some := hdata ▸ List.mem_map_of_mem hmem
      obtain ⟨value, -, hvalue⟩ := List.mem_map.1 hone
      cases hvalue
    simp [parse?, split?_eq_some_iff.2 ⟨rfl, hsymbols⟩, mapM_eq_some_iff.2 hdata, hbefore, hcase]

/-- Values are read back from their symbols and either checksum, behind a prefix in either case. -/
theorem decode_append (hvalid : isPrefix human) (hhuman : human.map Char.toLower = low)
    (hdata : data.map value? = (values ++ checksumTo variant.residue low values).map some)
    (hcase : isSingleCase (human ++ '1' :: data))
    (hlength : (human ++ '1' :: data).length ≤ maxLength) :
    decode (human ++ '1' :: data) = .ok (low, ofQuintets values) := by
  have hparse :
      parse? (human ++ '1' :: data) =
      some (human, values ++ checksumTo variant.residue low values) :=
    parse?_eq_some_iff.2 ⟨data, rfl, hdata, hvalid, hcase⟩
  have hresidue :
      residue (expandPrefix low ++ (values ++ checksumTo variant.residue low values)) =
      variant.residue :=
    residue_checksumTo variant.residue_lt
  have hgood : ¬ ((values ++ checksumTo variant.residue low values).length < 6 ∨
      maxLength < (human ++ '1' :: data).length ∨
      (variant.residue ≠ bech32Residue ∧ variant.residue ≠ bech32mResidue)) := by
    rw [List.length_append, length_checksumTo]
    rintro (hfew | hlong | ⟨hfirst, hsecond⟩)
    · omega
    · omega
    · cases variant <;> contradiction
  have htake : (values ++ checksumTo variant.residue low values).take
      ((values ++ checksumTo variant.residue low values).length - 6) = values := by
    rw [List.length_append, length_checksumTo, Nat.add_sub_cancel, List.take_left]
  simp only [decode, hparse, hhuman, hresidue, if_neg hgood, htake]

/-- Bytes are read back from their text, under any change of its letters that keeps what they stand
for. -/
theorem decode_map_of_encode {change : Char → Char} (hvalid : isPrefix (human.map change))
    (hhuman : (human.map change).map Char.toLower = human) (hone : change '1' = '1')
    (hvalues : ∀ value < 32, value? (change (symbol value)) = some value)
    (hcase : isSingleCase (text.map change)) (h : encode human bytes = .ok text) :
    decode (text.map change) = .ok (human, bytes) := by
  obtain ⟨rfl, hlength⟩ := encode_eq_ok_iff.1 h
  rw [List.map_append, List.map_cons, hone] at hcase ⊢
  have hdata : (((symbolValues human bytes).map symbol).map change).map value? =
      (toQuintets bytes ++ checksumTo Variant.bech32.residue human (toQuintets bytes)).map
          some := by
    rw [List.map_map, List.map_map]
    exact List.map_congr_left fun value hmem => hvalues value (lt_of_mem_symbolValues hmem)
  have hshort :
      (human.map change ++ '1' :: ((symbolValues human bytes).map symbol).map change).length ≤
      maxLength := by
    simp only [List.length_append, List.length_cons, List.length_map, length_symbolValues]
    omega
  rw [decode_append hvalid hhuman hdata hcase hshort, ofQuintets_toQuintets]

end ShardNet.Text.Bech32
