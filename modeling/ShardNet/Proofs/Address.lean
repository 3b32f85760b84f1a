-- SUMMARY: Which addresses have a text, that the text determines the address, and what is read in it.
import ShardNet.Address
import ShardNet.Proofs.Text.Bech32
import ShardNet.Proofs.Text.Bech32.RoundTrip

/-!
# The text of an address

The writer takes addresses of any length that fits into a text, and the reader only those of 32
bytes. What it refuses in a text that was written is the length, and nothing else.
-/

namespace ShardNet.Address

variable {address other : Address} {text : String}

theorem bech32_eq_ok_iff : address.bech32 = .ok text ↔
    Text.Bech32.encode humanPart.toList address.bytes = .ok text.toList := by
  unfold bech32
  cases Text.Bech32.encode humanPart.toList address.bytes with
  | error cause => exact iff_of_false nofun nofun
  | ok chars =>
      simp only [Except.ok.injEq]
      exact ⟨fun h => h ▸ String.toList_ofList.symm, fun h => h ▸ String.ofList_toList⟩

/-- An address has a text unless it is too long for bech32. -/
theorem exists_bech32_iff :
    (∃ text, address.bech32 = .ok text) ↔
      (8 * address.bytes.length + 4) / 5 + 10 ≤ Text.Bech32.maxLength := by
  have hhuman : humanPart.toList.length = 3 := rfl
  constructor
  · rintro ⟨text, htext⟩
    have hlength := (Text.Bech32.encode_eq_ok_iff.1 (bech32_eq_ok_iff.1 htext)).2
    omega
  · intro hshort
    have hencode := Text.Bech32.encode_eq_ok_iff.2 ⟨rfl, show
      humanPart.toList.length + (8 * address.bytes.length + 4) / 5 + 7 ≤ Text.Bech32.maxLength by
        omega⟩
    exact ⟨_, bech32_eq_ok_iff.2 (hencode.trans (congrArg Except.ok String.toList_ofList.symm))⟩

theorem exists_bech32 (hvalid : address.isValid) : ∃ text, address.bech32 = .ok text := by
  have hlength : address.bytes.length = 32 := of_decide_eq_true hvalid
  refine exists_bech32_iff.2 ?_
  rw [hlength]
  decide

/-- Addresses with the same text are the same, whatever their lengths. -/
theorem bech32_injective (h : address.bech32 = .ok text) (h' : other.bech32 = .ok text) :
    address = other :=
  congrArg mk (Text.Bech32.encode_injective (bech32_eq_ok_iff.1 h) (bech32_eq_ok_iff.1 h'))

/-- What the text of an address is made of. -/
theorem forall_mem_of_bech32 {p : Char → Prop} (h : address.bech32 = .ok text)
    (hhuman : p 'e' ∧ p 'r' ∧ p 'd') (hone : p '1')
    (hsymbols : ∀ value < 32, p (Text.Bech32.symbol value)) :
    ∀ c ∈ text.toList, p c := by
  have hletters : humanPart.toList = ['e', 'r', 'd'] := rfl
  exact Text.Bech32.forall_mem_of_encode (bech32_eq_ok_iff.1 h) (by simpa [hletters]
    using hhuman) hone hsymbols

/-! ## Reading -/

theorem ofBech32_of_decode
    (h : Text.Bech32.decode text.toList = .ok (humanPart.toList, address.bytes)) :
    ofBech32 text = if address.bytes.length = size then .ok address
      else .error (.invalidLength address.bytes.length) := by
  by_cases hvalid : address.bytes.length = size <;> simp [ofBech32, h, hvalid]

/-- A text that was written is read, without a change. -/
theorem ofBech32_bech32 (h : address.bech32 = .ok text) : ofBech32 text =
    if address.bytes.length = size then .ok address
      else .error (.invalidLength address.bytes.length) := by
  have hencode := bech32_eq_ok_iff.1 h
  have hcase : Text.Bech32.isSingleCase (text.toList.map id) := by
    rw [List.map_id]
    exact Text.Bech32.isSingleCase_of_isUpper
      (forall_mem_of_bech32 h (by decide) (by decide) (by decide))
  have hdecode := Text.Bech32.decode_map_of_encode (by decide) (by decide) rfl
    Text.Bech32.value?_symbol hcase hencode
  exact ofBech32_of_decode ((congrArg Text.Bech32.decode (List.map_id _).symm).trans hdecode)

/-- A text that was written is read in uppercase too. -/
theorem ofBech32_toUpper (h : address.bech32 = .ok text) : ofBech32 text.toUpper =
    if address.bytes.length = size then .ok address
      else .error (.invalidLength address.bytes.length) := by
  have hencode := bech32_eq_ok_iff.1 h
  have hcase : Text.Bech32.isSingleCase (text.toList.map Char.toUpper) :=
    Text.Bech32.isSingleCase_of_isLower
      (List.forall_mem_map.2 (forall_mem_of_bech32 h (by decide) (by decide) (by decide)))
  have hdecode :=
    Text.Bech32.decode_map_of_encode (by decide) (by decide) rfl (by decide) hcase hencode
  exact ofBech32_of_decode ((congrArg Text.Bech32.decode String.toList_map).trans hdecode)

theorem toLower_of_bech32 (h : address.bech32 = .ok text) : text.toLower = text := by
  have hlower : ∀ c ∈ text.toList, c.toLower = c :=
    forall_mem_of_bech32 h (by decide) (by decide) (by decide)
  have hmap : text.toLower.toList = text.toList.map Char.toLower := String.toList_map
  rw [← String.toList_inj, hmap, List.map_congr_left hlower, List.map_id']

/-- An address has a text unless it is too long for one. The text is in lowercase, is that of no
other address, and the address is read back from it, in either case, as far as it is a valid one. -/
theorem bech32_round_trip :
    (∀ address : Address, (∃ cause, address.bech32 = .error cause) ↔
      1023 < 4 + (8 * address.bytes.length + 4) / 5 + 6) ∧
    ∀ (address : Address) (text : String), address.bech32 = .ok text →
      text.toLower = text ∧
      (address.bytes.length = 32 → ofBech32 text = .ok address ∧
        ofBech32 text.toUpper = .ok address) ∧
      (address.bytes.length ≠ 32 →
        ofBech32 text = .error (.invalidLength address.bytes.length) ∧
        ofBech32 text.toUpper = .error (.invalidLength address.bytes.length)) ∧
      ∀ other : Address, other.bech32 = .ok text → other = address := by
  refine ⟨fun address => ?_, fun address text htext =>
    ⟨toLower_of_bech32 htext, fun hvalid => ?_, fun hinvalid => ?_, fun other hother => ?_⟩⟩
  · have hexists : (∃ text, address.bech32 = .ok text) ↔ _ := exists_bech32_iff
    have hmax : Text.Bech32.maxLength = 1023 := rfl
    cases htext : address.bech32 with
    | error cause =>
        have hlong : ¬ (8 * address.bytes.length + 4) / 5 + 10 ≤ Text.Bech32.maxLength := by
          simpa [htext] using hexists
        exact iff_of_true ⟨cause, rfl⟩ (by omega)
    | ok text =>
        have hshort := hexists.1 ⟨text, htext⟩
        exact iff_of_false nofun (by omega)
  · rw [ofBech32_bech32 htext, ofBech32_toUpper htext]
    exact ⟨if_pos hvalid, if_pos hvalid⟩
  · rw [ofBech32_bech32 htext, ofBech32_toUpper htext]
    exact ⟨if_neg hinvalid, if_neg hinvalid⟩
  · exact bech32_injective hother htext

/-- Bytes that are no valid address have a text too, but only that of a valid one is read back as
it. -/
theorem bech32_round_trip_two_lengths :
    (∃ text, (Address.mk (List.replicate 32 1)).bech32 = .ok text ∧
      ofBech32 text.toUpper = .ok ⟨List.replicate 32 1⟩) ∧
    ∃ text, (Address.mk (List.replicate 33 7)).bech32 = .ok text ∧
      ofBech32 text = .error (.invalidLength 33) := by
  obtain ⟨valid, hvalid⟩ : ∃ text, (Address.mk (List.replicate 32 1)).bech32 = .ok text :=
    exists_bech32_iff.2 (by decide)
  obtain ⟨longer, hlonger⟩ : ∃ text, (Address.mk (List.replicate 33 7)).bech32 = .ok text :=
    exists_bech32_iff.2 (by decide)
  have hback := (bech32_round_trip.2 _ _ hvalid).2.1 (by decide)
  have hrefused := (bech32_round_trip.2 _ _ hlonger).2.2.1 (by decide)
  exact ⟨⟨valid, hvalid, hback.2⟩, longer, hlonger, hrefused.1⟩

end ShardNet.Address
