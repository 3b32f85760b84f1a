-- SUMMARY: The views of what a contract returns show one entry, each of them exactly.
import ShardNet.Proofs.Bytes
import ShardNet.Proofs.Text.Hex
import ShardNet.Proofs.Text.Pointed
import ShardNet.Proofs.Text.Utf8.WellFormed
import ShardNet.Vm

/-!
# Views of returned data

All views are of the first entry, whatever comes after it. The number and its decimal text show the
integer of the entry, so they leave out the zeros at its front and nothing else. The hexadecimal
text shows every byte, and so does the text, if the entry is one.
-/

namespace ShardNet.VmOutput

open Text.Decimal (Whole)
open Number (ofDigits)

variable {output other : VmOutput} {entry otherEntry : Bytes} {rest otherRest : List Bytes}

/-- What the views show of an entry. -/
structure Shows (output : VmOutput) (entry : Bytes) : Prop where
  number : output.returned .number =
    .ok (.number (Nat.ofDigits 256 (entry.reverse.map UInt8.toNat)))
  decimal : ∃ shown, output.returned .decimal = .ok (.text shown) ∧ ∀ text : String, text = shown ↔
    Whole text.toList ∧ ofDigits text.toList = Nat.ofDigits 256 (entry.reverse.map UInt8.toNat)
  hex : ∃ shown, output.returned .hex = .ok (.text shown) ∧ shown.length = 2 * entry.length ∧
    ∀ text : String, text = shown ↔
      (∀ c ∈ text.toList, c ∈ "0123456789abcdef".toList) ∧ Text.Hex.decode text.toList = .ok entry
  text : ∀ shown : String, output.returned .text = .ok (.text shown) ↔
    Text.Utf8.encode shown.toList = entry
  isText : (∃ shown, output.returned .text = .ok (.text shown)) ↔ Text.Utf8.WellFormed entry
  notText : ¬ Text.Utf8.WellFormed entry →
    ∃ message, output.returned .text = .error (.invalidResponse message)

/-! ## The first entry -/

theorem first?_of_returnData (h : output.returnData = entry :: rest) :
    output.first? = some entry := by
  rw [first?, h, List.head?_cons]

theorem returned_number (h : output.returnData = entry :: rest) :
    output.returned .number = .ok (.number entry.toNatBE) := by
  simp only [returned, view, first?_of_returnData h, Except.mapError]

theorem returned_decimal (h : output.returnData = entry :: rest) :
    output.returned .decimal = .ok (.text (Text.Decimal.text entry.toNatBE)) := by
  simp only [returned, view, first?_of_returnData h, Except.mapError]

theorem returned_hex (h : output.returnData = entry :: rest) :
    output.returned .hex = .ok (.text (Text.Hex.text entry)) := by
  simp only [returned, view, first?_of_returnData h, Except.mapError]

theorem returned_text_of_ok (h : output.returnData = entry :: rest) {text : List Char}
    (hdecode : Text.Utf8.decode entry = .ok text) :
    output.returned .text = .ok (.text (String.ofList text)) := by
  simp only [returned, view, first?_of_returnData h, hdecode, Except.mapError]

theorem returned_text_of_error (h : output.returnData = entry :: rest) {cause : Text.Utf8.Fault}
    (hdecode : Text.Utf8.decode entry = .error cause) :
    output.returned .text = .error (.invalidResponse cause.message) := by
  simp only [returned, view, first?_of_returnData h, hdecode, Except.mapError, ViewFault.message]

theorem returned_of_nil (h : output.returnData = []) (shown : View) :
    output.returned shown = .error (.invalidResponse "no return data") := by
  simp only [returned, view, first?, h, List.head?_nil, Except.mapError, ViewFault.message]

/-! ## Texts -/

theorem eq_decimal_iff {text : String} {value : Nat} : text = Text.Decimal.text value ↔
    Whole text.toList ∧ ofDigits text.toList = value := by
  rw [← Text.Decimal.eq_digits_iff, Text.Decimal.text, ← String.toList_inj, String.toList_ofList]

theorem eq_hex_iff {text : String} : text = Text.Hex.text entry ↔
    (∀ c ∈ text.toList, c ∈ "0123456789abcdef".toList) ∧
      Text.Hex.decode text.toList = .ok entry := by
  constructor
  · rintro rfl
    exact ⟨fun c => Text.Hex.mem_of_mem_text, Text.Hex.decode_text entry⟩
  · rintro ⟨hlower, hdecode⟩
    have hdigits := (Text.Hex.decode_eq_ok_iff.1 hdecode).eq_encode hlower
    rw [Text.Hex.text, ← hdigits, String.ofList_toList]

theorem returned_text_eq_ok_iff (h : output.returnData = entry :: rest) {shown : String} :
    output.returned .text = .ok (.text shown) ↔ Text.Utf8.encode shown.toList = entry := by
  rw [← Text.Utf8.decode_eq_ok_iff]
  cases hdecode : Text.Utf8.decode entry with
  | ok text =>
    rw [returned_text_of_ok h hdecode, Except.ok.injEq, Except.ok.injEq, Seen.text.injEq,
      ← String.toList_inj, String.toList_ofList]
  | error cause =>
    rw [returned_text_of_error h hdecode]
    simp

theorem exists_returned_text_iff (h : output.returnData = entry :: rest) :
    (∃ shown, output.returned .text = .ok (.text shown)) ↔ Text.Utf8.WellFormed entry := by
  simp only [returned_text_eq_ok_iff h, Text.Utf8.wellFormed_iff]
  exact ⟨fun ⟨shown, hshown⟩ => ⟨shown.toList, hshown⟩,
    fun ⟨text, htext⟩ => ⟨String.ofList text, by rwa [String.toList_ofList]⟩⟩

theorem shows_first (h : output.returnData = entry :: rest) : output.Shows entry where
  number := by rw [returned_number h, Bytes.toNatBE_eq_ofDigits]
  decimal := ⟨_, returned_decimal h, fun text => by rw [eq_decimal_iff, Bytes.toNatBE_eq_ofDigits]⟩
  hex := ⟨_, returned_hex h, Text.Hex.length_text entry, fun text => eq_hex_iff⟩
  text shown := returned_text_eq_ok_iff h
  isText := exists_returned_text_iff h
  notText hmalformed := by
    cases hdecode : Text.Utf8.decode entry with
    | ok text => exact absurd (Text.Utf8.exists_decode_iff.1 ⟨text, hdecode⟩) hmalformed
    | error cause => exact ⟨_, returned_text_of_error h hdecode⟩

/-- The decimal text leaves out the zeros at the front, and nothing else. -/
theorem returned_decimal_eq_iff (h : output.returnData = entry :: rest)
    (hother : other.returnData = otherEntry :: otherRest) :
    output.returned .decimal = other.returned .decimal ↔
      entry.significant = otherEntry.significant := by
  rw [returned_decimal h, returned_decimal hother, Except.ok.injEq, Seen.text.injEq,
    ← Bytes.toNatBE_eq_iff]
  exact ⟨Text.Decimal.text_inj, congrArg Text.Decimal.text⟩

/-- All views show the first entry, whatever follows it: as its integer with the first byte most
significant, as the decimal text of this integer without needless zeros, in lowercase hexadecimal,
and, exactly if it is well-formed UTF-8, as the text with these bytes. The decimal texts of two
entries are the same exactly if the entries differ by zeros at the front. Without an entry, and for
a text that is none, the response is invalid. -/
theorem views_agree :
    (∀ (output : VmOutput) (entry : Bytes) (rest : List Bytes), output.returnData = entry :: rest →
      output.Shows entry) ∧
    (∀ (output other : VmOutput) (entry otherEntry : Bytes) (rest otherRest : List Bytes),
      output.returnData = entry :: rest → other.returnData = otherEntry :: otherRest →
        (output.returned .decimal = other.returned .decimal ↔
          entry.significant = otherEntry.significant)) ∧
    ∀ output : VmOutput, output.returnData = [] → ∀ view,
      output.returned view = .error (.invalidResponse "no return data") :=
  ⟨fun _ _ _ => shows_first, fun _ _ _ _ _ _ => returned_decimal_eq_iff, fun _ => returned_of_nil⟩

/-- An output of which only the returned byte strings matter. -/
def ofData (returnData : List Bytes) : VmOutput := ⟨returnData, "ok", "", 0, .null, .null, .null⟩

/-- A zero at the front shows in all views but the numbers, and half of a surrogate pair is no
text. -/
theorem views_agree_zero :
    (ofData [[0, 0xC3, 0xA9], [1]]).returned .number = .ok (.number 50089) ∧
    (ofData [[0, 0xC3, 0xA9], [1]]).returned .decimal = (ofData [[0xC3, 0xA9]]).returned .decimal ∧
    (ofData [[0, 0xC3, 0xA9], [1]]).returned .hex = .ok (.text "00c3a9") ∧
    (ofData [[0, 0xC3, 0xA9], [1]]).returned .text = .ok (.text "\x00\u00e9") ∧
    (∃ message, (ofData [[0xED, 0xA0, 0x80]]).returned .text = .error (.invalidResponse message)) ∧
    (ofData []).returned .text = .error (.invalidResponse "no return data") := by
  obtain ⟨hshows, hdecimal, hnone⟩ := views_agree
  have hentry := hshows (ofData [[0, 0xC3, 0xA9], [1]]) [0, 0xC3, 0xA9] [[1]] rfl
  have hsurrogate := hshows (ofData [[0xED, 0xA0, 0x80]]) [0xED, 0xA0, 0x80] [] rfl
  refine ⟨hentry.number, (hdecimal _ _ _ _ _ _ rfl rfl).2 (by decide), ?_,
    (hentry.text _).2 (by decide +kernel),
    hsurrogate.notText ?_, hnone _ rfl _⟩
  · obtain ⟨shown, hshown, -, honly⟩ := hentry.hex
    have hhex : "00c3a9" = Text.Hex.text [0, 0xC3, 0xA9] := by decide
    rw [hshown, (honly "00c3a9").2 (eq_hex_iff.1 hhex)]
  · rw [← Text.Utf8.exists_decode_iff]
    rintro ⟨text, htext⟩
    have hrefused : Text.Utf8.decode [0xED, 0xA0, 0x80] = .error ⟨0, some 1⟩ := by decide +kernel
    cases hrefused.symm.trans htext

end ShardNet.VmOutput
