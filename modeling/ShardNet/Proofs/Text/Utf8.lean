-- SUMMARY: A text is read back from its UTF-8 bytes, so they tell texts apart.
import ShardNet.Text.Utf8

/-!
# Reading UTF-8 back

The bytes of a character begin a piece that is this character, whatever bytes follow. The first byte
tells how many there are, and for the widest of them bounds the second one; the bytes of a character
keep to the bounds because it is neither overlong, nor a surrogate, nor out of range.
-/

namespace ShardNet.Text.Utf8

/-! ## First bytes -/

deriving instance DecidableEq for Lead

theorem lead?_two : ∀ n < 32, 2 ≤ n →
    lead? (UInt8.ofNat (n + 192)) = some ⟨1, 0x80, 0xBF, n⟩ := by
  decide

theorem lead?_three : ∀ n < 16, lead? (UInt8.ofNat (n + 224)) =
    some ⟨2, if n = 0 then 0xA0 else 0x80, if n = 13 then 0x9F else 0xBF, n⟩ := by
  decide

theorem lead?_four : ∀ n < 5, lead? (UInt8.ofNat (n + 240)) =
    some ⟨3, if n = 0 then 0x90 else 0x80, if n = 4 then 0x8F else 0xBF, n⟩ := by
  decide

/-! ## The bytes that follow -/

theorem toNat_ofNat {n : Nat} (h : n < 256) : (UInt8.ofNat n).toNat = n :=
  UInt8.toNat_ofNat_of_lt' h

theorem follow_ofNat {following seen bits n : Nat} {low high : UInt8} {rest : Bytes}
    (hlow : low.toNat ≤ n + 128) (hhigh : n + 128 ≤ high.toNat) :
    follow (following + 1) low high seen bits (UInt8.ofNat (n + 128) :: rest) =
      follow following 0x80 0xBF (seen + 1) (bits * 64 + n) rest := by
  have hbyte : (UInt8.ofNat (n + 128)).toNat = n + 128 :=
    toNat_ofNat (Nat.lt_of_le_of_lt hhigh high.toNat_lt)
  have hwithin : low ≤ UInt8.ofNat (n + 128) ∧ UInt8.ofNat (n + 128) ≤ high := by
    rw [UInt8.le_iff_toNat_le, UInt8.le_iff_toNat_le, hbyte]
    exact ⟨hlow, hhigh⟩
  rw [follow, if_pos hwithin, hbyte, Nat.add_sub_cancel]

theorem piece_of_lead {n : Nat} {lead : Lead} {rest : Bytes} (hlow : 128 ≤ n) (hhigh : n < 256)
    (hlead : lead? (UInt8.ofNat n) = some lead) :
    piece (UInt8.ofNat n) rest = follow lead.following lead.low lead.high 1 lead.bits rest := by
  have hlong : ¬ UInt8.ofNat n < 0x80 := by
    rw [UInt8.lt_iff_toNat_lt, toNat_ofNat hhigh]
    exact Nat.not_lt.2 hlow
  rw [piece, if_neg hlong, hlead]

/-! ## Characters -/

/-- The code of a character is that of no surrogate, and in range. -/
theorem toNat_valid (c : Char) : c.toNat < 0xD800 ∨ 0xDFFF < c.toNat ∧ c.toNat < 0x110000 := c.valid

/-- The bytes of a character begin a piece that is this character. -/
theorem piece_utf8EncodeChar (c : Char) : ∃ byte more, String.utf8EncodeChar c = byte :: more ∧
    ∀ rest, piece byte (more ++ rest) = .char c (more.length + 1) := by
  have hvalid := toNat_valid c
  have hread : Char.ofNat c.toNat = c := Char.ofNat_toNat c
  unfold String.utf8EncodeChar
  rw [show c.val.toNat = c.toNat from rfl]
  generalize c.toNat = v at hvalid hread
  dsimp only
  split
  · rename_i hone
    refine ⟨_, _, rfl, fun rest => ?_⟩
    have hshort : UInt8.ofNat v < 0x80 := by
      rw [UInt8.lt_iff_toNat_lt, toNat_ofNat (by omega)]
      exact Nat.lt_succ_of_le hone
    rw [piece, if_pos hshort, toNat_ofNat (by omega), hread]
    rfl
  split
  · rename_i hone htwo
    refine ⟨_, _, rfl, fun rest => ?_⟩
    rw [piece_of_lead (by omega) (by omega) (lead?_two _ (by omega) (by omega))]
    rw [List.cons_append, List.nil_append, follow_ofNat (by simp) (by simp; omega), follow]
    rw [show v / 64 % 32 * 64 + v % 64 = v by omega, hread]
    rfl
  split
  · rename_i hone htwo hthree
    have hlow : (if v / 4096 % 16 = 0 then 0xA0 else 0x80 : UInt8).toNat ≤ v / 64 % 64 + 128 := by
      split <;> simp; omega
    have hhigh : v / 64 % 64 + 128 ≤ (if v / 4096 % 16 = 13 then 0x9F else 0xBF : UInt8).toNat := by
      split <;> simp <;> omega
    refine ⟨_, _, rfl, fun rest => ?_⟩
    rw [piece_of_lead (by omega) (by omega) (lead?_three _ (by omega))]
    simp only [List.cons_append, List.nil_append]
    rw [follow_ofNat hlow hhigh, follow_ofNat (by simp) (by simp; omega), follow]
    rw [show (v / 4096 % 16 * 64 + v / 64 % 64) * 64 + v % 64 = v by omega, hread]
    rfl
  · rename_i hone htwo hthree
    have hlow :
        (if v / 262144 % 8 = 0 then 0x90 else 0x80 : UInt8).toNat ≤ v / 4096 % 64 + 128 := by
      split <;> simp; omega
    have hhigh :
        v / 4096 % 64 + 128 ≤ (if v / 262144 % 8 = 4 then 0x8F else 0xBF : UInt8).toNat := by
      split <;> simp <;> omega
    refine ⟨_, _, rfl, fun rest => ?_⟩
    rw [piece_of_lead (by omega) (by omega) (lead?_four _ (by omega))]
    simp only [List.cons_append, List.nil_append]
    rw [follow_ofNat hlow hhigh, follow_ofNat (by simp) (by simp; omega),
      follow_ofNat (by simp) (by simp; omega), follow]
    rw [show ((v / 262144 % 8 * 64 + v / 4096 % 64) * 64 + v / 64 % 64) * 64 + v % 64 = v by omega,
      hread]
    rfl

/-! ## Texts -/

theorem encode_cons (c : Char) (text : List Char) :
    encode (c :: text) = String.utf8EncodeChar c ++ encode text := List.flatMap_cons

/-- Two texts with the same bytes are the same. -/
theorem encode_injective {text other : List Char} (hsame : encode text = encode other) :
    text = other := by
  have hbytes : text.utf8Encode = other.utf8Encode := congrArg List.toByteArray hsame
  have hdecode := List.utf8Decode?_utf8Encode (l := text)
  rw [hbytes, List.utf8Decode?_utf8Encode, Option.some.injEq] at hdecode
  simpa using hdecode.symm

theorem scanFrom_skip (more rest : Bytes) :
    scanFrom more.length (more ++ rest) = scanFrom 0 rest := by
  induction more with
  | nil => rfl
  | cons byte more ih => exact ih

theorem scan_encode (text : List Char) :
    scan (encode text) = text.map fun c => .char c (String.utf8EncodeChar c).length := by
  induction text with
  | nil => rfl
  | cons c text ih =>
      obtain ⟨byte, more, hbytes, hpiece⟩ := piece_utf8EncodeChar c
      rw [encode_cons, List.map_cons, hbytes, scan, List.cons_append, scanFrom, hpiece]
      simp only [Piece.size, Nat.add_sub_cancel, scanFrom_skip, List.length_cons]
      rw [← ih]
      rfl

theorem symbols_encode (text : List Char) : symbols (encode text) = text.map some := by
  rw [symbols, scan_encode, List.map_map]
  rfl

theorem decode_encode (text : List Char) : decode (encode text) = .ok text := by
  have hcollect : ∀ index, collect index
      (text.map fun c => .char c (String.utf8EncodeChar c).length) = .ok text := by
    induction text with
    | nil => exact fun _ => rfl
    | cons c text ih =>
        intro index
        rw [List.map_cons, collect, ih]
        rfl
  rw [decode, scan_encode]
  exact hcollect 0

end ShardNet.Text.Utf8
