-- SUMMARY: Which texts are read as a secret key, which key that is, and how the others are refused.
import ShardNet.Key
import ShardNet.Proofs.Text.Hex.Spelling

/-!
# Texts of secret keys

A text stands for the bytes that it spells in hexadecimal, between blanks; these are a key if there
are 32 or 64 of them. A key is its seed, so its public key, its address and its signatures are
settled by the first 32 bytes, and the case of the digits makes no difference.
-/

namespace ShardNet.SecretKey

open Text (Padded)
open Text.Hex (AllDigits Spells)

variable {key : SecretKey} {text : String} {core : List Char} {bytes : Bytes} {cause : Fault}
  {length : Nat}

/-! ## Bytes -/

theorem ofBytes_eq_ok_iff : ofBytes bytes = .ok key ↔
    (bytes.length = 32 ∨ bytes.length = 64) ∧ key.seed = bytes.take 32 := by
  unfold ofBytes
  split
  · next hlength =>
    have hkey : bytes.length = 32 ∨ bytes.length = 64 := hlength
    rw [and_iff_right hkey, Except.ok.injEq]
    constructor
    · rintro rfl
      rfl
    · intro hseed
      obtain ⟨seed, _⟩ := key
      obtain rfl : seed = bytes.take 32 := hseed
      rfl
  · next hlength => exact iff_of_false (by simp) fun h => hlength h.1

theorem ofBytes_eq_error_iff : ofBytes bytes = .error cause ↔
    cause = .invalidLength bytes.length ∧ bytes.length ≠ 32 ∧ bytes.length ≠ 64 := by
  unfold ofBytes
  split
  · next hlength => exact iff_of_false (by simp) fun h => hlength.elim h.2.1 h.2.2
  · next hlength =>
    rw [Except.error.injEq, eq_comm]
    exact ⟨fun h => ⟨h, not_or.1 hlength⟩, And.left⟩

theorem exists_ofBytes (h : bytes.length = 32 ∨ bytes.length = 64) :
    ∃ key, ofBytes bytes = .ok key := ⟨_, dif_pos h⟩

/-! ## Texts -/

/-- The text spells bytes, between blanks. -/
def Spelled (text : String) (bytes : Bytes) : Prop :=
  ∃ core, Padded core text.toList ∧ Spells core bytes

theorem decode_eq_ok_iff_spelled :
    Text.Hex.decode (Text.trim text.toList) = .ok bytes ↔ Spelled text bytes :=
  Text.Hex.decode_trim_eq_ok_iff

theorem ofHex_of_spelled (h : Spelled text bytes) : ofHex text = ofBytes bytes := by
  rw [ofHex, decode_eq_ok_iff_spelled.2 h]

theorem ofHex_of_unspelled (h : ¬ ∃ bytes, Spelled text bytes) :
    ∃ cause, ofHex text = .error (.invalidHex cause) := by
  cases hdecode : Text.Hex.decode (Text.trim text.toList) with
  | ok bytes => exact absurd ⟨bytes, decode_eq_ok_iff_spelled.1 hdecode⟩ h
  | error cause => exact ⟨cause, by rw [ofHex, hdecode]⟩

/-- Apart from texts that are not hexadecimal, a text is read as the bytes that it spells. -/
theorem ofHex_eq_iff {result : Except Fault SecretKey}
    (hresult : ∀ cause, result ≠ .error (.invalidHex cause)) :
    ofHex text = result ↔ ∃ bytes, Spelled text bytes ∧ ofBytes bytes = result := by
  constructor
  · intro h
    by_cases hspelled : ∃ bytes, Spelled text bytes
    · obtain ⟨bytes, hbytes⟩ := hspelled
      exact ⟨bytes, hbytes, (ofHex_of_spelled hbytes).symm.trans h⟩
    · obtain ⟨cause, hcause⟩ := ofHex_of_unspelled hspelled
      exact absurd (h.symm.trans hcause) (hresult cause)
  · rintro ⟨bytes, hbytes, rfl⟩
    exact ofHex_of_spelled hbytes

theorem ofHex_eq_invalidHex_iff :
    (∃ cause, ofHex text = .error (.invalidHex cause)) ↔ ¬ ∃ bytes, Spelled text bytes := by
  refine ⟨?_, ofHex_of_unspelled⟩
  rintro ⟨cause, hcause⟩ ⟨bytes, hbytes⟩
  rw [ofHex_of_spelled hbytes, ofBytes_eq_error_iff] at hcause
  cases hcause.1

/-! ## Digits -/

theorem exists_spelled_iff : (∃ bytes, Spelled text bytes) ↔
    ∃ core, Padded core text.toList ∧ AllDigits core ∧ core.length % 2 = 0 := by
  simp only [Spelled, ← Text.Hex.exists_spells_iff]
  constructor
  · exact fun ⟨bytes, core, hpadded, hspells⟩ => ⟨core, hpadded, bytes, hspells⟩
  · exact fun ⟨core, hpadded, bytes, hspells⟩ => ⟨bytes, core, hpadded, hspells⟩

theorem ofHex_eq_ok_iff : ofHex text = .ok key ↔
    ∃ core, Padded core text.toList ∧ AllDigits core ∧ (core.length = 64 ∨ core.length = 128) ∧
      ∃ (seed : Bytes) (hseed : seed.length = Crypto.Ed25519.seedLength),
        Spells (core.take 64) seed ∧ key = ⟨seed, hseed⟩ := by
  rw [ofHex_eq_iff (by simp)]
  constructor
  · rintro ⟨bytes, ⟨core, hpadded, hspells⟩, hkey⟩
    obtain ⟨hlength, hseed⟩ := ofBytes_eq_ok_iff.1 hkey
    have hdigits := hspells.length
    exact ⟨core, hpadded, hspells.allDigits, by omega, key.seed, key.length_seed,
      hseed ▸ hspells.take 32, rfl⟩
  · rintro ⟨core, hpadded, hall, hdigits, seed, hseed, htold, rfl⟩
    obtain ⟨bytes, hspells⟩ := Text.Hex.exists_spells hall (by omega)
    have hlength := hspells.length
    exact ⟨bytes, ⟨core, hpadded, hspells⟩,
      ofBytes_eq_ok_iff.2 ⟨by omega, htold.unique (hspells.take 32)⟩⟩

theorem exists_ofHex_iff : (∃ key, ofHex text = .ok key) ↔
    ∃ core, Padded core text.toList ∧ AllDigits core ∧ (core.length = 64 ∨ core.length = 128) := by
  constructor
  · rintro ⟨key, hkey⟩
    obtain ⟨core, hpadded, hall, hdigits, -⟩ := ofHex_eq_ok_iff.1 hkey
    exact ⟨core, hpadded, hall, hdigits⟩
  · rintro ⟨core, hpadded, hall, hdigits⟩
    obtain ⟨bytes, hspells⟩ := Text.Hex.exists_spells hall (by omega)
    have hlength := hspells.length
    rw [ofHex_of_spelled ⟨core, hpadded, hspells⟩]
    exact exists_ofBytes (by omega)

theorem ofHex_eq_invalidLength_iff : ofHex text = .error (.invalidLength length) ↔
    ∃ core, Padded core text.toList ∧ AllDigits core ∧ core.length = 2 * length ∧
      length ≠ 32 ∧ length ≠ 64 := by
  rw [ofHex_eq_iff (by simp)]
  constructor
  · rintro ⟨bytes, ⟨core, hpadded, hspells⟩, hrefused⟩
    obtain ⟨hcause, hne⟩ := ofBytes_eq_error_iff.1 hrefused
    obtain rfl := Fault.invalidLength.inj hcause
    exact ⟨core, hpadded, hspells.allDigits, hspells.length, hne⟩
  · rintro ⟨core, hpadded, hall, hdigits, hne⟩
    obtain ⟨bytes, hspells⟩ := Text.Hex.exists_spells hall (by omega)
    have hlength := hspells.length
    obtain rfl : bytes.length = length := by omega
    exact ⟨bytes, ⟨core, hpadded, hspells⟩, ofBytes_eq_error_iff.2 ⟨rfl, hne⟩⟩

/-- A text is read as a key exactly if, without the blanks around it, it consists of 64 or 128
hexadecimal digits of either case. It is the key of the seed that the first 64 digits spell,
whatever the others. Any other even number of digits is refused with half that number, and any other
text as not hexadecimal. So in whatever case bytes are spelled, the text is read as the bytes
are. -/
theorem ofHex_reads (text : String) :
    ((∃ key, ofHex text = .ok key) ↔
      ∃ core, Padded core text.toList ∧ AllDigits core ∧ (core.length = 64 ∨ core.length = 128)) ∧
    (∀ key, ofHex text = .ok key ↔
      ∃ core, Padded core text.toList ∧ AllDigits core ∧ (core.length = 64 ∨ core.length = 128) ∧
        ∃ (seed : Bytes) (hseed : seed.length = Crypto.Ed25519.seedLength),
          Spells (core.take 64) seed ∧ key = ⟨seed, hseed⟩) ∧
    (∀ length, ofHex text = .error (.invalidLength length) ↔
      ∃ core, Padded core text.toList ∧ AllDigits core ∧ core.length = 2 * length ∧
        length ≠ 32 ∧ length ≠ 64) ∧
    ((∃ cause, ofHex text = .error (.invalidHex cause)) ↔
      ¬ ∃ core, Padded core text.toList ∧ AllDigits core ∧ core.length % 2 = 0) ∧
    ∀ core bytes, Padded core text.toList → Spells core bytes → ofHex text = ofBytes bytes := by
  refine ⟨exists_ofHex_iff, fun key => ofHex_eq_ok_iff,
    fun length => ofHex_eq_invalidLength_iff, ?_,
    fun core bytes hpadded hspells => ofHex_of_spelled ⟨core, hpadded, hspells⟩⟩
  rw [ofHex_eq_invalidHex_iff, exists_spelled_iff]

/-- A seed of 32 bytes is read from its digits in either case, between blanks, and with any 64
digits behind them. -/
theorem ofHex_reads_mixed : ∃ key : SecretKey, key.seed = List.replicate 32 0xAB ∧
    ofHex " aBAbaBAbaBAbaBAbaBAbaBAbaBAbaBAbaBAbaBAbaBAbaBAbaBAbaBAbaBAbaBAb\u2003" = .ok key ∧
    ofHex ("ABabABabABabABabABabABabABabABabABabABabABabABabABabABabABabABab" ++
      "cdCDcdCDcdCDcdCDcdCDcdCDcdCDcdCDcdCDcdCDcdCDcdCDcdCDcdCDcdCDcdCD") = .ok key ∧
    ofHex "0aBc" = .error (.invalidLength 2) := by
  have hread :
      ∀ (text : String) (bytes : Bytes), Text.Hex.decode (Text.trim text.toList) = .ok bytes →
      ofHex text = ofBytes bytes := fun text bytes hdecode =>
    (ofHex_reads text).2.2.2.2 _ bytes (Text.padded_trim _) (Text.Hex.decode_eq_ok_iff.1 hdecode)
  have hseed : (List.replicate 32 (0xAB : UInt8)).length = 32 := List.length_replicate
  refine ⟨⟨List.replicate 32 0xAB, hseed⟩, rfl, ?_, ?_, ?_⟩
  · rw [hread _ (List.replicate 32 0xAB) (by decide +kernel), ofBytes_eq_ok_iff]
    exact ⟨.inl hseed, rfl⟩
  · rw [hread _ (List.replicate 32 0xAB ++ List.replicate 32 0xCD) (by decide +kernel),
      ofBytes_eq_ok_iff]
    exact ⟨.inr rfl, rfl⟩
  · rw [hread _ [0x0A, 0xBC] (by decide +kernel), ofBytes_eq_error_iff]
    decide

end ShardNet.SecretKey
