-- SUMMARY: The bytes that are read as text are the well-formed ones, and they are the bytes of that text.
import ShardNet.Proofs.Gather
import ShardNet.Proofs.Text.Utf8

/-!
# Well-formed UTF-8

A character takes one to four bytes, and the bits in them make up its number. `Form` has the four
patterns of bits and nothing else, so some numbers can be had in several of them. `Permitted` adds
what is forbidden: forms longer than need be, surrogates, and numbers out of range. What is left is
one form for each character, `permitted_iff`.

The reader finds the same sequences in another way, by bounds on the first two bytes.
-/

namespace ShardNet.Text.Utf8

variable {sequence other bytes : Bytes} {value number bits seen following index : Nat}
  {low high byte : UInt8} {rest : Bytes} {c : Char} {size : Nat} {text : List Char}

/-! ## Forms of a number -/

/-- A byte behind the first one, with its six bits. -/
def tail (bits : Nat) : UInt8 := UInt8.ofNat (bits + 0x80)

/-- The four forms of a sequence of bytes, and the number that its bits make up. -/
inductive Form : Bytes → Nat → Prop where
  | one {a : Nat} (ha : a < 0x80) : Form [UInt8.ofNat a] a
  | two {a b : Nat} (ha : a < 0x20) (hb : b < 0x40) :
      Form [UInt8.ofNat (a + 0xC0), tail b] (a * 64 + b)
  | three {a b c : Nat} (ha : a < 0x10) (hb : b < 0x40) (hc : c < 0x40) :
      Form [UInt8.ofNat (a + 0xE0), tail b, tail c] ((a * 64 + b) * 64 + c)
  | four {a b c d : Nat} (ha : a < 0x8) (hb : b < 0x40) (hc : c < 0x40) (hd : d < 0x40) :
      Form [UInt8.ofNat (a + 0xF0), tail b, tail c, tail d] (((a * 64 + b) * 64 + c) * 64 + d)

/-- A sequence for a character: no form of its number is shorter, and the number is no surrogate and
in range. -/
structure Permitted (sequence : Bytes) (value : Nat) : Prop where
  form : Form sequence value
  shortest : ∀ other, Form other value → sequence.length ≤ other.length
  notSurrogate : ¬ (0xD800 ≤ value ∧ value ≤ 0xDFFF)
  inRange : value ≤ 0x10FFFF

/-- Bytes that fall into sequences for characters. -/
def WellFormed (bytes : Bytes) : Prop :=
  ∃ sequences : List Bytes, bytes = sequences.flatten ∧
    ∀ sequence ∈ sequences, ∃ value, Permitted sequence value

/-- How far a number goes that has a form of some length. -/
structure Fits (value length : Nat) : Prop where
  pos : 1 ≤ length
  one : length ≤ 1 → value < 0x80
  two : length ≤ 2 → value < 0x800
  three : length ≤ 3 → value < 0x10000

theorem Form.fits (h : Form sequence value) : Fits value sequence.length := by
  cases h with
  | one | two | three | four => constructor <;>
      simp only [List.length_cons, List.length_nil] <;> omega

/-- A number has one form of each length. -/
theorem Form.unique (h : Form sequence value) (hother : Form other number) (hvalue : value = number)
    (hlength : sequence.length = other.length) : sequence = other := by
  cases h with
  | one =>
    cases hother with
    | one => rw [hvalue]
    | two | three | four => cases hlength
  | @two a b =>
    cases hother with
    | @two a' b' =>
      obtain ⟨rfl, rfl⟩ : a = a' ∧ b = b' := by omega
      rfl
    | one | three | four => cases hlength
  | @three a b c =>
    cases hother with
    | @three a' b' c' =>
      obtain ⟨rfl, rfl, rfl⟩ : a = a' ∧ b = b' ∧ c = c' := by omega
      rfl
    | one | two | four => cases hlength
  | @four a b c d =>
    cases hother with
    | @four a' b' c' d' =>
      obtain ⟨rfl, rfl, rfl, rfl⟩ : a = a' ∧ b = b' ∧ c = c' ∧ d = d' := by omega
      rfl
    | one | two | three => cases hlength

/-! ## Forms of characters -/

theorem form_utf8EncodeChar (c : Char) : Form (String.utf8EncodeChar c) c.toNat := by
  have hvalid := toNat_valid c
  unfold String.utf8EncodeChar
  rw [show c.val.toNat = c.toNat from rfl]
  generalize c.toNat = v at hvalid
  dsimp only
  split
  · exact .one (by omega)
  split
  · have hform := Form.two (a := v / 64 % 32) (b := v % 64) (by omega) (by omega)
    rwa [show v / 64 % 32 * 64 + v % 64 = v by omega] at hform
  split
  · have hform :=
      Form.three (a := v / 4096 % 16) (b := v / 64 % 64) (c := v % 64) (by omega)
        (by omega) (by omega)
    rwa [show (v / 4096 % 16 * 64 + v / 64 % 64) * 64 + v % 64 = v by omega] at hform
  · have hform :=
      Form.four (a := v / 262144 % 8) (b := v / 4096 % 64) (c := v / 64 % 64)
        (d := v % 64) (by omega)
      (by omega) (by omega) (by omega)
    rwa [show ((v / 262144 % 8 * 64 + v / 4096 % 64) * 64 + v / 64 % 64) * 64 + v % 64 = v by omega]
      at hform

theorem length_utf8EncodeChar_le {length : Nat} (h : Fits c.toNat length) :
    (String.utf8EncodeChar c).length ≤ length := by
  obtain ⟨hpos, hone, htwo, hthree⟩ := h
  unfold String.utf8EncodeChar
  rw [show c.val.toNat = c.toNat from rfl]
  generalize c.toNat = v at hone htwo hthree
  dsimp only
  split
  · exact hpos
  split
  · simp only [List.length_cons, List.length_nil]
    omega
  split
  · simp only [List.length_cons, List.length_nil]
    omega
  · simp only [List.length_cons, List.length_nil]
    omega

theorem toNat_ofNat_of_valid (hsurrogate : ¬ (0xD800 ≤ value ∧ value ≤ 0xDFFF))
    (hrange : value ≤ 0x10FFFF) :
    (Char.ofNat value).toNat = value := by
  have hvalid : value.isValidChar := by
    unfold Nat.isValidChar
    omega
  rw [Char.ofNat, dif_pos hvalid]
  rfl

/-- The sequences for characters are those that characters have. -/
theorem permitted_iff :
    Permitted sequence value ↔
    ∃ c : Char, c.toNat = value ∧ String.utf8EncodeChar c = sequence := by
  constructor
  · intro h
    have hvalue := toNat_ofNat_of_valid h.notSurrogate h.inRange
    have hform := form_utf8EncodeChar (Char.ofNat value)
    refine ⟨Char.ofNat value, hvalue, ?_⟩
    rw [hvalue] at hform
    have hshort : (String.utf8EncodeChar (Char.ofNat value)).length ≤ sequence.length :=
      length_utf8EncodeChar_le (hvalue.symm ▸ h.form.fits)
    exact hform.unique h.form rfl (Nat.le_antisymm hshort (h.shortest _ hform))
  · rintro ⟨c, rfl, rfl⟩
    have hvalid := toNat_valid c
    exact ⟨form_utf8EncodeChar c, fun other hother => length_utf8EncodeChar_le hother.fits, by
      omega, by omega⟩

theorem wellFormed_iff : WellFormed bytes ↔ ∃ text, encode text = bytes := by
  constructor
  · rintro ⟨sequences, rfl, hall⟩
    induction sequences with
    | nil => exact ⟨[], rfl⟩
    | cons sequence sequences ih =>
      obtain ⟨⟨value, hfirst⟩, hrest⟩ := List.forall_mem_cons.1 hall
      obtain ⟨c, -, hsequence⟩ := permitted_iff.1 hfirst
      obtain ⟨text, htext⟩ := ih hrest
      exact ⟨c :: text, by rw [encode_cons, hsequence, htext, List.flatten_cons]⟩
  · rintro ⟨text, rfl⟩
    refine ⟨text.map String.utf8EncodeChar, ?_, ?_⟩
    · rw [encode, List.flatMap_def]
    · intro sequence hmem
      obtain ⟨c, -, rfl⟩ := List.mem_map.1 hmem
      exact ⟨c.toNat, permitted_iff.2 ⟨c, rfl, rfl⟩⟩

/-! ## Pieces -/

/-- The first bytes of longer sequences. -/
theorem lead?_cases : ∀ n < 256, ∀ lead ∈ lead? (UInt8.ofNat n),
    (∃ a < 0x20, 2 ≤ a ∧ n = a + 0xC0 ∧ lead = ⟨1, 0x80, 0xBF, a⟩) ∨
    (∃ a < 0x10, n = a + 0xE0 ∧ lead = ⟨2, if a = 0 then 0xA0 else 0x80,
      if a = 13 then 0x9F else 0xBF, a⟩) ∨
    ∃ a < 5, n = a + 0xF0 ∧ lead = ⟨3, if a = 0 then 0x90 else 0x80,
      if a = 4 then 0x8F else 0xBF, a⟩ := by
  decide +kernel

/-- The next byte of a character is within the bounds. -/
theorem follow_eq_char (hlow : 0x80 ≤ low.toNat)
    (h : follow (following + 1) low high seen bits rest = .char c size) :
    ∃ a later, rest = tail a :: later ∧ low.toNat ≤ a + 0x80 ∧ a + 0x80 ≤ high.toNat ∧
      follow following 0x80 0xBF (seen + 1) (bits * 64 + a) later = .char c size := by
  cases rest with
  | nil => cases h
  | cons byte later =>
    rw [follow] at h
    split at h
    · next hwithin =>
      rw [UInt8.le_iff_toNat_le, UInt8.le_iff_toNat_le] at hwithin
      have hback : byte.toNat - 0x80 + 0x80 = byte.toNat :=
        Nat.sub_add_cancel (Nat.le_trans hlow hwithin.1)
      refine ⟨byte.toNat - 0x80, later, ?_, by omega, by omega, h⟩
      rw [tail, hback, UInt8.ofNat_toNat]
    · cases h

theorem follow_tail_eq_char (h : follow (following + 1) 0x80 0xBF seen bits rest = .char c size) :
    ∃ a later, rest = tail a :: later ∧ a < 0x40 ∧
      follow following 0x80 0xBF (seen + 1) (bits * 64 + a) later = .char c size := by
  obtain ⟨a, later, hrest, -, hhigh, hfollow⟩ := follow_eq_char (by decide) h
  exact ⟨a, later, hrest, Nat.lt_of_add_lt_add_right (Nat.lt_succ_of_le hhigh), hfollow⟩

/-- A number that does not fit into less is in its shortest form. -/
theorem Form.permitted (h : Form sequence value)
    (hfits : ∀ length < sequence.length, ¬ Fits value length)
    (hsurrogate : ¬ (0xD800 ≤ value ∧ value ≤ 0xDFFF)) (hrange : value ≤ 0x10FFFF) :
    Permitted sequence value :=
  ⟨h, fun other hother => Nat.not_lt.1 fun hlt => hfits other.length hlt hother.fits,
    hsurrogate, hrange⟩

section

variable {a b d e : Nat}

theorem permitted_one (ha : a < 0x80) : Permitted [UInt8.ofNat a] a := by
  refine (Form.one ha).permitted (fun length hlength hfits => ?_) (by omega) (by omega)
  exact Nat.not_lt_of_le hfits.pos hlength

theorem permitted_two (hlow : 2 ≤ a) (ha : a < 0x20) (hb : b < 0x40) :
    Permitted [UInt8.ofNat (a + 0xC0), tail b] (a * 64 + b) := by
  refine (Form.two ha hb).permitted (fun length hlength hfits => ?_) (by omega) (by omega)
  have hone := hfits.one (Nat.le_of_lt_succ hlength)
  omega

theorem permitted_three
    (ha : a < 0x10) (hlow : (if a = 0 then 0xA0 else 0x80 : UInt8).toNat ≤ b + 0x80)
    (hhigh : b + 0x80 ≤ (if a = 13 then 0x9F else 0xBF : UInt8).toNat) (hd : d < 0x40) :
    Permitted [UInt8.ofNat (a + 0xE0), tail b, tail d] ((a * 64 + b) * 64 + d) := by
  -- The bounds keep the number from being overlong, and from being a surrogate.
  have hsecond : (a = 0 → 0x20 ≤ b) ∧ (a = 13 → b < 0x20) ∧ b < 0x40 := by
    split at hlow <;> split at hhigh <;> simp only [UInt8.reduceToNat] at hlow hhigh <;> omega
  obtain ⟨hlong, hsurrogate, hb⟩ := hsecond
  refine (Form.three ha hb hd).permitted (fun length hlength hfits => ?_) (by omega) (by omega)
  have htwo := hfits.two (Nat.le_of_lt_succ hlength)
  omega

theorem permitted_four (ha : a < 5) (hlow : (if a = 0 then 0x90 else 0x80 : UInt8).toNat ≤ b + 0x80)
    (hhigh : b + 0x80 ≤ (if a = 4 then 0x8F else 0xBF : UInt8).toNat) (hd : d < 0x40)
    (he : e < 0x40) :
    Permitted [UInt8.ofNat (a + 0xF0), tail b, tail d,
      tail e] (((a * 64 + b) * 64 + d) * 64 + e) := by
  -- The bounds keep the number from being overlong, and from going out of range.
  have hsecond : (a = 0 → 0x10 ≤ b) ∧ (a = 4 → b < 0x10) ∧ b < 0x40 := by
    split at hlow <;> split at hhigh <;> simp only [UInt8.reduceToNat] at hlow hhigh <;> omega
  obtain ⟨hlong, hrange, hb⟩ := hsecond
  refine (Form.four (by omega) hb hd he).permitted (fun length hlength hfits => ?_)
    (by omega) (by omega)
  have hthree := hfits.three (Nat.le_of_lt_succ hlength)
  omega

end

/-- A piece is permitted if it is a character. -/
theorem exists_permitted (h : piece byte rest = .char c size) :
    ∃ more later value, rest = more ++ later ∧
    size = more.length + 1 ∧ c = Char.ofNat value ∧ Permitted (byte :: more) value := by
  by_cases hshort : byte < 0x80
  · rw [piece, if_pos hshort] at h
    obtain ⟨rfl, rfl⟩ := Piece.char.inj h
    have hone := permitted_one (UInt8.lt_iff_toNat_lt.1 hshort)
    rw [UInt8.ofNat_toNat] at hone
    exact ⟨[], rest, byte.toNat, rfl, rfl, rfl, hone⟩
  rw [piece, if_neg hshort] at h
  split at h
  · cases h
  next lead hlead =>
  rw [← UInt8.ofNat_toNat (x := byte)] at hlead
  have hcases := lead?_cases byte.toNat byte.toNat_lt lead hlead
  rcases hcases with ⟨a, ha, hlow, hbyte, rfl⟩ | ⟨a, ha, hbyte, rfl⟩ | ⟨a, ha, hbyte, rfl⟩
  · obtain rfl : byte = UInt8.ofNat (a + 0xC0) := by rw [← hbyte, UInt8.ofNat_toNat]
    obtain ⟨b, later, rfl, hb, h⟩ := follow_tail_eq_char h
    obtain ⟨rfl, rfl⟩ := Piece.char.inj h
    exact ⟨[tail b], later, _, rfl, rfl, rfl, permitted_two hlow ha hb⟩
  · obtain rfl : byte = UInt8.ofNat (a + 0xE0) := by rw [← hbyte, UInt8.ofNat_toNat]
    obtain ⟨b, later, rfl, hlow, hhigh, h⟩ := follow_eq_char (by dsimp only; split <;> decide) h
    obtain ⟨d, later, rfl, hd, h⟩ := follow_tail_eq_char h
    obtain ⟨rfl, rfl⟩ := Piece.char.inj h
    exact ⟨[tail b, tail d], later, _, rfl, rfl, rfl, permitted_three ha hlow hhigh hd⟩
  · obtain rfl : byte = UInt8.ofNat (a + 0xF0) := by rw [← hbyte, UInt8.ofNat_toNat]
    obtain ⟨b, later, rfl, hlow, hhigh, h⟩ := follow_eq_char (by dsimp only; split <;> decide) h
    obtain ⟨d, later, rfl, hd, h⟩ := follow_tail_eq_char h
    obtain ⟨e, later, rfl, he, h⟩ := follow_tail_eq_char h
    obtain ⟨rfl, rfl⟩ := Piece.char.inj h
    exact ⟨[tail b, tail d, tail e], later, _, rfl, rfl, rfl, permitted_four ha hlow hhigh hd he⟩

/-- A piece that is a character is the bytes of that character. -/
theorem piece_eq_char (h : piece byte rest = .char c size) :
    ∃ more later, rest = more ++ later ∧ size = more.length + 1 ∧
      String.utf8EncodeChar c = byte :: more := by
  obtain ⟨more, later, value, hrest, hsize, rfl, hsequence⟩ := exists_permitted h
  obtain ⟨c, rfl, hbytes⟩ := permitted_iff.1 hsequence
  exact ⟨more, later, hrest, hsize, by rw [Char.ofNat_toNat, hbytes]⟩

/-! ## Texts -/

theorem encode_of_collect (h : collect index (scan bytes) = .ok text) : encode text = bytes := by
  induction hlength : bytes.length using Nat.strongRecOn generalizing bytes index text with
  | ind length ih =>
    cases bytes with
    | nil =>
      obtain rfl := Except.ok.inj h
      rfl
    | cons byte rest =>
      rw [scan, scanFrom] at h
      cases hpiece : piece byte rest with
      | malformed size => simp only [hpiece, collect, reduceCtorEq] at h
      | truncated size => simp only [hpiece, collect, reduceCtorEq] at h
      | char c size =>
        obtain ⟨more, later, rfl, rfl, hbytes⟩ := piece_eq_char hpiece
        simp only [hpiece, collect, Piece.size, Nat.add_sub_cancel, scanFrom_skip] at h
        obtain ⟨others, hothers, rfl⟩ := map_eq_ok_iff.1 h
        have hlater : later.length < length := by
          rw [← hlength, List.length_cons, List.length_append]
          omega
        rw [encode_cons, hbytes, ih later.length hlater hothers rfl, List.cons_append]

/-- Bytes are read as the text that has them, and as no other. -/
theorem decode_eq_ok_iff : decode bytes = .ok text ↔ encode text = bytes :=
  ⟨encode_of_collect, fun h => h ▸ decode_encode text⟩

theorem collect_of_symbols (h : symbols bytes = text.map some) :
    collect index (scan bytes) = .ok text := by
  unfold symbols at h
  generalize scan bytes = pieces at h
  induction pieces generalizing index text with
  | nil =>
      obtain rfl : text = [] := by simpa using h.symm
      rfl
  | cons piece pieces ih =>
      cases text with
      | nil => cases h
      | cons c text =>
          obtain ⟨hsymbol, hrest⟩ := List.cons.inj h
          cases piece with
          | char other size =>
              obtain rfl := Option.some.inj hsymbol
              rw [collect, ih hrest]
              rfl
          | malformed | truncated => cases hsymbol

/-- No byte string but that of a text has its characters, and no hole among them. -/
theorem symbols_eq_iff : symbols bytes = text.map some ↔ encode text = bytes :=
  ⟨fun h => decode_eq_ok_iff.1 (collect_of_symbols h), fun h => h ▸ symbols_encode text⟩

theorem exists_decode_iff : (∃ text, decode bytes = .ok text) ↔ WellFormed bytes := by
  simp only [decode_eq_ok_iff, wellFormed_iff]

end ShardNet.Text.Utf8
