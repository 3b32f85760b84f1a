-- SUMMARY: Base64 reads back what it writes, whichever padding is asked for.
import ShardNet.Proofs.Text.Utf8
import ShardNet.Text.Base64

/-!
# The round trip of base64

Both readers of base64 give back the byte string that was written.
-/

namespace ShardNet.Text.Base64

/-- The byte of a symbol. -/
def symbolByte (value : Nat) : UInt8 := UInt8.ofNat (symbol value).toNat

theorem utf8EncodeChar_symbol :
    ∀ value < 64, String.utf8EncodeChar (symbol value) = [symbolByte value] := by
  decide

theorem value?_symbolByte : ∀ value < 64, value? (symbolByte value) = some value := by decide

theorem symbolByte_ne_pad : ∀ value < 64, symbolByte value ≠ pad := by decide

theorem encode_symbol {value : Nat} (hvalue : value < 64) (rest : List Char) :
    Utf8.encode (symbol value :: rest) = symbolByte value :: Utf8.encode rest := by
  rw [Utf8.encode_cons, utf8EncodeChar_symbol value hvalue]
  rfl

theorem encode_pad (rest : List Char) : Utf8.encode ('=' :: rest) = pad :: Utf8.encode rest :=
  Utf8.encode_cons ..

theorem valueAt_symbolByte {value : Nat} (hvalue : value < 64) (index : Nat) :
    valueAt index (symbolByte value) = .ok value := by
  rw [valueAt, value?_symbolByte value hvalue]

/-! ### Groups -/

variable (a b c : UInt8)

theorem first_lt : a.toNat / 4 < 64 := by
  have ha := a.toNat_lt
  omega

theorem second_lt : a.toNat % 4 * 16 + b.toNat / 16 < 64 := by
  have hb := b.toNat_lt
  omega

theorem third_lt : b.toNat % 16 * 4 + c.toNat / 64 < 64 := by
  have hc := c.toNat_lt
  omega

theorem fourth_lt : c.toNat % 64 < 64 := by omega

/-- The bytes of a group, from the values of its symbols. -/
theorem ofNat_first :
    UInt8.ofNat (a.toNat / 4 * 4 + (a.toNat % 4 * 16 + b.toNat / 16) / 16) = a := by
  have hb := b.toNat_lt
  apply UInt8.toNat_inj.1
  rw [UInt8.toNat_ofNat']
  have ha := a.toNat_lt
  omega

theorem ofNat_second : UInt8.ofNat ((a.toNat % 4 * 16 + b.toNat / 16) * 16 +
    (b.toNat % 16 * 4 + c.toNat / 64) / 4) = b := by
  have hb := b.toNat_lt
  have hc := c.toNat_lt
  apply UInt8.toNat_inj.1
  rw [UInt8.toNat_ofNat']
  omega

theorem ofNat_third : UInt8.ofNat ((b.toNat % 16 * 4 + c.toNat / 64) * 64 + c.toNat % 64) = c := by
  have hc := c.toNat_lt
  apply UInt8.toNat_inj.1
  rw [UInt8.toNat_ofNat']
  omega

variable {a b c} {padding : Padding} {index : Nat} {group : Bytes} {padded v w x y : Nat}
  {first second third fourth : UInt8}

/-! ### The last group -/

theorem lastGroup_symbol {seen : Nat} (hvalue : v < 64) (rest : Bytes) :
    lastGroup index seen 0 (symbolByte v :: rest) =
      (lastGroup index (seen + 1) 0 rest).map fun (symbols, padded) =>
        ((symbolByte v, v) :: symbols, padded) := by
  rw [lastGroup, if_neg (symbolByte_ne_pad v hvalue), if_neg (Nat.lt_irrefl 0),
    valueAt_symbolByte hvalue]
  rfl

/-- Two symbols are a byte, if no bits are left over. -/
theorem decodeLast_two
    (hgroup : lastGroup index 0 0 group = .ok ([(first, v), (second, w)], padded))
    (hpadded : (2 + padded) % 4 = 0) (hbits : w % 16 = 0) :
    decodeLast padding index group = .ok [UInt8.ofNat (v * 4 + w / 16)] := by
  simp [decodeLast, hgroup, hpadded, hbits, bind, Except.bind, pure, Except.pure, -UInt8.ofNat_add]

theorem decodeLast_three
    (hgroup : lastGroup index 0 0 group = .ok ([(first, v), (second, w), (third, x)], padded))
    (hpadded : (3 + padded) % 4 = 0) (hbits : x % 4 = 0) :
    decodeLast padding index group =
      .ok [UInt8.ofNat (v * 4 + w / 16), UInt8.ofNat (w * 16 + x / 4)] := by
  simp [decodeLast, hgroup, hpadded, hbits, bind, Except.bind, pure, Except.pure, -UInt8.ofNat_add]

theorem decodeLast_four
    (hgroup : lastGroup index 0 0 group =
      .ok ([(first, v), (second, w), (third, x), (fourth, y)], 0)) :
    decodeLast padding index group =
      .ok [UInt8.ofNat (v * 4 + w / 16), UInt8.ofNat (w * 16 + x / 4),
        UInt8.ofNat (x * 64 + y)] := by
  simp [decodeLast, hgroup, bind, Except.bind, pure, Except.pure, -UInt8.ofNat_add]

theorem encode_one (a : UInt8) :
    Utf8.encode (encode [a]) =
      [symbolByte (a.toNat / 4), symbolByte (a.toNat % 4 * 16), pad, pad] := by
  have hsecond : a.toNat % 4 * 16 < 64 := by omega
  rw [encode, encode_symbol (first_lt a), encode_symbol hsecond, encode_pad, encode_pad]
  rfl

theorem encode_two (a b : UInt8) :
    Utf8.encode (encode [a, b]) =
      [symbolByte (a.toNat / 4), symbolByte (a.toNat % 4 * 16 + b.toNat / 16),
        symbolByte (b.toNat % 16 * 4), pad] := by
  have hthird : b.toNat % 16 * 4 < 64 := by omega
  rw [encode, encode_symbol (first_lt a), encode_symbol (second_lt a b), encode_symbol hthird,
    encode_pad]
  rfl

/-- The bytes of a whole group, and of what follows it. -/
theorem encode_group (a b c : UInt8) (rest : Bytes) :
    Utf8.encode (encode (a :: b :: c :: rest)) =
      symbolByte (a.toNat / 4) :: symbolByte (a.toNat % 4 * 16 + b.toNat / 16) ::
        symbolByte (b.toNat % 16 * 4 + c.toNat / 64) :: symbolByte (c.toNat % 64) ::
          Utf8.encode (encode rest) := by
  rw [encode, encode_symbol (first_lt a), encode_symbol (second_lt a b),
    encode_symbol (third_lt b c), encode_symbol (fourth_lt c)]

theorem decodeLast_encode_one : decodeLast padding index (Utf8.encode (encode [a])) = .ok [a] := by
  have hsecond : a.toNat % 4 * 16 < 64 := by omega
  have hbyte : UInt8.ofNat (a.toNat / 4 * 4 + a.toNat % 4 * 16 / 16) = a := ofNat_first a 0
  have hgroup : lastGroup index 0 0 (Utf8.encode (encode [a])) =
      .ok ([(symbolByte (a.toNat / 4), a.toNat / 4),
        (symbolByte (a.toNat % 4 * 16), a.toNat % 4 * 16)], 2) := by
    rw [encode_one, lastGroup_symbol (first_lt a), lastGroup_symbol hsecond]
    rfl
  rw [decodeLast_two hgroup (by omega) (by omega), hbyte]

theorem decodeLast_encode_two :
    decodeLast padding index (Utf8.encode (encode [a, b])) = .ok [a, b] := by
  have hthird : b.toNat % 16 * 4 < 64 := by omega
  have hbyte : UInt8.ofNat ((a.toNat % 4 * 16 + b.toNat / 16) * 16 + b.toNat % 16 * 4 / 4) = b :=
    ofNat_second a b 0
  have hgroup : lastGroup index 0 0 (Utf8.encode (encode [a, b])) =
      .ok ([(symbolByte (a.toNat / 4), a.toNat / 4),
        (symbolByte (a.toNat % 4 * 16 + b.toNat / 16), a.toNat % 4 * 16 + b.toNat / 16),
        (symbolByte (b.toNat % 16 * 4), b.toNat % 16 * 4)], 1) := by
    rw [encode_two, lastGroup_symbol (first_lt a), lastGroup_symbol (second_lt a b),
      lastGroup_symbol hthird]
    rfl
  rw [decodeLast_three hgroup (by omega) (by omega), ofNat_first, hbyte]

theorem decodeLast_encode_three :
    decodeLast padding index (Utf8.encode (encode [a, b, c])) = .ok [a, b, c] := by
  have hgroup : lastGroup index 0 0 (Utf8.encode (encode [a, b, c])) =
      .ok ([(symbolByte (a.toNat / 4), a.toNat / 4),
        (symbolByte (a.toNat % 4 * 16 + b.toNat / 16), a.toNat % 4 * 16 + b.toNat / 16),
        (symbolByte (b.toNat % 16 * 4 + c.toNat / 64), b.toNat % 16 * 4 + c.toNat / 64),
        (symbolByte (c.toNat % 64), c.toNat % 64)], 0) := by
    rw [encode_group, lastGroup_symbol (first_lt a), lastGroup_symbol (second_lt a b),
      lastGroup_symbol (third_lt b c), lastGroup_symbol (fourth_lt c)]
    rfl
  rw [decodeLast_four hgroup, ofNat_first, ofNat_second, ofNat_third]

/-! ### Byte strings -/

theorem encode_eq_cons (a : UInt8) (rest : Bytes) :
    ∃ tail, Utf8.encode (encode (a :: rest)) = symbolByte (a.toNat / 4) :: tail := by
  rcases rest with - | ⟨b, - | ⟨c, rest⟩⟩ <;> exact ⟨_, encode_symbol (first_lt a) _⟩

theorem decodeGroups_encode (bytes : Bytes) (index : Nat) :
    decodeGroups padding index (Utf8.encode (encode bytes)) = .ok bytes := by
  induction bytes using encode.induct generalizing index with
  | case1 => rfl
  | case2 a =>
      have hlast : decodeLast padding index (Utf8.encode (encode [a])) = .ok [a] :=
        decodeLast_encode_one
      rw [encode_one] at hlast ⊢
      exact hlast
  | case3 a b =>
      have hlast : decodeLast padding index (Utf8.encode (encode [a, b])) = .ok [a, b] :=
        decodeLast_encode_two
      rw [encode_two] at hlast ⊢
      exact hlast
  | case4 a b c rest ih =>
      cases rest with
      | nil =>
          have hlast : decodeLast padding index (Utf8.encode (encode [a, b, c])) = .ok [a, b, c] :=
            decodeLast_encode_three
          rw [encode_group] at hlast ⊢
          exact hlast
      | cons d rest =>
          have hrest := ih (index + 4)
          obtain ⟨tail, htail⟩ := encode_eq_cons d rest
          rw [htail] at hrest
          rw [encode_group, htail, decodeGroups, valueAt_symbolByte (first_lt a),
            valueAt_symbolByte (second_lt a b), valueAt_symbolByte (third_lt b c),
            valueAt_symbolByte (fourth_lt c), hrest]
          show Except.ok _ = Except.ok _
          rw [ofNat_first, ofNat_second, ofNat_third]

theorem length_encode_mod_four (bytes : Bytes) : (Utf8.encode (encode bytes)).length % 4 = 0 := by
  induction bytes using encode.induct with
  | case1 => rfl
  | case2 a => simp [encode_one]
  | case3 a b => simp [encode_two]
  | case4 a b c rest ih =>
      rw [encode_group]
      simp only [List.length_cons]
      omega

/-- Every byte string is read back from its text, by the strict reader and by the lenient one. -/
theorem decode_encode (bytes : Bytes) : decode padding (encode bytes) = .ok bytes := by
  have hlength := length_encode_mod_four bytes
  have hgroups : decodeGroups padding 0 (Utf8.encode (encode bytes)) = .ok bytes :=
    decodeGroups_encode bytes 0
  simp only [decode]
  generalize Utf8.encode (encode bytes) = input at hlength hgroups ⊢
  have hwhole : input.length % 4 ≠ 1 := by omega
  cases hlast : input.getLast? with
  | none =>
      obtain rfl : input = [] := List.getLast?_eq_none_iff.1 hlast
      exact hgroups
  | some last => simp [hwhole, hgroups]

end ShardNet.Text.Base64
