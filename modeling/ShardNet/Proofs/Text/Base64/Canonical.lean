-- SUMMARY: The strict reader of base64 takes the texts that are written, and nothing else.
import ShardNet.Proofs.Gather
import ShardNet.Proofs.Text.Base64

/-!
# The canonical form of base64

What the strict reader takes is what the writer produces for the bytes that it gives back: a symbol
stands for one value, a group of four values for one group of bytes, and the padding of the last
group and its left-over bits are settled by the number of its bytes.
-/

namespace ShardNet.Text.Base64

variable {index padded total v w x y : Nat} {byte : UInt8} {group input bytes : Bytes}
  {symbols : List (UInt8 × Nat)}

/-! ### Symbols -/

theorem symbolByte_of_value? : ∀ n < 256, ∀ value ∈ value? (UInt8.ofNat n),
    value < 64 ∧ UInt8.ofNat n = symbolByte value := by
  decide +kernel

theorem valueAt_eq_ok_iff : valueAt index byte = .ok v ↔ v < 64 ∧ byte = symbolByte v := by
  constructor
  · intro hvalue
    have hfound : value? byte = some v := by
      unfold valueAt at hvalue
      split at hvalue
      · next found => exact found.trans (congrArg some (Except.ok.inj hvalue))
      · cases hvalue
    rw [← UInt8.ofNat_toNat (x := byte)] at hfound ⊢
    exact symbolByte_of_value? byte.toNat byte.toNat_lt v hfound
  · rintro ⟨hlt, rfl⟩
    exact valueAt_symbolByte hlt index

/-! ### Groups -/

section

variable (hv : v < 64) (hw : w < 64) (hx : x < 64) (hy : y < 64)

include hv hw in
theorem toNat_ofNat_first : (UInt8.ofNat (v * 4 + w / 16)).toNat = v * 4 + w / 16 :=
  Utf8.toNat_ofNat (by omega)

include hx in
theorem toNat_ofNat_second : (UInt8.ofNat (w * 16 + x / 4)).toNat = w % 16 * 16 + x / 4 := by
  rw [UInt8.toNat_ofNat']
  omega

include hy in
theorem toNat_ofNat_third : (UInt8.ofNat (x * 64 + y)).toNat = x % 4 * 64 + y := by
  rw [UInt8.toNat_ofNat']
  omega

include hv hw in
/-- One byte is written as the two symbols it is read from, if no bits are left over. -/
theorem encode_ofNat_one (hbits : w % 16 = 0) :
    Utf8.encode (encode [UInt8.ofNat (v * 4 + w / 16)]) = [symbolByte v, symbolByte w,
      pad, pad] := by
  have hfirst : (v * 4 + w / 16) / 4 = v := by omega
  have hsecond : (v * 4 + w / 16) % 4 * 16 = w := by omega
  rw [encode_one, toNat_ofNat_first hv hw, hfirst, hsecond]

include hv hw hx in
theorem encode_ofNat_two (hbits : x % 4 = 0) :
    Utf8.encode (encode [UInt8.ofNat (v * 4 + w / 16), UInt8.ofNat (w * 16 + x / 4)]) =
      [symbolByte v, symbolByte w, symbolByte x, pad] := by
  have hfirst : (v * 4 + w / 16) / 4 = v := by omega
  have hsecond : (v * 4 + w / 16) % 4 * 16 + (w % 16 * 16 + x / 4) / 16 = w := by omega
  have hthird : (w % 16 * 16 + x / 4) % 16 * 4 = x := by omega
  rw [encode_two, toNat_ofNat_first hv hw, toNat_ofNat_second hx, hfirst, hsecond, hthird]

include hv hw hx hy in
theorem encode_ofNat_group (rest : Bytes) :
    Utf8.encode (encode (UInt8.ofNat (v * 4 + w / 16) :: UInt8.ofNat (w * 16 + x / 4) ::
      UInt8.ofNat (x * 64 + y) :: rest)) =
      symbolByte v :: symbolByte w :: symbolByte x :: symbolByte y ::
        Utf8.encode (encode rest) := by
  have hfirst : (v * 4 + w / 16) / 4 = v := by omega
  have hsecond : (v * 4 + w / 16) % 4 * 16 + (w % 16 * 16 + x / 4) / 16 = w := by omega
  have hthird : (w % 16 * 16 + x / 4) % 16 * 4 + (x % 4 * 64 + y) / 64 = x := by omega
  have hfourth : (x % 4 * 64 + y) % 64 = y := by omega
  rw [encode_group, toNat_ofNat_first hv hw, toNat_ofNat_second hx, toNat_ofNat_third hy, hfirst,
    hsecond, hthird, hfourth]

end

/-! ### The last group -/

/-- A last group is symbols with padding behind them. -/
theorem lastGroup_eq_ok
    {seen : Nat} (h : lastGroup index seen padded group = .ok (symbols, total)) :
    ∃ values more, symbols = values.map (fun value => (symbolByte value, value)) ∧
      (∀ value ∈ values, value < 64) ∧
      total = padded + more ∧ group = values.map symbolByte ++ List.replicate more pad ∧
      (0 < padded → values = []) := by
  induction group generalizing seen padded symbols total with
  | nil =>
      obtain ⟨rfl, rfl⟩ := Prod.mk.inj (Except.ok.inj h)
      exact ⟨[], 0, rfl, nofun, rfl, rfl, fun _ => rfl⟩
  | cons byte rest ih =>
      rw [lastGroup] at h
      split at h
      · next hpad =>
        split at h
        · cases h
        · -- Behind a padding symbol no symbol is read any more.
          obtain ⟨values, more, rfl, hlt, rfl, rfl, hnone⟩ := ih h
          obtain rfl := hnone (Nat.succ_pos padded)
          exact ⟨[], more + 1, rfl, nofun, by omega, congrArg (· :: _) hpad, fun _ => rfl⟩
      · split at h
        · cases h
        · next hfirst =>
          obtain ⟨value, hvalue, h⟩ := bind_eq_ok_iff.1 h
          obtain ⟨⟨others, count⟩, hrest, h⟩ := bind_eq_ok_iff.1 h
          obtain ⟨rfl, rfl⟩ := Prod.mk.inj (Except.ok.inj h)
          obtain ⟨values, more, rfl, hlt, rfl, rfl, -⟩ := ih hrest
          obtain ⟨hbound, rfl⟩ := valueAt_eq_ok_iff.1 hvalue
          exact ⟨value :: values, more, rfl, List.forall_mem_cons.2 ⟨hbound, hlt⟩, rfl, rfl,
            fun hpadded => absurd hpadded hfirst⟩

/-- Two symbols are read if padding fills the group up and no bits are left over. -/
theorem decodeLast_two_eq_ok_iff {first second : UInt8}
    (hgroup : lastGroup index 0 0 group = .ok ([(first, v), (second, w)], padded)) :
    decodeLast .required index group = .ok bytes ↔
      (2 + padded) % 4 = 0 ∧ w % 16 = 0 ∧ bytes = [UInt8.ofNat (v * 4 + w / 16)] := by
  by_cases hpadded : (2 + padded) % 4 = 0 <;> by_cases hbits : w % 16 = 0 <;>
    simp [decodeLast, hgroup, hpadded, hbits, bind, Except.bind, pure, Except.pure, throw, throwThe,
      MonadExceptOf.throw, eq_comm, -UInt8.ofNat_add]

theorem decodeLast_three_eq_ok_iff {first second third : UInt8}
    (hgroup : lastGroup index 0 0 group = .ok ([(first, v), (second, w), (third, x)], padded)) :
    decodeLast .required index group = .ok bytes ↔ (3 + padded) % 4 = 0 ∧ x % 4 = 0 ∧
      bytes = [UInt8.ofNat (v * 4 + w / 16), UInt8.ofNat (w * 16 + x / 4)] := by
  by_cases hpadded : (3 + padded) % 4 = 0 <;> by_cases hbits : x % 4 = 0 <;>
    simp [decodeLast, hgroup, hpadded, hbits, bind, Except.bind, pure, Except.pure, throw, throwThe,
      MonadExceptOf.throw, eq_comm, -UInt8.ofNat_add]

/-- Too few symbols are not read, whatever padding is behind them. -/
theorem decodeLast_ne_ok (hgroup : lastGroup index 0 0 group = .ok (symbols, padded))
    (hfew : symbols.length < 2) :
    decodeLast .required index group ≠ .ok bytes := by
  simp [decodeLast, hgroup, hfew, bind, Except.bind, throw, throwThe, MonadExceptOf.throw]

theorem encode_of_decodeLast (hsize : group.length ≤ 4)
    (h : decodeLast .required index group = .ok bytes) :
    group = Utf8.encode (encode bytes) := by
  obtain ⟨⟨symbols, total⟩, hgroup, -⟩ := bind_eq_ok_iff.1 h
  obtain ⟨values, more, rfl, hlt, rfl, rfl, -⟩ := lastGroup_eq_ok hgroup
  rw [List.length_append, List.length_map, List.length_replicate] at hsize
  match values with
  | [] => exact absurd h (decodeLast_ne_ok hgroup (by decide))
  | [v] => exact absurd h (decodeLast_ne_ok hgroup (Nat.lt_succ_self 1))
  | [v, w] =>
      obtain ⟨hpadded, hbits, rfl⟩ := (decodeLast_two_eq_ok_iff hgroup).1 h
      simp only [List.length_cons, List.length_nil] at hsize
      obtain rfl : more = 2 := by omega
      rw [encode_ofNat_one (hlt v (by simp)) (hlt w (by simp)) hbits]
      rfl
  | [v, w, x] =>
      obtain ⟨hpadded, hbits, rfl⟩ := (decodeLast_three_eq_ok_iff hgroup).1 h
      simp only [List.length_cons, List.length_nil] at hsize
      obtain rfl : more = 1 := by omega
      rw [encode_ofNat_two (hlt v (by simp)) (hlt w (by simp)) (hlt x (by simp)) hbits]
      rfl
  | [v, w, x, y] =>
      simp only [List.length_cons, List.length_nil] at hsize
      obtain rfl : more = 0 := by omega
      obtain rfl := Except.ok.inj ((decodeLast_four hgroup).symm.trans h)
      rw [encode_ofNat_group (hlt v (by simp)) (hlt w (by simp)) (hlt x (by simp))
        (hlt y (by simp))]
      rfl
  | _ :: _ :: _ :: _ :: _ :: _ =>
      simp only [List.length_cons] at hsize
      omega

/-! ### Texts -/

theorem encode_of_decodeGroups (h : decodeGroups .required index input = .ok bytes) :
    input = Utf8.encode (encode bytes) := by
  fun_induction decodeGroups Padding.required index input generalizing bytes with
  | case1 index a b c d next rest ih =>
      obtain ⟨v, hfirst, h⟩ := bind_eq_ok_iff.1 h
      obtain ⟨w, hsecond, h⟩ := bind_eq_ok_iff.1 h
      obtain ⟨x, hthird, h⟩ := bind_eq_ok_iff.1 h
      obtain ⟨y, hfourth, h⟩ := bind_eq_ok_iff.1 h
      obtain ⟨others, hothers, h⟩ := bind_eq_ok_iff.1 h
      obtain rfl := Except.ok.inj h
      obtain ⟨hv, rfl⟩ := valueAt_eq_ok_iff.1 hfirst
      obtain ⟨hw, rfl⟩ := valueAt_eq_ok_iff.1 hsecond
      obtain ⟨hx, rfl⟩ := valueAt_eq_ok_iff.1 hthird
      obtain ⟨hy, rfl⟩ := valueAt_eq_ok_iff.1 hfourth
      rw [encode_ofNat_group hv hw hx hy, ih hothers]
  | case2 =>
      obtain rfl := Except.ok.inj h
      rfl
  | case3 index group hlong =>
      refine encode_of_decodeLast ?_ h
      match group with
      | [] | [_] | [_, _] | [_, _, _] | [_, _, _, _] => simp
      | a :: b :: c :: d :: next :: rest => exact (hlong a b c d next rest rfl).elim

/-- The strict reader takes the text of a byte string for these bytes, and takes no other text. -/
theorem decode_eq_ok_iff {text : List Char} :
    decode .required text = .ok bytes ↔ text = encode bytes := by
  constructor
  · intro h
    apply Utf8.encode_injective
    unfold decode at h
    dsimp only at h
    split at h
    · split at h
      · cases h
      · exact encode_of_decodeGroups h
    · next hlast =>
      obtain rfl := Except.ok.inj h
      exact List.getLast?_eq_none_iff.1 hlast
  · rintro rfl
    exact decode_encode bytes

theorem decode_toList_eq_ok_iff {input : String} :
    decode .required input.toList = .ok bytes ↔ input = text bytes := by
  rw [decode_eq_ok_iff, text, ← String.toList_inj, String.toList_ofList]

end ShardNet.Text.Base64
