-- SUMMARY: Which shard an address belongs to, told by the integer of the whole address.
import Mathlib.Data.List.Induction
import Mathlib.Order.Bounds.Basic
import Mathlib.Tactic.Conv
import ShardNet.Proofs.Bytes
import ShardNet.Shard.Coordinator

/-!
# The shard of the integer of an address

A coordinator looks at a few bytes at the end of an address, puts them into a word, and takes bits
of the word. `shardOf_spec` says what comes of it in terms of the integer `V` of the whole address,
however long or short the address is: with the least `k` such that `2 ^ k` covers the shards, it is
the rest of `V` modulo `2 ^ k`, or modulo `2 ^ (k - 1)` where that is no shard.

The bytes that are left out stand for a multiple of a power of 256, which `2 ^ k` divides; the word
has room for the bytes that are left.
-/

namespace ShardNet

namespace Coordinator

/-! ## Words -/

theorem toNat_word {identifier : Bytes} (hlength : identifier.length ≤ 8) :
    (word identifier).toNat = identifier.toNatBE := by
  induction identifier using List.reverseRecOn with
  | nil => rfl
  | append_singleton front byte ih =>
      rw [List.length_append, List.length_singleton] at hlength
      have hfront : (word front).toNat = Bytes.toNatBE front := ih (by omega)
      have hbyte : byte.toNat < 2 ^ 8 := byte.toNat_lt
      have hroom : Bytes.toNatBE front * 2 ^ 8 < 2 ^ 64 := by
        have hlt := Bytes.toNatBE_lt front
        have hpow : 256 ^ front.length ≤ 256 ^ 7 := Nat.pow_le_pow_right (by decide) (by omega)
        omega
      have hword : word (front ++ [byte]) = word front <<< 8 ||| byte.toUInt64 := by simp [word]
      have hshift : (word front <<< 8).toNat = Bytes.toNatBE front * 2 ^ 8 := by
        rw [UInt64.toNat_shiftLeft, hfront, Nat.shiftLeft_eq]
        exact Nat.mod_eq_of_lt hroom
      rw [hword, UInt64.toNat_or, hshift, UInt8.toNat_toUInt64, Bytes.toNatBE_snoc,
        ← Nat.shiftLeft_eq, ← Nat.shiftLeft_add_eq_or_of_lt hbyte, Nat.shiftLeft_eq]

theorem toNat_mask {width : Nat} (hwidth : width < 64) : (mask width).toNat = 2 ^ width - 1 := by
  have hpow : 2 ^ width < 2 ^ 64 := Nat.pow_lt_pow_right (by decide) hwidth
  have hone : ((1 : UInt64) <<< UInt64.ofNat width).toNat = 2 ^ width := by
    rw [UInt64.toNat_shiftLeft, UInt64.toNat_ofNat', Nat.shiftLeft_eq,
      UInt64.toNat_one, Nat.one_mul, Nat.mod_eq_of_lt (by omega : width < 2 ^ 64),
      Nat.mod_eq_of_lt hwidth, Nat.mod_eq_of_lt hpow]
  have hle : (1 : UInt64) ≤ 1 <<< UInt64.ofNat width := by
    rw [UInt64.le_iff_toNat_le, hone]
    exact Nat.one_le_two_pow
  rw [mask, UInt64.toNat_sub_of_le _ _ hle, hone]
  rfl

/-- A mask keeps the rest modulo a power of two. -/
theorem toNat_and_mask (word : UInt64) {width : Nat} (hwidth : width < 64) :
    (word &&& mask width).toNat = word.toNat % 2 ^ width := by
  rw [UInt64.toNat_and, toNat_mask hwidth, Nat.and_two_pow_sub_one_eq_mod]

/-! ## How many bits and bytes tell shards apart -/

variable {shards : UInt32}

theorem width_le_iff {k : Nat} : width shards ≤ k ↔ shards.toNat ≤ 2 ^ k := by
  have hone : shards ≤ 1 ↔ shards.toNat ≤ 1 := UInt32.le_iff_toNat_le
  have hpos : 0 < 2 ^ k := Nat.two_pow_pos k
  unfold width
  split
  · rename_i hle
    have := hone.1 hle
    omega
  · rename_i hle
    have hmore : ¬ shards.toNat ≤ 1 := fun h => hle (hone.2 h)
    rw [Nat.succ_le_iff, Nat.log2_lt (by omega)]
    omega

theorem width_isLeast (shards : UInt32) : IsLeast {k | shards.toNat ≤ 2 ^ k} (width shards) :=
  ⟨width_le_iff.1 (Nat.le_refl _), fun _ hk => width_le_iff.2 hk⟩

theorem width_le_identifierSize (shards : UInt32) : width shards ≤ 8 * identifierSize shards := by
  have hlt : shards.toNat < 2 ^ 32 := shards.toNat_lt
  rw [width_le_iff]
  unfold identifierSize
  split
  · assumption
  split
  · assumption
  split
  · assumption
  · exact Nat.le_of_lt hlt

theorem identifierSize_le (shards : UInt32) : identifierSize shards ≤ 4 := by
  unfold identifierSize
  repeat' split
  all_goals decide

theorem width_lt (shards : UInt32) : width shards < 64 := by
  have hwidth := width_le_identifierSize shards
  have hsize := identifierSize_le shards
  omega

/-! ## The end of an address -/

variable {address : Bytes}

theorem length_identifier (shards : UInt32) (address : Bytes) :
    (identifier shards address).length = min (identifierSize shards) address.length := by
  rw [identifier, List.length_drop]
  omega

theorem toNat_word_identifier :
    (word (identifier shards address)).toNat = (identifier shards address).toNatBE := by
  have hsize := identifierSize_le shards
  refine toNat_word ?_
  rw [length_identifier]
  omega

/-- The bytes in front of an identifier have no part in the bits that tell the shards apart. -/
theorem toNatBE_identifier_mod {k : Nat} (hk : k ≤ 8 * identifierSize shards) :
    (identifier shards address).toNatBE % 2 ^ k = address.toNatBE % 2 ^ k := by
  have hsplit : address.take (address.length - identifierSize shards) ++ identifier shards address =
      address := List.take_append_drop ..
  obtain hshort | hlong := Nat.le_total address.length (identifierSize shards)
  · rw [identifier, Nat.sub_eq_zero_of_le hshort, List.drop_zero]
  · have hdvd : 2 ^ k ∣ 256 ^ (identifier shards address).length := by
      rw [length_identifier, Nat.min_eq_left hlong, show 256 = 2 ^ 8 from rfl, ← Nat.pow_mul]
      exact Nat.pow_dvd_pow 2 hk
    conv_rhs => rw [← hsplit, Bytes.toNatBE_append]
    rw [Nat.add_mod, Nat.mod_eq_zero_of_dvd (Nat.dvd_mul_left_of_dvd hdvd _),
      Nat.zero_add, Nat.mod_mod]

/-! ## Folding -/

/-- The shard that an integer falls to, where `k` bits tell the shards apart. -/
def foldInteger (shards k value : Nat) : Nat :=
  if value % 2 ^ k < shards then value % 2 ^ k else value % 2 ^ (k - 1)

theorem toNat_fold (hshards : shards ≠ 0) (word : UInt64) :
    (fold shards word).toNat = foldInteger shards.toNat (width shards) word.toNat := by
  have hpos : 0 < shards.toNat := Nat.pos_of_ne_zero fun h => hshards (UInt32.toNat_inj.1 h)
  have hle : (1 : UInt64) ≤ shards.toUInt64 := by
    rw [UInt64.le_iff_toNat_le, UInt32.toNat_toUInt64]
    exact hpos
  have hpast : shards.toUInt64 - 1 < word &&& mask (width shards) ↔
      ¬ word.toNat % 2 ^ width shards < shards.toNat := by
    rw [UInt64.lt_iff_toNat_lt, UInt64.toNat_sub_of_le _ _ hle,
      toNat_and_mask word (width_lt shards),
      UInt32.toNat_toUInt64, UInt64.toNat_one]
    omega
  have hwidth : width shards - 1 < 64 := by
    have := width_lt shards
    omega
  unfold fold foldInteger
  by_cases hlt : word.toNat % 2 ^ width shards < shards.toNat
  · simp only [hpast, hlt, not_true, if_false, if_true]
    exact toNat_and_mask word (width_lt shards)
  · simp only [hpast, hlt, not_false_iff, if_false, if_true]
    exact toNat_and_mask word hwidth

/-- One bit less is always enough: the next smaller power of two does not cover the shards. -/
theorem foldInteger_lt (hshards : shards ≠ 0) (value : Nat) :
    foldInteger shards.toNat (width shards) value < shards.toNat := by
  have hpos : 0 < shards.toNat := Nat.pos_of_ne_zero fun h => hshards (UInt32.toNat_inj.1 h)
  unfold foldInteger
  split
  · assumption
  · rename_i hpast
    have hmod : value % 2 ^ (width shards - 1) < 2 ^ (width shards - 1) :=
      Nat.mod_lt _ (Nat.two_pow_pos _)
    obtain hzero | hsome := Nat.eq_zero_or_pos (width shards)
    · rw [hzero, Nat.pow_zero, Nat.mod_one] at hpast
      exact absurd hpos hpast
    · have hbelow : ¬ shards.toNat ≤ 2 ^ (width shards - 1) := by
        rw [← width_le_iff]
        omega
      omega

theorem foldInteger_identifier :
    foldInteger shards.toNat (width shards) (word (identifier shards address)).toNat =
      foldInteger shards.toNat (width shards) address.toNatBE := by
  have hwidth := width_le_identifierSize shards
  simp only [foldInteger, toNat_word_identifier, toNatBE_identifier_mod hwidth,
    toNatBE_identifier_mod (Nat.le_trans (Nat.sub_le _ 1) hwidth)]

/-- Nothing is lost when the shard of an address is made a shard id. -/
theorem toNat_fold_identifier (hshards : shards ≠ 0) (address : Bytes) :
    (fold shards (word (identifier shards address))).toUInt32.toNat =
      foldInteger shards.toNat (width shards) address.toNatBE := by
  have hlt := foldInteger_lt hshards address.toNatBE
  have hbound := shards.toNat_lt
  rw [UInt64.toNat_toUInt32, toNat_fold hshards, foldInteger_identifier]
  exact Nat.mod_eq_of_lt (by omega)

/-! ## Contracts on the metachain -/

/-- The places of an address that make it a contract on the metachain. -/
structure MetachainLayout (shards : UInt32) (address : Bytes) : Prop where
  long : 25 < address.length
  head : ∀ i < 8, address[i]? = some 0
  middle : ∀ i, 10 ≤ i → i < 25 → address[i]? = some 0
  mark : ∀ i < address.length, address.length - identifierSize shards ≤ i → address[i]? = some 0xFF

theorem forall_mem_slice (byte : UInt8) {first count : Nat}
    (hfits : first + count ≤ address.length) :
    (∀ other ∈ (address.drop first).take count, other = byte) ↔
      ∀ i, first ≤ i → i < first + count → address[i]? = some byte := by
  constructor
  · intro hall i hfirst hlast
    have hi : i < address.length := by omega
    have hmem : address[i] ∈ (address.drop first).take count := by
      refine List.mem_iff_getElem?.2 ⟨i - first, ?_⟩
      rw [List.getElem?_take_of_lt (by omega), List.getElem?_drop, Nat.add_sub_cancel' hfirst,
        List.getElem?_eq_getElem hi]
    rw [List.getElem?_eq_getElem hi, hall _ hmem]
  · intro hall other hmem
    obtain ⟨place, hplace⟩ := List.mem_iff_getElem?.1 hmem
    rw [List.getElem?_take] at hplace
    split at hplace
    · rw [List.getElem?_drop, hall _ (by omega) (by omega), Option.some.injEq] at hplace
      exact hplace.symm
    · cases hplace

open Address

theorem isZero_iff {bytes : Bytes} : isZero bytes ↔ ∀ byte ∈ bytes, byte = 0 := by
  simp [isZero]

theorem isContract_iff (hlong : contractHead < address.length) :
    isContract address ↔ ∀ i < 8, address[i]? = some 0 := by
  have hfits : 0 + 8 ≤ address.length := by
    simp only [contractHead] at hlong
    omega
  have hslice := forall_mem_slice 0 hfits
  have hzero : isZero address → isZero (address.take 8) := fun h =>
    isZero_iff.2 fun byte hmem => isZero_iff.1 h byte (List.mem_of_mem_take hmem)
  have hhead : isContract address ↔ isZero (address.take 8) := by
    rw [isContract, decide_eq_true hlong, Bool.true_and, Bool.or_eq_true]
    exact or_iff_right_of_imp hzero
  rw [hhead, isZero_iff]
  simpa using hslice

theorem isMetachainMark_identifier_iff (hlong : 25 < address.length) :
    isMetachainMark (identifier shards address) ↔
      ∀ i < address.length, address.length - identifierSize shards ≤ i →
        address[i]? = some 0xFF := by
  have hsize := identifierSize_le shards
  have hsome : 0 < identifierSize shards := by
    unfold identifierSize
    repeat' split
    all_goals decide
  have hlength := length_identifier shards address
  have hnonempty : (identifier shards address).isEmpty = false := by
    rw [List.isEmpty_eq_false_iff, ← List.length_pos_iff]
    omega
  have hfits : address.length - identifierSize shards + identifierSize shards ≤ address.length := by
    omega
  have hslice := forall_mem_slice 0xFF hfits
  have htake :
      (address.drop (address.length - identifierSize shards)).take (identifierSize shards) =
      identifier shards address := by
    refine List.take_of_length_le ?_
    rw [List.length_drop]
    omega
  rw [htake, Nat.sub_add_cancel (by omega)] at hslice
  simp only [isMetachainMark, hnonempty, Bool.not_false, Bool.true_and, List.all_eq_true,
    decide_eq_true_eq, hslice]
  exact ⟨fun h i hlast hfirst => h i hfirst hlast, fun h i hfirst hlast => h i hlast hfirst⟩

theorem isMetachainContract_iff :
    isMetachainContract (identifier shards address) address ↔ MetachainLayout shards address := by
  by_cases hlong : 25 < address.length
  · have hhead : contractHead < address.length := by simp only [contractHead]; omega
    have hfits : contractHead + metachainZeros ≤ address.length := by
      simp only [contractHead, metachainZeros]
      omega
    have hmiddle := forall_mem_slice 0 hfits
    rw [← isZero_iff] at hmiddle
    simp only [isMetachainContract, Bool.and_eq_true, decide_eq_true_eq, isContract_iff hhead,
      isMetachainMark_identifier_iff hlong, hmiddle]
    exact ⟨fun ⟨⟨⟨hlong, hmark⟩, hhead⟩, hmiddle⟩ => ⟨hlong, hhead, hmiddle, hmark⟩,
      fun h => ⟨⟨⟨h.long, h.mark⟩, h.head⟩, h.middle⟩⟩
  · refine iff_of_false (fun h => hlong ?_) fun h => hlong h.long
    simp only [isMetachainContract, Bool.and_eq_true, decide_eq_true_eq] at h
    exact h.1.1.1

/-! ## The shard of an address -/

theorem shardOf_cases (coordinator : Coordinator) (address : Bytes) :
    address = [] ∧ coordinator.shardOf address = .error .emptyAddress ∨
    address ≠ [] ∧ MetachainLayout coordinator.shards address ∧
      coordinator.shardOf address = .ok .metachain ∨
    address ≠ [] ∧ ¬ MetachainLayout coordinator.shards address ∧ coordinator.shardOf address =
      .ok (fold coordinator.shards (word (identifier coordinator.shards address))).toUInt32 := by
  unfold shardOf
  cases address with
  | nil => exact .inl ⟨rfl, rfl⟩
  | cons byte rest =>
      refine .inr ?_
      by_cases hmetachain : MetachainLayout coordinator.shards (byte :: rest)
      · exact .inl ⟨nofun, hmetachain, by simp [isMetachainContract_iff.2 hmetachain]⟩
      · have hnot :
            ¬ isMetachainContract (identifier coordinator.shards (byte :: rest)) (byte :: rest) :=
          fun h => hmetachain (isMetachainContract_iff.1 h)
        exact .inr ⟨nofun, hmetachain, by simp [hnot]⟩

/-- No address but the empty one is refused, and the shard of every other one is told by its bytes
at fixed places and by the integer `V` of all its bytes: the metachain, or with the least `k` such
that `2 ^ k` covers the shards, `V` modulo `2 ^ k`, or modulo `2 ^ (k - 1)` where that is past the
last shard. No bits are lost in words or shard ids, and every slice that is looked at has its full
length. -/
theorem shardOf_spec (coordinator : Coordinator) (hshards : coordinator.shards ≠ 0)
    (address : Bytes) :
    (coordinator.shardOf address = .error .emptyAddress ↔ address = []) ∧
    (coordinator.shardOf address = .ok .metachain ↔ MetachainLayout coordinator.shards address) ∧
    (address ≠ [] → ¬ MetachainLayout coordinator.shards address →
      ∃ shard k, coordinator.shardOf address = .ok shard ∧ shard < coordinator.shards ∧
        IsLeast {k | coordinator.shards.toNat ≤ 2 ^ k} k ∧
        shard.toNat = if address.toNatBE % 2 ^ k < coordinator.shards.toNat then
          address.toNatBE % 2 ^ k else address.toNatBE % 2 ^ (k - 1)) ∧
    (word (identifier coordinator.shards address)).toNat =
      (identifier coordinator.shards address).toNatBE ∧
    (fold coordinator.shards (word (identifier coordinator.shards address))).toUInt32.toUInt64 =
      fold coordinator.shards (word (identifier coordinator.shards address)) ∧
    (identifier coordinator.shards address).length =
      min (identifierSize coordinator.shards) address.length ∧
    (contractHead < address.length →
      (address.take (contractHead - machineSize)).length = contractHead - machineSize) ∧
    (contractHead + metachainZeros < address.length →
      ((address.drop contractHead).take metachainZeros).length = metachainZeros) := by
  have hshard := toNat_fold_identifier hshards address
  have hlt := foldInteger_lt hshards address.toNatBE
  have hbound := coordinator.shards.toNat_lt
  refine ⟨?_, ?_, ?_, toNat_word_identifier, ?_, length_identifier _ address, ?_, ?_⟩
  · obtain ⟨hempty, hresult⟩ | ⟨hsome, -, hresult⟩ | ⟨hsome, -, hresult⟩ :=
      shardOf_cases coordinator address
    · exact iff_of_true hresult hempty
    · exact iff_of_false (by simp [hresult]) hsome
    · exact iff_of_false (by simp [hresult]) hsome
  · obtain ⟨rfl, hresult⟩ | ⟨-, hlayout, hresult⟩ | ⟨-, hlayout, hresult⟩ :=
      shardOf_cases coordinator address
    · exact iff_of_false (by simp [hresult]) fun hlayout => absurd hlayout.long (by simp)
    · exact iff_of_true hresult hlayout
    · refine iff_of_false (fun hmetachain => ?_) hlayout
      rw [hresult, Except.ok.injEq] at hmetachain
      rw [hmetachain] at hshard
      -- A shard is below the number of shards, and no number of shards is above the metachain.
      have hvalue : ShardId.metachain.toNat = 2 ^ 32 - 1 := rfl
      omega
  · intro hsome hlayout
    obtain ⟨hempty, -⟩ | ⟨-, hmetachain, -⟩ | ⟨-, -, hresult⟩ :=
      shardOf_cases coordinator address
    · exact absurd hempty hsome
    · exact absurd hmetachain hlayout
    · refine ⟨_, _, hresult, ?_, width_isLeast _, hshard⟩
      rw [UInt32.lt_iff_toNat_lt, hshard]
      exact hlt
  · rw [← UInt64.toNat_inj, UInt32.toNat_toUInt64, hshard, toNat_fold hshards,
      foldInteger_identifier]
  · intro hlong
    simp only [List.length_take, contractHead, machineSize] at *
    omega
  · intro hlong
    simp only [List.length_take, List.length_drop, contractHead, metachainZeros] at *
    omega

/-- An address as long as its identifier, in a network with one shard more than a power of two: the
integer of the address is past the last shard, and loses its highest bit. -/
theorem shardOf_spec_past_last :
    ∃ shard k, shardOf ⟨65537, 0⟩ [1, 0x80, 0] = .ok shard ∧ k = 17 ∧
      Bytes.toNatBE [1, 0x80, 0] % 2 ^ k = 98304 ∧ shard.toNat = 32768 := by
  obtain ⟨shard, k, hshard, -, hleast, hvalue⟩ :=
    (shardOf_spec ⟨65537, 0⟩ (by decide) [1, 0x80, 0]).2.2.1 (by decide) fun hlayout =>
      absurd hlayout.long (by decide)
  obtain rfl : k = 17 := hleast.unique (width_isLeast 65537)
  exact ⟨shard, 17, hshard, rfl, by decide, hvalue.trans (by decide)⟩

end Coordinator

end ShardNet
