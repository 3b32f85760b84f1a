-- SUMMARY: How many residues of the integer of an address belong to each shard.
import Mathlib.Data.Set.Card
import ShardNet.Proofs.Shard.OfAddress

/-!
# Residues of a shard

Let `k` be least such that `2 ^ k` covers the shards. Of the integer of an address, contracts on the
metachain apart, only the residue modulo `2 ^ k` counts. A residue below the number of shards is its
own shard. The others lose their highest bit; no two of them fall to the same shard, and they fall
to shards below `2 ^ (k - 1)`. So a shard has its own number and at most one more.
-/

namespace ShardNet

/-! ## Addresses for given residues -/

namespace Bytes

/-- The lowest digits of an integer in base 256, as many as an address has behind its first byte,
and a one in front of them. -/
def oneThen (value : Nat) : Bytes := 1 :: (ofNatLE 31 value).reverse

theorem length_oneThen (value : Nat) : (oneThen value).length = 32 := by
  rw [oneThen, List.length_cons, List.length_reverse, length_ofNatLE]

theorem oneThen_ne_nil (value : Nat) : oneThen value ≠ [] := List.cons_ne_nil _ _

theorem toNatBE_oneThen (value : Nat) : toNatBE (oneThen value) = 256 ^ 31 + value % 256 ^ 31 := by
  rw [oneThen, ← List.singleton_append, toNatBE_append, toNatBE_reverse, toNatLE_ofNatLE,
    List.length_reverse, length_ofNatLE]
  simp [toNatBE]

theorem toNatBE_oneThen_mod {k value : Nat} (hk : k ≤ 32) (hvalue : value < 2 ^ k) :
    toNatBE (oneThen value) % 2 ^ k = value := by
  have hle : 2 ^ k ≤ 2 ^ 32 := Nat.pow_le_pow_right (by decide) hk
  have hdvd : 2 ^ k ∣ 256 ^ 31 := Nat.dvd_trans (Nat.pow_dvd_pow 2 hk) (by decide)
  have hfits : value < 256 ^ 31 := by omega
  rw [toNatBE_oneThen, Nat.mod_eq_of_lt hfits, Nat.add_mod, Nat.mod_eq_zero_of_dvd hdvd,
    Nat.zero_add, Nat.mod_mod, Nat.mod_eq_of_lt hvalue]

end Bytes

namespace Coordinator

variable {shards : UInt32} {coordinator : Coordinator} {address : Bytes} {shard : ShardId}
  {residue : Nat}

/-- Contracts begin with a zero. -/
theorem not_metachainLayout_oneThen (value : Nat) :
    ¬ MetachainLayout shards (Bytes.oneThen value) := by
  intro hlayout
  have hfirst := hlayout.head 0 (by decide)
  rw [Bytes.oneThen, List.getElem?_cons_zero] at hfirst
  cases hfirst

/-! ## Residues -/

/-- The residues modulo `2 ^ k` of the addresses in a shard, contracts on the metachain apart. -/
def residues (coordinator : Coordinator) (k : Nat) (shard : ShardId) : Set Nat :=
  { residue | ∃ address : Bytes, address.length = 32 ∧
    ¬ MetachainLayout coordinator.shards address ∧
    coordinator.shardOf address = .ok shard ∧ address.toNatBE % 2 ^ k = residue }

theorem foldInteger_mod (shards k value : Nat) :
    foldInteger shards k (value % 2 ^ k) = foldInteger shards k value := by
  have hdvd : 2 ^ (k - 1) ∣ 2 ^ k := Nat.pow_dvd_pow 2 (Nat.sub_le k 1)
  rw [foldInteger, foldInteger, Nat.mod_mod, Nat.mod_mod_of_dvd _ hdvd]

theorem shardOf_eq_ok_iff (hshards : coordinator.shards ≠ 0) (hsome : address ≠ [])
    (huser : ¬ MetachainLayout coordinator.shards address) :
    coordinator.shardOf address = .ok shard ↔
      foldInteger coordinator.shards.toNat (width coordinator.shards) address.toNatBE =
        shard.toNat := by
  obtain ⟨hempty, -⟩ | ⟨-, hmetachain, -⟩ | ⟨-, -, hshard⟩ := shardOf_cases coordinator address
  · exact absurd hempty hsome
  · exact absurd hmetachain huser
  · rw [hshard, Except.ok.injEq, ← UInt32.toNat_inj, toNat_fold_identifier hshards]

theorem width_le (shards : UInt32) : width shards ≤ 32 :=
  width_le_iff.2 (Nat.le_of_lt shards.toNat_lt)

theorem shardOf_oneThen_iff (hshards : coordinator.shards ≠ 0)
    (hresidue : residue < 2 ^ width coordinator.shards) :
    coordinator.shardOf (Bytes.oneThen residue) = .ok shard ↔
      foldInteger coordinator.shards.toNat (width coordinator.shards) residue = shard.toNat := by
  rw [shardOf_eq_ok_iff hshards (Bytes.oneThen_ne_nil residue)
    (not_metachainLayout_oneThen residue),
    ← foldInteger_mod, Bytes.toNatBE_oneThen_mod (width_le _) hresidue]

theorem mem_residues_iff (hshards : coordinator.shards ≠ 0) :
    residue ∈ coordinator.residues (width coordinator.shards) shard ↔
      residue < 2 ^ width coordinator.shards ∧
      foldInteger coordinator.shards.toNat (width coordinator.shards) residue = shard.toNat := by
  constructor
  · rintro ⟨address, hlength, huser, hshard, rfl⟩
    have hsome : address ≠ [] := List.ne_nil_of_length_pos (by omega)
    refine ⟨Nat.mod_lt _ (Nat.two_pow_pos _), ?_⟩
    rw [foldInteger_mod]
    exact (shardOf_eq_ok_iff hshards hsome huser).1 hshard
  · rintro ⟨hlt, hfold⟩
    exact ⟨Bytes.oneThen residue, Bytes.length_oneThen _, not_metachainLayout_oneThen _,
      (shardOf_oneThen_iff hshards hlt).2 hfold, Bytes.toNatBE_oneThen_mod (width_le _) hlt⟩

/-- The residue of an address tells its shard. -/
theorem shardOf_eq_ok_iff_mem_residues (hshards : coordinator.shards ≠ 0) (hsome : address ≠ [])
    (huser : ¬ MetachainLayout coordinator.shards address) :
    coordinator.shardOf address = .ok shard ↔
      address.toNatBE % 2 ^ width coordinator.shards ∈
        coordinator.residues (width coordinator.shards) shard := by
  rw [shardOf_eq_ok_iff hshards hsome huser, mem_residues_iff hshards, foldInteger_mod]
  exact (and_iff_right (Nat.mod_lt _ (Nat.two_pow_pos _))).symm

/-! ## How many residues fall to a shard -/

/-- The least power of two that covers the shards is less than twice their number, or one. -/
theorem half_lt_shards (hshards : shards ≠ 0) :
    width shards = 0 ∧ shards.toNat = 1 ∨
      0 < width shards ∧ 2 ^ width shards = 2 * 2 ^ (width shards - 1) ∧
        2 ^ (width shards - 1) < shards.toNat := by
  have hpos : 0 < shards.toNat := Nat.pos_of_ne_zero fun h => hshards (UInt32.toNat_inj.1 h)
  have hcovers : shards.toNat ≤ 2 ^ width shards := width_le_iff.1 (Nat.le_refl _)
  obtain hzero | hsome := Nat.eq_zero_or_pos (width shards)
  · rw [hzero, Nat.pow_zero] at hcovers
    exact .inl ⟨hzero, by omega⟩
  · have hless : ¬ shards.toNat ≤ 2 ^ (width shards - 1) := by
      rw [← width_le_iff]
      omega
    have hdouble : 2 ^ width shards = 2 * 2 ^ (width shards - 1) := by
      rw [← Nat.pow_succ', Nat.succ_eq_add_one, Nat.sub_add_cancel hsome]
    exact .inr ⟨hsome, hdouble, by omega⟩

/-- A shard that has a residue beside its own number: the one that is its number with the highest
bit set, where this is past the last shard. -/
def Doubled (shards k shard : Nat) : Prop :=
  0 < k ∧ shard < 2 ^ (k - 1) ∧ shards ≤ shard + 2 ^ (k - 1)

instance (shards k shard : Nat) : Decidable (Doubled shards k shard) :=
  inferInstanceAs (Decidable (_ ∧ _ ∧ _))

theorem foldInteger_eq_iff (hshards : shards ≠ 0) {shard : Nat} (hshard : shard < shards.toNat) :
    residue < 2 ^ width shards ∧ foldInteger shards.toNat (width shards) residue = shard ↔
      residue = shard ∨ Doubled shards.toNat (width shards) shard ∧
        residue = shard + 2 ^ (width shards - 1) := by
  have hcovers : shards.toNat ≤ 2 ^ width shards := width_le_iff.1 (Nat.le_refl _)
  have hbelow : residue < 2 ^ width shards → residue % 2 ^ width shards = residue :=
    Nat.mod_eq_of_lt
  unfold foldInteger Doubled
  obtain ⟨hzero, hone⟩ | ⟨hsome, hdouble, hhalf⟩ := half_lt_shards hshards
  · rw [hone] at hshard
    simp only [hzero, hone, Nat.pow_zero, Nat.mod_one, Nat.zero_lt_one, if_true]
    omega
  · -- A residue past the last shard is in the upper half, and what is left of it is in the lower half.
    have hupper : 2 ^ (width shards - 1) ≤ residue → residue < 2 ^ width shards →
        residue % 2 ^ (width shards - 1) = residue - 2 ^ (width shards - 1) := fun hle hlt => by
      rw [Nat.mod_eq_sub_mod hle, Nat.mod_eq_of_lt (by omega)]
    constructor
    · rintro ⟨hlt, hfold⟩
      rw [hbelow hlt] at hfold
      split at hfold
      · exact .inl hfold
      · have hrest := hupper (by omega) hlt
        omega
    · rintro (rfl | ⟨⟨-, hlower, hpast⟩, rfl⟩)
      · have hlt : residue < 2 ^ width shards := by omega
        rw [hbelow hlt, if_pos hshard]
        exact ⟨hlt, rfl⟩
      · have hlt : shard + 2 ^ (width shards - 1) < 2 ^ width shards := by omega
        rw [hbelow hlt, if_neg (by omega), hupper (by omega) hlt]
        omega

theorem residues_eq (hshards : coordinator.shards ≠ 0) (hshard : shard < coordinator.shards) :
    coordinator.residues (width coordinator.shards) shard =
      if Doubled coordinator.shards.toNat (width coordinator.shards) shard.toNat then
        {shard.toNat, shard.toNat + 2 ^ (width coordinator.shards - 1)}
      else {shard.toNat} := by
  ext residue
  rw [mem_residues_iff hshards, foldInteger_eq_iff hshards (UInt32.lt_iff_toNat_lt.1 hshard)]
  split
  · next hdoubled => simp [hdoubled]
  · next hsingle => simp [hsingle]

theorem ncard_residues (hshards : coordinator.shards ≠ 0) (hshard : shard < coordinator.shards) :
    (coordinator.residues (width coordinator.shards) shard).ncard =
      if Doubled coordinator.shards.toNat (width coordinator.shards) shard.toNat then 2 else 1 := by
  rw [residues_eq hshards hshard]
  split
  · have hpos := Nat.two_pow_pos (width coordinator.shards - 1)
    exact Set.ncard_pair (by omega)
  · exact Set.ncard_singleton _

/-- The residues modulo the least power of two that covers the shards tell the shards apart. Each of
them belongs to one shard, and a shard has one of them, or two where its number with the highest bit
set is past the last shard. So every shard has an address, and none has more than twice as many
residues as another. -/
theorem residues_balanced (coordinator : Coordinator) (hshards : coordinator.shards ≠ 0) (k : Nat)
    (hleast : IsLeast {k | coordinator.shards.toNat ≤ 2 ^ k} k) :
    (∀ (address : Bytes) (shard : ShardId), address ≠ [] →
      ¬ MetachainLayout coordinator.shards address →
      (coordinator.shardOf address = .ok shard ↔
        address.toNatBE % 2 ^ k ∈ coordinator.residues k shard)) ∧
    (∀ residue < 2 ^ k, ∃! shard, shard < coordinator.shards ∧
      residue ∈ coordinator.residues k shard) ∧
    (∀ shard < coordinator.shards, (coordinator.residues k shard).ncard =
      if 0 < k ∧ shard.toNat < 2 ^ (k - 1) ∧
        coordinator.shards.toNat ≤ shard.toNat + 2 ^ (k - 1) then 2 else 1) ∧
    (∀ shard < coordinator.shards, ∃ address : Bytes, address.length = 32 ∧
      ¬ MetachainLayout coordinator.shards address ∧ coordinator.shardOf address = .ok shard) ∧
    ∀ shard < coordinator.shards, ∀ other < coordinator.shards,
      (coordinator.residues k shard).ncard ≤ 2 * (coordinator.residues k other).ncard := by
  obtain rfl := hleast.unique (width_isLeast coordinator.shards)
  refine ⟨fun address shard hsome huser => shardOf_eq_ok_iff_mem_residues hshards hsome huser,
    fun residue hresidue => ?_, fun shard hshard => ncard_residues hshards hshard,
    fun shard hshard => ?_,
    fun shard hshard other hother => ?_⟩
  · have hfold := foldInteger_lt hshards residue
    have hnumber :
        (UInt32.ofNat
            (foldInteger coordinator.shards.toNat (width coordinator.shards) residue)).toNat =
          foldInteger coordinator.shards.toNat (width coordinator.shards) residue :=
      UInt32.toNat_ofNat_of_lt' (Nat.lt_trans hfold coordinator.shards.toNat_lt)
    refine ⟨_, ⟨?_, (mem_residues_iff hshards).2 ⟨hresidue, hnumber.symm⟩⟩,
      fun shard hshard => ?_⟩
    · rw [UInt32.lt_iff_toNat_lt, hnumber]
      exact hfold
    · rw [← UInt32.toNat_inj, hnumber]
      exact ((mem_residues_iff hshards).1 hshard.2).2.symm
  · have hown : shard.toNat ∈ coordinator.residues (width coordinator.shards) shard :=
      (mem_residues_iff hshards).2
        ((foldInteger_eq_iff hshards (UInt32.lt_iff_toNat_lt.1 hshard)).2 (.inl rfl))
    obtain ⟨address, hlength, huser, hreached, -⟩ := hown
    exact ⟨address, hlength, huser, hreached⟩
  · rw [ncard_residues hshards hshard, ncard_residues hshards hother]
    split <;> split <;> decide

/-- With one shard more than a byte tells apart, the last shard has one residue of the 512, as the
first one has, and the shard before it two. -/
theorem residues_balanced_past_byte :
    (residues ⟨257, 0⟩ 9 0).ncard = 1 ∧ (residues ⟨257, 0⟩ 9 255).ncard = 2 ∧
      (residues ⟨257, 0⟩ 9 256).ncard = 1 := by
  obtain ⟨-, -, hcard, -, -⟩ := residues_balanced ⟨257, 0⟩ (by decide) 9 (width_isLeast 257)
  exact ⟨hcard 0 (by decide), hcard 255 (by decide), hcard 256 (by decide)⟩

end Coordinator

end ShardNet
