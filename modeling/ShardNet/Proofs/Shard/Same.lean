-- SUMMARY: Two addresses are told to be in the same shard exactly if their shards are the same.
import ShardNet.Proofs.Shard.OfAddress

/-!
# The same shard

Equal addresses are in the same shard without a look at them, so the shortcut takes the empty
address too, which has no shard. For all other addresses it changes nothing, and to be in the same
shard is an equivalence.
-/

namespace ShardNet.Coordinator

variable {coordinator : Coordinator} {a b : Bytes}

theorem exists_shardOf (coordinator : Coordinator) (hsome : a ≠ []) :
    ∃ shard, coordinator.shardOf a = .ok shard := by
  obtain ⟨hempty, -⟩ | ⟨-, -, hshard⟩ | ⟨-, -, hshard⟩ := shardOf_cases coordinator a
  · exact absurd hempty hsome
  · exact ⟨_, hshard⟩
  · exact ⟨_, hshard⟩

theorem shardOf_nil : coordinator.shardOf [] = .error .emptyAddress := rfl

theorem sameShard_of_ne (hne : a ≠ b) : coordinator.sameShard a b = (do
    let shardOfA ← coordinator.shardOf a
    let shardOfB ← coordinator.shardOf b
    return shardOfA = shardOfB) := if_neg hne

/-- The shortcut for equal addresses comes to what the shards come to. -/
theorem sameShard_of_shardOf {shardOfA shardOfB : ShardId}
    (ha : coordinator.shardOf a = .ok shardOfA) (hb : coordinator.shardOf b = .ok shardOfB) :
    coordinator.sameShard a b = .ok (decide (shardOfA = shardOfB)) := by
  by_cases hsame : a = b
  · subst hsame
    obtain rfl : shardOfA = shardOfB := Except.ok.inj (ha.symm.trans hb)
    rw [sameShard, if_pos rfl, decide_eq_true rfl]
  · rw [sameShard_of_ne hsame, ha, hb]
    rfl

theorem sameShard_eq_true_iff (ha : a ≠ []) (hb : b ≠ []) :
    coordinator.sameShard a b = .ok true ↔ coordinator.shardOf a = coordinator.shardOf b := by
  obtain ⟨shardOfA, hshardA⟩ := exists_shardOf coordinator ha
  obtain ⟨shardOfB, hshardB⟩ := exists_shardOf coordinator hb
  rw [sameShard_of_shardOf hshardA hshardB, hshardA, hshardB]
  simp

/-- An address without a shard is refused beside one that has a shard, whichever of them comes
first. -/
theorem sameShard_nil (hsome : a ≠ []) : coordinator.sameShard a [] = .error .emptyAddress ∧
    coordinator.sameShard [] a = .error .emptyAddress := by
  obtain ⟨shard, hshard⟩ := exists_shardOf coordinator hsome
  rw [sameShard_of_ne hsome, sameShard_of_ne hsome.symm, hshard, shardOf_nil]
  exact ⟨rfl, rfl⟩

/-- Of two addresses that are not empty it is told whether their shards are the same, so to be told
this of is an equivalence. Beside an address that is not empty, the empty one is refused. -/
theorem sameShard_decides (coordinator : Coordinator) :
    (∀ a b, a ≠ [] → b ≠ [] → ∃ shardOfA shardOfB, coordinator.shardOf a = .ok shardOfA ∧
      coordinator.shardOf b = .ok shardOfB ∧
      coordinator.sameShard a b = .ok (decide (shardOfA = shardOfB))) ∧
    (Equivalence fun a b : { address : Bytes // address ≠ [] } =>
      coordinator.sameShard a b = .ok true) ∧
    ∀ a, a ≠ [] → coordinator.sameShard a [] = .error .emptyAddress ∧
      coordinator.sameShard [] a = .error .emptyAddress := by
  refine ⟨fun a b ha hb => ?_, ⟨fun a => ?_, fun {a b} hab => ?_, fun {a b c} hab hbc => ?_⟩,
    fun a ha => sameShard_nil ha⟩
  · obtain ⟨shardOfA, hshardA⟩ := exists_shardOf coordinator ha
    obtain ⟨shardOfB, hshardB⟩ := exists_shardOf coordinator hb
    exact ⟨shardOfA, shardOfB, hshardA, hshardB, sameShard_of_shardOf hshardA hshardB⟩
  · exact (sameShard_eq_true_iff a.2 a.2).2 rfl
  · have hshards := (sameShard_eq_true_iff a.2 b.2).1 hab
    exact (sameShard_eq_true_iff b.2 a.2).2 hshards.symm
  · have hleft := (sameShard_eq_true_iff a.2 b.2).1 hab
    have hright := (sameShard_eq_true_iff b.2 c.2).1 hbc
    exact (sameShard_eq_true_iff a.2 c.2).2 (hleft.trans hright)

/-- A contract on the metachain and another address have the same last byte, and are not in the same
shard. -/
theorem sameShard_decides_contract :
    Coordinator.sameShard ⟨4, 0⟩ (List.replicate 31 0 ++ [0xFF])
      (List.replicate 32 0xFF) = .ok false ∧
    Coordinator.sameShard ⟨4, 0⟩ (List.replicate 32 0xFF) [] = .error .emptyAddress := by
  have hmetachain :
      Coordinator.shardOf ⟨4, 0⟩ (List.replicate 31 0 ++ [0xFF]) = .ok .metachain := by decide
  have hthree : Coordinator.shardOf ⟨4, 0⟩ (List.replicate 32 0xFF) = .ok 3 := by decide
  obtain ⟨hdecides, -, hempty⟩ := sameShard_decides ⟨4, 0⟩
  obtain ⟨shardOfA, shardOfB, ha, hb, hsame⟩ :=
    hdecides (List.replicate 31 0 ++ [0xFF]) (List.replicate 32 0xFF) (by decide) (by decide)
  obtain rfl : shardOfA = .metachain := Except.ok.inj (ha.symm.trans hmetachain)
  obtain rfl : shardOfB = 3 := Except.ok.inj (hb.symm.trans hthree)
  exact ⟨hsame, (hempty _ (by decide)).1⟩

end ShardNet.Coordinator
