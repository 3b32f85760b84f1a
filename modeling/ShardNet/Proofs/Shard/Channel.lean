-- SUMMARY: The name of a channel tells which two shards it is between, and not in which order.
import Mathlib.Data.Set.Insert
import ShardNet.Proofs.Text.Decimal
import ShardNet.Proofs.Text.Split
import ShardNet.Shard

/-!
# Names of channels

The name of a channel consists of the parts of some shards, `named`, each with a separator in front.
The separator is nowhere else, so these shards are found in the name; and they are the two shards of
the channel, the smaller one first, except that all shards at once leave nothing of the other one.
-/

namespace ShardNet.ShardId

variable {shard a b c d : ShardId}

/-! ## Parts -/

/-- What stands for a shard behind the separator. -/
def word (shard : ShardId) : List Char :=
  if shard = metachain then ['M', 'E', 'T', 'A']
  else if shard = all then ['A', 'L', 'L']
  else Text.Decimal.digits shard.toNat

theorem word_cases (shard : ShardId) : shard = metachain ∧ word shard = ['M', 'E', 'T', 'A'] ∨
    shard = all ∧ word shard = ['A', 'L', 'L'] ∨ word shard = Text.Decimal.digits shard.toNat := by
  unfold word
  split
  · next hmetachain => exact .inl ⟨hmetachain, rfl⟩
  split
  · next hall => exact .inr (.inl ⟨hall, rfl⟩)
  · exact .inr (.inr rfl)

theorem toList_token (shard : ShardId) : (token shard).toList = '_' :: word shard := by
  unfold token word
  split
  · rfl
  split
  · rfl
  · simp [Text.Decimal.text]

theorem separator_notMem_word (shard : ShardId) : '_' ∉ word shard := by
  obtain ⟨-, hword⟩ | ⟨-, hword⟩ | hword := word_cases shard
  · rw [hword]
    decide
  · rw [hword]
    decide
  · rw [hword]
    exact fun hmem => absurd (Text.Decimal.isDigit_of_mem_digits hmem) (by decide)

/-- Numbers have no letters in them. -/
theorem digits_ne_cons {value : Nat} {letter : Char} {rest : List Char}
    (hletter : letter.isDigit = false) :
    Text.Decimal.digits value ≠ letter :: rest := by
  intro hdigits
  have hdigit :=
    Text.Decimal.isDigit_of_mem_digits (hdigits ▸ List.mem_cons_self (a := letter) (l := rest))
  rw [hletter] at hdigit
  cases hdigit

theorem word_injective : Function.Injective word := by
  intro a b hsame
  obtain ⟨ha, hwordA⟩ | ⟨ha, hwordA⟩ | hwordA := word_cases a <;>
    obtain ⟨hb, hwordB⟩ | ⟨hb, hwordB⟩ | hwordB := word_cases b <;> rw [hwordA, hwordB] at hsame
  · exact ha.trans hb.symm
  · cases hsame
  · exact absurd hsame.symm (digits_ne_cons rfl)
  · cases hsame
  · exact ha.trans hb.symm
  · exact absurd hsame.symm (digits_ne_cons rfl)
  · exact absurd hsame (digits_ne_cons rfl)
  · exact absurd hsame (digits_ne_cons rfl)
  · exact UInt32.toNat_inj.1 (Text.Decimal.digits_inj hsame)

/-! ## Shards in a name -/

/-- The shards whose parts make up the name of a channel. -/
def named (a b : ShardId) : List ShardId :=
  if a = all ∨ b = all then [all]
  else if a = b then [a]
  else if a < b then [a, b]
  else [b, a]

theorem toList_channel (a b : ShardId) :
    (channel a b).toList = ((named a b).map word).flatMap ('_' :: ·) := by
  unfold channel named
  split
  · simp [toList_token]
  split
  · simp [toList_token]
  split
  · simp [toList_token]
  · simp [toList_token]

theorem channel_eq_iff_named : channel a b = channel c d ↔ named a b = named c d := by
  have hfree : ∀ shards : List ShardId, ∀ part ∈ shards.map word, '_' ∉ part := by
    intro shards part hpart
    obtain ⟨shard, -, rfl⟩ := List.mem_map.1 hpart
    exact separator_notMem_word shard
  rw [← String.toList_inj, toList_channel, toList_channel]
  constructor
  · intro hsame
    have hwords := Text.flatMap_cons_injective (hfree _) (hfree _) hsame
    exact List.map_injective_iff.2 word_injective hwords
  · exact fun hsame => by rw [hsame]

theorem mem_named_iff (hab : ¬ (a = all ∨ b = all)) :
    shard ∈ named a b ↔ shard = a ∨ shard = b := by
  rw [named, if_neg hab]
  split
  · next hsame => rw [List.mem_singleton, hsame, or_self]
  split
  · simp
  · simp [or_comm]

theorem named_of_all (hab : a = all ∨ b = all) : named a b = [all] := if_pos hab

theorem all_mem_named_iff : all ∈ named a b ↔ a = all ∨ b = all := by
  by_cases hab : a = all ∨ b = all
  · rw [named_of_all hab]
    exact iff_of_true (List.mem_singleton_self all) hab
  · rw [mem_named_iff hab, eq_comm, eq_comm (b := b)]

theorem named_comm (a b : ShardId) : named a b = named b a := by
  unfold named
  grind

/-- Without all shards at once, the shards in a name are those of the channel. -/
theorem named_eq_iff (hab : ¬ (a = all ∨ b = all)) (hcd : ¬ (c = all ∨ d = all)) :
    named a b = named c d ↔ ({a, b} : Set ShardId) = {c, d} := by
  constructor
  · intro hsame
    ext shard
    rw [Set.mem_insert_iff, Set.mem_singleton_iff, Set.mem_insert_iff, Set.mem_singleton_iff,
      ← mem_named_iff hab, hsame, mem_named_iff hcd]
  · intro hsame
    obtain ⟨rfl, rfl⟩ | ⟨rfl, rfl⟩ := Set.pair_eq_pair_iff.1 hsame
    · rfl
    · exact named_comm a b

/-- The name of a channel does not depend on the order of its two shards. Two channels have the same
name exactly if they are between the same two shards, or if both have all shards at once at an
end. -/
theorem channel_eq_iff :
    (∀ a b : ShardId, channel a b = channel b a) ∧
    ∀ a b c d : ShardId, channel a b = channel c d ↔
      ({a, b} : Set ShardId) = {c, d} ∨ all ∈ ({a, b} : Set ShardId) ∧
        all ∈ ({c, d} : Set ShardId) := by
  have hends : ∀ a b : ShardId, all ∈ ({a, b} : Set ShardId) ↔ a = all ∨ b = all := by
    intro a b
    rw [Set.mem_insert_iff, Set.mem_singleton_iff, eq_comm, eq_comm (b := b)]
  refine ⟨fun a b => channel_eq_iff_named.2 (named_comm a b), fun a b c d => ?_⟩
  rw [channel_eq_iff_named]
  by_cases hab : a = all ∨ b = all <;> by_cases hcd : c = all ∨ d = all
  · rw [named_of_all hab, named_of_all hcd]
    exact iff_of_true rfl (.inr ⟨(hends a b).2 hab, (hends c d).2 hcd⟩)
  · refine iff_of_false (fun hsame => hcd ?_) fun hsame => hcd ?_
    · rw [← all_mem_named_iff, ← hsame]
      exact all_mem_named_iff.2 hab
    · obtain hsame | ⟨-, hall⟩ := hsame
      · rw [← hends, ← hsame]
        exact (hends a b).2 hab
      · exact (hends c d).1 hall
  · refine iff_of_false (fun hsame => hab ?_) fun hsame => hab ?_
    · rw [← all_mem_named_iff, hsame]
      exact all_mem_named_iff.2 hcd
    · obtain hsame | ⟨hall, -⟩ := hsame
      · rw [← hends, hsame]
        exact (hends c d).2 hcd
      · exact (hends a b).1 hall
  · rw [named_eq_iff hab hcd, hends, or_iff_left fun hall => hab hall.1]

end ShardNet.ShardId
