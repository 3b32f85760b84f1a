-- SUMMARY: Which texts are read as a shard id, and that every id is read back from its own.
import Mathlib.Algebra.Group.Nat.Defs
import ShardNet.Bytes
import ShardNet.Proofs.Text.Decimal
import ShardNet.Shard

/-!
# Texts of shards

The word for the metachain stands for itself and is no numeral. All other texts are numerals between
blanks, so an id has many texts, one of which is written for it.
-/

namespace ShardNet.ShardId

open Text (Padded)
open Text.Decimal (Numeral)

variable {source : String} {shard : ShardId}

/-- The text is a numeral of the shard, between blanks. -/
def Numbers (source : String) (shard : ShardId) : Prop :=
  ∃ core, Padded core source.toList ∧ Numeral core shard.toNat

theorem readUnsigned_eq_ok_iff_numbers :
    Text.Decimal.readUnsigned ShardId (Text.trim source.toList) = .ok shard ↔
      Numbers source shard :=
  Text.Decimal.readUnsigned_trim_eq_ok_iff

theorem not_numbers_word : ¬ Numbers "metachain" shard := by
  intro hnumbers
  have hword :
      Text.Decimal.readUnsigned ShardId (Text.trim "metachain".toList) = .error .invalidDigit := by
      decide
  cases hword.symm.trans (readUnsigned_eq_ok_iff_numbers.2 hnumbers)

theorem read_eq_ok_iff :
    read source = .ok shard ↔ source = "metachain" ∧ shard = metachain ∨ Numbers source shard := by
  unfold read
  split
  · next hword =>
    subst hword
    simp [not_numbers_word, eq_comm]
  · next hword => rw [readUnsigned_eq_ok_iff_numbers, or_iff_right fun h => hword h.1]

theorem numbers_digits (shard : ShardId) : Numbers (Text.Decimal.text shard.toNat) shard := by
  refine ⟨Text.Decimal.digits shard.toNat, ⟨[], [], ?_, nofun, nofun⟩, Text.Decimal.numeral_digits⟩
  rw [Text.Decimal.text, String.toList_ofList, List.nil_append, List.append_nil]

theorem read_text (shard : ShardId) : read (text shard) = .ok shard := by
  rw [read_eq_ok_iff, text]
  split
  · next hmetachain => exact .inl ⟨rfl, hmetachain⟩
  · exact .inr (numbers_digits shard)

theorem exists_numbers_iff : (∃ shard, Numbers source shard) ↔
    ∃ core value, Padded core source.toList ∧ Numeral core value ∧ value < 2 ^ 32 := by
  constructor
  · rintro ⟨shard, core, hpadded, hnumeral⟩
    exact ⟨core, shard.toNat, hpadded, hnumeral, shard.toNat_lt⟩
  · rintro ⟨core, value, hpadded, hnumeral, hlt⟩
    have hvalue : (UInt32.ofNat value).toNat = value := UInt32.toNat_ofNat_of_lt' hlt
    exact ⟨UInt32.ofNat value, core, hpadded, hvalue.symm ▸ hnumeral⟩

/-- A text is read as a shard exactly if it is the word for the metachain, or a numeral below `2 ^
32` between blanks, with at most one plus sign in front of its digits. The text of each shard is
read as that shard, so different shards have different texts. -/
theorem read_accepts :
    (∀ (source : String) (shard : ShardId), read source = .ok shard ↔
      source = "metachain" ∧ shard = metachain ∨
        ∃ core, Padded core source.toList ∧ Numeral core shard.toNat) ∧
    (∀ source : String, (∃ shard, read source = .ok shard) ↔
      source = "metachain" ∨ ∃ core value, Padded core source.toList ∧ Numeral core value ∧
        value < 2 ^ 32) ∧
    (∀ shard : ShardId, read (text shard) = .ok shard) ∧
    ∀ first second : ShardId, text first = text second ↔ first = second := by
  refine ⟨fun source shard => read_eq_ok_iff, fun source => ?_, read_text, fun first second => ?_⟩
  · simp only [read_eq_ok_iff, exists_or, exists_numbers_iff, exists_and_left, exists_eq, and_true]
  · refine ⟨fun hsame => ?_, congrArg text⟩
    have hread := read_text first
    rw [hsame, read_text second, Except.ok.injEq] at hread
    exact hread.symm

/-- Blanks may stand around a number, but not around the word. -/
example : read "\u2003+0012 " = .ok 12 ∧ read " metachain" = .error .invalidDigit := by decide

end ShardNet.ShardId
