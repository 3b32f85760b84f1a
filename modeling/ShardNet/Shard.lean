-- SUMMARY: Shard ids: their texts, and the names of the channels between shards.
import ShardNet.Text.Decimal

/-!
# Shards

A shard is known by an unsigned integer of 32 bits. Two of them are set apart: the metachain, which
notarises the others, and the id that stands for all shards at once.

The channel between two shards has one name, whichever of them comes first.
-/

namespace ShardNet

abbrev ShardId := UInt32

namespace ShardId

def metachain : ShardId := 0xFFFFFFFF

/-- Stands for all shards at once. -/
def all : ShardId := 0xFFFFFFF0

/-- The part that a shard has in the name of a channel. -/
def token (shard : ShardId) : String :=
  if shard = metachain then "_META"
  else if shard = all then "_ALL"
  else "_" ++ Text.Decimal.text shard.toNat

/-- The name of the channel between two shards, the smaller id first. -/
def channel (a b : ShardId) : String :=
  if a = all ∨ b = all then token all
  else if a = b then token a
  else if a < b then token a ++ token b
  else token b ++ token a

/-- The text of a shard id: a word for the metachain, the number for the others. -/
def text (shard : ShardId) : String :=
  if shard = metachain then "metachain" else Text.Decimal.text shard.toNat

/-- Reads the text of a shard id. Blanks may surround a number, but not the word. -/
def read (text : String) : Except Text.Decimal.Fault ShardId :=
  if text = "metachain" then .ok metachain
  else Text.Decimal.readUnsigned ShardId (Text.trim text.toList)

end ShardId

/-- The key under which the first block of an epoch is stored. -/
def epochStartKey (epoch : UInt32) : String := "epochStartBlock_" ++ Text.Decimal.text epoch.toNat

end ShardNet
