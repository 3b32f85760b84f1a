-- SUMMARY: Hyperblocks: metachain blocks with the shard blocks and transactions they notarise.
import ShardNet.Transaction.OnNetwork

/-!
# Hyperblocks
-/

namespace ShardNet

open Json (Codec)

/-- A shard block that a hyperblock notarises. -/
structure ShardBlock where
  hash : String
  nonce : UInt64
  shard : ShardId
  deriving DecidableEq, Repr

namespace ShardBlock

def record : Json.Record ShardBlock ShardBlock :=
  Json.Record.of ShardBlock.mk
    |>.withDefault "hash" (·.hash) Codec.text ""
    |>.withDefault "nonce" (·.nonce) Codec.uint64 0
    |>.withDefault "shard" (·.shard) Codec.uint32 0

def codec : Codec ShardBlock := record.codec

end ShardBlock

/-- A metachain block with what it notarises. -/
structure Hyperblock where
  nonce : UInt64
  round : UInt64
  hash : String
  prevBlockHash : String
  epoch : UInt64
  transactionCount : UInt64
  shardBlocks : List ShardBlock
  transactions : List ReportedTransaction
  timestamp : Int64
  deriving DecidableEq, Repr

namespace Hyperblock

def record : Json.Record Hyperblock Hyperblock :=
  Json.Record.of Hyperblock.mk
    |>.withDefault "nonce" (·.nonce) Codec.uint64 0
    |>.withDefault "round" (·.round) Codec.uint64 0
    |>.withDefault "hash" (·.hash) Codec.text ""
    |>.withDefault "prevBlockHash" (·.prevBlockHash) Codec.text ""
    |>.withDefault "epoch" (·.epoch) Codec.uint64 0
    |>.withDefault "numTxs" (·.transactionCount) Codec.uint64 0
    |>.withDefault "shardBlocks" (·.shardBlocks) (Codec.list ShardBlock.codec) []
    |>.withDefault "transactions" (·.transactions) (Codec.list ReportedTransaction.codec) []
    |>.withDefault "timestamp" (·.timestamp) Codec.int64 0

def codec : Codec Hyperblock := record.codec

end Hyperblock

end ShardNet
