-- SUMMARY: The head of a chain, as one shard reports it.
import ShardNet.Json.Record
import ShardNet.Shard

/-!
# Network status
-/

namespace ShardNet

open Json (Codec)

structure NetworkStatus where
  currentRound : UInt64
  epochNumber : UInt64
  /-- The nonce of the last committed block. -/
  nonce : UInt64
  nonceAtEpochStart : UInt64
  noncesPassedInCurrentEpoch : UInt64
  roundAtEpochStart : UInt64
  roundsPassedInCurrentEpoch : UInt64
  roundsPerEpoch : UInt64
  /-- For the metachain, the last notarised nonce of every shard: `0: 500, 1: 510, `. -/
  crossCheckBlockHeight : String
  highestFinalNonce : UInt64
  probableHighestNonce : UInt64
  shardId : ShardId
  deriving DecidableEq, Repr

namespace NetworkStatus

def record : Json.Record NetworkStatus NetworkStatus :=
  Json.Record.of NetworkStatus.mk
    |>.withDefault "erd_current_round" (·.currentRound) Codec.uint64 0
    |>.withDefault "erd_epoch_number" (·.epochNumber) Codec.uint64 0
    |>.withDefault "erd_nonce" (·.nonce) Codec.uint64 0
    |>.withDefault "erd_nonce_at_epoch_start" (·.nonceAtEpochStart) Codec.uint64 0
    |>.withDefault "erd_nonces_passed_in_current_epoch"
      (·.noncesPassedInCurrentEpoch) Codec.uint64 0
    |>.withDefault "erd_round_at_epoch_start" (·.roundAtEpochStart) Codec.uint64 0
    |>.withDefault "erd_rounds_passed_in_current_epoch"
      (·.roundsPassedInCurrentEpoch) Codec.uint64 0
    |>.withDefault "erd_rounds_per_epoch" (·.roundsPerEpoch) Codec.uint64 0
    |>.withDefault "erd_cross_check_block_height" (·.crossCheckBlockHeight) Codec.text ""
    |>.withDefault "erd_highest_final_nonce" (·.highestFinalNonce) Codec.uint64 0
    |>.withDefault "erd_probable_highest_nonce" (·.probableHighestNonce) Codec.uint64 0
    |>.withDefault "erd_shard_id" (·.shardId) Codec.uint32 0

def codec : Codec NetworkStatus := record.codec

end NetworkStatus

end ShardNet
