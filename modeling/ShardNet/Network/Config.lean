-- SUMMARY: The parameters of a network, and its economic figures.
import ShardNet.Json.Record

/-!
# Network configuration

The parameters that transactions and clients depend on, the number of shards among them. Any of them
may be missing. The last two arrive as texts as well.
-/

namespace ShardNet

open Json (Codec)
open Number (Binary32)

structure NetworkConfig where
  chainId : String
  denomination : UInt32
  gasPerDataByte : UInt64
  latestTagSoftwareVersion : String
  metaConsensusGroupSize : UInt32
  minGasLimit : UInt64
  minGasPrice : UInt64
  minTransactionVersion : UInt32
  numMetachainNodes : UInt32
  numNodesInShard : UInt32
  numShardsWithoutMeta : UInt32
  /-- Length of a round in milliseconds. -/
  roundDuration : Int64
  shardConsensusGroupSize : UInt64
  /-- Time of the first block, in seconds since 1970. -/
  startTime : Int64
  adaptivity : Bool
  hysteresis : Binary32
  deriving DecidableEq, Repr, Inhabited

namespace NetworkConfig

def record : Json.Record NetworkConfig NetworkConfig :=
  Json.Record.of NetworkConfig.mk
    |>.withDefault "erd_chain_id" (·.chainId) Codec.text ""
    |>.withDefault "erd_denomination" (·.denomination) Codec.uint32 0
    |>.withDefault "erd_gas_per_data_byte" (·.gasPerDataByte) Codec.uint64 0
    |>.withDefault "erd_latest_tag_software_version" (·.latestTagSoftwareVersion) Codec.text ""
    |>.withDefault "erd_meta_consensus_group_size" (·.metaConsensusGroupSize) Codec.uint32 0
    |>.withDefault "erd_min_gas_limit" (·.minGasLimit) Codec.uint64 0
    |>.withDefault "erd_min_gas_price" (·.minGasPrice) Codec.uint64 0
    |>.withDefault "erd_min_transaction_version" (·.minTransactionVersion) Codec.uint32 0
    |>.withDefault "erd_num_metachain_nodes" (·.numMetachainNodes) Codec.uint32 0
    |>.withDefault "erd_num_nodes_in_shard" (·.numNodesInShard) Codec.uint32 0
    |>.withDefault "erd_num_shards_without_meta" (·.numShardsWithoutMeta) Codec.uint32 0
    |>.withDefault "erd_round_duration" (·.roundDuration) Codec.int64 0
    |>.withDefault "erd_shard_consensus_group_size" (·.shardConsensusGroupSize) Codec.uint64 0
    |>.withDefault "erd_start_time" (·.startTime) Codec.int64 0
    |>.withDefault "erd_adaptivity" (·.adaptivity) Codec.flagOrText false
    |>.withDefault "erd_hysteresis" (·.hysteresis) Codec.binary32OrText ⟨0⟩

def codec : Codec NetworkConfig := record.codec

end NetworkConfig

structure NetworkEconomics where
  devRewards : String
  epochForEconomicsData : UInt32
  inflation : String
  totalFees : String
  totalStakedValue : String
  totalSupply : String
  totalTopUpValue : String
  deriving DecidableEq, Repr

namespace NetworkEconomics

def record : Json.Record NetworkEconomics NetworkEconomics :=
  Json.Record.of NetworkEconomics.mk
    |>.withDefault "erd_dev_rewards" (·.devRewards) Codec.text ""
    |>.withDefault "erd_epoch_for_economics_data" (·.epochForEconomicsData) Codec.uint32 0
    |>.withDefault "erd_inflation" (·.inflation) Codec.text ""
    |>.withDefault "erd_total_fees" (·.totalFees) Codec.text ""
    |>.withDefault "erd_total_staked_value" (·.totalStakedValue) Codec.text ""
    |>.withDefault "erd_total_supply" (·.totalSupply) Codec.text ""
    |>.withDefault "erd_total_top_up_value" (·.totalTopUpValue) Codec.text ""

def codec : Codec NetworkEconomics := record.codec

end NetworkEconomics

end ShardNet
