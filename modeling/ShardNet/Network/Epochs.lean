-- SUMMARY: The epochs in which features of the protocol come into force.
import ShardNet.Json.Record

/-!
# Activation epochs
-/

namespace ShardNet

open Json (Codec)

/-- A step in the schedule of the greatest number of nodes. -/
structure MaxNodesChange where
  epochEnable : UInt32
  maxNumNodes : UInt32
  nodesToShufflePerShard : UInt32
  deriving DecidableEq, Repr

namespace MaxNodesChange

def record : Json.Record MaxNodesChange MaxNodesChange :=
  Json.Record.of MaxNodesChange.mk
    |>.required "erd_epoch_enable" (·.epochEnable) Codec.uint32
    |>.required "erd_max_num_nodes" (·.maxNumNodes) Codec.uint32
    |>.required "erd_nodes_to_shuffle_per_shard" (·.nodesToShufflePerShard) Codec.uint32

def codec : Codec MaxNodesChange := record.codec

end MaxNodesChange

structure EnableEpochs where
  balanceWaitingLists : UInt32
  waitingListFix : UInt32
  maxNodesChanges : List MaxNodesChange
  deriving DecidableEq, Repr

namespace EnableEpochs

def record : Json.Record EnableEpochs EnableEpochs :=
  Json.Record.of EnableEpochs.mk
    |>.withDefault "erd_balance_waiting_lists_enable_epoch" (·.balanceWaitingLists) Codec.uint32 0
    |>.withDefault "erd_waiting_list_fix_enable_epoch" (·.waitingListFix) Codec.uint32 0
    |>.withDefault "erd_max_nodes_change_enable_epoch" (·.maxNodesChanges)
      (Codec.list MaxNodesChange.codec) []

def codec : Codec EnableEpochs := record.codec

end EnableEpochs

end ShardNet
