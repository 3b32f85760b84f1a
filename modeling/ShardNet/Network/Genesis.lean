-- SUMMARY: The public keys of the first nodes, by shard.
import ShardNet.Json.Record
import ShardNet.Shard

/-!
# Genesis nodes
-/

namespace ShardNet

open Json (Codec)

structure GenesisNodes where
  eligible : Table ShardId (List String)
  waiting : Table ShardId (List String)

namespace GenesisNodes

def record : Json.Record GenesisNodes GenesisNodes :=
  Json.Record.of GenesisNodes.mk
    |>.withDefault "eligible" (·.eligible) (Codec.table ShardId (Codec.list Codec.text)) .empty
    |>.withDefault "waiting" (·.waiting) (Codec.table ShardId (Codec.list Codec.text)) .empty

def codec : Codec GenesisNodes := record.codec

end GenesisNodes

end ShardNet
