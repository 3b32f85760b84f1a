-- SUMMARY: The routes of a service, and their paths at a proxy and at an observer.
import ShardNet.Entity
import ShardNet.Shard

/-!
# Routes

A route is what a client asks for. Most paths are the same everywhere. An observer serves only its
own shard, so its paths carry no shard, and what it answers about its status has to be checked.
-/

namespace ShardNet

inductive Route where
  | networkConfig
  | networkEconomics
  | ratingsConfig
  | enableEpochs
  | genesisNodes
  | networkStatus (shard : ShardId)
  | account (address : String)
  | transactionCost
  | sendTransaction
  | sendTransactions
  | transactionStatus (hash : String)
  | transactionInfo (hash : String) (withResults : Bool)
  | hyperblockByNonce (nonce : UInt64)
  | hyperblockByHash (hash : String)
  | blockByHash (shard : ShardId) (hash : String)
  | blockByNonce (shard : ShardId) (nonce : UInt64)
  | miniblockByHash (shard : ShardId) (hash : String) (epoch : UInt32)
  | startOfEpochBlock (epoch : UInt32)
  | vmQuery
  deriving DecidableEq, Repr

namespace Route

/-- The beginning of the paths of stored bytes. -/
def internal (entity : Entity) (shard : ShardId) : String :=
  match entity with
  | .proxy => "internal/" ++ Text.Decimal.text shard.toNat ++ "/raw/"
  | .observer => "internal/raw/"

/-- The path of a route, without a slash in front. -/
def path (entity : Entity) : Route → String
  | networkConfig => "network/config"
  | networkEconomics => "network/economics"
  | ratingsConfig => "network/ratings"
  | enableEpochs => "network/enable-epochs"
  | genesisNodes => "network/genesis-nodes"
  | networkStatus shard =>
    match entity with
    | .proxy => "network/status/" ++ Text.Decimal.text shard.toNat
    | .observer => "node/status"
  | account address => "address/" ++ address
  | transactionCost => "transaction/cost"
  | sendTransaction => "transaction/send"
  | sendTransactions => "transaction/send-multiple"
  | transactionStatus hash => "transaction/" ++ hash ++ "/status"
  | transactionInfo hash withResults =>
    "transaction/" ++ hash ++ if withResults then "?withResults=true" else ""
  | hyperblockByNonce nonce => "hyperblock/by-nonce/" ++ Text.Decimal.text nonce.toNat
  | hyperblockByHash hash => "hyperblock/by-hash/" ++ hash
  | blockByHash shard hash => internal entity shard ++ "block/by-hash/" ++ hash
  | blockByNonce shard nonce =>
    internal entity shard ++ "block/by-nonce/" ++ Text.Decimal.text nonce.toNat
  | miniblockByHash shard hash epoch =>
    internal entity shard ++ "miniblock/by-hash/" ++ hash ++ "/epoch/" ++
      Text.Decimal.text epoch.toNat
  | startOfEpochBlock epoch =>
    "internal/raw/startofepoch/metablock/by-epoch/" ++ Text.Decimal.text epoch.toNat
  | vmQuery => "vm-values/query"

/-- Whether the shard in a status must be the one that was asked for. A proxy sees to that itself.
-/
def checksShard : Entity → Bool
  | .proxy => false
  | .observer => true

end Route

end ShardNet
