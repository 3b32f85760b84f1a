-- SUMMARY: A client of a service: its settings, and how it asks for a value.
import ShardNet.Envelope
import ShardNet.Finality.Check
import ShardNet.Network.Current
import ShardNet.Network.Epochs
import ShardNet.Network.Genesis
import ShardNet.Network.Ratings
import ShardNet.Route
import ShardNet.Vm

/-!
# Clients

A client talks to one service. Every operation is a call: it sends requests, and takes what it is
after out of the envelopes of the responses. The configuration of the network is kept in the memory
that the calls share; everything else is asked for anew.
-/

namespace ShardNet

structure Client where
  url : String
  entity : Entity
  policy : Finality.Policy
  /-- How far a shard may be from what is final. -/
  delta : UInt64
  cacheExpiry : Duration
  flags : VmQuery.Flags

namespace Client

open Json (Codec)

/-- An operation of a client. -/
abbrev Operation := Call Request Answer

def description (client : Client) : String :=
  "ProxyClient \x7b url: " ++ Text.Quoted.text client.url
    ++ ", entity_type: " ++ client.entity.kind
    ++ ", finality: " ++ client.policy.description
    ++ ", allowed_delta_to_final: " ++ Text.Decimal.text client.delta.toNat ++ " \x7d"

/-! ## Asking -/

/-- Sends a request, and takes a value out of the response. -/
def exchange {α : Type} (request : Request) (codec : Codec α) (field : Option String) :
    Operation α := do
  match ← Call.ask request with
  | .error cause => throw (.exchange cause)
  | .ok response =>
    match Envelope.decode codec field response with
    | .error cause => throw (.exchange cause)
    | .ok value => return value

/-- Gets the member `field` of the data of a route. -/
def get {α : Type} (client : Client) (route : Route) (codec : Codec α) (field : String) :
    Operation α :=
  exchange ⟨.get, route.path client.entity, none⟩ codec (some field)

/-- Posts a JSON value to a route, and takes a value out of the response. -/
def post {α : Type} (client : Client) (route : Route) (body : Json) (codec : Codec α)
    (field : Option String) : Operation α :=
  exchange ⟨.post, route.path client.entity, some (Text.Utf8.encode body.write)⟩ codec field

/-! ## The network -/

/-- The parameters of the network, from the cache while they are fresh. -/
def networkConfig (client : Client) : Operation NetworkConfig :=
  currentConfig (client.get .networkConfig NetworkConfig.codec "config")

/-- Makes the next call that needs the parameters of the network ask for them. -/
def invalidateNetworkConfig : Operation Unit := Call.access .clearConfig

def networkEconomics (client : Client) : Operation NetworkEconomics :=
  client.get .networkEconomics NetworkEconomics.codec "metrics"

def ratingsConfig (client : Client) : Operation RatingsConfig :=
  client.get .ratingsConfig RatingsConfig.codec "config"

def enableEpochs (client : Client) : Operation EnableEpochs :=
  client.get .enableEpochs EnableEpochs.codec "enableEpochs"

def genesisNodes (client : Client) : Operation GenesisNodes :=
  client.get .genesisNodes GenesisNodes.codec "nodes"

/-- The member that holds the status of a shard. -/
def statusField : Entity → String
  | .proxy => "status"
  | .observer => "metrics"

/-- The status of a shard. An observer has to belong to that shard. -/
def networkStatus (client : Client) (shard : ShardId) : Operation NetworkStatus := do
  let status ← client.get (.networkStatus shard) NetworkStatus.codec (statusField client.entity)
  if Route.checksShard client.entity ∧ status.shardId ≠ shard then
    throw (.exchange (.wrongShard shard status.shardId))
  return status

/-- The nonce of the first block of the current epoch. -/
def nonceAtEpochStart (client : Client) (shard : ShardId) : Operation UInt64 := do
  return (← client.networkStatus shard).nonceAtEpochStart

/-! ## Shards and finality -/

def checkShardFinality (client : Client) (shard : ShardId) : Operation Unit :=
  Finality.check client.networkStatus client.policy shard client.delta

/-- The shard of an address, by the number of shards of the network. -/
def shardOfAddress (client : Client) (address : Address) : Operation ShardId := do
  let config ← client.networkConfig
  let shard := do
    let coordinator ← Coordinator.make config.numShardsWithoutMeta 0
    coordinator.shardOf address.bytes
  Call.ofExcept (shard.mapError .sharding)

/-- Checks that the shard of an address is final, if the client checks at all. -/
def checkAddressFinality (client : Client) (address : Address) : Operation Unit := do
  if client.policy.isEnabled then
    let shard ← client.shardOfAddress address
    client.checkShardFinality shard

end Client

end ShardNet
