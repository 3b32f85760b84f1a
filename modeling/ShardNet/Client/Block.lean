-- SUMMARY: Asking for blocks, decoded and as stored bytes.
import ShardNet.Block
import ShardNet.Client

/-!
# Blocks of the network

Hyperblocks come decoded. Blocks and miniblocks come as they are stored, in base64.
-/

namespace ShardNet.Client

open Json (Codec)

/-- The nonce of the last block of the metachain. -/
def latestHyperblockNonce (client : Client) : Operation UInt64 := do
  return (← client.networkStatus .metachain).nonce

def hyperblockByNonce (client : Client) (nonce : UInt64) : Operation Hyperblock :=
  client.get (.hyperblockByNonce nonce) Hyperblock.codec "hyperblock"

def hyperblockByHash (client : Client) (hash : String) : Operation Hyperblock :=
  client.get (.hyperblockByHash hash) Hyperblock.codec "hyperblock"

/-- Gets stored bytes. -/
def stored (client : Client) (route : Route) (field : String) : Operation Bytes := do
  let text ← client.get route Codec.text field
  match Text.Base64.decode .required text.toList with
  | .ok bytes => return bytes
  | .error cause =>
    throw (.exchange (.invalidResponse s!"invalid base64 in '{field}': {cause.message}"))

def blockByHash (client : Client) (shard : ShardId) (hash : String) : Operation Bytes :=
  client.stored (.blockByHash shard hash) "block"

def blockByNonce (client : Client) (shard : ShardId) (nonce : UInt64) : Operation Bytes :=
  client.stored (.blockByNonce shard nonce) "block"

def miniblockByHash (client : Client) (shard : ShardId) (hash : String) (epoch : UInt32) :
    Operation Bytes :=
  client.stored (.miniblockByHash shard hash epoch) "miniblock"

/-- The block of the metachain that starts an epoch. -/
def startOfEpochBlock (client : Client) (epoch : UInt32) : Operation Bytes :=
  client.stored (.startOfEpochBlock epoch) "block"

end ShardNet.Client
