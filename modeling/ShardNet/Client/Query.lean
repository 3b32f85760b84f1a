-- SUMMARY: Running read-only queries of contracts.
import ShardNet.Client

/-!
# Contract queries of a client

A query is posted only after the shard of the contract has passed the finality check of the client.
-/

namespace ShardNet.Client

def runQuery (client : Client) (query : VmQuery) : Operation VmOutput := do
  let contract ← Call.ofExcept ((Address.ofBech32 query.contract).mapError .address)
  client.checkAddressFinality contract
  client.post .vmQuery (query.body client.flags) VmOutput.codec (some "data")

end ShardNet.Client
