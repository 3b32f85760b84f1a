-- SUMMARY: Asking for accounts.
import ShardNet.Account
import ShardNet.Client

/-!
# Accounts of the network

An account is asked for only after its shard has passed the finality check of the client.
-/

namespace ShardNet.Client

def account (client : Client) (address : Address) : Operation Account := do
  if ¬ address.isValid then throw (.address (.invalidLength address.bytes.length))
  client.checkAddressFinality address
  let text ← Call.ofExcept (address.bech32.mapError .address)
  client.get (.account text) Account.codec "account"

/-- The balance of an account in the smallest denomination. -/
def balance (client : Client) (address : Address) : Operation Amount := do
  let account ← client.account address
  match account.amount? with
  | some amount => return amount
  | none => throw (.invalidBalance account.balance)

end ShardNet.Client
