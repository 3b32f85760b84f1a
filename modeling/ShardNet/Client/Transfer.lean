-- SUMMARY: Sending transactions, following them, and transferring value.
import ShardNet.Client.Account
import ShardNet.Nonce.Reserve
import ShardNet.Transaction.Arguments
import ShardNet.Transaction.OnNetwork

/-!
# Transactions of a client

`Client.transfer` is the whole way from a key to a hash: the nonce comes from the shared book, is
taken from the account when the sender is not in step with the network, and is given up again when
the transaction cannot be signed or sent.
-/

namespace ShardNet

open Json (Codec)

/-- What a service answers to a batch of transactions. -/
structure SentBatch where
  count : UInt64
  /-- The hashes of the accepted transactions, by their place in the batch. -/
  hashes : Table UInt64 String

namespace SentBatch

def record : Json.Record SentBatch SentBatch :=
  Json.Record.of SentBatch.mk
    |>.withDefault "numOfSentTxs" (·.count) Codec.uint64 0
    |>.required "txsHashes" (·.hashes) (Codec.table UInt64 Codec.text)

def codec : Codec SentBatch := record.codec

end SentBatch

namespace Client

/-- The arguments of a sender, filled in from the parameters of the network. -/
def defaultArguments (client : Client) (sender : Address) : Operation TransactionArguments := do
  let config ← client.networkConfig
  Call.ofExcept (TransactionArguments.ofNetworkConfig (some sender) (some config))

/-- Sends a signed transaction; the answer is its hash. -/
def sendTransaction (client : Client) (tx : Transaction) : Operation String :=
  client.post .sendTransaction (Transaction.codec.write tx) Codec.text (some "txHash")

/-- Sends signed transactions; the answer are the hashes of those that were accepted, in the order
of the batch. -/
def sendTransactions (client : Client) (txs : List Transaction) : Operation (List String) := do
  let sent ← client.post .sendTransactions ((Codec.list Transaction.codec).write txs)
    SentBatch.codec none
  return sent.hashes.values

def transactionStatus (client : Client) (hash : String) : Operation TransactionStatus :=
  client.get (.transactionStatus hash) TransactionStatus.codec "status"

/-- A transaction as the network reports it, possibly with the results of contracts. -/
def transactionInfo (client : Client) (hash : String) (withResults : Bool) :
    Operation ReportedTransaction :=
  client.get (.transactionInfo hash withResults) ReportedTransaction.codec "transaction"

def transactionCost (client : Client) (tx : Transaction) : Operation TransactionCost :=
  client.post .transactionCost (Transaction.codec.write tx) TransactionCost.codec none

/-- Transfers value to a receiver; the answer is the hash of the transaction. -/
def transfer (client : Client) (signer : Signer) (receiver : Address) (value : String) :
    Operation String := do
  if ¬ receiver.isValid then throw (.address (.invalidLength receiver.bytes.length))
  let defaults ← client.defaultArguments signer.address
  let arguments ← Call.ofExcept (defaults.withReceiver receiver)
  let nonce ← reserveNonce signer.address do
    return (← client.account signer.address).nonce
  let tx := { arguments with value := value, nonce := nonce }.transaction
  match signer.key.signTransaction tx with
  | .error cause =>
    abandonNonce signer.address nonce
    throw (.signing cause)
  | .ok signed =>
    tryCatch (client.sendTransaction signed) fun failure => do
      abandonNonce signer.address nonce
      throw failure

end Client

end ShardNet
