-- SUMMARY: Transactions as the network reports them, with the results of contracts.
import ShardNet.Json.Record
import ShardNet.Shard
import ShardNet.Transaction.Status

/-!
# Reported transactions

A report may lack any of its fields. Values, and the gas price, arrive as numbers or as texts.
-/

namespace ShardNet

open Json (Codec)

/-- What a contract did in reply to a transaction. -/
structure ContractResult where
  hash : String
  nonce : UInt64
  value : Amount
  receiver : String
  sender : String
  data : String
  prevTxHash : String
  firstTxHash : String
  gasLimit : UInt64
  gasPrice : UInt64
  callType : UInt32
  returnMessage : String
  deriving DecidableEq, Repr

namespace ContractResult

def record : Json.Record ContractResult ContractResult :=
  Json.Record.of ContractResult.mk
    |>.withDefault "hash" (·.hash) Codec.text ""
    |>.withDefault "nonce" (·.nonce) Codec.uint64 0
    |>.withDefault "value" (·.value) (Codec.unsignedOrText Amount) (.ofNat 0)
    |>.withDefault "receiver" (·.receiver) Codec.text ""
    |>.withDefault "sender" (·.sender) Codec.text ""
    |>.withDefault "data" (·.data) Codec.text ""
    |>.withDefault "prevTxHash" (·.prevTxHash) Codec.text ""
    |>.withDefault "originalTxHash" (·.firstTxHash) Codec.text ""
    |>.withDefault "gasLimit" (·.gasLimit) Codec.uint64 0
    |>.withDefault "gasPrice" (·.gasPrice) Codec.uint64 0
    |>.withDefault "callType" (·.callType) Codec.uint32 0
    |>.withDefault "returnMessage" (·.returnMessage) Codec.text ""

def codec : Codec ContractResult := record.codec

end ContractResult

/-- A transaction as the network reports it. -/
structure ReportedTransaction where
  kind : String
  hash : String
  nonce : UInt64
  value : Amount
  receiver : String
  sender : String
  gasPrice : UInt64
  gasLimit : UInt64
  data : Option Bytes
  signature : String
  sourceShard : ShardId
  destinationShard : ShardId
  miniblockType : String
  miniblockHash : String
  status : String
  hyperblockNonce : UInt64
  hyperblockHash : String
  contractResults : List ContractResult
  deriving DecidableEq, Repr

namespace ReportedTransaction

def record : Json.Record ReportedTransaction ReportedTransaction :=
  Json.Record.of ReportedTransaction.mk
    |>.withDefault "type" (·.kind) Codec.text ""
    |>.withDefault "hash" (·.hash) Codec.text ""
    |>.withDefault "nonce" (·.nonce) Codec.uint64 0
    |>.withDefault "value" (·.value) (Codec.unsignedOrText Amount) (.ofNat 0)
    |>.withDefault "receiver" (·.receiver) Codec.text ""
    |>.withDefault "sender" (·.sender) Codec.text ""
    |>.withDefault "gasPrice" (·.gasPrice) (Codec.unsignedOrText UInt64) 0
    |>.withDefault "gasLimit" (·.gasLimit) Codec.uint64 0
    |>.withDefault "data" (·.data) (Codec.option Codec.bytes) none
    |>.withDefault "signature" (·.signature) Codec.text ""
    |>.withDefault "sourceShard" (·.sourceShard) Codec.uint32 0
    |>.withDefault "destinationShard" (·.destinationShard) Codec.uint32 0
    |>.withDefault "miniblockType" (·.miniblockType) Codec.text ""
    |>.withDefault "miniblockHash" (·.miniblockHash) Codec.text ""
    |>.withDefault "status" (·.status) Codec.text ""
    |>.withDefault "hyperblockNonce" (·.hyperblockNonce) Codec.uint64 0
    |>.withDefault "hyperblockHash" (·.hyperblockHash) Codec.text ""
    |>.withDefault "smartContractResults" (·.contractResults) (Codec.list ContractResult.codec) []

def codec : Codec ReportedTransaction := record.codec

/-- The status that the name in the report stands for. -/
def knownStatus (tx : ReportedTransaction) : TransactionStatus := .ofName tx.status

end ReportedTransaction

end ShardNet
