-- SUMMARY: Transactions as they are sent, and the bytes that are signed.
import ShardNet.Json.Record

/-!
# Transactions

A transaction travels as a JSON object with its fields in a fixed order; gas, data, signature and
options are left out when they are zero or empty. What is signed is the same text without the
signature.
-/

namespace ShardNet

structure Transaction where
  nonce : UInt64
  /-- Amount in the smallest denomination, as decimal text. -/
  value : String
  receiver : String
  sender : String
  gasPrice : UInt64
  gasLimit : UInt64
  data : Bytes
  /-- The signature in hexadecimal; empty until the transaction is signed. -/
  signature : String
  chainId : String
  version : UInt32
  options : UInt32
  deriving DecidableEq, Repr

namespace Transaction

open Json (Codec)

def record : Json.Record Transaction Transaction :=
  Json.Record.of Transaction.mk
    |>.required "nonce" (·.nonce) Codec.uint64
    |>.required "value" (·.value) Codec.text
    |>.required "receiver" (·.receiver) Codec.text
    |>.required "sender" (·.sender) Codec.text
    |>.omitted "gasPrice" (·.gasPrice) Codec.uint64 0
    |>.omitted "gasLimit" (·.gasLimit) Codec.uint64 0
    |>.omitted "data" (·.data) Codec.bytes []
    |>.omitted "signature" (·.signature) Codec.text ""
    |>.required "chainID" (·.chainId) Codec.text
    |>.required "version" (·.version) Codec.uint32
    |>.omitted "options" (·.options) Codec.uint32 0

def codec : Codec Transaction := record.codec

/-- The text in which a transaction travels. -/
def wire (tx : Transaction) : List Char := (codec.write tx).write

/-- The text that is signed: the transaction without its signature. -/
def signingText (tx : Transaction) : List Char := { tx with signature := "" }.wire

/-- The bytes that are signed. -/
def signingPayload (tx : Transaction) : Bytes := Text.Utf8.encode tx.signingText

def isSigned (tx : Transaction) : Bool := tx.signature ≠ ""

end Transaction

end ShardNet
