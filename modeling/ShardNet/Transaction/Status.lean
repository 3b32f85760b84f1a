-- SUMMARY: How far a transaction has come, and the estimated cost of one.
import ShardNet.Json.Record

/-!
# Transaction status

A status that the client does not know is `unknown`. All others but `pending` are final.
-/

namespace ShardNet

inductive TransactionStatus where
  | pending
  | success
  | fail
  | invalid
  | rewardReverted
  | unknown
  deriving DecidableEq, Repr

namespace TransactionStatus

def name : TransactionStatus → String
  | .pending => "pending"
  | .success => "success"
  | .fail => "fail"
  | .invalid => "invalid"
  | .rewardReverted => "reward-reverted"
  | .unknown => "unknown"

def ofName (name : String) : TransactionStatus :=
  match name with
  | "pending" => .pending
  | "success" => .success
  | "fail" => .fail
  | "invalid" => .invalid
  | "reward-reverted" => .rewardReverted
  | _ => .unknown

def codec : Json.Codec TransactionStatus := .named name fun name => some (ofName name)

/-- Whether the transaction keeps this status. -/
def isFinal : TransactionStatus → Bool
  | .success | .fail | .invalid | .rewardReverted => true
  | .pending | .unknown => false

end TransactionStatus

/-- The estimated cost of a transaction. -/
structure TransactionCost where
  gasUnits : UInt64
  returnMessage : String
  deriving DecidableEq, Repr

namespace TransactionCost

open Json (Codec)

def record : Json.Record TransactionCost TransactionCost :=
  Json.Record.of TransactionCost.mk
    |>.withDefault "txGasUnits" (·.gasUnits) Codec.uint64 0
    |>.withDefault "returnMessage" (·.returnMessage) Codec.text ""

def codec : Codec TransactionCost := record.codec

end TransactionCost

end ShardNet
