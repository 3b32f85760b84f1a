-- SUMMARY: Read-only queries of contracts: the request, the output, and the views of what it returns.
import ShardNet.Exchange
import ShardNet.Json.Record
import ShardNet.Text.Hex

/-!
# Contract queries

A query goes out with two flags beside its own fields. Its output holds the returned byte strings,
of which the first can be seen as a number, in decimal, as text and in hexadecimal. A contract that
returns nothing may say null.
-/

namespace ShardNet

open Json (Codec)

/-! ## Requests -/

structure VmQuery where
  contract : String
  function : String
  caller : String
  value : String
  /-- The arguments in hexadecimal. -/
  arguments : List String
  deriving DecidableEq, Repr

namespace VmQuery

def record : Json.Record VmQuery VmQuery :=
  Json.Record.of VmQuery.mk
    |>.required "scAddress" (·.contract) Codec.text
    |>.required "funcName" (·.function) Codec.text
    |>.omitted "caller" (·.caller) Codec.text ""
    |>.omitted "value" (·.value) Codec.text ""
    |>.withDefault "args" (·.arguments) (Codec.list Codec.text) []

def codec : Codec VmQuery := record.codec

/-- How a query is to be run. -/
structure Flags where
  /-- All of it against one state. -/
  sameState : Bool
  /-- Only by a node that is in sync. -/
  synced : Bool
  deriving DecidableEq, Repr

/-- The fields of a query, with the flags behind them. -/
def body (query : VmQuery) (flags : Flags) : Json :=
  .obj <| record.write query ++
    [("sameScState", .bool flags.sameState), ("shouldBeSynced", .bool flags.synced)]

end VmQuery

/-! ## Output -/

structure VmOutput where
  returnData : List Bytes
  returnCode : String
  returnMessage : String
  gasRemaining : UInt64
  gasRefund : Json
  outputAccounts : Json
  logs : Json

namespace VmOutput

def record : Json.Record VmOutput VmOutput :=
  Json.Record.of VmOutput.mk
    |>.withDefault "returnData" (·.returnData) (Codec.nullAs [] (Codec.list Codec.bytes)) []
    |>.withDefault "returnCode" (·.returnCode) Codec.text ""
    |>.withDefault "returnMessage" (·.returnMessage) Codec.text ""
    |>.withDefault "gasRemaining" (·.gasRemaining) Codec.uint64 0
    |>.withDefault "gasRefund" (·.gasRefund) Codec.any .null
    |>.withDefault "outputAccounts" (·.outputAccounts) Codec.any .null
    |>.withDefault "logs" (·.logs) Codec.any .null

def codec : Codec VmOutput := record.codec

def isOk (output : VmOutput) : Bool := output.returnCode = "ok"

/-- The first returned byte string. -/
def first? (output : VmOutput) : Option Bytes := output.returnData.head?

/-- A view of the first returned byte string. -/
inductive View where
  | number
  | decimal
  | text
  | hex
  deriving DecidableEq, Repr

/-- What a view shows. -/
inductive Seen where
  | number (value : Nat)
  | text (value : String)
  deriving DecidableEq, Repr

/-- Why a view shows nothing. -/
inductive ViewFault where
  | noData
  | notText (cause : Text.Utf8.Fault)
  deriving DecidableEq, Repr

def ViewFault.message : ViewFault → String
  | .noData => "no return data"
  | .notText cause => cause.message

/-- Looks at the first returned byte string. -/
def view (output : VmOutput) (view : View) : Except ViewFault Seen :=
  match output.first? with
  | none => .error .noData
  | some bytes =>
    match view with
    | .number => .ok (.number bytes.toNatBE)
    | .decimal => .ok (.text (Text.Decimal.text bytes.toNatBE))
    | .text =>
      match Text.Utf8.decode bytes with
      | .ok text => .ok (.text (String.ofList text))
      | .error cause => .error (.notText cause)
    | .hex => .ok (.text (Text.Hex.text bytes))

/-- A view as a caller gets it: a response in which there is nothing to see is invalid. -/
def returned (output : VmOutput) (view : View) : Except Exchange.Fault Seen :=
  (output.view view).mapError fun fault => .invalidResponse fault.message

end VmOutput

end ShardNet
