-- SUMMARY: What a transaction is built from, with the gas, chain and version of a network filled in.
import ShardNet.Error
import ShardNet.Network.Config

/-!
# Transaction arguments

The network configuration fixes the gas, the chain and the version of a transaction, and its sender
is an address. The rest is left to the caller.
-/

namespace ShardNet

structure TransactionArguments where
  nonce : UInt64
  value : String
  receiver : String
  sender : String
  gasPrice : UInt64
  gasLimit : UInt64
  data : Bytes
  chainId : String
  version : UInt32
  options : UInt32
  deriving DecidableEq, Repr

namespace TransactionArguments

/-- The arguments of a sender in a network. Of two missing inputs the network is reported. -/
def ofNetworkConfig (sender : Option Address) (config : Option NetworkConfig) :
    Except Error TransactionArguments :=
  match config, sender with
  | none, _ => .error .noNetworkConfig
  | some _, none => .error .noAddress
  | some config, some sender =>
    match sender.bech32 with
    | .error cause => .error (.address cause)
    | .ok sender =>
      .ok
        { nonce := 0
          value := ""
          receiver := ""
          sender := sender
          gasPrice := config.minGasPrice
          gasLimit := config.minGasLimit
          data := []
          chainId := config.chainId
          version := config.minTransactionVersion
          options := 0 }

/-- The arguments with a receiver. -/
def withReceiver (arguments : TransactionArguments) (receiver : Address) :
    Except Error TransactionArguments :=
  match receiver.bech32 with
  | .error cause => .error (.address cause)
  | .ok receiver => .ok { arguments with receiver := receiver }

/-- The transaction of the arguments, not signed. -/
def transaction (arguments : TransactionArguments) : Transaction where
  nonce := arguments.nonce
  value := arguments.value
  receiver := arguments.receiver
  sender := arguments.sender
  gasPrice := arguments.gasPrice
  gasLimit := arguments.gasLimit
  data := arguments.data
  signature := ""
  chainId := arguments.chainId
  version := arguments.version
  options := arguments.options

end TransactionArguments

end ShardNet
