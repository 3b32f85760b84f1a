-- SUMMARY: Everything that can go wrong, and the message for it.
import ShardNet.Exchange
import ShardNet.Finality
import ShardNet.Key
import ShardNet.Shard.Coordinator
import ShardNet.Text.Duration

/-!
# Errors

An `Error` is the cause of a failure with what the message says about it. Causes that belong to one
part of the library are defined there.
-/

namespace ShardNet

inductive Error where
  | config (text : String)
  | cacheExpiry (provided : Duration)
  | allowedDelta (provided : UInt64)
  | unknownEntity (text : String)
  | noNetworkConfig
  | noAddress
  | invalidBalance (text : String)
  | exchange (cause : Exchange.Fault)
  | sharding (cause : Coordinator.Fault)
  | finality (cause : Finality.Fault)
  | address (cause : Address.Fault)
  | key (cause : SecretKey.Fault)
  | signing (cause : SigningFault)
  deriving DecidableEq, Repr

/-- The shortest time for which the network configuration may be kept. -/
def minCacheExpiry : Duration := .ofSeconds 1

namespace Error

def message : Error → String
  | .config text => s!"Invalid configuration: {text}"
  | .cacheExpiry provided =>
    s!"Invalid cache expiration: provided {provided.text}, minimum {minCacheExpiry.text}"
  | .allowedDelta provided =>
    s!"Invalid allowed delta to final: provided {provided.toNat}, minimum {Finality.minDelta.toNat}"
  | .unknownEntity text => s!"Unknown REST API entity type: '{text}'"
  | .noNetworkConfig => "Nil network configs"
  | .noAddress => "Nil address"
  | .invalidBalance text => s!"Invalid balance: '{text}'"
  | .exchange cause => cause.message
  | .sharding cause => cause.message
  | .finality cause => cause.message
  | .address cause => cause.message
  | .key cause => cause.message
  | .signing cause => cause.message

def isSyncing : Error → Bool
  | .finality cause => cause.isSyncing
  | _ => false

def isStuck : Error → Bool
  | .finality cause => cause.isStuck
  | _ => false

/-- Reads the name of a kind of service. -/
def readEntity (text : String) : Except Error Entity :=
  match Entity.read? text with
  | some entity => .ok entity
  | none => .error (.unknownEntity text)

end Error

end ShardNet
