-- SUMMARY: What a client is made from: defaults, public gateways, checks, and settings from the environment.
import ShardNet.Client

/-!
# Settings

A client needs an address. Everything else has a default: a proxy, a minute for the cached
configuration and for a request, and no finality check.

`Environment.settings` reads settings from a person's environment. A variable that is set has to
make sense, and the distance from what is final makes sense only where finality is checked.
-/

namespace ShardNet

/-- A public proxy. -/
structure Gateway where
  name : String
  url : String

namespace Gateway

def mainnet : Gateway := ⟨"mainnet", "https://gateway.multiversx.com"⟩

def testnet : Gateway := ⟨"testnet", "https://testnet-gateway.multiversx.com"⟩

def devnet : Gateway := ⟨"devnet", "https://devnet-gateway.multiversx.com"⟩

def all : List Gateway := [mainnet, testnet, devnet]

/-- The address under which a network is known, or the text itself where it is no such name. -/
def resolve (text : String) : String :=
  match all.find? (·.name = text) with
  | some gateway => gateway.url
  | none => text

end Gateway

structure Settings where
  url : String
  entity : Entity
  cacheExpiry : Duration
  /-- How far a shard may be from what is final; `none` where finality is not checked. -/
  finality : Option UInt64
  timeout : Duration
  flags : VmQuery.Flags

namespace Settings

/-- How long the configuration is kept by default. -/
def defaultCacheExpiry : Duration := .ofSeconds 60

/-- How long a request may take by default. -/
def defaultTimeout : Duration := .ofSeconds 60

/-- How far a shard may be from what is final where the environment does not say. -/
def defaultDelta : UInt64 := 7

/-- The settings of a service of which only the address is known. -/
def ofUrl (url : String) : Settings where
  url := url
  entity := .proxy
  cacheExpiry := defaultCacheExpiry
  finality := none
  timeout := defaultTimeout
  flags := ⟨false, false⟩

/-- The client of the settings, and the memory that its calls share. -/
def build (settings : Settings) : Except Error (Client × Memory) := do
  if let some delta := settings.finality then
    if delta < Finality.minDelta then throw (.allowedDelta delta)
  let cache ← ConfigCache.make settings.cacheExpiry
  let client : Client :=
    { url := settings.url
      entity := settings.entity
      policy := .ofEntity settings.entity settings.finality.isSome
      delta := settings.finality.getD 0
      cacheExpiry := settings.cacheExpiry
      flags := settings.flags }
  return (client, ⟨0, cache, .empty⟩)

end Settings

/-! ## The environment -/

/-- The variables that settings are read from. -/
structure Environment where
  url : Option String
  entity : Option String
  cacheSeconds : Option String
  finality : Option String
  delta : Option String

namespace Environment

/-- A variable that does not make sense. -/
inductive Fault where
  | cacheSeconds (text : String)
  | finality (word : String)
  | delta (text : String)
  | deltaWithoutFinality
  deriving DecidableEq, Repr

def Fault.message : Fault → String
  | .cacheSeconds text => s!"ERD_CACHE_EXPIRATION_SECS is not a number: '{text}'"
  | .finality word => s!"ERD_FINALITY_CHECK must be 'true' or 'false', got '{word}'"
  | .delta text => s!"ERD_ALLOWED_DELTA_TO_FINAL is not a number: '{text}'"
  | .deltaWithoutFinality =>
    "ERD_ALLOWED_DELTA_TO_FINAL is set but ERD_FINALITY_CHECK is not 'true'"

/-- Reads a number of 64 bits, possibly between blanks. -/
def readNumber (text : String) (fault : String → Fault) : Except Fault UInt64 :=
  match Text.Decimal.readUnsigned UInt64 (Text.trim text.toList) with
  | .ok value => .ok value
  | .error _ => .error (fault text)

def readCacheExpiry : Option String → Except Fault Duration
  | none => .ok Settings.defaultCacheExpiry
  | some text => return .ofSeconds (← readNumber text .cacheSeconds).toNat

/-- Whether finality is to be checked. -/
def readFinality : Option String → Except Fault Bool
  | none => .ok false
  | some text =>
    match String.ofList (Text.trim text.toList) with
    | "false" => .ok false
    | "true" => .ok true
    | word => .error (.finality word)

/-- How far a shard may be from what is final, if that is to be checked at all. -/
def readDelta (finality : Bool) (delta : Option String) : Except Fault (Option UInt64) :=
  match finality, delta with
  | true, some text => return some (← readNumber text .delta)
  | true, none => .ok (some Settings.defaultDelta)
  | false, some _ => .error .deltaWithoutFinality
  | false, none => .ok none

/-- The settings of an environment, or the first variable that does not make sense. -/
def settings (environment : Environment) : Except Error Settings := do
  let entity ← environment.entity.elim (.ok .proxy) Error.readEntity
  let explain (fault : Fault) : Error := .config fault.message
  let cacheExpiry ← (readCacheExpiry environment.cacheSeconds).mapError explain
  let finality ← (readFinality environment.finality).mapError explain
  let delta ← (readDelta finality environment.delta).mapError explain
  return { Settings.ofUrl (Gateway.resolve (environment.url.getD Gateway.testnet.name)) with
    entity := entity, cacheExpiry := cacheExpiry, finality := delta }

end Environment

end ShardNet
