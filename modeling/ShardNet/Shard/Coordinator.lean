-- SUMMARY: Which shard an address belongs to, in a network of a fixed number of shards.
import ShardNet.Address
import ShardNet.Shard

/-!
# The shard of an address

The last bytes of an address, as many as the number of shards needs, make a word. Its lowest bits,
as many as cover the number of shards, are the shard; where they point past the last shard, one bit
less is taken. Contracts on the metachain belong to the metachain.
-/

namespace ShardNet

-- A power is that of the core library, whatever is imported beside it.
attribute [local instance (2000)] instPowNat

/-- A network of `shards` shards, the metachain not counted, seen from one of them or from the
metachain. -/
structure Coordinator where
  shards : UInt32
  self : ShardId
  deriving DecidableEq, Repr

namespace Coordinator

inductive Fault where
  | noShards
  | invalidShard (shard : ShardId) (shards : UInt32)
  | emptyAddress
  deriving DecidableEq, Repr

def Fault.message : Fault → String
  | .noShards => "The number of shards must be greater than zero"
  | .invalidShard shard shards =>
    s!"Shard id {shard.toNat} must be smaller than the total number of shards ({shards.toNat})"
  | .emptyAddress => "Invalid address: address bytes are empty"

def make (shards : UInt32) (self : ShardId) : Except Fault Coordinator :=
  if shards = 0 then .error .noShards
  else if shards ≤ self ∧ self ≠ .metachain then .error (.invalidShard self shards)
  else .ok ⟨shards, self⟩

/-- How many bits tell so many shards apart. -/
def width (shards : UInt32) : Nat := if shards ≤ 1 then 0 else (shards.toNat - 1).log2 + 1

/-- How many bytes at the end of an address tell so many shards apart; at least one. -/
def identifierSize (shards : UInt32) : Nat :=
  if shards.toNat ≤ 2 ^ (8 : Nat) then 1
  else if shards.toNat ≤ 2 ^ (16 : Nat) then 2
  else if shards.toNat ≤ 2 ^ (24 : Nat) then 3
  else 4

/-- The end of an address that decides on its shard. -/
def identifier (shards : UInt32) (address : Bytes) : Bytes :=
  address.drop (address.length - identifierSize shards)

/-- The word whose bytes are those of an identifier, the first one most significant. -/
def word (identifier : Bytes) : UInt64 :=
  identifier.foldl (fun word byte => word <<< 8 ||| byte.toUInt64) 0

/-- The word that has its lowest `width` bits set. -/
def mask (width : Nat) : UInt64 := (1 <<< UInt64.ofNat width) - 1

/-- The shard of a word: its lowest bits, one bit less where they reach past the last shard. -/
def fold (shards : UInt32) (word : UInt64) : UInt64 :=
  let full := word &&& mask (width shards)
  if shards.toUInt64 - 1 < full then word &&& mask (width shards - 1) else full

/-- The shard of an address. -/
def shardOf (coordinator : Coordinator) (address : Bytes) : Except Fault ShardId :=
  let identifier := identifier coordinator.shards address
  if address.isEmpty then .error .emptyAddress
  else if Address.isMetachainContract identifier address then .ok .metachain
  else .ok (fold coordinator.shards (word identifier)).toUInt32

/-- Whether two addresses belong to the same shard. Equal addresses do, without a look at them. -/
def sameShard (coordinator : Coordinator) (a b : Bytes) : Except Fault Bool :=
  if a = b then .ok true
  else do
    let shardOfA ← coordinator.shardOf a
    let shardOfB ← coordinator.shardOf b
    return shardOfA = shardOfB

/-- The name of the channel from here to another shard. -/
def channelTo (coordinator : Coordinator) (shard : ShardId) : String :=
  coordinator.self.channel shard

end Coordinator

end ShardNet
