-- SUMMARY: When the state of a shard may be trusted: verdicts on nonces, and the metachain's report on the shards.
import ShardNet.Entity
import ShardNet.Network.Status
import ShardNet.Text.Split

/-!
# Finality

A shard is trusted when its head is close to what is final. There are two ways to judge it.

An observer knows itself: it is syncing when its head is far behind the probable head, and stuck
when its head is far ahead of its own final block. A proxy is judged by the metachain: the shard is
syncing when it is behind the nonce that the metachain has notarised, and stuck when it is far ahead
of it.
-/

namespace ShardNet

namespace Finality

/-- Why the state of a shard is not trusted. -/
inductive Fault where
  | invalidDelta (provided : UInt64)
  | notStarted
  | syncing (shard : ShardId) (reference current delta : UInt64)
  | stuck (shard : ShardId) (reference current delta : UInt64)
  | crossCheck (text : String)
  deriving DecidableEq, Repr

/-- The smallest distance from the final block that a client may allow. -/
def minDelta : UInt64 := 1

namespace Fault

/-- How a shard stands to the nonce it is measured by. -/
def standing (state : String) (shard : ShardId) (reference current delta : UInt64) : String :=
  s!"Shard {shard.toNat} is {state}: reference nonce is {reference.toNat}, " ++
    s!"current nonce is {current.toNat}, max delta: {delta.toNat}"

def message : Fault → String
  | .invalidDelta provided =>
    s!"Invalid allowed delta to final: provided {provided.toNat}, minimum {minDelta.toNat}"
  | .notStarted => "Node not started: current, highest and probable nonces are all zero"
  | .syncing shard reference current delta => standing "syncing" shard reference current delta
  | .stuck shard reference current delta => standing "stuck" shard reference current delta
  | .crossCheck text => s!"Invalid nonce cross check value format: {text}"

def isSyncing : Fault → Bool
  | .syncing .. => true
  | _ => false

def isStuck : Fault → Bool
  | .stuck .. => true
  | _ => false

end Fault

/-! ## Verdicts -/

/-- The sum of two nonces, or the greatest nonce where it lies beyond that. -/
def saturatingAdd (a b : UInt64) : UInt64 :=
  if a.toNat + b.toNat < UInt64.size then a + b else UInt64.ofNat (UInt64.size - 1)

def checkDelta (delta : UInt64) : Except Fault Unit :=
  if delta < minDelta then .error (.invalidDelta delta) else .ok ()

/-- Judges an observer by what it reports of itself. -/
def judgeObserver (shard : ShardId) (status : NetworkStatus) (delta : UInt64) : Except Fault Unit :=
  let current := status.nonce
  let highest := status.highestFinalNonce
  let probable := status.probableHighestNonce
  if current = 0 ∧ highest = 0 ∧ probable = 0 then .error .notStarted
  else if saturatingAdd current delta < probable then .error (.syncing shard probable current delta)
  else if current ≤ saturatingAdd highest delta then .ok ()
  else .error (.stuck shard highest current delta)

/-- Judges a shard by the nonce that the metachain has notarised. -/
def judgeNotarised (shard : ShardId) (notarised current delta : UInt64) : Except Fault Unit :=
  if current < notarised then .error (.syncing shard notarised current delta)
  else if current ≤ saturatingAdd notarised delta then .ok ()
  else .error (.stuck shard notarised current delta)

/-! ## The report of the metachain -/

/-- The first entry of a shard: what stands behind the colon, without blanks. Entries with no colon,
or more than one, are none. -/
def findEntry (shard : List Char) : List (List Char) → Option (List Char)
  | [] => none
  | entry :: rest =>
    match Text.split (· = ':') entry with
    | [name, nonce] =>
      if Text.trim name = shard then some (Text.trim nonce) else findEntry shard rest
    | _ => findEntry shard rest

/-- The nonce that a report such as `0: 500, 1: 510, ` gives for a shard. -/
def notarisedNonce (report : String) (shard : ShardId) : Except Fault UInt64 :=
  if report = "" then .error (.crossCheck "empty value, maybe bad observer version")
  else
    match findEntry (Text.Decimal.digits shard.toNat) (Text.split (· = ',') report.toList) with
    | none =>
      .error (.crossCheck s!"value not found for shard {shard.toNat} from this response: {report}")
    | some nonce =>
      match Text.Decimal.readUnsigned UInt64 nonce with
      | .ok value => .ok value
      | .error _ =>
        let text := String.ofList nonce
        .error (.crossCheck s!"{text} is not a valid number as found in this response: {report}")

end Finality

end ShardNet
