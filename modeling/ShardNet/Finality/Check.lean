-- SUMMARY: Checking that a shard is final, by the reports that the policy calls for.
import ShardNet.Error

/-!
# Checking finality

The policy follows from the kind of service. Under `disabled` every shard passes, without a look.
The metachain notarises itself, so a proxy is not asked about it.
-/

namespace ShardNet.Finality

/-- How shards are judged. -/
inductive Policy where
  | disabled
  /-- By what the observer reports of itself. -/
  | observer
  /-- By what the metachain has notarised. -/
  | proxy
  deriving DecidableEq, Repr

namespace Policy

def ofEntity (entity : Entity) (enabled : Bool) : Policy :=
  match entity, enabled with
  | _, false => disabled
  | .observer, true => observer
  | .proxy, true => proxy

def isEnabled (policy : Policy) : Bool := policy ≠ disabled

def description : Policy → String
  | disabled => "FinalityProvider(\"Disabled\")"
  | observer => "FinalityProvider(\"Node\")"
  | proxy => "FinalityProvider(\"Proxy\")"

end Policy

/-- A verdict as the result of a call. -/
def conclude {m : Type → Type} [Monad m] {α : Type} (verdict : Except Fault α) :
    ExceptT Error m α :=
  ExceptT.mk (pure (verdict.mapError Error.finality))

/-- Checks that a shard is within `delta` of what is final. `status` reports on a shard. -/
def check {m : Type → Type} [Monad m] (status : ShardId → ExceptT Error m NetworkStatus)
    (policy : Policy) (shard : ShardId) (delta : UInt64) : ExceptT Error m Unit :=
  match policy with
  | .disabled => return ()
  | .observer => do
    conclude (checkDelta delta)
    let report ← status shard
    conclude (judgeObserver shard report delta)
  | .proxy => do
    conclude (checkDelta delta)
    if shard = .metachain then return ()
    let metachain ← status .metachain
    let notarised ← conclude (notarisedNonce metachain.crossCheckBlockHeight shard)
    let report ← status shard
    conclude (judgeNotarised shard notarised report.nonce delta)

end ShardNet.Finality
