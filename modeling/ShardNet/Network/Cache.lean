-- SUMMARY: A network configuration that is kept for a fixed time.
import ShardNet.Error
import ShardNet.Network.Config

/-!
# Configuration cache

The cache holds at most one configuration, and the moment it was stored. It is fresh until it is
older than the expiry of the cache.
-/

namespace ShardNet

/-- A moment, in nanoseconds from some fixed one. -/
abbrev Moment := Nat

structure ConfigCache where
  expiry : Duration
  entry : Option (NetworkConfig × Moment)

namespace ConfigCache

/-- An empty cache. -/
def make (expiry : Duration) : Except Error ConfigCache :=
  if expiry < minCacheExpiry then .error (.cacheExpiry expiry) else .ok ⟨expiry, none⟩

/-- The configuration, while it is fresh. -/
def fresh? (cache : ConfigCache) (now : Moment) : Option NetworkConfig :=
  match cache.entry with
  | some (config, stored) => if now - stored ≤ cache.expiry then some config else none
  | none => none

def store (cache : ConfigCache) (config : NetworkConfig) (now : Moment) : ConfigCache :=
  { cache with entry := some (config, now) }

def clear (cache : ConfigCache) : ConfigCache := { cache with entry := none }

def description (cache : ConfigCache) : String :=
  "ConfigCache \x7b expiry: " ++ cache.expiry.text ++ " \x7d"

end ConfigCache

end ShardNet
