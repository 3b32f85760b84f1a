-- SUMMARY: The network configuration of the moment, from the cache or from the network.
import ShardNet.Program

/-!
# Current configuration

The cache is looked at twice. The first look needs no lock, so that a fresh configuration is had
without waiting. The second look happens under the lock: whoever has waited there while another call
fetched the configuration finds it, and one fetch serves all who wait. A fetch that fails leaves the
cache as it was.
-/

namespace ShardNet

/-- The cached configuration while it is fresh, and a fetched one otherwise. -/
def currentConfig {Query Answer : Type} (fetch : Call Query Answer NetworkConfig) :
    Call Query Answer NetworkConfig := do
  match ← Call.access .freshConfig with
  | some config => return config
  | none =>
    Call.holding .config do
      match ← Call.access .freshConfig with
      | some config => return config
      | none =>
        let config ← fetch
        Call.access (.storeConfig config)
        return config

end ShardNet
