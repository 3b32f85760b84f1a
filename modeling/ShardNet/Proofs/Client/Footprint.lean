-- SUMMARY: What the operations of a client touch in the shared memory.
import ShardNet.Client.Account
import ShardNet.Proofs.Discipline

/-!
# Footprints of operations

Reading from the network touches the cached configuration and nothing else: no operation below makes
a step on the nonces of a sender, whatever the service answers and wherever it fails.
-/

namespace ShardNet

/-- Whether a step leaves the nonces handed out as they are, and the locks of senders too. -/
def Access.sparesNonces : Access → Bool
  | .acquire lock | .release lock => lock = .config
  | .freshConfig | .storeConfig _ | .clearConfig | .openSlot _ | .peek _ => true
  | _ => false

/-- A call that leaves the nonces handed out as they are. -/
abbrev Call.SparesNonces {Query Answer α : Type} (call : Call Query Answer α) : Prop :=
  call.Only fun access => access.sparesNonces

theorem currentConfig_sparesNonces {Query Answer : Type} {fetch : Call Query Answer NetworkConfig}
    (hfetch : fetch.SparesNonces) : (currentConfig fetch).SparesNonces := by
  refine Call.only_bind (Call.only_access.2 fun _ => rfl) fun
    | some config => Call.only_pure
    | none => ?_
  refine Call.only_holding rfl rfl ?_
  refine Call.only_bind (Call.only_access.2 fun _ => rfl) fun
    | some config => Call.only_pure
    | none => ?_
  refine Call.only_bind hfetch fun config => ?_
  exact Call.only_bind (Call.only_access.2 fun _ => rfl) fun _ => Call.only_pure

namespace Client

open Json (Codec)

variable {allowed : Access → Prop} {client : Client}

theorem exchange_only {α : Type} {request : Request} {codec : Codec α} {field : Option String} :
    (exchange request codec field).Only allowed := by
  refine Call.only_bind (by simp) fun
    | .error cause => by simp
    | .ok response => ?_
  dsimp only
  split <;> simp

theorem get_only {α : Type} {route : Route} {codec : Codec α} {field : String} :
    (client.get route codec field).Only allowed := exchange_only

theorem networkStatus_only {shard : ShardId} : (client.networkStatus shard).Only allowed := by
  refine Call.only_bind get_only fun status => ?_
  dsimp only
  split
  · exact Call.only_bind (by simp) fun _ => by simp
  · simp

theorem checkShardFinality_only {shard : ShardId} :
    (client.checkShardFinality shard).Only allowed := by
  unfold checkShardFinality
  cases client.policy with
  | disabled => exact Call.only_pure
  | observer =>
      refine Call.only_bind Call.only_ofExcept fun _ => ?_
      exact Call.only_bind networkStatus_only fun _ => Call.only_ofExcept
  | proxy =>
      refine Call.only_bind Call.only_ofExcept fun _ => ?_
      split
      · exact Call.only_pure
      · refine Call.only_bind networkStatus_only fun _ => ?_
        refine Call.only_bind Call.only_ofExcept fun _ => ?_
        exact Call.only_bind networkStatus_only fun _ => Call.only_ofExcept

theorem networkConfig_sparesNonces : client.networkConfig.SparesNonces :=
  currentConfig_sparesNonces get_only

theorem shardOfAddress_sparesNonces {address : Address} :
    (client.shardOfAddress address).SparesNonces :=
  Call.only_bind networkConfig_sparesNonces fun _ => Call.only_ofExcept

theorem checkAddressFinality_sparesNonces {address : Address} :
    (client.checkAddressFinality address).SparesNonces := by
  unfold checkAddressFinality
  split
  · exact Call.only_bind shardOfAddress_sparesNonces fun _ => checkShardFinality_only
  · simp

theorem account_sparesNonces {address : Address} : (client.account address).SparesNonces := by
  unfold account
  dsimp only
  split
  · exact Call.follows_bind.2 trivial
  · refine Call.only_bind checkAddressFinality_sparesNonces fun _ => ?_
    exact Call.only_bind Call.only_ofExcept fun _ => get_only

end Client

end ShardNet
