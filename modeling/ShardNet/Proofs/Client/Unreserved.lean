-- SUMMARY: A transfer that fails before it has a nonce leaves no trace, neither at the service nor in the memory.
import ShardNet.Proofs.Client.Alone
import ShardNet.Proofs.Client.Guarded

/-!
# Transfers without a nonce

A transfer may fail before it has a nonce: its receiver is no address, the parameters of the network
cannot be read, or the account of its sender cannot. The slot of the sender has then been opened and
locked, and a request or two may have been sent. `transfer_leaves_no_trace` says that all this
cannot be told from a transfer that was never made.
-/

namespace ShardNet

section

variable {σ : Type} {service : Service σ} {scene later : Scene σ}

/-- After a sender has been given a slot. -/
def Scene.opened (scene : Scene σ) (sender : Address) : Scene σ :=
  { scene with memory := { scene.memory with nonces := scene.memory.nonces.openSlot sender } }

/-- An empty slot is as good as none. -/
theorem Scene.Untouched.opened {sender : Address} : scene.Untouched (scene.opened sender) :=
  .of_reservation? ⟨[], (List.append_nil _).symm, nofun⟩ fun _ => NonceBook.reservation?_openSlot

/-- Where a nonce has to be asked for and is not told, the reservation fails. -/
theorem Service.run_reserveNonce_of_failed {sender : Address} {fetch : Client.Operation UInt64}
    {cause : Error} (hunknown : scene.memory.nonces.peek sender = none)
    (hfetch : service.run fetch (scene.opened sender) = (.error cause, later)) :
    service.run (reserveNonce sender fetch) scene = (.error cause, later) := by
  have htake : (scene.memory.nonces.openSlot sender).take sender =
      (none, scene.memory.nonces.openSlot sender) := by
    obtain ⟨r, hslot, -⟩ | ⟨-, htake⟩ := (scene.memory.nonces.openSlot sender).take_cases sender
    · rw [NonceBook.reservation?_openSlot] at hslot
      simp [NonceBook.peek, hslot] at hunknown
    · exact htake
  rw [run, run_reserveNonce, play_access, play_access, play_access]
  simp only [Access.apply, htake]
  have hopened :
      service.play fetch.run ⟨{ scene.memory with nonces := scene.memory.nonces.openSlot sender },
      scene.requests, scene.state⟩ = (.error cause, later) := hfetch
  rw [play_bind, hopened]
  rfl

end

namespace Client

section

variable {σ : Type} {service : Service σ} {scene later : Scene σ}
variable {client : Client} {signer : Signer} {receiver : Address}

/-- Why a transfer has failed before it had a nonce, with what, and what came of it by then. -/
inductive Prevented (service : Service σ) (client : Client) (signer : Signer) (receiver : Address)
    (scene : Scene σ) : Error → Scene σ → Prop where
  | receiver (hreceiver : ¬ receiver.isValid) :
      Prevented service client signer receiver scene
        (.address (.invalidLength receiver.bytes.length)) scene
  | network {cause later} (hreceiver : receiver.isValid)
      (hnetwork : service.run client.networkConfig scene = (.error cause, later)) :
      Prevented service client signer receiver scene cause later
  | sender {config cause later} (hreceiver : receiver.isValid)
      (hnetwork : service.run client.networkConfig scene = (.ok config, later))
      (hsender : signer.address.bech32 = .error cause) :
      Prevented service client signer receiver scene (.address cause) later
  | account {config ready text cause later} (hreceiver : receiver.isValid)
      (hnetwork : service.run client.networkConfig scene = (.ok config, ready))
      (hsender : signer.address.bech32 = .ok text)
      (hunknown : ready.memory.nonces.peek signer.address = none)
      (haccount : service.run (client.account signer.address) (ready.opened signer.address) =
        (.error cause, later)) : Prevented service client signer receiver scene cause later

theorem run_addressedArguments (sender receiver : Address) {config : NetworkConfig}
    (hnetwork : service.run client.networkConfig scene = (.ok config, later)) :
    service.run (client.addressedArguments sender receiver) scene =
      (addressed sender receiver config, later) := by
  have hdefaults : service.run (client.defaultArguments sender) scene =
      (TransactionArguments.ofNetworkConfig (some sender) (some config), later) :=
    (Service.run_bind_ok hnetwork).trans Service.run_ofExcept
  unfold addressedArguments addressed
  cases htold : TransactionArguments.ofNetworkConfig (some sender) (some config) with
  | error cause =>
      rw [htold] at hdefaults
      exact Service.run_bind_error hdefaults
  | ok arguments =>
      rw [htold] at hdefaults
      exact (Service.run_bind_ok hdefaults).trans Service.run_ofExcept

theorem run_draft_of_prevented {cause : Error} (value : String)
    (h : Prevented service client signer receiver scene cause later) :
    service.run (client.draft signer receiver value) scene = (.error cause, later) := by
  cases h with
  | receiver hreceiver =>
      rw [draft_refused hreceiver]
      exact Service.run_throw
  | network hreceiver hnetwork =>
      rw [draft_eq hreceiver]
      exact Service.run_bind_error (Service.run_bind_error (Service.run_bind_error hnetwork))
  | sender hreceiver hnetwork hsender =>
      rw [draft_eq hreceiver]
      have harguments := run_addressedArguments signer.address receiver hnetwork
      rw [addressed_of_unaddressed hsender] at harguments
      exact Service.run_bind_error harguments
  | @account config ready text cause later hreceiver hnetwork hsender hunknown haccount =>
      rw [draft_eq hreceiver]
      obtain ⟨other, htext⟩ := Address.exists_bech32 hreceiver
      have harguments := run_addressedArguments signer.address receiver hnetwork
      rw [addressed_of_addressed hsender htext] at harguments
      rw [Service.run_bind_ok harguments]
      refine Service.run_bind_error (Service.run_reserveNonce_of_failed hunknown ?_)
      exact Service.run_bind_error haccount

theorem untouched_networkConfig (client : Client) (service : Service σ) (scene : Scene σ) :
    scene.Untouched (service.run client.networkConfig scene).2 := by
  refine .of_spares networkConfig_sparesNonces fun hsends => ?_
  rw [(sends_networkConfig.1 hsends).2]
  rfl

theorem untouched_account (client : Client) (address : Address) (service : Service σ)
    (scene : Scene σ) :
    scene.Untouched (service.run (client.account address) scene).2 := by
  refine .of_spares account_sparesNonces fun hsends => ?_
  obtain hnetwork | haccount := sends_account hsends
  · exact hnetwork.method
  · exact haccount.method

theorem Prevented.untouched
    {cause : Error} (h : Prevented service client signer receiver scene cause later) :
    scene.Untouched later := by
  have hread := untouched_networkConfig client service scene
  cases h with
  | receiver => exact .refl
  | network _ hnetwork | sender _ hnetwork _ => rwa [hnetwork] at hread
  | @account _ ready _ _ _ _ hnetwork _ _ haccount =>
      have hasked := untouched_account client signer.address service (ready.opened signer.address)
      rw [hnetwork] at hread
      rw [haccount] at hasked
      exact hread.trans (Scene.Untouched.opened.trans hasked)

/-- A transfer whose receiver is no address, or for which the network or the account of the sender
cannot be read, fails for this reason. It has posted nothing, the next nonces are what they were,
and every session on the nonces gets the replies that it would have got without the transfer. For a
receiver that is no address, nothing at all has happened. -/
theorem transfer_leaves_no_trace {cause : Error} (value : String)
    (prevented : Prevented service client signer receiver scene cause later) :
    service.run (client.transfer signer receiver value) scene = (.error cause, later) ∧
      scene.Untouched later ∧ (¬ receiver.isValid → later = scene) := by
  refine ⟨?_, prevented.untouched, fun hreceiver => ?_⟩
  · rw [transfer_eq]
    exact Service.run_bind_error (run_draft_of_prevented value prevented)
  · cases prevented with
    | receiver => rfl
    | network hvalid | sender hvalid | account hvalid => exact absurd hvalid hreceiver

end

namespace Unplugged

def sender : Signer := .ofKey ⟨List.replicate 32 3, rfl⟩

def payee : Address := ⟨List.replicate 32 1⟩

def client : Client := ⟨"", .proxy, .disabled, 0, 0, ⟨false, false⟩⟩

/-- Nothing gets through to the service. -/
def service : Service Unit := fun _ => pure (.error (.noAnswer true))

/-- The parameters of the network are at hand; no nonce is known. -/
def before : Scene Unit := ⟨⟨0, ⟨0, some (default, 0)⟩, .empty⟩, [], ()⟩

/-- The slot of the sender is open, and its account was asked for. -/
def asked (text : String) : Scene Unit :=
  { before.opened sender.address with requests := [client.getRequest (.account text)] }

end Unplugged

open Unplugged in
/-- The account of the sender cannot be asked for. Its slot stays open, and one request was sent,
but this is not a trace. -/
theorem transfer_leaves_no_trace_unplugged :
    (∃ cause later,
      service.run (client.transfer sender payee "1") before = (.error cause, later) ∧
      before.Untouched later ∧ later.requests.length = 1 ∧ later.memory.nonces.slots ≠ []) ∧
    ∃ cause, service.run (client.transfer sender ⟨[]⟩ "1") before = (.error cause, before) := by
  constructor
  · have hvalid : payee.isValid := by decide
    have hnetwork : service.run client.networkConfig before = (.ok default, before) := rfl
    obtain ⟨text, hsender⟩ : ∃ text, sender.address.bech32 = .ok text :=
      Address.exists_bech32 (by decide +kernel)
    have haccount : service.run (client.account sender.address) (before.opened sender.address) =
        (.error (.exchange (.noAnswer true)), asked text) := by
      rw [account_eq (by decide +kernel) hsender, checkAddressFinality_disabled rfl, pure_bind]
      rfl
    have hleft := transfer_leaves_no_trace "1" (.account hvalid hnetwork hsender rfl haccount)
    exact ⟨_, _, hleft.1, hleft.2.1, rfl, nofun⟩
  · have hinvalid : ¬ Address.isValid ⟨[]⟩ := by decide
    exact ⟨_, (transfer_leaves_no_trace "1" (.receiver hinvalid)).1⟩

end Client

end ShardNet
