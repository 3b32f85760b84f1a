-- SUMMARY: What a client looks at before it trusts the shard of an address, and what comes of it.
import ShardNet.Proofs.Client.Conversation
import ShardNet.Proofs.Finality.Check

/-!
# The finality gate

A client that checks finality reads the parameters of the network, finds the shard of the address by
the number of shards they give, and checks that shard by what the service reports of it.
`FinalityChecked` and `Gate` list the ways in which that may go, with every question and every
answer.

`ends_checkAddressFinality` says that these are the complete traces of the check, and
`Gate.asksNetwork` that it asks for nothing but the parameters of the network and the status of
shards.
-/

namespace ShardNet.Client

open Finality

variable {client : Client} {shard : ShardId} {address : Address} {trace : Trace Request Answer}
  {result : Except Error Unit} {request : Request}

/-! ## Shards -/

/-- What an answer of the metachain says to be notarised of a shard. -/
def notarisedTold (client : Client) (shard : ShardId) (answer : Answer) : Except Error UInt64 := do
  let metachain ← client.statusTold .metachain answer
  (notarisedNonce metachain.crossCheckBlockHeight shard).mapError .finality

/-- The verdict on an observer by what it answers. -/
def observerVerdict (client : Client) (shard : ShardId) (answer : Answer) : Except Error Unit := do
  let report ← client.statusTold shard answer
  (judgeObserver shard report client.delta).mapError .finality

/-- The verdict on a shard by what it answers and what is notarised of it. -/
def notarisedVerdict (client : Client) (shard : ShardId) (notarised : UInt64) (answer : Answer) :
    Except Error Unit := do
  let report ← client.statusTold shard answer
  (judgeNotarised shard notarised report.nonce client.delta).mapError .finality

/-- How a shard is checked. -/
inductive FinalityChecked (client : Client) (shard : ShardId) :
    Trace Request Answer → Except Error Unit → Prop where
  | disabled (hpolicy : client.policy = .disabled) : FinalityChecked client shard [] (.ok ())
  | invalidDelta {fault} (hpolicy : client.policy ≠ .disabled)
      (hdelta : checkDelta client.delta = .error fault) :
      FinalityChecked client shard [] (.error (.finality fault))
  | observer {answer} (hpolicy : client.policy = .observer)
      (hdelta : checkDelta client.delta = .ok ()) :
      FinalityChecked client shard [.asked (client.getRequest (.networkStatus shard)) answer]
        (client.observerVerdict shard answer)
  /-- The metachain notarises itself. -/
  | metachain (hpolicy : client.policy = .proxy) (hdelta : checkDelta client.delta = .ok ())
      (hshard : shard = .metachain) : FinalityChecked client shard [] (.ok ())
  | unnotarised {answer cause} (hpolicy : client.policy = .proxy)
      (hdelta : checkDelta client.delta = .ok ()) (hshard : shard ≠ .metachain)
      (htold : client.notarisedTold shard answer = .error cause) :
      FinalityChecked client shard [.asked (client.getRequest (.networkStatus .metachain)) answer]
        (.error cause)
  | notarised {first second nonce} (hpolicy : client.policy = .proxy)
      (hdelta : checkDelta client.delta = .ok ()) (hshard : shard ≠ .metachain)
      (htold : client.notarisedTold shard first = .ok nonce) :
      FinalityChecked client shard
        [.asked (client.getRequest (.networkStatus .metachain)) first,
          .asked (client.getRequest (.networkStatus shard)) second]
        (client.notarisedVerdict shard nonce second)

/-! What the check comes to, by the policy, the delta and the shard. -/

theorem checkShardFinality_disabled (hpolicy : client.policy = .disabled) :
    client.checkShardFinality shard = pure () := by
  rw [checkShardFinality, hpolicy, check_disabled]

theorem checkShardFinality_invalidDelta {fault : Finality.Fault}
    (hpolicy : client.policy ≠ .disabled) (hdelta : checkDelta client.delta = .error fault) :
    client.checkShardFinality shard = throw (.finality fault) := check_invalidDelta hpolicy hdelta

theorem checkShardFinality_observer (hpolicy : client.policy = .observer)
    (hdelta : checkDelta client.delta = .ok ()) :
    (client.checkShardFinality shard).Exchanges (client.getRequest (.networkStatus shard))
      (client.observerVerdict shard) := by
  rw [checkShardFinality, hpolicy, check_observer hdelta]
  exact networkStatus_exchanges.bind fun _ => rfl

theorem checkShardFinality_metachain (hpolicy : client.policy = .proxy)
    (hdelta : checkDelta client.delta = .ok ()) :
    client.checkShardFinality .metachain = pure () := by
  rw [checkShardFinality, hpolicy, check_metachain hdelta]

/-- The part of the check that asks the metachain. -/
def readNotarised (client : Client) (shard : ShardId) : Operation UInt64 := do
  let metachain ← client.networkStatus .metachain
  conclude (notarisedNonce metachain.crossCheckBlockHeight shard)

/-- The part of the check that asks the shard. -/
def judgeBy (client : Client) (shard : ShardId) (notarised : UInt64) : Operation Unit := do
  let report ← client.networkStatus shard
  conclude (judgeNotarised shard notarised report.nonce client.delta)

theorem readNotarised_exchanges : (client.readNotarised shard).Exchanges
    (client.getRequest (.networkStatus .metachain)) (client.notarisedTold shard) :=
  networkStatus_exchanges.bind fun _ => rfl

theorem judgeBy_exchanges {notarised : UInt64} : (client.judgeBy shard notarised).Exchanges
    (client.getRequest (.networkStatus shard)) (client.notarisedVerdict shard notarised) :=
  networkStatus_exchanges.bind fun _ => rfl

theorem checkShardFinality_proxy (hpolicy : client.policy = .proxy)
    (hdelta : checkDelta client.delta = .ok ()) (hshard : shard ≠ .metachain) :
    client.checkShardFinality shard = client.readNotarised shard >>= client.judgeBy shard := by
  rw [checkShardFinality, hpolicy, check_proxy hdelta hshard]
  rfl

theorem ends_checkShardFinality :
    (client.checkShardFinality shard).Ends trace result ↔
      FinalityChecked client shard trace result := by
  constructor
  · intro h
    by_cases hdisabled : client.policy = .disabled
    · rw [checkShardFinality_disabled hdisabled] at h
      obtain ⟨rfl, rfl⟩ := h
      exact .disabled hdisabled
    cases hdelta : checkDelta client.delta with
    | error fault =>
        rw [checkShardFinality_invalidDelta hdisabled hdelta] at h
        obtain ⟨rfl, rfl⟩ := h
        exact .invalidDelta hdisabled hdelta
    | ok =>
        cases hpolicy : client.policy with
        | disabled => exact absurd hpolicy hdisabled
        | observer =>
            obtain ⟨answer, rfl, rfl⟩ := (checkShardFinality_observer hpolicy hdelta).ends.1 h
            exact .observer hpolicy hdelta
        | proxy =>
            by_cases hshard : shard = .metachain
            · subst hshard
              rw [checkShardFinality_metachain hpolicy hdelta] at h
              obtain ⟨rfl, rfl⟩ := h
              exact .metachain hpolicy hdelta rfl
            · rw [checkShardFinality_proxy hpolicy hdelta hshard, Call.ends_bind] at h
              obtain ⟨cause, hfirst, rfl⟩ | ⟨_, _, nonce, rfl, hfirst, hsecond⟩ := h
              · obtain ⟨answer, rfl, htold⟩ := readNotarised_exchanges.ends.1 hfirst
                exact .unnotarised hpolicy hdelta hshard htold.symm
              · obtain ⟨first, rfl, htold⟩ := readNotarised_exchanges.ends.1 hfirst
                obtain ⟨second, rfl, rfl⟩ := judgeBy_exchanges.ends.1 hsecond
                exact .notarised hpolicy hdelta hshard htold.symm
  · intro h
    cases h with
    | disabled hpolicy =>
        rw [checkShardFinality_disabled hpolicy]
        exact ⟨rfl, rfl⟩
    | invalidDelta hpolicy hdelta =>
        rw [checkShardFinality_invalidDelta hpolicy hdelta]
        exact ⟨rfl, rfl⟩
    | observer hpolicy hdelta =>
        exact (checkShardFinality_observer hpolicy hdelta).ends.2 ⟨_, rfl, rfl⟩
    | metachain hpolicy hdelta hshard =>
        subst hshard
        rw [checkShardFinality_metachain hpolicy hdelta]
        exact ⟨rfl, rfl⟩
    | unnotarised hpolicy hdelta hshard htold =>
        rw [checkShardFinality_proxy hpolicy hdelta hshard, Call.ends_bind]
        exact .inl ⟨_, readNotarised_exchanges.ends.2 ⟨_, rfl, htold.symm⟩, rfl⟩
    | notarised hpolicy hdelta hshard htold =>
        rw [checkShardFinality_proxy hpolicy hdelta hshard, Call.ends_bind]
        exact .inr ⟨[_], [_], _, rfl, readNotarised_exchanges.ends.2 ⟨_, rfl, htold.symm⟩,
          judgeBy_exchanges.ends.2 ⟨_, rfl, rfl⟩⟩

theorem sends_checkShardFinality (h : (client.checkShardFinality shard).Sends trace request) :
    ∃ other, request = client.getRequest (.networkStatus other) := by
  by_cases hdisabled : client.policy = .disabled
  · rw [checkShardFinality_disabled hdisabled] at h
    exact h.elim
  cases hdelta : checkDelta client.delta with
  | error fault =>
      rw [checkShardFinality_invalidDelta hdisabled hdelta] at h
      exact h.elim
  | ok =>
      cases hpolicy : client.policy with
      | disabled => exact absurd hpolicy hdisabled
      | observer => exact ⟨shard, ((checkShardFinality_observer hpolicy hdelta).sends.1 h).2⟩
      | proxy =>
          by_cases hshard : shard = .metachain
          · subst hshard
            rw [checkShardFinality_metachain hpolicy hdelta] at h
            exact h.elim
          · rw [checkShardFinality_proxy hpolicy hdelta hshard, Call.sends_bind] at h
            obtain hfirst | ⟨_, _, nonce, rfl, -, hsecond⟩ := h
            · exact ⟨.metachain, (readNotarised_exchanges.sends.1 hfirst).2⟩
            · exact ⟨shard, (judgeBy_exchanges.sends.1 hsecond).2⟩

/-! ## Addresses -/

/-- The shard of an address in a network with certain parameters. -/
def shardIn (config : NetworkConfig) (address : Address) : Except Error ShardId :=
  let shard := do
    let coordinator ← Coordinator.make config.numShardsWithoutMeta 0
    coordinator.shardOf address.bytes
  shard.mapError .sharding

/-- How the gate of an address is passed, or closed with an error. -/
inductive Gate (client : Client) (address : Address) :
    Trace Request Answer → Except Error Unit → Prop where
  | unconfigured {trace cause} (hconfig : ConfigRead client trace (.error cause)) :
      Gate client address trace (.error cause)
  | unassigned {trace config cause} (hconfig : ConfigRead client trace (.ok config))
      (hshard : shardIn config address = .error cause) : Gate client address trace (.error cause)
  | checked {front back config shard result} (hconfig : ConfigRead client front (.ok config))
      (hshard : shardIn config address = .ok shard)
      (hfinal : FinalityChecked client shard back result) :
      Gate client address (front ++ back) result

/-- The requests of the gate: for the parameters of the network, and for the status of a shard. -/
def AsksNetwork (client : Client) (request : Request) : Prop :=
  request = client.getRequest .networkConfig ∨
    ∃ shard, request = client.getRequest (.networkStatus shard)

theorem ends_shardOfAddress {result : Except Error ShardId} :
    (client.shardOfAddress address).Ends trace result ↔
      ∃ config, ConfigRead client trace config ∧ result = config >>= (shardIn · address) := by
  simp only [← ends_networkConfig]
  exact Call.ends_bind_ofExcept

theorem sends_shardOfAddress : (client.shardOfAddress address).Sends trace request ↔
    client.networkConfig.Sends trace request := Call.sends_bind_ofExcept

theorem checkAddressFinality_disabled (hpolicy : client.policy = .disabled) :
    client.checkAddressFinality address = pure () := by
  simp [checkAddressFinality, hpolicy, Policy.isEnabled]

theorem checkAddressFinality_enabled (henabled : client.policy.isEnabled) :
    client.checkAddressFinality address =
      client.shardOfAddress address >>= client.checkShardFinality := by
  simp [checkAddressFinality, henabled]

theorem ends_checkAddressFinality (henabled : client.policy.isEnabled) :
    (client.checkAddressFinality address).Ends trace result ↔ Gate client address trace result := by
  rw [checkAddressFinality_enabled henabled, Call.ends_bind]
  constructor
  · rintro (⟨cause, hshard, rfl⟩ | ⟨front, back, shard, rfl, hshard, hcheck⟩)
    · obtain ⟨_ | config, hconfig, hresult⟩ := ends_shardOfAddress.1 hshard
      · cases hresult
        exact .unconfigured hconfig
      · exact .unassigned hconfig hresult.symm
    · obtain ⟨_ | config, hconfig, hresult⟩ := ends_shardOfAddress.1 hshard
      · cases hresult
      · exact .checked hconfig hresult.symm (ends_checkShardFinality.1 hcheck)
  · intro h
    cases h with
    | unconfigured hconfig => exact .inl ⟨_, ends_shardOfAddress.2 ⟨_, hconfig, rfl⟩, rfl⟩
    | unassigned hconfig hshard =>
        exact .inl ⟨_, ends_shardOfAddress.2 ⟨_, hconfig, hshard.symm⟩, rfl⟩
    | checked hconfig hshard hfinal =>
        exact .inr ⟨_, _, _, rfl, ends_shardOfAddress.2 ⟨_, hconfig, hshard.symm⟩,
          ends_checkShardFinality.2 hfinal⟩

theorem sends_checkAddressFinality (h : (client.checkAddressFinality address).Sends trace request) :
    client.AsksNetwork request := by
  by_cases henabled : client.policy.isEnabled
  · rw [checkAddressFinality_enabled henabled, Call.sends_bind] at h
    obtain hshard | ⟨_, _, shard, rfl, -, hcheck⟩ := h
    · exact .inl (sends_networkConfig.1 (sends_shardOfAddress.1 hshard)).2
    · exact .inr (sends_checkShardFinality hcheck)
  · rw [checkAddressFinality_disabled (by simpa [Policy.isEnabled] using henabled)] at h
    exact h.elim

/-- The gate asks for nothing else. -/
theorem Gate.asksNetwork (henabled : client.policy.isEnabled) (h : Gate client address trace result)
    {answer : Answer} (hmem : .asked request answer ∈ trace) : client.AsksNetwork request := by
  obtain ⟨front, back, rfl⟩ := List.append_of_mem hmem
  exact sends_checkAddressFinality ((ends_checkAddressFinality henabled).2 h).sends

end ShardNet.Client
