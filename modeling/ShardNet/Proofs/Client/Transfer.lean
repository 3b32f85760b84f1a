-- SUMMARY: The course of a transfer: how it gets its nonce and its transaction, and how it sends it.
import Mathlib.Data.List.Basic
import ShardNet.Client.Transfer
import ShardNet.Proofs.Address
import ShardNet.Proofs.Client.Conversation
import ShardNet.Proofs.Nonce.Holding

/-!
# The course of a transfer

A transfer first drafts its transaction: it reads the parameters of the network and reserves a
nonce. Then it dispatches the draft: it signs and sends it, and gives the nonce up again if either
fails. `Drafted` and `Dispatched` list the ways in which the two parts may go.
-/

namespace ShardNet

section Nonces

/-! ## Nonces -/

variable {Query Answer : Type}

/-- A call that spares the nonces has made no step on them when it ends. -/
theorem Call.SparesNonces.notMem_of_ends {α : Type} {call : Call Query Answer α}
    {trace : Trace Query Answer} (hspares : call.SparesNonces) {result : Except Error α}
    (h : call.Ends trace result) {step : Access} {reply : step.Reply}
    (hstep : ¬ step.sparesNonces) : .did step reply ∉ trace :=
  fun hmem => hstep (hspares.of_ends h hmem)

theorem Call.SparesNonces.notMem_of_sends {α : Type} {call : Call Query Answer α}
    {trace : Trace Query Answer} (hspares : call.SparesNonces) {sent : Query}
    (h : call.Sends trace sent) {step : Access} {reply : step.Reply}
    (hstep : ¬ step.sparesNonces) : .did step reply ∉ trace :=
  fun hmem => hstep (hspares.of_sends h hmem)

/-- What is done before the slot of a sender is looked into, and what it holds then. -/
def slotOpened (sender : Address) (found : Option UInt64) : Trace Query Answer :=
  [.did (.openSlot sender) (), .did (.acquire (.sender sender)) (), .did (.takeNonce sender) found]

/-- How a nonce is reserved: out of the book, or by asking. -/
inductive NonceReserved (sender : Address) (fetch : Call Query Answer UInt64) :
    Trace Query Answer → Except Error UInt64 → Prop where
  | taken {nonce} :
      NonceReserved sender fetch (slotOpened sender (some nonce) ++
        [.did (.release (.sender sender)) ()])
        (.ok nonce)
  | fetched {inside nonce} (hfetch : fetch.Ends inside (.ok nonce)) :
      NonceReserved sender fetch (slotOpened sender none ++ inside ++
        [.did (.startNonces sender nonce) (), .did (.release (.sender sender)) ()]) (.ok nonce)
  | failed {inside cause} (hfetch : fetch.Ends inside (.error cause)) :
      NonceReserved sender fetch (slotOpened sender none ++ inside ++
        [.did (.release (.sender sender)) ()])
        (.error cause)

variable {sender : Address} {nonce : UInt64} {trace : Trace Query Answer}
  {fetch : Call Query Answer UInt64} {sent : Query}

theorem ends_reserveNonce {result : Except Error UInt64} :
    (reserveNonce sender fetch).Ends trace result ↔ NonceReserved sender fetch trace result := by
  unfold reserveNonce
  constructor
  · intro h
    obtain ⟨⟨⟩, _, rfl, hopened⟩ := Call.ends_access_bind.1 h
    obtain ⟨inside, rfl, hlocked⟩ := Call.ends_holding.1 hopened
    obtain ⟨_ | nonce, _, rfl, htaken⟩ := Call.ends_access_bind.1 hlocked
    · obtain ⟨cause, hfetch, rfl⟩ | ⟨asked, _, nonce, rfl, hfetch, hstarted⟩ :=
        Call.ends_bind.1 htaken
      · exact .failed hfetch
      · obtain ⟨⟨⟩, _, rfl, rfl, rfl⟩ := Call.ends_access_bind.1 hstarted
        have hfetched : NonceReserved sender fetch _ _ := .fetched hfetch
        simpa [slotOpened] using hfetched
    · obtain ⟨rfl, rfl⟩ := htaken
      exact .taken
  · intro h
    refine Call.ends_access_bind.2 ?_
    cases h with
    | taken =>
        refine ⟨(), _, rfl, Call.ends_holding.2 ⟨[_], rfl, ?_⟩⟩
        exact Call.ends_access_bind.2 ⟨_, [], rfl, rfl, rfl⟩
    | @fetched inside nonce hfetch =>
        refine ⟨(), _, rfl, Call.ends_holding.2
          ⟨.did (.takeNonce sender) none :: (inside ++ [.did (.startNonces sender nonce) ()]), by
            simp, ?_⟩⟩
        refine Call.ends_access_bind.2 ⟨none, _, rfl, Call.ends_bind.2 (.inr ?_)⟩
        exact ⟨inside, _, nonce, rfl, hfetch, (), [], rfl, rfl, rfl⟩
    | @failed inside cause hfetch =>
        refine ⟨(), _, rfl, Call.ends_holding.2 ⟨_ :: inside, rfl, ?_⟩⟩
        exact Call.ends_access_bind.2 ⟨none, _, rfl, Call.ends_bind.2 (.inl ⟨cause, hfetch, rfl⟩)⟩

theorem sends_reserveNonce : (reserveNonce sender fetch).Sends trace sent ↔
    ∃ inside, trace = slotOpened sender none ++ inside ∧ fetch.Sends inside sent := by
  unfold reserveNonce
  constructor
  · intro h
    obtain ⟨⟨⟩, _, rfl, hopened⟩ := Call.sends_access_bind.1 h
    obtain ⟨inside, rfl, hlocked⟩ := Call.sends_holding.1 hopened
    obtain ⟨_ | nonce, _, rfl, htaken⟩ := Call.sends_access_bind.1 hlocked
    · obtain hfetch | ⟨asked, _, nonce, rfl, -, hstarted⟩ := Call.sends_bind.1 htaken
      · exact ⟨_, rfl, hfetch⟩
      · obtain ⟨_, _, _, hnone⟩ := Call.sends_access_bind.1 hstarted
        exact hnone.elim
    · exact htaken.elim
  · rintro ⟨inside, rfl, hfetch⟩
    refine Call.sends_access_bind.2 ⟨(), _, rfl, Call.sends_holding.2 ⟨_ :: inside, rfl, ?_⟩⟩
    exact Call.sends_access_bind.2 ⟨none, _, rfl, Call.sends_bind.2 (.inl hfetch)⟩

/-- Where no nonce is found, one is asked for, and what fails then fails the reservation. -/
theorem NonceReserved.of_missing {result : Except Error UInt64}
    (h : NonceReserved sender fetch trace result)
    (hmissing : .did (.takeNonce sender) none ∈ trace) : ∃ inside tail fetched,
      trace = slotOpened sender none ++ (inside ++ tail) ∧ fetch.Ends inside fetched ∧
      .did (.takeNonce sender) none ∉ tail ∧ ∀ cause, fetched = .error cause →
        result = .error cause ∧ tail = [.did (.release (.sender sender)) ()] := by
  cases h with
  | taken => simp [slotOpened] at hmissing
  | @fetched inside nonce hfetch =>
      exact ⟨inside, [.did (.startNonces sender nonce) (), .did (.release (.sender sender)) ()],
        .ok nonce, List.append_assoc .., hfetch, by simp, nofun⟩
  | @failed inside cause hfetch =>
      refine ⟨inside, [.did (.release (.sender sender)) ()], .error cause,
        List.append_assoc .., hfetch,
        by simp, ?_⟩
      rintro _ ⟨⟩
      exact ⟨rfl, rfl⟩

/-- The opened slot parts a trace in one way only. -/
theorem slotOpened_inj {front rest front' rest' : Trace Query Answer}
    (hfront : .did (.takeNonce sender) none ∉ front) (hrest : .did (.takeNonce sender) none ∉ rest)
    (hsame : front ++ slotOpened sender none ++ rest = front' ++ slotOpened sender none ++ rest') :
    front = front' ∧ rest = rest' := by
  have hsplit : ∀ front rest : Trace Query Answer, front ++ slotOpened sender none ++ rest =
      (front ++ [.did (.openSlot sender) (), .did (.acquire (.sender sender)) ()]) ++
        .did (.takeNonce sender) none :: rest := fun front rest => by simp [slotOpened]
  have hopened : .did (.takeNonce sender) none ∉
      front ++ [.did (.openSlot sender) (), .did (.acquire (.sender sender)) ()] := by
    simpa using hfront
  -- The look into the slot is the first and the only one, so the traces part at the same place.
  rw [hsplit, hsplit] at hsame
  obtain ⟨hbefore, -, hafter⟩ := (List.append_cons_inj_of_notMem hopened hrest).1 hsame
  exact ⟨List.append_cancel_right hbefore, hafter⟩

/-- How a nonce is given up. -/
inductive NonceAbandoned (sender : Address) (nonce : UInt64) : Trace Query Answer → Prop where
  | forgotten : NonceAbandoned sender nonce [.did (.invalidateIfSole sender nonce) true]
  | kept {returned} :
      NonceAbandoned sender nonce [.did (.invalidateIfSole sender nonce) false,
        .did (.releaseNonce sender nonce) returned]

theorem ends_abandonNonce {result : Except Error Unit} :
    (abandonNonce sender nonce).Ends trace result ↔
      NonceAbandoned sender nonce trace ∧ result = .ok () := by
  unfold abandonNonce
  constructor
  · intro h
    obtain ⟨_ | _, _, rfl, hkept⟩ := Call.ends_access_bind.1 h
    · obtain ⟨returned, _, rfl, rfl, rfl⟩ := Call.ends_access_bind.1 hkept
      exact ⟨.kept, rfl⟩
    · obtain ⟨rfl, rfl⟩ := hkept
      exact ⟨.forgotten, rfl⟩
  · rintro ⟨h, rfl⟩
    refine Call.ends_access_bind.2 ?_
    cases h with
    | forgotten => exact ⟨true, [], rfl, rfl, rfl⟩
    | @kept returned => exact ⟨false, _, rfl, Call.ends_access_bind.2 ⟨returned, [], rfl, rfl, rfl⟩⟩

theorem sends_abandonNonce : ¬ (abandonNonce sender nonce).Sends trace sent := by
  intro h
  obtain ⟨_ | _, _, rfl, hkept⟩ := Call.sends_access_bind.1 h
  · obtain ⟨_, _, _, hnone⟩ := Call.sends_access_bind.1 hkept
    exact hnone
  · exact hkept

end Nonces

namespace Client

variable {client : Client} {signer : Signer} {receiver : Address} {value : String}
  {tx : Transaction} {trace : Trace Request Answer} {sent : Request}

/-! ## The two parts -/

/-- The nonce of an account. -/
def accountNonce (client : Client) (address : Address) : Operation UInt64 := do
  return (← client.account address).nonce

/-- The transaction of a transfer, with a nonce that was reserved for it. -/
def draft (client : Client) (signer : Signer) (receiver : Address) (value : String) :
    Operation Transaction := do
  if ¬ receiver.isValid then throw (.address (.invalidLength receiver.bytes.length))
  let defaults ← client.defaultArguments signer.address
  let arguments ← Call.ofExcept (defaults.withReceiver receiver)
  let nonce ← reserveNonce signer.address (client.accountNonce signer.address)
  return { arguments with value := value, nonce := nonce }.transaction

/-- Sends a signed transaction, and gives up its nonce if it was not signed or cannot be sent. -/
def dispatch (client : Client) (sender : Address) (nonce : UInt64) :
    Except SigningFault Transaction → Operation String
  | .error cause => do
    abandonNonce sender nonce
    throw (.signing cause)
  | .ok signed =>
    tryCatch (client.sendTransaction signed) fun failure => do
      abandonNonce sender nonce
      throw failure

theorem transfer_eq : client.transfer signer receiver value = (do
    let tx ← client.draft signer receiver value
    client.dispatch signer.address tx.nonce (signer.key.signTransaction tx)) := by
  have hdispatch : ∀ nonce (signed : Except SigningFault Transaction), (match signed with
      | .error cause => do
        abandonNonce signer.address nonce
        throw (.signing cause)
      | .ok signed =>
        tryCatch (client.sendTransaction signed) fun failure => do
          abandonNonce signer.address nonce
          throw failure) = client.dispatch signer.address nonce signed := by
    rintro nonce (cause | signed) <;> rfl
  unfold transfer draft
  dsimp only
  by_cases hreceiver : receiver.isValid
  · simp only [if_neg (not_not_intro hreceiver), bind_assoc, pure_bind, accountNonce]
    exact bind_congr fun defaults => bind_congr fun arguments => bind_congr fun nonce =>
      hdispatch nonce _
  · simp only [if_pos hreceiver, Call.throw_bind]

/-! ## Drafting -/

/-- A transaction with its parameters from a network, not signed. -/
def draftOf (config : NetworkConfig) (sender receiver value : String) (nonce : UInt64) :
    Transaction where
  nonce := nonce
  value := value
  receiver := receiver
  sender := sender
  gasPrice := config.minGasPrice
  gasLimit := config.minGasLimit
  data := []
  signature := ""
  chainId := config.chainId
  version := config.minTransactionVersion
  options := 0

/-- How a transaction is drafted. -/
inductive Drafted (client : Client) (signer : Signer) (receiver : Address) (value : String) :
    Trace Request Answer → Except Error Transaction → Prop where
  | refused (hreceiver : ¬ receiver.isValid) :
      Drafted client signer receiver value []
        (.error (.address (.invalidLength receiver.bytes.length)))
  | unconfigured {trace cause} (hreceiver : receiver.isValid)
      (hconfig : ConfigRead client trace (.error cause)) :
      Drafted client signer receiver value trace (.error cause)
  | unaddressed {trace config cause} (hreceiver : receiver.isValid)
      (hconfig : ConfigRead client trace (.ok config))
      (hsender : signer.address.bech32 = .error cause) :
      Drafted client signer receiver value trace (.error (.address cause))
  | unreserved {front back config sender cause} (hreceiver : receiver.isValid)
      (hconfig : ConfigRead client front (.ok config))
      (hsender : signer.address.bech32 = .ok sender)
      (hreserved : NonceReserved signer.address (client.accountNonce signer.address) back
        (.error cause)) :
      Drafted client signer receiver value (front ++ back) (.error cause)
  | drafted {front back config sender text nonce} (hreceiver : receiver.isValid)
      (hconfig : ConfigRead client front (.ok config))
      (hsender : signer.address.bech32 = .ok sender) (htext : receiver.bech32 = .ok text)
      (hreserved : NonceReserved signer.address (client.accountNonce signer.address) back
        (.ok nonce)) :
      Drafted client signer receiver value (front ++ back)
        (.ok (draftOf config sender text value nonce))

theorem ends_defaultArguments {address : Address} {result : Except Error TransactionArguments} :
    (client.defaultArguments address).Ends trace result ↔ ∃ config, ConfigRead client trace config ∧
      result = config >>= fun config =>
        TransactionArguments.ofNetworkConfig (some address) (some config) := by
  simp only [← ends_networkConfig]
  exact Call.ends_bind_ofExcept

theorem sends_defaultArguments {address : Address} :
    (client.defaultArguments address).Sends trace sent ↔
    client.networkConfig.Sends trace sent := Call.sends_bind_ofExcept

theorem draft_refused (hreceiver : ¬ receiver.isValid) : client.draft signer receiver value =
    throw (.address (.invalidLength receiver.bytes.length)) := by
  unfold draft
  simp only [if_pos hreceiver, Call.throw_bind]

/-- The arguments of a transfer in a network, without its nonce. -/
def addressed (sender receiver : Address) (config : NetworkConfig) :
    Except Error TransactionArguments := do
  let defaults ← TransactionArguments.ofNetworkConfig (some sender) (some config)
  defaults.withReceiver receiver

theorem addressed_of_unaddressed {sender : Address} {config : NetworkConfig} {cause : Address.Fault}
    (hsender : sender.bech32 = .error cause) :
    addressed sender receiver config = .error (.address cause) := by
  simp only [addressed, TransactionArguments.ofNetworkConfig, hsender]
  rfl

theorem addressed_of_addressed {sender : Address} {config : NetworkConfig} {own text : String}
    (hsender : sender.bech32 = .ok own) (hreceiver : receiver.bech32 = .ok text) :
    addressed sender receiver config = .ok
      { nonce := 0, value := "", receiver := text, sender := own, gasPrice := config.minGasPrice,
        gasLimit := config.minGasLimit, data := [], chainId := config.chainId,
        version := config.minTransactionVersion, options := 0 } := by
  simp only [addressed, TransactionArguments.ofNetworkConfig, hsender]
  change TransactionArguments.withReceiver _ receiver = _
  simp only [TransactionArguments.withReceiver, hreceiver]

/-- The part of a draft before its nonce. -/
def addressedArguments
    (client : Client) (sender receiver : Address) : Operation TransactionArguments := do
  let defaults ← client.defaultArguments sender
  Call.ofExcept (defaults.withReceiver receiver)

theorem ends_addressedArguments {sender : Address} {result : Except Error TransactionArguments} :
    (client.addressedArguments sender receiver).Ends trace result ↔
      ∃ config, ConfigRead client trace config ∧ result = config >>= addressed sender receiver := by
  unfold addressedArguments
  rw [Call.ends_bind_ofExcept]
  constructor
  · rintro ⟨_, hdefaults, rfl⟩
    obtain ⟨config, hconfig, rfl⟩ := ends_defaultArguments.1 hdefaults
    exact ⟨config, hconfig, bind_assoc ..⟩
  · rintro ⟨config, hconfig, rfl⟩
    exact ⟨_, ends_defaultArguments.2 ⟨config, hconfig, rfl⟩, (bind_assoc ..).symm⟩

theorem sends_addressedArguments {sender : Address} :
    (client.addressedArguments sender receiver).Sends trace sent ↔
      client.networkConfig.Sends trace sent :=
  Call.sends_bind_ofExcept.trans sends_defaultArguments

theorem draft_eq (hreceiver : receiver.isValid) : client.draft signer receiver value = (do
    let arguments ← client.addressedArguments signer.address receiver
    let nonce ← reserveNonce signer.address (client.accountNonce signer.address)
    return { arguments with value := value, nonce := nonce }.transaction) := by
  unfold draft addressedArguments
  simp only [if_neg (not_not_intro hreceiver), bind_assoc]

theorem ends_draft {result : Except Error Transaction} :
    (client.draft signer receiver value).Ends trace result ↔
      Drafted client signer receiver value trace result := by
  by_cases hreceiver : receiver.isValid
  · obtain ⟨text, htext⟩ := Address.exists_bech32 hreceiver
    rw [draft_eq hreceiver, Call.ends_bind]
    constructor
    · rintro (⟨cause, harguments, rfl⟩ | ⟨front, back, arguments, rfl, harguments, hrest⟩)
      · obtain ⟨_ | config, hconfig, hresult⟩ := ends_addressedArguments.1 harguments
        · cases hresult
          exact .unconfigured hreceiver hconfig
        · cases hsender : signer.address.bech32 with
          | error fault =>
              cases hresult.trans (addressed_of_unaddressed hsender)
              exact .unaddressed hreceiver hconfig hsender
          | ok own => cases hresult.trans (addressed_of_addressed hsender htext)
      · obtain ⟨_ | config, hconfig, hresult⟩ := ends_addressedArguments.1 harguments
        · cases hresult
        · cases hsender : signer.address.bech32 with
          | error fault => cases hresult.trans (addressed_of_unaddressed hsender)
          | ok own =>
              cases hresult.trans (addressed_of_addressed hsender htext)
              obtain ⟨cause, hreserved, rfl⟩ | ⟨back, _, nonce, rfl, hreserved, rfl, rfl⟩ :=
                Call.ends_bind.1 hrest
              · exact .unreserved hreceiver hconfig hsender (ends_reserveNonce.1 hreserved)
              · rw [List.append_nil]
                exact .drafted hreceiver hconfig hsender htext (ends_reserveNonce.1 hreserved)
    · intro h
      cases h with
      | refused hinvalid => exact absurd hreceiver hinvalid
      | unconfigured _ hconfig => exact .inl ⟨_, ends_addressedArguments.2 ⟨_, hconfig, rfl⟩, rfl⟩
      | unaddressed _ hconfig hsender =>
          exact .inl ⟨_, ends_addressedArguments.2
            ⟨_, hconfig, (addressed_of_unaddressed hsender).symm⟩, rfl⟩
      | unreserved _ hconfig hsender hreserved =>
          exact .inr ⟨_, _, _, rfl, ends_addressedArguments.2
            ⟨_, hconfig, (addressed_of_addressed hsender htext).symm⟩,
            Call.ends_bind.2 (.inl ⟨_, ends_reserveNonce.2 hreserved, rfl⟩)⟩
      | drafted _ hconfig hsender htext hreserved =>
          exact .inr ⟨_, _, _, rfl, ends_addressedArguments.2
            ⟨_, hconfig, (addressed_of_addressed hsender htext).symm⟩,
            Call.ends_bind.2 (.inr ⟨_, [], _, (List.append_nil _).symm,
              ends_reserveNonce.2 hreserved, rfl, rfl⟩)⟩
  · rw [draft_refused hreceiver]
    constructor
    · rintro ⟨rfl, rfl⟩
      exact .refused hreceiver
    · intro h
      cases h with
      | refused => exact ⟨rfl, rfl⟩
      | unconfigured hvalid | unaddressed hvalid | unreserved hvalid | drafted hvalid =>
          exact absurd hvalid hreceiver

theorem accountNonce_sparesNonces {address : Address} :
    (client.accountNonce address).SparesNonces :=
  Call.only_bind account_sparesNonces fun _ => Call.only_pure

theorem ConfigRead.notMem {result : Except Error NetworkConfig} (h : ConfigRead client trace result)
    {step : Access} {reply : step.Reply} (hstep : ¬ step.sparesNonces) : .did step reply ∉ trace :=
  networkConfig_sparesNonces.notMem_of_ends (ends_networkConfig.2 h) hstep

/-- A draft that finds no nonce asks for that of the account, and what fails then fails the
draft. -/
theorem Drafted.of_missing {result : Except Error Transaction}
    (h : Drafted client signer receiver value trace result)
    (hmissing : .did (.takeNonce signer.address) none ∈ trace) : ∃ front config inside tail fetched,
      trace = front ++ slotOpened signer.address none ++ (inside ++ tail) ∧
        ConfigRead client front config ∧
      (client.accountNonce signer.address).Ends inside fetched ∧
      .did (.takeNonce signer.address) none ∉ tail ∧ ∀ cause, fetched = .error cause →
        result = .error cause ∧ tail = [.did (.release (.sender signer.address)) ()] := by
  cases h with
  | refused => cases hmissing
  | unconfigured _ hconfig | unaddressed _ hconfig =>
      exact absurd hmissing (hconfig.notMem Bool.false_ne_true)
  | @unreserved front _ _ _ _ _ hconfig _ hreserved =>
      have hback := (List.mem_append.1 hmissing).resolve_left (hconfig.notMem Bool.false_ne_true)
      obtain ⟨inside, tail, fetched, rfl, hfetch, htail, hfailed⟩ := hreserved.of_missing hback
      refine ⟨front, _, inside, tail, fetched, (List.append_assoc ..).symm, hconfig,
        hfetch, htail, ?_⟩
      intro cause hcause
      obtain ⟨hsame, htail⟩ := hfailed cause hcause
      exact ⟨congrArg Except.error (Except.error.inj hsame), htail⟩
  | @drafted front _ _ _ _ _ _ hconfig _ _ hreserved =>
      have hback := (List.mem_append.1 hmissing).resolve_left (hconfig.notMem Bool.false_ne_true)
      obtain ⟨inside, tail, fetched, rfl, hfetch, htail, hfailed⟩ := hreserved.of_missing hback
      refine ⟨front, _, inside, tail, fetched, (List.append_assoc ..).symm, hconfig,
        hfetch, htail, ?_⟩
      intro cause hcause
      cases (hfailed cause hcause).1

/-- A draft asks for the parameters of the network, and then for the account of its sender. -/
theorem sends_draft (h : (client.draft signer receiver value).Sends trace sent) :
    client.networkConfig.Sends trace sent ∨
      ∃ front inside config, trace = front ++ (slotOpened signer.address none ++ inside) ∧
        ConfigRead client front (.ok config) ∧
          (client.account signer.address).Sends inside sent := by
  by_cases hreceiver : receiver.isValid
  · rw [draft_eq hreceiver] at h
    obtain harguments | ⟨front, _, arguments, rfl, harguments, hrest⟩ := Call.sends_bind.1 h
    · exact .inl (sends_addressedArguments.1 harguments)
    · obtain ⟨_ | config, hconfig, hresult⟩ := ends_addressedArguments.1 harguments
      · cases hresult
      · obtain hreserve | ⟨_, _, _, _, _, hnone⟩ := Call.sends_bind.1 hrest
        · obtain ⟨inside, rfl, hfetch⟩ := sends_reserveNonce.1 hreserve
          exact .inr ⟨front, inside, config, rfl, hconfig, Call.sends_bind_ofExcept.1 hfetch⟩
        · exact hnone.elim
  · rw [draft_refused hreceiver] at h
    exact h.elim

/-! ## Dispatching -/

/-- How a transaction is dispatched, by what came of signing it. -/
inductive Dispatched (client : Client) (sender : Address) (nonce : UInt64) :
    Except SigningFault Transaction → Trace Request Answer → Except Error String → Prop where
  | unsigned {trace cause} (habandoned : NonceAbandoned sender nonce trace) :
      Dispatched client sender nonce (.error cause) trace (.error (.signing cause))
  | sent {tx answer hash} (htold : told Json.Codec.text (some "txHash") answer = .ok hash) :
      Dispatched client sender nonce (.ok tx) [.asked (client.sendRequest tx) answer] (.ok hash)
  | unsent {tx answer cause back}
      (htold : told Json.Codec.text (some "txHash") answer = .error cause)
      (habandoned : NonceAbandoned sender nonce back) :
      Dispatched client sender nonce (.ok tx) (.asked (client.sendRequest tx) answer :: back)
        (.error cause)

theorem sendTransaction_exchanges : (client.sendTransaction tx).Exchanges (client.sendRequest tx)
    (told Json.Codec.text (some "txHash")) := post_exchanges

/-- A nonce that is given up leaves the failure as it is. -/
theorem ends_abandon {sender : Address} {nonce : UInt64} {cause : Error}
    {result : Except Error String} :
    (do abandonNonce sender nonce; throw cause : Operation String).Ends trace result ↔
      NonceAbandoned sender nonce trace ∧ result = .error cause := by
  rw [Call.ends_bind]
  constructor
  · rintro (⟨other, habandon, rfl⟩ | ⟨front, _, _, rfl, habandon, rfl, rfl⟩)
    · cases (ends_abandonNonce.1 habandon).2
    · rw [List.append_nil]
      exact ⟨(ends_abandonNonce.1 habandon).1, rfl⟩
  · rintro ⟨habandoned, rfl⟩
    exact .inr ⟨trace, [], (), (List.append_nil trace).symm,
      ends_abandonNonce.2 ⟨habandoned, rfl⟩, rfl, rfl⟩

theorem sends_abandon {sender : Address} {nonce : UInt64} {cause : Error} :
    ¬ (do abandonNonce sender nonce; throw cause : Operation String).Sends trace sent := by
  rw [Call.sends_bind]
  rintro (habandon | ⟨_, _, _, -, -, hnone⟩)
  · exact sends_abandonNonce habandon
  · exact hnone

variable {sender : Address} {nonce : UInt64} {signed : Except SigningFault Transaction}

theorem ends_dispatch {result : Except Error String} :
    (client.dispatch sender nonce signed).Ends trace result ↔
      Dispatched client sender nonce signed trace result := by
  cases signed with
  | error cause =>
      refine ends_abandon.trans ⟨?_, ?_⟩
      · rintro ⟨habandoned, rfl⟩
        exact .unsigned habandoned
      · rintro ⟨habandoned⟩
        exact ⟨habandoned, rfl⟩
  | ok tx =>
      refine Call.ends_tryCatch.trans ⟨?_, ?_⟩
      · rintro (⟨hash, hsent, rfl⟩ | ⟨_, back, cause, rfl, hsent, hfailed⟩)
        · obtain ⟨answer, rfl, htold⟩ := sendTransaction_exchanges.ends.1 hsent
          exact .sent htold.symm
        · obtain ⟨answer, rfl, htold⟩ := sendTransaction_exchanges.ends.1 hsent
          obtain ⟨habandoned, rfl⟩ := ends_abandon.1 hfailed
          exact .unsent htold.symm habandoned
      · intro h
        cases h with
        | @sent _ answer hash htold =>
            exact .inl ⟨hash, sendTransaction_exchanges.ends.2 ⟨answer, rfl, htold.symm⟩, rfl⟩
        | @unsent _ answer cause back htold habandoned =>
            exact .inr ⟨[_], back, cause, rfl,
              sendTransaction_exchanges.ends.2 ⟨answer, rfl, htold.symm⟩,
              ends_abandon.2 ⟨habandoned, rfl⟩⟩

/-- What a dispatch does does not look into the slot. -/
theorem Dispatched.takeNonce_notMem {result : Except Error String}
    (h : Dispatched client sender nonce signed trace result) {found : Option UInt64} :
    .did (.takeNonce sender) found ∉ trace := by
  have habandon : ∀ {trace}, NonceAbandoned sender nonce trace →
      (.did (.takeNonce sender) found : Act Request Answer) ∉ trace := by
    intro trace habandoned
    cases habandoned <;> simp
  cases h with
  | unsigned habandoned => exact habandon habandoned
  | sent => simp
  | unsent _ habandoned => simpa using habandon habandoned

theorem sends_dispatch : (client.dispatch sender nonce signed).Sends trace sent ↔
    ∃ tx, signed = .ok tx ∧ trace = [] ∧ sent = client.sendRequest tx := by
  cases signed with
  | error cause => exact iff_of_false sends_abandon nofun
  | ok tx =>
      refine Call.sends_tryCatch.trans
        ((or_iff_left ?_).trans (sendTransaction_exchanges.sends.trans ?_))
      · rintro ⟨_, _, _, -, -, hfailed⟩
        exact sends_abandon hfailed
      · exact ⟨fun h => ⟨tx, rfl, h⟩, fun ⟨_, hsame, h⟩ => Except.ok.inj hsame ▸ h⟩

/-- A transfer that has found no nonce asks for that of the account, and fails if that fails. -/
theorem transfer_fetches {front rest : Trace Request Answer} {result : Except Error String}
    (h : (client.transfer signer receiver value).Ends
      (front ++ slotOpened signer.address none ++ rest) result) :
    ∃ config inside tail fetched, ConfigRead client front config ∧ rest = inside ++ tail ∧
      (client.accountNonce signer.address).Ends inside fetched ∧
      ∀ cause, fetched = .error cause →
        result = .error cause ∧ tail = [.did (.release (.sender signer.address)) ()] := by
  have hmissing : .did (.takeNonce signer.address) none ∈
      front ++ slotOpened signer.address none ++ rest := by simp [slotOpened]
  generalize htrace : front ++ slotOpened signer.address none ++ rest = trace at h hmissing
  rw [transfer_eq] at h
  obtain ⟨failure, hdraft, rfl⟩ | ⟨drafted, back, tx, rfl, hdraft, hdispatch⟩ := Call.ends_bind.1 h
  · obtain ⟨_, config, inside, tail, fetched, rfl, hconfig, hfetch, htail, hfailed⟩ :=
      (ends_draft.1 hdraft).of_missing hmissing
    have hinside : .did (.takeNonce signer.address) none ∉ inside :=
      accountNonce_sparesNonces.notMem_of_ends hfetch Bool.false_ne_true
    have hrest : .did (.takeNonce signer.address) none ∉ inside ++ tail := by simp [hinside, htail]
    obtain ⟨rfl, rfl⟩ := slotOpened_inj (hconfig.notMem Bool.false_ne_true) hrest htrace.symm
    refine ⟨config, inside, tail, fetched, hconfig, rfl, hfetch, fun cause hcause => ?_⟩
    obtain ⟨hsame, htail⟩ := hfailed cause hcause
    exact ⟨congrArg Except.error (Except.error.inj hsame), htail⟩
  · have hback : .did (.takeNonce signer.address) none ∉ back :=
      (ends_dispatch.1 hdispatch).takeNonce_notMem
    obtain ⟨_, config, inside, tail, fetched, rfl, hconfig, hfetch, htail, hfailed⟩ :=
      (ends_draft.1 hdraft).of_missing ((List.mem_append.1 hmissing).resolve_right hback)
    have hinside : .did (.takeNonce signer.address) none ∉ inside :=
      accountNonce_sparesNonces.notMem_of_ends hfetch Bool.false_ne_true
    have hrest : .did (.takeNonce signer.address) none ∉ inside ++ tail ++ back := by
      simp [hinside, htail, hback]
    rw [List.append_assoc (_ ++ _)] at htrace
    obtain ⟨rfl, rfl⟩ := slotOpened_inj (hconfig.notMem Bool.false_ne_true) hrest htrace.symm
    refine ⟨config, inside, tail ++ back, fetched, hconfig, List.append_assoc .., hfetch, ?_⟩
    intro cause hcause
    cases (hfailed cause hcause).1

end Client

end ShardNet
