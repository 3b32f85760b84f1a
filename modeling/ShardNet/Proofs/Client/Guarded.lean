-- SUMMARY: Accounts are read and queries posted only behind the finality gate, in every call of a client.
import ShardNet.Client.Query
import ShardNet.Proofs.Client.Gate
import ShardNet.Proofs.Client.Transfer

/-!
# Reading behind the gate

A client that checks finality sends a request for an account, or a query of a contract, when in the
same call the gate of the address has just been passed, and only then. Where the gate is closed with
an error, the call ends with that error and the request is not sent. This holds of a transfer as
well, which asks for the account of its sender while it reserves a nonce.

`reads_behind_gate` says so of all of these calls, and that a client that does not check finality
asks for nothing before the account or the query.
-/

namespace ShardNet.Client

open Finality

variable {client : Client} {address : Address} {trace front gate rest : Trace Request Answer}
  {request : Request} {answer : Answer}

/-! ## Requests -/

/-- The requests for accounts. -/
def ReadsAccount (client : Client) (request : Request) : Prop :=
  ∃ text, request = client.getRequest (.account text)

/-- The requests that query contracts. -/
def PostsQuery (client : Client) (request : Request) : Prop :=
  ∃ body, request = client.postRequest .vmQuery body

theorem ReadsAccount.method (h : client.ReadsAccount request) : request.method = .get := by
  obtain ⟨text, rfl⟩ := h
  rfl

theorem AsksNetwork.method (h : client.AsksNetwork request) : request.method = .get := by
  obtain rfl | ⟨shard, rfl⟩ := h <;> rfl

/-- The paths of the network begin with another letter than those of accounts. -/
theorem AsksNetwork.endpoint (h : client.AsksNetwork request) :
    request.endpoint.toList.head? = some 'n' := by
  obtain rfl | ⟨shard, rfl⟩ := h
  · show "network/config".toList.head? = _
    simp
  · obtain ⟨url, entity, policy, delta, expiry, flags⟩ := client
    cases entity with
    | proxy =>
        show ("network/status/" ++ Text.Decimal.text shard.toNat).toList.head? = _
        simp
    | observer =>
        show "node/status".toList.head? = _
        simp

theorem AsksNetwork.not_readsAccount (h : client.AsksNetwork request) :
    ¬ client.ReadsAccount request := by
  rintro ⟨text, rfl⟩
  have hletter : ("address/" ++ text).toList.head? = some 'n' := h.endpoint
  simp at hletter

theorem AsksNetwork.not_postsQuery (h : client.AsksNetwork request) :
    ¬ client.PostsQuery request := by
  rintro ⟨body, rfl⟩
  cases h.method

/-! ## The gate -/

theorem Gate.ne_nil {result : Except Error Unit} (h : Gate client address gate result) :
    gate ≠ [] := by
  cases h with
  | unconfigured hconfig | unassigned hconfig _ => exact hconfig.ne_nil
  | checked hconfig _ _ => exact List.append_ne_nil_of_left_ne_nil hconfig.ne_nil _

/-- The gate does not touch the lock of a sender. -/
theorem Gate.release_notMem (henabled : client.policy.isEnabled) {result : Except Error Unit}
    (h : Gate client address gate result) {sender : Address} :
    .did (.release (.sender sender)) () ∉ gate :=
  checkAddressFinality_sparesNonces.notMem_of_ends ((ends_checkAddressFinality henabled).2 h)
    (by simp [Access.sparesNonces])

/-- The first act is a question for a guarded request. -/
def AsksFirst (guarded : Request → Prop) (trace : Trace Request Answer) : Prop :=
  ∃ request answer rest, guarded request ∧ trace = .asked request answer :: rest

/-- A call that sends certain requests behind the gate of an address, and only there. `entered` says
what the call has done when it comes to the gate. -/
structure Behind {α : Type} (client : Client) (address : Address)
    (entered : Trace Request Answer → Prop) (guarded : Request → Prop)
    (call : Operation α) : Prop where
  /-- A guarded request is sent when the gate has just been passed. -/
  passed : ∀ {trace request}, call.Sends trace request → guarded request →
    ∃ front gate, trace = front ++ gate ∧ entered front ∧ Gate client address gate (.ok ())
  /-- Where the gate is closed with an error, the call ends with it and has sent no guarded
  request. -/
  refused : ∀ {front gate rest result cause}, call.Ends (front ++ gate ++ rest) result →
    entered front → Gate client address gate (.error cause) →
    result = .error cause ∧ ∀ request answer, .asked request answer ∈ front ++ gate ++ rest →
      ¬ guarded request
  /-- Where the gate is passed, a guarded request is what comes next. -/
  opened : ∀ {front gate rest result}, call.Ends (front ++ gate ++ rest) result → entered front →
    Gate client address gate (.ok ()) → AsksFirst guarded rest

variable {α β : Type} {guarded : Request → Prop}

/-- In a run, whatever else the other calls do, a guarded request is sent behind the gate. -/
theorem Behind.passed_of_run {ι : Type} {γ : ι → Type} [DecidableEq ι] {memory : Memory}
    {calls : (i : ι) → Operation (γ i)} {history : History Request Answer ι}
    {pool : Pool Request Answer γ} {i : ι}
    {next : Answer → Program Request Answer (Except Error (γ i))}
    {entered : Trace Request Answer → Prop} (h : Behind client address entered guarded (calls i))
    (run : Run (.begin memory calls) history pool) (hasks : pool.rest i = some (.ask request next))
    (hguarded : guarded request) :
    ∃ front gate, history.trace i = front ++ gate ∧ entered front ∧
      Gate client address gate (.ok ()) :=
  h.passed (run.sends_trace hasks) hguarded

/-! ## Calls that begin with the gate -/

theorem asksFirst_of_exchanges {call : Operation α}
    {reading : Answer → Except Error α} {result : Except Error α}
    (h : call.Exchanges request reading) (hguarded : guarded request)
    (hends : call.Ends trace result) : AsksFirst guarded trace := by
  obtain ⟨answer, rfl, -⟩ := h.ends.1 hends
  exact ⟨request, answer, [], hguarded, rfl⟩

theorem AsksFirst.bind {call : Operation α} {next : α → Operation β} {result : Except Error β}
    (h : ∀ {trace result}, call.Ends trace result → AsksFirst guarded trace)
    (hends : (call >>= next).Ends trace result) : AsksFirst guarded trace := by
  obtain ⟨cause, hcall, -⟩ | ⟨front, back, value, rfl, hcall, -⟩ := Call.ends_bind.1 hends
  · exact h hcall
  · obtain ⟨request, answer, rest, hrequest, rfl⟩ := h hcall
    exact ⟨request, answer, rest ++ back, hrequest, rfl⟩

/-- What comes after the gate is what the call does behind it. -/
theorem asksFirst_of_check (henabled : client.policy.isEnabled) {next : Unit → Operation α}
    (hnext : ∀ {trace result}, (next ()).Ends trace result → AsksFirst guarded trace)
    {inside tail : Trace Request Answer} {result : Except Error α}
    (hends : (client.checkAddressFinality address >>= next).Ends inside result)
    (hgate : Gate client address gate (.ok ())) (hsame : gate ++ rest = inside ++ tail) :
    AsksFirst guarded rest := by
  have hpassed := (ends_checkAddressFinality henabled).2 hgate
  obtain ⟨cause, hcheck, -⟩ | ⟨front, back, _, rfl, hcheck, hthen⟩ := Call.ends_bind.1 hends
  · cases (hpassed.unique hcheck hsame).2
  · rw [List.append_assoc] at hsame
    obtain ⟨rfl, -⟩ := hpassed.unique hcheck hsame
    obtain ⟨request, answer, later, hrequest, rfl⟩ := hnext hthen
    exact ⟨request, answer, later ++ tail, hrequest, List.append_cancel_left hsame⟩

/-- A call that begins with the gate, and asks a guarded question behind it and nothing more. -/
theorem behind_of_check (henabled : client.policy.isEnabled)
    (hguarded : ∀ request, client.AsksNetwork request → ¬ guarded request)
    {next : Unit → Operation α}
    (hnext : ∀ trace request, (next ()).Sends trace request → trace = [])
    (hfirst : ∀ {trace result}, (next ()).Ends trace result → AsksFirst guarded trace) :
    Behind client address (· = []) guarded (client.checkAddressFinality address >>= next) where
  passed := by
    intro trace request hsends hrequest
    obtain hcheck | ⟨front, back, _, rfl, hcheck, hthen⟩ := Call.sends_bind.1 hsends
    · exact absurd hrequest (hguarded _ (sends_checkAddressFinality hcheck))
    · rw [hnext back request hthen, List.append_nil]
      exact ⟨[], front, rfl, rfl, (ends_checkAddressFinality henabled).1 hcheck⟩
  refused := by
    rintro _ gate rest result cause hends rfl hgate
    -- The call has ended when its gate is closed, so nothing comes after the gate.
    have hclosed : (client.checkAddressFinality address >>= next).Ends gate (.error cause) :=
      Call.ends_bind.2 (.inl ⟨cause, (ends_checkAddressFinality henabled).2 hgate, rfl⟩)
    have hsame : gate ++ rest = [] ++ gate ++ rest ++ [] := (List.append_nil _).symm
    obtain ⟨hwhole, rfl⟩ := hclosed.unique hends hsame
    refine ⟨rfl, fun request answer hmem => hguarded request ?_⟩
    rw [← hwhole] at hmem
    exact hgate.asksNetwork henabled hmem
  opened := by
    rintro _ gate rest result hends rfl hgate
    exact asksFirst_of_check henabled hfirst hends hgate (List.append_nil _).symm

/-- A call that fails at once does not come to the gate. -/
theorem behind_throw {cause : Error} :
    Behind client address (· = []) guarded (throw cause : Operation α) where
  passed hsends _ := hsends.elim
  refused := by
    rintro _ gate rest result cause ⟨hnil, -⟩ rfl hgate
    obtain ⟨rfl, -⟩ := List.append_eq_nil_iff.1 hnil
    exact absurd rfl hgate.ne_nil
  opened := by
    rintro _ gate rest result ⟨hnil, -⟩ rfl hgate
    obtain ⟨rfl, -⟩ := List.append_eq_nil_iff.1 hnil
    exact absurd rfl hgate.ne_nil

/-! ## Accounts -/

theorem account_eq {text : String} (hvalid : address.isValid) (htext : address.bech32 = .ok text) :
    client.account address = (do
      client.checkAddressFinality address
      client.get (.account text) Account.codec "account") := by
  unfold account
  simp only [if_neg (not_not_intro hvalid), htext]
  rfl

theorem account_invalid (hinvalid : ¬ address.isValid) :
    client.account address = throw (.address (.invalidLength address.bytes.length)) := by
  unfold account
  simp only [if_pos hinvalid, Call.throw_bind]

/-- Nothing else is asked for an account. -/
theorem sends_account (h : (client.account address).Sends trace request) :
    client.AsksNetwork request ∨ client.ReadsAccount request := by
  by_cases hvalid : address.isValid
  · obtain ⟨text, htext⟩ := Address.exists_bech32 hvalid
    rw [account_eq hvalid htext] at h
    obtain hcheck | ⟨_, _, _, rfl, -, hget⟩ := Call.sends_bind.1 h
    · exact .inl (sends_checkAddressFinality hcheck)
    · exact .inr ⟨text, (get_exchanges.sends.1 hget).2⟩
  · rw [account_invalid hvalid] at h
    exact h.elim

theorem account_behind (henabled : client.policy.isEnabled) :
    Behind client address (· = []) client.ReadsAccount (client.account address) := by
  by_cases hvalid : address.isValid
  · obtain ⟨text, htext⟩ := Address.exists_bech32 hvalid
    rw [account_eq hvalid htext]
    exact behind_of_check henabled (fun _ => AsksNetwork.not_readsAccount)
      (fun _ _ hget => (get_exchanges.sends.1 hget).1)
        (asksFirst_of_exchanges get_exchanges ⟨text, rfl⟩)
  · rw [account_invalid hvalid]
    exact behind_throw

theorem balance_behind (henabled : client.policy.isEnabled) :
    Behind client address (· = []) client.ReadsAccount (client.balance address) := by
  unfold balance
  by_cases hvalid : address.isValid
  · obtain ⟨text, htext⟩ := Address.exists_bech32 hvalid
    rw [account_eq hvalid htext, bind_assoc]
    refine behind_of_check henabled (fun _ => AsksNetwork.not_readsAccount)
      (fun trace request hsends => ?_)
        (AsksFirst.bind (asksFirst_of_exchanges get_exchanges ⟨text, rfl⟩))
    obtain hget | ⟨_, _, account, rfl, -, hamount⟩ := Call.sends_bind.1 hsends
    · exact (get_exchanges.sends.1 hget).1
    · split at hamount <;> exact hamount.elim
  · rw [account_invalid hvalid, Call.throw_bind]
    exact behind_throw

/-! ## Queries -/

theorem runQuery_eq {query : VmQuery} {contract : Address}
    (hcontract : Address.ofBech32 query.contract = .ok contract) : client.runQuery query = (do
      client.checkAddressFinality contract
      client.post .vmQuery (query.body client.flags) VmOutput.codec (some "data")) := by
  unfold runQuery
  rw [hcontract]
  rfl

theorem runQuery_invalid {query : VmQuery} {cause : Address.Fault}
    (hcontract : Address.ofBech32 query.contract = .error cause) :
    client.runQuery query = throw (.address cause) := by
  unfold runQuery
  rw [hcontract]
  rfl

theorem runQuery_behind (henabled : client.policy.isEnabled) {query : VmQuery} {contract : Address}
    (hcontract : Address.ofBech32 query.contract = .ok contract) :
    Behind client contract (· = []) client.PostsQuery (client.runQuery query) := by
  rw [runQuery_eq hcontract]
  exact behind_of_check henabled (fun _ => AsksNetwork.not_postsQuery)
    (fun _ _ hpost => (post_exchanges.sends.1 hpost).1)
      (asksFirst_of_exchanges post_exchanges ⟨_, rfl⟩)

/-! ## Transfers -/

/-- A transfer comes to the gate when it has found no nonce for its sender. -/
def FoundNoNonce (sender : Address) (front : Trace Request Answer) : Prop :=
  ∃ before, front = before ++ slotOpened sender none

variable {signer : Signer} {receiver : Address} {value : String}

/-- A sender whose address is invalid fails before the gate. -/
theorem valid_of_gate {tail : Trace Request Answer} {fetched : Except Error UInt64}
    {sender : Address} {verdict : Except Error Unit} {failed : Error → Prop}
    (henabled : client.policy.isEnabled) (hgate : Gate client sender gate verdict)
    (hrest : gate ++ rest = front ++ tail)
    (hfetch : (client.accountNonce sender).Ends front fetched)
    (hfailed : ∀ cause, fetched = .error cause →
      failed cause ∧ tail = [.did (.release (.sender sender)) ()]) : sender.isValid := by
  by_contra hinvalid
  rw [accountNonce, account_invalid hinvalid, Call.throw_bind] at hfetch
  obtain ⟨rfl, rfl⟩ := hfetch
  obtain ⟨-, rfl⟩ := hfailed _ rfl
  obtain ⟨act, gate, rfl⟩ := List.exists_cons_of_ne_nil hgate.ne_nil
  obtain ⟨rfl, -⟩ := List.cons.inj hrest
  exact hgate.release_notMem henabled List.mem_cons_self

theorem transfer_behind (henabled : client.policy.isEnabled) :
    Behind client signer.address (FoundNoNonce signer.address) client.ReadsAccount
      (client.transfer signer receiver value) where
  passed := by
    intro trace request hsends hrequest
    rw [transfer_eq] at hsends
    obtain hdraft | ⟨front, back, tx, rfl, -, hdispatch⟩ := Call.sends_bind.1 hsends
    · obtain hconfig | ⟨front, inside, config, rfl, -, haccount⟩ := sends_draft hdraft
      · exact absurd hrequest (AsksNetwork.not_readsAccount
          (.inl (sends_networkConfig.1 hconfig).2))
      · obtain ⟨_, gate, rfl, rfl, hgate⟩ := (account_behind henabled).passed haccount hrequest
        exact ⟨front ++ slotOpened signer.address none, gate,
          (List.append_assoc ..).symm, ⟨front, rfl⟩,
          hgate⟩
    · obtain ⟨signed, -, -, rfl⟩ := sends_dispatch.1 hdispatch
      cases hrequest.method
  refused := by
    rintro _ gate rest result cause hends ⟨front, rfl⟩ hgate
    rw [List.append_assoc (front ++ _)] at hends ⊢
    obtain ⟨config, inside, tail, fetched, hconfig, hrest, hfetch, hfailed⟩ :=
      transfer_fetches hends
    have hvalid := valid_of_gate henabled hgate hrest hfetch hfailed
    obtain ⟨text, htext⟩ := Address.exists_bech32 hvalid
    have hclosed : (client.accountNonce signer.address).Ends gate (.error cause) := by
      rw [accountNonce, account_eq hvalid htext, bind_assoc]
      exact Call.ends_bind.2 (.inl ⟨cause, (ends_checkAddressFinality henabled).2 hgate, rfl⟩)
    obtain ⟨rfl, rfl⟩ := hclosed.unique hfetch hrest
    obtain ⟨rfl, rfl⟩ := hfailed cause rfl
    refine ⟨rfl, fun request answer hmem => AsksNetwork.not_readsAccount ?_⟩
    rw [List.append_cancel_left hrest] at hmem
    simp only [slotOpened, List.mem_append, List.mem_cons, List.not_mem_nil, reduceCtorEq,
      or_false] at hmem
    obtain hread | hasked := hmem
    · obtain ⟨before, after, rfl⟩ := List.append_of_mem hread
      exact .inl (sends_networkConfig.1 (ends_networkConfig.2 hconfig).sends).2
    · exact hgate.asksNetwork henabled hasked
  opened := by
    rintro _ gate rest result hends ⟨front, rfl⟩ hgate
    rw [List.append_assoc (front ++ _)] at hends
    obtain ⟨config, inside, tail, fetched, -, hrest, hfetch, hfailed⟩ := transfer_fetches hends
    have hvalid := valid_of_gate henabled hgate hrest hfetch hfailed
    obtain ⟨text, htext⟩ := Address.exists_bech32 hvalid
    rw [accountNonce, account_eq hvalid htext, bind_assoc] at hfetch
    exact asksFirst_of_check henabled
      (AsksFirst.bind (asksFirst_of_exchanges get_exchanges ⟨text, rfl⟩)) hfetch
      hgate hrest

/-! ## All calls -/

theorem AsksNetwork.not_sends_account (hpolicy : client.policy = .disabled)
    (hrequest : client.AsksNetwork request) : ¬ (client.account address).Sends trace request := by
  by_cases hvalid : address.isValid
  · obtain ⟨text, htext⟩ := Address.exists_bech32 hvalid
    rw [account_eq hvalid htext, checkAddressFinality_disabled hpolicy, pure_bind,
      get_exchanges.sends]
    exact fun hget => hrequest.not_readsAccount ⟨text, hget.2⟩
  · rw [account_invalid hvalid]
    exact id

theorem AsksNetwork.not_sends_balance (hpolicy : client.policy = .disabled)
    (hrequest : client.AsksNetwork request) : ¬ (client.balance address).Sends trace request := by
  unfold balance
  rw [Call.sends_bind]
  rintro (haccount | ⟨_, _, account, rfl, -, hamount⟩)
  · exact hrequest.not_sends_account hpolicy haccount
  · split at hamount <;> exact hamount

theorem AsksNetwork.not_sends_runQuery (hpolicy : client.policy = .disabled)
    (hrequest : client.AsksNetwork request) {query : VmQuery} :
    ¬ (client.runQuery query).Sends trace request := by
  cases hcontract : Address.ofBech32 query.contract with
  | error cause =>
      rw [runQuery_invalid hcontract]
      exact id
  | ok contract =>
      rw [runQuery_eq hcontract, checkAddressFinality_disabled hpolicy, pure_bind,
        post_exchanges.sends]
      exact fun hpost => hrequest.not_postsQuery ⟨_, hpost.2⟩

/-- A client that checks finality reads an account, also in a transfer, and posts a query behind the
gate of the address and only there, and fails with what closes the gate. A query whose contract is
no address is not posted. A client that does not check finality does not ask about the network in
these calls. -/
theorem reads_behind_gate (client : Client) :
    (client.policy.isEnabled →
      (∀ address, Behind client address (· = []) client.ReadsAccount (client.account address)) ∧
      (∀ address, Behind client address (· = []) client.ReadsAccount (client.balance address)) ∧
      (∀ signer receiver value,
        Behind client signer.address (FoundNoNonce signer.address) client.ReadsAccount
          (client.transfer signer receiver value)) ∧
      ∀ query : VmQuery, match Address.ofBech32 query.contract with
        | .ok contract => Behind client contract (· = []) client.PostsQuery (client.runQuery query)
        | .error cause => client.runQuery query = throw (.address cause)) ∧
    (client.policy = .disabled → ∀ trace request, client.AsksNetwork request →
      (∀ address, ¬ (client.account address).Sends trace request) ∧
      (∀ address, ¬ (client.balance address).Sends trace request) ∧
      ∀ query, ¬ (client.runQuery query).Sends trace request) := by
  constructor
  · intro henabled
    refine ⟨fun _ => account_behind henabled, fun _ => balance_behind henabled,
      fun _ _ _ => transfer_behind henabled, fun query => ?_⟩
    cases hcontract : Address.ofBech32 query.contract with
    | error cause => exact runQuery_invalid hcontract
    | ok contract => exact runQuery_behind henabled hcontract
  · intro hpolicy trace request hrequest
    exact ⟨fun _ => hrequest.not_sends_account hpolicy, fun _ => hrequest.not_sends_balance hpolicy,
      fun _ => hrequest.not_sends_runQuery hpolicy⟩

namespace Lagging

def proxy : Client := ⟨"", .proxy, .proxy, 1, 0, ⟨false, false⟩⟩

def holder : Address := ⟨List.replicate 32 1⟩

def parameters : NetworkConfig := { (default : NetworkConfig) with numShardsWithoutMeta := 1 }

/-- The answer of a service that reports a status. -/
def status (members : String) : Answer :=
  .ok ⟨200, Text.Utf8.encode
    ("\x7b\"data\":\x7b\"status\":\x7b" ++ members ++ "\x7d\x7d\x7d").toList⟩

def metachain : Answer := status "\"erd_cross_check_block_height\":\"0: 5, \""

def caughtUp : Answer := status "\"erd_nonce\":5"

def lagging : Answer := status "\"erd_nonce\":4"

/-- The metachain has notarised the fifth block of the only shard, which reports its head. -/
def looked (head : Answer) : Trace Request Answer :=
  [.did .freshConfig (some parameters)] ++
    [.asked (proxy.getRequest (.networkStatus .metachain)) metachain,
      .asked (proxy.getRequest (.networkStatus 0)) head]

theorem gate_looked {head : Answer} {verdict : Except Error Unit}
    (hverdict : proxy.notarisedVerdict 0 5 head = verdict) :
    Gate proxy holder (looked head) verdict := by
  have hshard : shardIn parameters holder = .ok 0 := by decide +kernel
  have hnotarised : proxy.notarisedTold 0 metachain = .ok 5 := by decide +kernel
  subst hverdict
  exact .checked .fresh hshard (.notarised rfl (by decide +kernel) (by decide +kernel) hnotarised)

end Lagging

open Lagging in
/-- An account is read once its shard has caught up with the metachain. While the shard lags behind,
the call fails; without the check, it asks for the account only. -/
theorem reads_behind_gate_lagging :
    (∃ request front gate, (proxy.account holder).Sends (looked caughtUp) request ∧
      proxy.ReadsAccount request ∧ looked caughtUp = front ++ gate ∧
        Gate proxy holder gate (.ok ())) ∧
    (∀ rest result, (proxy.account holder).Ends (looked lagging ++ rest) result →
      result = .error (.finality (.syncing 0 5 4 1))) ∧
    ∀ trace request, ({ proxy with policy := .disabled }.account holder).Sends trace request →
      ¬ proxy.AsksNetwork request := by
  have hbehind := (reads_behind_gate proxy).1 (by decide +kernel) |>.1 holder
  refine ⟨?_, ?_, ?_⟩
  · obtain ⟨text, htext⟩ : ∃ text, holder.bech32 = .ok text :=
      Address.exists_bech32 (by decide +kernel)
    have hgate : Gate proxy holder (looked caughtUp) (.ok ()) := gate_looked (by decide +kernel)
    have hsends :
        (proxy.account holder).Sends (looked caughtUp) (proxy.getRequest (.account text)) := by
      rw [account_eq (by decide +kernel) htext]
      exact Call.sends_bind.2 (.inr ⟨_, [], (), (List.append_nil _).symm,
        (ends_checkAddressFinality (by decide +kernel)).2 hgate, get_exchanges.sends.2 ⟨rfl, rfl⟩⟩)
    obtain ⟨front, gate, hsame, -, hpassed⟩ := hbehind.passed hsends ⟨text, rfl⟩
    exact ⟨_, front, gate, hsends, ⟨text, rfl⟩, hsame, hpassed⟩
  · intro rest result hends
    have hgate : Gate proxy holder (looked lagging) (.error (.finality (.syncing 0 5 4 1))) :=
      gate_looked (by decide +kernel)
    have hwhole : (proxy.account holder).Ends ([] ++ looked lagging ++ rest) result := hends
    exact (hbehind.refused hwhole rfl hgate).1
  · intro trace request hsends hrequest
    have hidle :=
      (reads_behind_gate { proxy with policy := .disabled }).2 rfl trace request hrequest
    exact hidle.1 holder hsends

end ShardNet.Client
