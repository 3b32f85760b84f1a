-- SUMMARY: Where a transfer has its nonce from: the account if no nonce of the sender is known, and the book if one is.
import ShardNet.Proofs.Client.Broadcast
import ShardNet.Proofs.Nonce.Exclusive

/-!
# Where nonces come from

A transfer takes its nonce from the book, or fetches it from the account of its sender and starts
the book anew. Which of the two it does shows in its trace: `Fetched` says that the last thing it
did was to be told the nonce of the account. `transfer_handed` says that in a run this depends on
one thing only, whether a nonce of the sender is known at that moment.
-/

namespace ShardNet

open Holding

/-! ## Traces in runs -/

section Runs

variable {Query Answer ι : Type} {γ : ι → Type} [DecidableEq ι]
  {history : History Query Answer ι} {i : ι}

/-- A nonce is handed out to a call if one is reserved in its trace. -/
theorem History.handedOut_iff_reserves {sender : Address} {nonce : UInt64} :
    history.HandedOut i sender nonce ↔ Reserves (history.trace i) sender nonce := by
  rw [Reserves, History.mem_trace_did, History.mem_trace_did]
  constructor
  · rintro ⟨event, hmem, hout⟩
    cases hout with
    | taken => exact .inl hmem
    | started => exact .inr hmem
  · rintro (hmem | hmem)
    · exact ⟨_, hmem, .taken⟩
    · exact ⟨_, hmem, .started⟩

/-- What a call has done in a run it goes on from to some end. -/
theorem Run.exists_ends [Nonempty Answer] {memory : Memory}
    {calls : (i : ι) → Call Query Answer (γ i)} {pool : Pool Query Answer γ}
    (run : Run (.begin memory calls) history pool) (hlive : (pool.rest i).isSome) :
    ∃ rest result, (calls i).Ends (history.trace i ++ rest) result := by
  obtain ⟨left, hleft⟩ := Option.isSome_iff_exists.1 hlive
  obtain ⟨rest, result, hends⟩ := left.exists_ends
  exact ⟨rest, result, (run.reaches hleft).ends hends⟩

/-- The next step of a call in a run is one on the way to some end. -/
theorem Run.ends_of_step [Nonempty Answer] {memory : Memory}
    {calls : (i : ι) → Call Query Answer (γ i)} {pool later : Pool Query Answer γ}
    {access : Access} {reply : access.Reply} (run : Run (.begin memory calls) history pool)
    (step : Step pool (.stepped i access reply) later) :
    ∃ rest result, (calls i).Ends (history.trace i ++ .did access reply :: rest) result := by
  have hlive : (later.rest i).isSome := by
    generalize hevent : Event.stepped i access reply = event at step
    cases step with
    | stepped => cases hevent; simp [Pool.afterStep]
    | answered | dropped | passed => cases hevent
  obtain ⟨rest, result, hends⟩ := (run.snoc step).exists_ends hlive
  refine ⟨rest, result, ?_⟩
  simpa [History.trace_snoc, Event.act?] using hends

end Runs

namespace Client

variable {client : Client} {signer : Signer} {receiver : Address} {value : String}
  {sender : Address} {trace front rest : Trace Request Answer} {nonce : UInt64}

/-! ## Fetched nonces -/

/-- The last thing that was done is that the account of a sender was asked for, and the answer tells
its nonce. -/
def Fetched (client : Client) (sender : Address) (trace : Trace Request Answer) (nonce : UInt64) :
    Prop :=
  ∃ before text answer account, sender.bech32 = .ok text ∧
    trace = before ++ [.asked (client.getRequest (.account text)) answer] ∧
    told Account.codec (some "account") answer = .ok account ∧ account.nonce = nonce

/-- No account was asked for. -/
def Unasked (client : Client) (trace : Trace Request Answer) : Prop :=
  ∀ request answer, .asked request answer ∈ trace → ¬ client.ReadsAccount request

theorem Fetched.append (h : client.Fetched sender trace nonce) (front : Trace Request Answer) :
    client.Fetched sender (front ++ trace) nonce := by
  obtain ⟨before, text, answer, account, htext, rfl, htold, hnonce⟩ := h
  exact ⟨front ++ before, text, answer, account, htext, (List.append_assoc ..).symm, htold, hnonce⟩

theorem fetched_of_ends (h : (client.accountNonce sender).Ends trace (.ok nonce)) :
    client.Fetched sender trace nonce := by
  unfold accountNonce at h
  obtain ⟨_, -, hresult⟩ | ⟨inside, _, account, rfl, haccount, rfl, hnonce⟩ := Call.ends_bind.1 h
  · cases hresult
  rw [List.append_nil]
  by_cases hvalid : sender.isValid
  · obtain ⟨text, htext⟩ := Address.exists_bech32 hvalid
    rw [account_eq hvalid htext] at haccount
    obtain ⟨_, -, hresult⟩ | ⟨gate, _, _, rfl, -, hget⟩ := Call.ends_bind.1 haccount
    · cases hresult
    · obtain ⟨answer, rfl, htold⟩ := get_exchanges.ends.1 hget
      exact ⟨gate, text, answer, account, htext, rfl, htold.symm, (Except.ok.inj hnonce).symm⟩
  · rw [account_invalid hvalid] at haccount
    cases haccount.2

/-- A dispatch gives nonces up, and reserves none. -/
theorem Dispatched.not_reserves {signed : Except SigningFault Transaction}
    {result : Except Error String} {own : UInt64}
    (h : Dispatched client sender own signed trace result) : ¬ Reserves trace sender nonce := by
  have habandon : ∀ {trace : Trace Request Answer}, NonceAbandoned sender own trace →
      ¬ Reserves trace sender nonce := by
    intro trace habandoned
    cases habandoned <;> simp [Reserves]
  cases h with
  | unsigned habandoned => exact habandon habandoned
  | sent => simp [Reserves]
  | unsent _ habandoned => simpa [Reserves] using habandon habandoned

/-- A transfer that reserves a nonce has read the parameters of the network before, and reserves no
other. -/
theorem reserved_of_reserves {result : Except Error String}
    (h : (client.transfer signer receiver value).Ends trace result)
    (hreserves : Reserves trace signer.address nonce) : ∃ config before middle after,
      trace = before ++ middle ++ after ∧ ConfigRead client before (.ok config) ∧
      NonceReserved signer.address (client.accountNonce signer.address) middle (.ok nonce) ∧
      ∀ other, ¬ Reserves after signer.address other := by
  obtain ⟨drafted, after, tx, rfl, hdraft, hdispatch⟩ := drafted_of_reserves h hreserves
  have hafter : ∀ other, ¬ Reserves after signer.address other :=
    fun _ => (ends_dispatch.1 hdispatch).not_reserves
  rw [reserves_append, or_iff_left (hafter nonce)] at hreserves
  cases ends_draft.1 hdraft with
  | @drafted before middle config _ _ other _ hconfig _ _ hreserved =>
      rw [reserves_append, or_iff_right hconfig.not_reserves,
        hreserved.reserves_iff accountNonce_sparesNonces] at hreserves
      exact ⟨config, before, middle, after, rfl, hconfig, hreserves ▸ hreserved, hafter⟩

/-- A transfer that starts the book with a nonce has just fetched it. -/
theorem fetched_of_started {result : Except Error String}
    (h : (client.transfer signer receiver value).Ends
      (front ++ .did (.startNonces signer.address nonce) () :: rest) result) :
    client.Fetched signer.address front nonce := by
  have hstarted : .did (.startNonces signer.address nonce) () ∈
      front ++ .did (.startNonces signer.address nonce) () :: rest := by simp
  obtain ⟨config, before, middle, after, hsame, hconfig, hreserved, hafter⟩ :=
    reserved_of_reserves h (.inr hstarted)
  have hbefore : .did (.startNonces signer.address nonce) () ∉ before :=
    hconfig.notMem Bool.false_ne_true
  have hafter : .did (.startNonces signer.address nonce) () ∉ after :=
    fun hmem => hafter nonce (.inr hmem)
  cases hreserved with
  | taken =>
      rw [hsame] at hstarted
      simp [hbefore, hafter, slotOpened] at hstarted
  | @fetched inside _ hfetch =>
      have hinside : .did (.startNonces signer.address nonce) () ∉ inside :=
        accountNonce_sparesNonces.notMem_of_ends hfetch Bool.false_ne_true
      have hsplit : (before ++ slotOpened signer.address none ++ inside) ++
          .did (.startNonces signer.address nonce) () ::
            (.did (.release (.sender signer.address)) () :: after) =
          front ++ .did (.startNonces signer.address nonce) () :: rest := by
        rw [hsame]
        simp
      -- The step is the only one of its kind, so what stands before it is the fetch.
      obtain ⟨rfl, -, -⟩ := (List.append_cons_inj_of_notMem (by simp [hbefore, hinside, slotOpened])
        (by simp [hafter])).1 hsplit
      exact (fetched_of_ends hfetch).append _

/-- A transfer that takes its nonce from the book has asked for no account. -/
theorem unasked_of_taken {result : Except Error String}
    (h : (client.transfer signer receiver value).Ends
      (front ++ .did (.takeNonce signer.address) (some nonce) :: rest) result) :
    client.Unasked front := by
  have htaken : .did (.takeNonce signer.address) (some nonce) ∈
      front ++ .did (.takeNonce signer.address) (some nonce) :: rest := by simp
  obtain ⟨config, before, middle, after, hsame, hconfig, hreserved, hafter⟩ :=
    reserved_of_reserves h (.inl htaken)
  have hbefore : .did (.takeNonce signer.address) (some nonce) ∉ before :=
    hconfig.notMem Bool.false_ne_true
  have hafter : .did (.takeNonce signer.address) (some nonce) ∉ after :=
    fun hmem => hafter nonce (.inl hmem)
  cases hreserved with
  | taken =>
      have hsplit :
          (before ++ [.did (.openSlot signer.address) (),
          .did (.acquire (.sender signer.address)) ()]) ++
          .did (.takeNonce signer.address) (some nonce) ::
            (.did (.release (.sender signer.address)) () :: after) =
          front ++ .did (.takeNonce signer.address) (some nonce) :: rest := by
        rw [hsame]
        simp [slotOpened]
      obtain ⟨rfl, -, -⟩ :=
        (List.append_cons_inj_of_notMem (by simp [hbefore]) (by simp [hafter])).1 hsplit
      intro request answer hmem
      have hread : .asked request answer ∈ before := by simpa using hmem
      obtain ⟨earlier, later, rfl⟩ := List.append_of_mem hread
      exact AsksNetwork.not_readsAccount
        (.inl (sends_networkConfig.1 (ends_networkConfig.2 hconfig).sends).2)
  | @fetched inside _ hfetch =>
      have hinside : .did (.takeNonce signer.address) (some nonce) ∉ inside :=
        accountNonce_sparesNonces.notMem_of_ends hfetch Bool.false_ne_true
      rw [hsame] at htaken
      simp [hbefore, hafter, hinside, slotOpened] at htaken

/-! ## Transfers in a run -/

section

variable {τ κ : Type} [DecidableEq τ] [DecidableEq κ]
  {orders : τ → Order} {others : κ → Bystander} {memory : Memory}
  {history : History Request Answer (τ ⊕ κ)} {pool later : Pool Request Answer (@Outcome τ κ)}
  {stage : τ ⊕ κ → Holding} {event : Event Request Answer (τ ⊕ κ)} {t : τ}

/-- A transfer that is handed a nonce has just fetched it if none of its sender was known. Otherwise
the nonce is the one that was known, and no account was asked for. -/
theorem transfer_handed
    (h : Accounted (senderOf orders others) client.Posts CallEnds history pool stage)
    (run : Run (.begin memory (client.calls orders others)) history pool)
    (step : Step pool event later) (hout : HandsOut event (.inl t) sender nonce) :
    sender = (orders t).signer.address ∧
      (pool.memory.nonces.peek sender = none ∧
        client.Fetched sender (history.trace (.inl t)) nonce ∨
        pool.memory.nonces.peek sender = some nonce ∧ client.Unasked (history.trace (.inl t))) := by
  cases hout with
  | taken =>
      obtain ⟨rest, result, hends⟩ := run.ends_of_step step
      obtain ⟨rfl, r, hslot, rfl⟩ := h.next_of_taken step
      exact ⟨rfl, .inr ⟨by rw [NonceBook.peek, hslot]; rfl, unasked_of_taken hends⟩⟩
  | started =>
      obtain ⟨rest, result, hends⟩ := run.ends_of_step step
      obtain ⟨rfl, hnone⟩ := h.unknown_of_started step
      exact ⟨rfl, .inl ⟨by rw [NonceBook.peek, hnone]; rfl, fetched_of_started hends⟩⟩

/-- What is posted tells which transaction it is. -/
theorem sendRequest_injective : Function.Injective client.sendRequest := by
  intro tx other hsame
  have hbody : Text.Utf8.encode tx.wire = Text.Utf8.encode other.wire :=
    Option.some.inj (congrArg Request.body hsame)
  have htx := @read?_symbols_wire tx
  rw [hbody, read?_symbols_wire] at htx
  exact (Option.some.inj htx).symm

/-- A transfer has posted something, and waits for the answer. -/
def isPosting (pool : Pool Request Answer (@Outcome τ κ)) (t : τ) : Bool :=
  match pool.rest (.inl t) with
  | some (.ask request _) => request.method = .post
  | _ => false

omit [DecidableEq τ] [DecidableEq κ] in
theorem isPosting_iff : isPosting pool t ↔
    ∃ request next, pool.rest (.inl t) = some (.ask request next) ∧ request.method = .post := by
  unfold isPosting
  constructor
  · intro h
    split at h
    · rename_i request next hrest
      exact ⟨request, next, hrest, of_decide_eq_true h⟩
    · cases h
  · rintro ⟨request, next, hrest, hpost⟩
    simp [hrest, hpost]

/-- What a transfer posts is a transaction with the nonce that it holds. -/
theorem transfer_posting
    (h : Accounted (senderOf orders others) client.Posts CallEnds history pool stage)
    (run : Run (.begin memory (client.calls orders others)) history pool)
    (hposting : isPosting pool t) :
    ∃ tx next, pool.rest (.inl t) = some (.ask (client.sendRequest tx) next) ∧
      stage (.inl t) = .carrying tx.nonce := by
  obtain ⟨_, next, hasks, hpost⟩ := isPosting_iff.1 hposting
  obtain ⟨tx, signed, hdraft, hsigned, rfl⟩ := posts_transfer_iff.1 ⟨run.sends_trace hasks, hpost⟩
  have hreserves : Reserves (history.trace (.inl t)) (orders t).signer.address signed.nonce :=
    ((broadcast_of_drafted hdraft hsigned).nonce _).2 rfl
  refine ⟨signed, next, hasks, ?_⟩
  obtain ⟨_, hasked, -⟩ := h.keeps _ _ hasks
  obtain ⟨-, hended | hheld⟩ := h.recorded.handed (History.handedOut_iff_reserves.2 hreserves)
  · rw [hended] at hasked
    cases hasked
  · generalize stage (.inl t) = reached at hasked hheld
    cases hasked with
    | outside | syncing => cases hheld
    | carrying => exact congrArg Holding.carrying (Option.some.inj hheld)

end

/-! ### A transfer that cannot be sent after one that was -/

namespace Thrice

open Twice (order answerOf)

/-- The transfers, in the order in which they are made. -/
inductive Turn where
  | one | two | three
  deriving DecidableEq

/-- Three transfers of one sender, with the configuration of the network at hand. -/
def start : Pool Request Answer (@Outcome Turn Empty) :=
  .begin ⟨0, ⟨0, some (default, 0)⟩, .empty⟩ (Twice.client.calls (fun _ => order) nofun)

/-- The first transfer fetches its nonce and is sent; then the second has its nonce from the book,
and posts its transaction. -/
def before : List (Choice Answer (Turn ⊕ Empty)) :=
  List.replicate 4 (.step (.inl .one)) ++ [.answer (.inl .one) Twice.account] ++
    List.replicate 2 (.step (.inl .one)) ++
    [.answer (.inl .one) (answerOf "\x7b\"txHash\":\"00\"\x7d")] ++
    List.replicate 5 (.step (.inl .two))

/-- The second transfer cannot be sent. -/
def failure : Choice Answer (Turn ⊕ Empty) :=
  .answer (.inl .two) (.error (.noAnswer true))

/-- The second transfer gives up its nonce, and the third looks for one. -/
def after : List (Choice Answer (Turn ⊕ Empty)) :=
  List.replicate 2 (.step (.inl .two)) ++ List.replicate 3 (.step (.inl .three))

end Thrice

end Client

end ShardNet
