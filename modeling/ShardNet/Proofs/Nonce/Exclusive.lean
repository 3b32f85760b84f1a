-- SUMMARY: A nonce is handed out again only after the transfer that had it has failed, in every run of a client.
import ShardNet.Proofs.Nonce.Accounted

/-!
# Nonces of interleaved transfers

Any number of transfers run on one client, in any order of their steps, beside calls that reserve
nonces of their own and calls that leave the nonces alone. The service answers as it likes,
transfers fail wherever they can, and any call may be dropped midway.

`transfer_nonces_exclusive` says that a nonce is handed out again only once the transfer that had it
has failed, and that the transfers of a sender that succeed have posted distinct nonces.
-/

namespace ShardNet

open Holding

/-! ## The calls of a client -/

/-- What a transfer is given. -/
structure Order where
  signer : Signer
  receiver : Address
  value : String

/-- What happens on a client beside its transfers: a nonce is reserved for good, or the nonces are
left alone. -/
inductive Bystander where
  | reserving (sender : Address) (fetch : Client.Operation UInt64) (spares : fetch.SparesNonces)
  | reading (call : Client.Operation Unit) (spares : call.SparesNonces)

/-- Whose nonce is reserved, if any is. -/
def Bystander.sender : Bystander → Address
  | reserving sender _ _ => sender
  | reading _ _ => ⟨[]⟩

def Bystander.call : Bystander → Client.Operation Unit
  | reserving sender fetch _ => do let _ ← reserveNonce sender fetch
  | reading call _ => call

/-- A bystander never gives up a nonce that it has. -/
theorem Bystander.call_follows {posts : UInt64 → Request → Prop} (bystander : Bystander) :
    bystander.call.Follows (discipline bystander.sender posts) (fun stage _ => stage ≠ .ended)
      .outside := by
  cases bystander with
  | reserving sender fetch hspares =>
      refine Call.follows_bind.2 ((reserveNonce_follows hspares).mono fun stage result hstage => ?_)
      cases result with
      | ok nonce =>
          cases hstage
          exact Call.continues_ok.2 (Call.follows_pure.2 nofun)
      | error cause =>
          cases hstage
          exact Call.continues_error.2 nofun
  | reading call hspares =>
      refine hspares.outside.mono fun stage _ hstage => ?_
      cases hstage
      nofun

namespace Client

variable {τ κ : Type}

/-- A transfer ends with a hash, a bystander with nothing of interest. -/
abbrev Outcome : τ ⊕ κ → Type
  | .inl _ => String
  | .inr _ => Unit

/-- Transfers and bystanders on one client. -/
def calls (client : Client) (orders : τ → Order) (others : κ → Bystander) :
    (i : τ ⊕ κ) → Operation (Outcome i)
  | .inl t => client.transfer (orders t).signer (orders t).receiver (orders t).value
  | .inr k => (others k).call

/-- A transfer was handed a nonce of its sender, and a transaction with this nonce was posted for
it. -/
def Carried (client : Client) (order : Order) (history : History Request Answer (τ ⊕ κ)) (t : τ)
    (nonce : UInt64) : Prop :=
  history.HandedOut (.inl t) order.signer.address nonce ∧
    ∃ tx answer, tx.nonce = nonce ∧ .answered (.inl t) (client.sendRequest tx) answer ∈ history

/-- Whose nonce a call takes. -/
def senderOf (orders : τ → Order) (others : κ → Bystander) : τ ⊕ κ → Address
  | .inl t => (orders t).signer.address
  | .inr k => (others k).sender

/-- How a call ends. -/
def CallEnds : (i : τ ⊕ κ) → Holding → Except Error (Outcome i) → Prop
  | .inl _ => TransferEnds
  | .inr _ => fun stage _ => stage ≠ .ended

section

variable {client : Client} {orders : τ → Order} {others : κ → Bystander}

theorem calls_follow (i : τ ⊕ κ) :
    (client.calls orders others i).Follows (discipline (senderOf orders others i) client.Posts)
      (CallEnds i) .outside := by
  cases i with
  | inl t => exact transfer_follows
  | inr k => exact (others k).call_follows

variable {history : History Request Answer (τ ⊕ κ)} {pool : Pool Request Answer Outcome}
  {stage : τ ⊕ κ → Holding}

/-- A call whose nonce was given up is a transfer that has failed. -/
theorem failed_of_ended
    (h : Accounted (senderOf orders others) client.Posts CallEnds history pool stage) {i : τ ⊕ κ}
    (hended : stage i = .ended) : i.isLeft ∧ pool.failed i := by
  obtain ⟨program, hrest⟩ := Option.isSome_iff_exists.1 (h.ended hended)
  have hfollows := h.keeps i program hrest
  rw [hended] at hfollows
  obtain ⟨result, rfl, hends⟩ := hfollows.eq_done
  cases i with
  | inr k => exact absurd rfl hends
  | inl t =>
      cases result with
      | ok hash =>
          obtain ⟨nonce, hposted⟩ := hends
          cases hposted
      | error cause => exact ⟨rfl, by rw [Pool.failed, hrest]⟩

/-- A transfer that has succeeded has posted the nonce it holds. -/
theorem posted_of_succeeded
    (h : Accounted (senderOf orders others) client.Posts CallEnds history pool stage) {t : τ}
    (hsucceeded : pool.succeeded (.inl t)) : ∃ nonce, stage (.inl t) = .posted nonce := by
  obtain ⟨hash, hrest⟩ := Pool.succeeded_iff.1 hsucceeded
  exact h.keeps (.inl t) _ hrest

/-- In every run of transfers and bystanders of a client, a nonce of a sender that has been handed
to a call is handed out again only if the call is a transfer that has failed. A transfer that has
succeeded has carried a nonce, and no two of one sender have carried the same. -/
theorem transfer_nonces_exclusive [DecidableEq τ] [DecidableEq κ]
    {clock : Moment} {cache : ConfigCache}
    (run : Run (.begin ⟨clock, cache, .empty⟩ (client.calls orders others)) history pool)
    (room : history.HasRoom) :
    (∀ {event later i j address nonce}, Step pool event later →
      History.HasRoom (history ++ [event]) →
      HandsOut event i address nonce → history.HandedOut j address nonce →
      j.isLeft ∧ pool.failed j) ∧
    (∀ t, pool.succeeded (.inl t) → ∃ nonce, client.Carried (orders t) history t nonce) ∧
    ∀ t u nonce, (orders t).signer.address = (orders u).signer.address →
      pool.succeeded (.inl t) → pool.succeeded (.inl u) →
      client.Carried (orders t) history t nonce → client.Carried (orders u) history u nonce →
      t = u := by
  obtain ⟨stage, h⟩ := Accounted.of_run calls_follow run room
  refine ⟨?_, ?_, ?_⟩
  · intro event later i j address nonce step more hout hhanded
    exact failed_of_ended h (h.ended_of_handsOut step more hout hhanded)
  · intro t hsucceeded
    obtain ⟨nonce, hposted⟩ := posted_of_succeeded h hsucceeded
    obtain ⟨request, answer, ⟨tx, hnonce, rfl⟩, hmem⟩ := h.recorded.posted hposted
    have hheld : (stage (.inl t)).nonce? = some nonce := by rw [hposted]; rfl
    exact ⟨nonce, h.recorded.held hheld, tx, answer, hnonce, hmem⟩
  · intro t u nonce hsame ht hu hcarried hcarried'
    have hheld : ∀ {v}, pool.succeeded (.inl v) → client.Carried (orders v) history v nonce →
        (stage (.inl v)).nonce? = some nonce := by
      intro v hsucceeded hcarried
      obtain ⟨posted, hposted⟩ := posted_of_succeeded h hsucceeded
      obtain ⟨-, hended | hheld⟩ := h.recorded.handed hcarried.1
      · cases hposted.symm.trans hended
      · exact hheld
    exact Sum.inl.inj (h.ledger.distinct hsame (hheld ht hcarried) (hheld hu hcarried'))

end

/-! ### A nonce that is handed out twice -/

namespace Twice

/-- What both transfers send. -/
def order : Order :=
  ⟨.ofKey ⟨List.replicate 32 0, rfl⟩, ⟨List.replicate 32 1⟩, "1"⟩

def client : Client := ⟨"", .proxy, .disabled, 0, 0, ⟨false, false⟩⟩

/-- Two transfers of one sender, with the configuration of the network at hand. -/
def first : Pool Request Answer (@Outcome Bool Empty) :=
  .begin ⟨0, ⟨0, some (default, 0)⟩, .empty⟩ (client.calls (fun _ => order) nofun)

/-- The answer of a service that holds the text of some data. -/
def answerOf (data : String) : Answer :=
  .ok ⟨200, Text.Utf8.encode ("\x7b\"data\":" ++ data ++ "\x7d").toList⟩

def account : Answer :=
  answerOf "\x7b\"account\":\x7b\"address\":\"\",\"nonce\":5,\"balance\":\"0\"\x7d\x7d"

/-- Lets a transfer look for its nonce, and answers that the nonce of the account is five. -/
def fetched (t : Bool) : List (Choice Answer (Bool ⊕ Empty)) :=
  List.replicate 4 (.step (.inl t)) ++ [.answer (.inl t) account]

/-- The first transfer cannot be sent, and gives up its nonce; then the second looks for one. -/
def before : List (Choice Answer (Bool ⊕ Empty)) :=
  fetched false ++
    [.step (.inl false), .step (.inl false), .answer (.inl false) (.error (.noAnswer true)),
      .step (.inl false)] ++ fetched true

/-- The second transfer leaves the slot of its sender, and is sent. -/
def after : List (Choice Answer (Bool ⊕ Empty)) :=
  [.step (.inl true), .answer (.inl true) (answerOf "\x7b\"txHash\":\"00\"\x7d")]

end Twice

open Twice in
/-- A transfer that cannot be sent has failed by the time its nonce is handed to another one, which
succeeds with it. -/
theorem transfer_nonces_exclusive_twice :
    ∃ history pool event later more last,
      Run first history pool ∧ Step pool event later ∧ Run later more last ∧
      History.HasRoom (history ++ [event] ++ more) ∧
      history.HandedOut (.inl false) order.signer.address 5 ∧
      HandsOut event (.inl true) order.signer.address 5 ∧
      pool.failed (.inl false) ∧ last.succeeded (.inl true) ∧
      ∃ nonce, Carried client order (history ++ [event] ++ more) true nonce := by
  have hall : (first.follow? before).any fun (history, pool) =>
      (pool.next? (.step (.inl true))).any fun (event, later) =>
        (later.follow? after).any fun (more, last) =>
          History.HasRoom (history ++ [event] ++ more) ∧
          history.HandedOut (.inl false) order.signer.address 5 ∧
          HandsOut event (.inl true) order.signer.address 5 ∧ last.succeeded (.inl true) := by
    decide +kernel
  obtain ⟨⟨history, pool⟩, hfollow, hall⟩ := (Option.any_eq_true ..).1 hall
  obtain ⟨⟨event, later⟩, hnext, hall⟩ := (Option.any_eq_true ..).1 hall
  obtain ⟨⟨more, last⟩, hmore, hall⟩ := (Option.any_eq_true ..).1 hall
  obtain ⟨hroom, hhanded, hout, hsucceeded⟩ := of_decide_eq_true hall
  have run := Run.of_follow? hfollow
  have step := step_iff_next?.2 ⟨_, hnext⟩
  have rest := Run.of_follow? hmore
  have exclusive := transfer_nonces_exclusive run hroom.left.left
  have whole := transfer_nonces_exclusive ((run.snoc step).trans rest) hroom
  exact ⟨history, pool, event, later, more, last, run, step, rest, hroom, hhanded, hout,
    (exclusive.1 step hroom.left hout hhanded).2, hsucceeded, whole.2.1 true hsucceeded⟩

end Client

end ShardNet
