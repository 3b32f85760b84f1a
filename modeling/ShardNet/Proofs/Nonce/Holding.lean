-- SUMMARY: The way of a nonce through a call: reserved under a lock, carried by a transaction, given up.
import ShardNet.Client.Transfer
import ShardNet.Proofs.Client.Footprint

/-!
# Holding a nonce

A call that reserves a nonce goes through the stages of `Holding`. It finds the nonce under the lock
of its sender, in the book or by a fetch, and carries it until it ends or gives the nonce up. Giving
up takes two steps, and between them the nonce is still held.

`Client.transfer_follows` says that a transfer keeps to these stages, posts no transaction but one
that has the nonce it holds, and succeeds only after that.
-/

namespace ShardNet

/-- Where a call stands with the nonce of its sender. -/
inductive Holding where
  /-- No nonce has been asked for. -/
  | outside
  /-- Under the lock, before the look into the slot. -/
  | inside
  /-- Under the lock of a sender who is not in step; the nonce is being fetched. -/
  | syncing
  /-- The nonce has been handed out and the lock is not yet released. -/
  | handed (nonce : UInt64)
  | carrying (nonce : UInt64)
  /-- A transaction with the nonce has been posted. -/
  | posted (nonce : UInt64)
  /-- The nonce was not the only one out, and may still be the last one. -/
  | abandoning (nonce : UInt64)
  /-- The nonce was given up. -/
  | ended
  deriving DecidableEq

namespace Holding

/-- The nonce that is held. -/
def nonce? : Holding → Option UInt64
  | handed nonce | carrying nonce | posted nonce | abandoning nonce => some nonce
  | _ => none

/-- Whether the lock of the sender is held. -/
def isLocked : Holding → Bool
  | inside | syncing | handed _ => true
  | _ => false

/-- What is asked at a stage. `posts nonce` are the questions that post a transaction with a
nonce. -/
inductive Asks {Query : Type} (posts : UInt64 → Query → Prop) :
    Holding → Query → Holding → Prop where
  | outside {query} : Asks posts .outside query .outside
  | syncing {query} : Asks posts .syncing query .syncing
  | carrying {nonce query} (hposts : posts nonce query) :
      Asks posts (.carrying nonce) query (.posted nonce)

/-- What is done at a stage. -/
inductive Steps (sender : Address) :
    Holding → (access : Access) → access.Reply → Holding → Prop where
  | outside {access reply} (hspares : access.sparesNonces) :
      Steps sender .outside access reply .outside
  | acquire : Steps sender .outside (.acquire (.sender sender)) () .inside
  | taken {nonce} : Steps sender .inside (.takeNonce sender) (some nonce) (.handed nonce)
  | missing : Steps sender .inside (.takeNonce sender) none .syncing
  | syncing {access reply} (hspares : access.sparesNonces) :
      Steps sender .syncing access reply .syncing
  | started {nonce} : Steps sender .syncing (.startNonces sender nonce) () (.handed nonce)
  | failed : Steps sender .syncing (.release (.sender sender)) () .outside
  | release {nonce} : Steps sender (.handed nonce) (.release (.sender sender)) () (.carrying nonce)
  | forgotten {stage nonce} (hstage : stage = .carrying nonce ∨ stage = .posted nonce) :
      Steps sender stage (.invalidateIfSole sender nonce) true .ended
  | kept {stage nonce} (hstage : stage = .carrying nonce ∨ stage = .posted nonce) :
      Steps sender stage (.invalidateIfSole sender nonce) false (.abandoning nonce)
  | released {nonce returned} :
      Steps sender (.abandoning nonce) (.releaseNonce sender nonce) returned .ended

/-- The stages of a call with a nonce of `sender`. -/
def discipline {Query : Type} (sender : Address) (posts : UInt64 → Query → Prop) :
    Discipline Query Holding where
  asks := Asks posts
  steps := Steps sender

end Holding

variable {Query Answer : Type} {sender : Address} {posts : UInt64 → Query → Prop}

open Holding

theorem Call.SparesNonces.outside {α : Type} {call : Call Query Answer α}
    (hcall : call.SparesNonces) :
    call.Follows (discipline sender posts) (fun stage _ => stage = .outside) .outside :=
  hcall.follows (fun _ => .outside) fun _ _ => .outside

theorem Call.SparesNonces.syncing {α : Type} {call : Call Query Answer α}
    (hcall : call.SparesNonces) :
    call.Follows (discipline sender posts) (fun stage _ => stage = .syncing) .syncing :=
  hcall.follows (fun _ => .syncing) fun _ _ => .syncing

/-- A nonce that was reserved is carried. -/
def Reserved (stage : Holding) : Except Error UInt64 → Prop
  | .ok nonce => stage = .carrying nonce
  | .error _ => stage = .outside

theorem reserveNonce_follows {fetch : Call Query Answer UInt64} (hfetch : fetch.SparesNonces) :
    (reserveNonce sender fetch).Follows (discipline sender posts) Reserved .outside := by
  refine Call.follows_bind.2 (Call.follows_access.2 fun _ => ⟨.outside, .outside rfl, ?_⟩)
  refine Call.follows_holding.2 ⟨.inside, .acquire, ?_⟩
  refine Call.follows_bind.2 (Call.follows_access.2 fun
    | some nonce => ⟨.handed nonce, .taken, .carrying nonce, .release, rfl⟩
    | none => ⟨.syncing, .missing, ?_⟩)
  refine Call.follows_bind.2 (hfetch.syncing.mono fun stage result hstage => ?_)
  subst hstage
  cases result with
  | error cause => exact ⟨.outside, .failed, rfl⟩
  | ok nonce =>
      refine Call.follows_bind.2 (Call.follows_access.2 fun _ => ⟨.handed nonce, .started, ?_⟩)
      exact ⟨.carrying nonce, .release, rfl⟩

theorem abandonNonce_follows {stage : Holding} {nonce : UInt64}
    (hstage : stage = .carrying nonce ∨ stage = .posted nonce) :
    (abandonNonce sender nonce : Call Query Answer Unit).Follows (discipline sender posts)
      (fun stage _ => stage = .ended) stage := by
  refine Call.follows_bind.2 (Call.follows_access.2 fun
    | true => ⟨.ended, .forgotten hstage, rfl⟩
    | false => ⟨.abandoning nonce, .kept hstage, ?_⟩)
  exact Call.follows_bind.2 (Call.follows_access.2 fun _ => ⟨.ended, .released, rfl⟩)

theorem SecretKey.nonce_signTransaction {key : SecretKey} {tx signed : Transaction}
    (hsigned : key.signTransaction tx = .ok signed) : signed.nonce = tx.nonce := by
  unfold signTransaction at hsigned
  split at hsigned
  · cases hsigned
  · split at hsigned
    · cases hsigned
    · cases hsigned
      rfl

namespace Client

/-- The request that posts a transaction. -/
def sendRequest (client : Client) (tx : Transaction) : Request where
  method := .post
  endpoint := Route.sendTransaction.path client.entity
  body := some (Text.Utf8.encode tx.wire)

/-- The requests that post a transaction with a nonce. -/
def Posts (client : Client) (nonce : UInt64) (request : Request) : Prop :=
  ∃ tx : Transaction, tx.nonce = nonce ∧ request = client.sendRequest tx

/-- How a transfer ends: it succeeds with its transaction posted, and fails without a nonce. -/
def TransferEnds (stage : Holding) : Except Error String → Prop
  | .ok _ => ∃ nonce, stage = .posted nonce
  | .error _ => stage = .outside ∨ stage = .ended

theorem sendTransaction_follows {client : Client} {tx : Transaction} :
    (client.sendTransaction tx).Follows (discipline sender client.Posts)
      (fun stage _ => stage = .posted tx.nonce) (.carrying tx.nonce) := by
  refine Call.follows_bind.2 (Call.follows_ask.2 ⟨.posted tx.nonce, .carrying ⟨tx, rfl, rfl⟩, fun
    | .error cause => rfl
    | .ok response => ?_⟩)
  refine Call.continues_ok.2 ?_
  dsimp only
  split <;> rfl

theorem defaultArguments_sparesNonces {client : Client} {address : Address} :
    (client.defaultArguments address).SparesNonces :=
  Call.only_bind networkConfig_sparesNonces fun _ => Call.only_ofExcept

/-- A nonce that is given up leaves nothing held, and the failure stands. -/
theorem abandon_follows {client : Client} {stage : Holding} {nonce : UInt64} {cause : Error}
    (hstage : stage = .carrying nonce ∨ stage = .posted nonce) :
    (do abandonNonce sender nonce; throw cause : Operation String).Follows
      (discipline sender client.Posts) TransferEnds stage := by
  refine Call.follows_bind.2 ((abandonNonce_follows hstage).mono fun stage result hended => ?_)
  cases result with
  | ok _ => exact .inr hended
  | error _ => exact .inr hended

theorem transfer_follows {client : Client} {signer : Signer} {receiver : Address} {value : String} :
    (client.transfer signer receiver value).Follows (discipline signer.address client.Posts)
      TransferEnds .outside := by
  unfold transfer
  dsimp only
  split
  · exact Call.follows_bind.2 (Call.follows_throw.2 (.inl rfl))
  refine Call.follows_bind.2 (defaultArguments_sparesNonces.outside.mono
    fun stage defaults hstage => ?_)
  subst hstage
  cases defaults with
  | error cause => exact .inl rfl
  | ok defaults => ?_
  refine Call.follows_bind.2 (Call.follows_ofExcept.2 ?_)
  cases defaults.withReceiver receiver with
  | error cause => exact .inl rfl
  | ok arguments => ?_
  have hfetch :
      (do return (← client.account signer.address).nonce : Operation UInt64).SparesNonces :=
    Call.only_bind account_sparesNonces fun _ => Call.only_pure
  refine Call.follows_bind.2 ((reserveNonce_follows hfetch).mono fun stage reserved hstage => ?_)
  cases reserved with
  | error cause => exact .inl hstage
  | ok nonce => ?_
  cases hstage
  refine Call.continues_ok.2 ?_
  split
  · exact abandon_follows (.inl rfl)
  · rename_i signed hsigned
    obtain rfl : signed.nonce = nonce := SecretKey.nonce_signTransaction hsigned
    refine Call.follows_tryCatch.2 (sendTransaction_follows.mono fun stage result hstage => ?_)
    cases result with
    | ok hash => exact ⟨signed.nonce, hstage⟩
    | error failure => exact abandon_follows (.inr hstage)

end Client

end ShardNet
