-- SUMMARY: Handing out the nonces of a sender, and giving them up again.
import ShardNet.Program

/-!
# Reserving nonces

The nonce of an account is fetched under the lock of its sender, so that no other nonce of the
sender is handed out in the meantime. A fetch that fails leaves the sender's slot empty.

A nonce that was not used is given up in two steps, between which other calls may fall.
-/

namespace ShardNet

/-- The next nonce of a sender, fetched when the sender is not in step with the network. -/
def reserveNonce {Query Answer : Type} (sender : Address) (fetch : Call Query Answer UInt64) :
    Call Query Answer UInt64 := do
  Call.access (.openSlot sender)
  Call.holding (.sender sender) do
    match ← Call.access (.takeNonce sender) with
    | some nonce => return nonce
    | none =>
      let nonce ← fetch
      Call.access (.startNonces sender nonce)
      return nonce

/-- Gives up a nonce that was not used. If it is the only one out, the sender's nonces are
forgotten; else, if it is the last one out, it is handed out again; else it is left as a gap. -/
def abandonNonce {Query Answer : Type} (sender : Address) (nonce : UInt64) :
    Call Query Answer Unit := do
  if ← Call.access (.invalidateIfSole sender nonce) then return
  let _ ← Call.access (.releaseNonce sender nonce)

end ShardNet
