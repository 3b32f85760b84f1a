-- SUMMARY: What a sender is told depends on what succeeded for that sender before, and on nothing else.
import ShardNet.Proofs.Nonce.Operation

/-!
# Independent senders

A session mixes operations on many senders. Some of them fail, some are refused and some only look.
None of these leaves anything behind that another one could see: neither what is done for one sender
is seen by another, nor does it matter to a sender that a reservation has failed, even though it has
left a slot.

`Thinned` says that such entries have been deleted from a session, any number of them.
`Thinned.replays` is the reason: what is left, when performed on its own, gets the very same
replies.
-/

namespace ShardNet

/-- An operation on the nonces of a sender, and the reply to it. -/
abbrev NonceEntry := Address × NonceOperation × NonceReply

/-- Whether a reply tells of a failure, of a refusal or of a mere look. -/
def NonceReply.isIdle : NonceReply → Bool
  | reserved (.error _) _ | verdict false | next _ => true
  | _ => false

namespace NonceOperation

/-- An operation with an idle reply leaves the nonces of its sender as they are. -/
theorem on_slot_of_isIdle {operation : NonceOperation} {slot : Option Reservation}
    (hidle : (operation.on slot).1.isIdle) : (operation.on slot).2 = slot := by
  cases operation with
  | reserve fetched =>
      cases slot with
      | some r => cases hidle
      | none =>
          cases fetched with
          | ok nonce => cases hidle
          | error cause => rfl
  | release nonce =>
      cases slot with
      | none => rfl
      | some r =>
          simp only [on] at hidle ⊢
          split at hidle
          · cases hidle
          · rename_i hlast
            rw [if_neg hlast]
  | invalidateIfSole nonce =>
      cases slot with
      | none => rfl
      | some r =>
          simp only [on] at hidle ⊢
          split at hidle
          · cases hidle
          · rename_i hsole
            rw [if_neg hsole]
  | invalidate | resync nonce => cases hidle
  | peek => rfl

/-- Whether an entry is one of a sender, and not idle. -/
def matters (sender : Address) (entry : NonceEntry) : Bool :=
  entry.1 = sender && !entry.2.2.isIdle

/-- The operations of some entries get the same replies again. -/
def Replays (memory : Memory) (entries : List NonceEntry) : Prop :=
  (performAll (entries.map fun entry => (entry.1, entry.2.1)) memory).1 = entries

/-- From a session, entries were deleted that do not matter to a sender, among them all of the
others. -/
inductive Thinned (sender : Address) : List NonceEntry → List NonceEntry → Prop where
  | nil : Thinned sender [] []
  | keep {entry session kept} (hown : entry.1 = sender) (rest : Thinned sender session kept) :
      Thinned sender (entry :: session) (entry :: kept)
  | delete {entry session kept} (hidle : ¬ matters sender entry)
      (rest : Thinned sender session kept) :
      Thinned sender (entry :: session) kept

namespace Thinned

variable {sender : Address}

theorem append {front back keptFront keptBack : List NonceEntry}
    (hfront : Thinned sender front keptFront) (hback : Thinned sender back keptBack) :
    Thinned sender (front ++ back) (keptFront ++ keptBack) := by
  induction hfront with
  | nil => exact hback
  | keep hown _ ih => exact .keep hown ih
  | delete hidle _ ih => exact .delete hidle ih

/-- All may be deleted that does not matter. -/
theorem filter (sender : Address) (session : List NonceEntry) :
    Thinned sender session (session.filter (matters sender)) := by
  induction session with
  | nil => exact .nil
  | cons entry rest ih =>
      by_cases hmatters : matters sender entry
      · rw [List.filter_cons_of_pos hmatters]
        simp only [matters, Bool.and_eq_true, decide_eq_true_eq] at hmatters
        exact .keep hmatters.1 ih
      · rw [List.filter_cons_of_neg hmatters]
        exact .delete hmatters ih

/-- What is left of a session gets the same replies again, also on another memory, if this one has
the same nonces for the sender. -/
theorem replays {operations : List (Address × NonceOperation)} {memory memory' : Memory}
    {kept : List NonceEntry}
    (hthinned : Thinned sender (performAll operations memory).1 kept)
    (hsame : memory'.nonces.reservation? sender = memory.nonces.reservation? sender) :
    Replays memory' kept := by
  induction operations generalizing memory memory' kept with
  | nil =>
      cases hthinned
      rfl
  | cons step rest ih =>
      obtain ⟨other, operation⟩ := step
      rw [performAll_cons] at hthinned
      cases hthinned with
      | @keep _ _ kept hown hrest =>
          subst hown
          have hslot : (operation.perform other memory').2.nonces.reservation? other =
              (operation.perform other memory).2.nonces.reservation? other := by
            rw [perform_slot, perform_slot, hsame]
          have hreply :
              (operation.perform other memory').1 = (operation.perform other memory).1 := by
            rw [perform_reply, perform_reply, hsame]
          have hlater : (performAll _ _).1 = kept := ih hrest hslot
          rw [Replays, List.map_cons, performAll_cons, hreply, hlater]
      | @delete _ _ kept hidle hrest =>
          refine ih hrest (hsame.trans ?_)
          -- A deleted operation has not touched the nonces of the sender, so the rest can do
          -- without it.
          by_cases hown : other = sender
          · subst hown
            rw [perform_slot, eq_comm]
            refine on_slot_of_isIdle ?_
            simpa [matters, perform_reply] using hidle
          · exact (perform_frame operation (Ne.symm hown)).symm

end Thinned

/-- What a sender is told in a session does not depend on what was done for other senders, nor on
what of its own has failed, was refused or was only looked at: without all this, the operations that
are left get the same replies, and so does any one of the sender, such as a look, that is left in
its place. -/
theorem replies_independent (operations : List (Address × NonceOperation)) (memory : Memory)
    (sender : Address) :
    let session := (performAll operations memory).1
    Replays memory (session.filter (matters sender)) ∧
    ∀ front observed back, session = front ++ observed :: back → observed.1 = sender →
      Replays memory (front.filter (matters sender) ++ observed ::
          back.filter (matters sender)) := by
  intro session
  refine ⟨(Thinned.filter sender session).replays rfl, fun front observed back hsession hown => ?_⟩
  have hthinned : Thinned sender session
      (front.filter (matters sender) ++ observed :: back.filter (matters sender)) :=
    hsession ▸ (Thinned.filter sender front).append (.keep hown (Thinned.filter sender back))
  exact hthinned.replays rfl

namespace Offline

def alice : Address := ⟨[1]⟩

def bob : Address := ⟨[2]⟩

/-- The first fetch for Alice fails, and one of her nonces is given back twice. Bob is served in
between. -/
def operations : List (Address × NonceOperation) :=
  [(alice, .reserve (.error .noAddress)), (bob, .reserve (.ok 20)), (alice, .reserve (.ok 10)),
    (alice, .peek), (bob, .resync 30), (alice, .reserve (.ok 0)), (alice, .release 11),
    (alice, .release 11), (alice, .peek), (bob, .invalidate), (alice, .invalidateIfSole 10)]

def memory : Memory := ⟨0, ⟨0, none⟩, .empty⟩

/-- What Alice is told up to her second look. -/
def before : List NonceEntry :=
  [(alice, .reserve (.ok 10), .reserved (.ok 10) 1),
    (alice, .reserve (.ok 0), .reserved (.ok 11) 0),
    (alice, .release 11, .verdict true)]

end Offline

open Offline in
/-- Alice is told the same without Bob and without her failures, and her second look shows the same
nonce. -/
theorem replies_independent_offline :
    ∃ front back, (performAll operations memory).1 = front ++
      (alice, .peek, .next (some 11)) :: back ∧
      front.filter (matters alice) = before ∧
      Replays memory (before ++ (alice, .peek, .next (some 11)) ::
        [(alice, .invalidateIfSole 10, .verdict true)]) := by
  have hsession : (performAll operations memory).1 =
      (performAll operations memory).1.take 8 ++ (alice, .peek, .next (some 11)) ::
        (performAll operations memory).1.drop 9 := rfl
  have hfront : ((performAll operations memory).1.take 8).filter (matters alice) = before := rfl
  have hback : ((performAll operations memory).1.drop 9).filter (matters alice) =
      [(alice, .invalidateIfSole 10, .verdict true)] := rfl
  have hreplays := (replies_independent operations memory alice).2 _ _ _ hsession rfl
  rw [hfront, hback] at hreplays
  exact ⟨_, _, hsession, hfront, hreplays⟩

end NonceOperation

end ShardNet
