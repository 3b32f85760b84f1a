-- SUMMARY: A run of calls is a session on the nonces, so the tally of its history is in step with the counters.
import ShardNet.Proofs.Nonce.Accounted
import ShardNet.Proofs.Nonce.Outstanding

/-!
# Runs as sessions

What the calls of a run do to the nonces are operations of a session, one for each event that tells
a call anything about them. So the history of a run has a tally for every sender: the nonce that the
book was last started with, and those that were handed out since then and not given back.
`Accounted.tally_exact` says that the counters of the book are those of the tally, and that they
have not wrapped around.
-/

namespace ShardNet

/-! ## Tallies with room -/

namespace Tally

/-- The counters of the book are those of a tally, as integers. -/
structure Exact (tally : Tally) (r : Reservation) : Prop extends Matches tally r where
  room : tally.base.toNat + tally.outstanding.length < UInt64.size

variable {tally : Option Tally} {slot : Option Reservation}

/-- An operation that hands out no nonce but one with a next keeps a tally exact. -/
theorem exact_after (h : Option.Rel Exact tally slot) (operation : NonceOperation)
    (hroom : ∀ nonce fetches, (operation.on slot).1 = .reserved (.ok nonce) fetches →
      nonce.toNat + 1 < UInt64.size) :
    Option.Rel Exact (after tally operation (operation.on slot).1) (operation.on slot).2 := by
  cases operation with
  | reserve fetched =>
      cases h with
      | @some before r hexact =>
          have hnext := hroom r.next 0 (by cases fetched <;> rfl)
          rw [hexact.toNat_next hexact.room] at hnext
          cases fetched with
          | ok | error => exact .some ⟨hexact.advance, by simpa [Nat.add_assoc] using hnext⟩
      | none =>
          cases fetched with
          | ok nonce => exact .some ⟨(Matches.start nonce).advance, hroom nonce 1 rfl⟩
          | error cause => exact .none
  | release nonce =>
      cases h with
      | @some before r hexact =>
          simp only [NonceOperation.on]
          split
          · rename_i hlast
            have hless : (before.outstanding.erase nonce).length ≤ before.outstanding.length :=
              List.length_erase_le
            exact .some ⟨hexact.retreat hlast,
              Nat.lt_of_le_of_lt (Nat.add_le_add_left hless _) hexact.room⟩
          · exact .some hexact
      | none => exact .none
  | invalidate => exact .none
  | invalidateIfSole nonce =>
      cases h with
      | some hexact =>
          simp only [NonceOperation.on]
          split
          · exact .none
          · exact .some hexact
      | none => exact .none
  | resync nonce => exact .some ⟨Matches.start nonce, nonce.toNat_lt⟩
  | peek => exact h

end Tally

/-! ## Events as operations -/

variable {Query Answer ι : Type} {α : ι → Type}

/-- What an event does to the nonces of which sender, and what it tells of them. -/
def Event.operation? : Event Query Answer ι → Option (Address × NonceOperation × NonceReply)
  | .stepped _ (.takeNonce sender) (some nonce) =>
    some (sender, .reserve (.ok nonce), .reserved (.ok nonce) 0)
  | .stepped _ (.startNonces sender nonce) _ =>
      some (sender, .reserve (.ok nonce), .reserved (.ok nonce) 1)
  | .stepped _ (.releaseNonce sender nonce) done => some (sender, .release nonce, .verdict done)
  | .stepped _ (.invalidateIfSole sender nonce) done =>
      some (sender, .invalidateIfSole nonce, .verdict done)
  | .stepped _ (.invalidate sender) _ => some (sender, .invalidate, .nothing)
  | .stepped _ (.resync sender nonce) _ => some (sender, .resync nonce, .nothing)
  | _ => none

theorem Event.handsOut_of_operation? {event : Event Query Answer ι} {sender : Address}
    {operation : NonceOperation} {nonce : UInt64} {fetches : Nat}
    (h : event.operation? = some (sender, operation, .reserved (.ok nonce) fetches)) :
    ∃ i, HandsOut event i sender nonce := by
  unfold operation? at h
  split at h <;> cases h
  · exact ⟨_, .taken⟩
  · exact ⟨_, .started⟩

/-- The tally of a sender after a history. -/
def History.tally (history : History Query Answer ι) (sender : Address) : Option Tally :=
  Tally.ofSession sender (history.filterMap Event.operation?)

namespace History

variable {history : History Query Answer ι} {event : Event Query Answer ι} {sender : Address}

theorem tally_snoc_of_none (h : event.operation? = none) :
    tally (history ++ [event]) sender = history.tally sender := by
  rw [tally, List.filterMap_append, List.filterMap_cons_none h, List.filterMap_nil,
    List.append_nil, tally]

theorem tally_snoc {other : Address} {operation : NonceOperation} {reply : NonceReply}
    (h : event.operation? = some (other, operation, reply)) : tally (history ++ [event]) sender =
      if other = sender then Tally.after (history.tally sender) operation reply
        else history.tally sender := by
  rw [tally, List.filterMap_append, List.filterMap_cons_some h, List.filterMap_nil, Tally.ofSession,
    List.foldl_append]
  rfl

end History

/-! ## Runs -/

section

open Holding

variable [DecidableEq ι] {sender : ι → Address} {posts : UInt64 → Query → Prop}
  {ends : (i : ι) → Holding → Except Error (α i) → Prop} {history : History Query Answer ι}
  {pool later : Pool Query Answer α} {stage : ι → Holding} {event : Event Query Answer ι}

/-- An event either leaves the nonces alone or is an operation on those of one sender. -/
theorem Accounted.performs (h : Accounted sender posts ends history pool stage)
    (step : Step pool event later) :
    (event.operation? = none ∧ ∀ address,
      later.memory.nonces.reservation? address = pool.memory.nonces.reservation? address) ∨
    ∃ (address : Address) (operation : NonceOperation),
      event.operation? =
        some (address, operation, (operation.on (pool.memory.nonces.reservation? address)).1) ∧
      later.memory.nonces.reservation? address =
        (operation.on (pool.memory.nonces.reservation? address)).2 ∧
      ∀ other ≠ address, later.memory.nonces.reservation? other =
        pool.memory.nonces.reservation? other := by
  have hknown : ∀ {i address nonce}, event = .stepped i (.startNonces address nonce) () →
      pool.memory.nonces.reservation? address = none := by
    rintro i address nonce rfl
    exact (h.unknown_of_started step).2
  cases step with
  | answered | dropped | passed => exact .inl ⟨rfl, fun _ => rfl⟩
  | @stepped i access next hleft hadmits =>
      -- What an operation does alone, it does in a run.
      have hperforms : ∀ address (operation : NonceOperation) {reply},
          operation.perform address pool.memory = (reply, (access.apply pool.memory).2) →
          some (address, operation, reply) =
              some (address, operation,
                (operation.on (pool.memory.nonces.reservation? address)).1) ∧
            (access.apply pool.memory).2.nonces.reservation? address =
              (operation.on (pool.memory.nonces.reservation? address)).2 ∧
            ∀ other ≠ address, (access.apply pool.memory).2.nonces.reservation? other =
              pool.memory.nonces.reservation? other := by
        intro address operation reply hsame
        rw [← operation.perform_reply, ← operation.perform_slot, hsame]
        refine ⟨rfl, rfl, fun other hne => ?_⟩
        have hframe := @NonceOperation.perform_frame _ _ pool.memory operation hne
        rwa [hsame] at hframe
      cases access with
      | acquire | release | freshConfig | storeConfig | clearConfig | peek =>
          exact .inl ⟨rfl, fun _ => rfl⟩
      | openSlot sender => exact .inl ⟨rfl, fun _ => NonceBook.reservation?_openSlot⟩
      | takeNonce address =>
          obtain ⟨r, hslot, htake⟩ | ⟨hslot, htake⟩ := pool.memory.nonces.take_cases address
          · refine .inr ⟨address, .reserve (.ok r.next), ?_, ?_, fun other hne => ?_⟩
            · simp [Access.apply, htake, hslot, Event.operation?, NonceOperation.on]
            · simp [Pool.afterStep, Pool.leave, Access.apply, htake, hslot, NonceOperation.on]
            · simp [Pool.afterStep, Pool.leave, Access.apply, htake,
                NonceBook.reservation?_put_of_ne hne]
          · refine .inl ⟨?_, fun _ => ?_⟩
            · simp [Access.apply, htake, Event.operation?]
            · simp [Pool.afterStep, Pool.leave, Access.apply, htake]
      | startNonces address nonce =>
          refine .inr ⟨address, .reserve (.ok nonce), ?_, ?_,
            fun other hne => NonceBook.reservation?_put_of_ne hne⟩
          · rw [hknown rfl]
            rfl
          · rw [hknown rfl]
            exact NonceBook.reservation?_put_self
      | releaseNonce address nonce => exact .inr ⟨_, .release nonce, hperforms _ _ rfl⟩
      | invalidateIfSole address nonce => exact .inr ⟨_, .invalidateIfSole nonce, hperforms _ _ rfl⟩
      | invalidate address => exact .inr ⟨_, .invalidate, hperforms _ _ rfl⟩
      | resync address nonce => exact .inr ⟨_, .resync nonce, hperforms _ _ rfl⟩

/-- The counters of a sender are those of its tally, after every run that starts with no nonce
handed out. -/
theorem Accounted.tally_exact {clock : Moment} {cache : ConfigCache}
    {calls : (i : ι) → Call Query Answer (α i)}
    (hfollows : ∀ i, (calls i).Follows (discipline (sender i) posts) (ends i) .outside)
    (run : Run (.begin ⟨clock, cache, .empty⟩ calls) history pool) (hroom : history.HasRoom)
    (address : Address) :
    Option.Rel Tally.Exact (history.tally address) (pool.memory.nonces.reservation? address) := by
  induction run with
  | nil => exact .none
  | @snoc history pool event later run step ih =>
      have hbefore := ih hroom.left
      obtain ⟨stage, h⟩ := Accounted.of_run hfollows run hroom.left
      obtain ⟨hnone, hsame⟩ | ⟨other, operation, hsome, hslot, hframe⟩ := h.performs step
      · rwa [History.tally_snoc_of_none hnone, hsame]
      · rw [History.tally_snoc hsome]
        split
        · rename_i hown
          subst hown
          rw [hslot]
          refine Tally.exact_after hbefore operation fun nonce fetches hreply => ?_
          obtain ⟨i, hout⟩ := Event.handsOut_of_operation? (hreply ▸ hsome)
          exact hroom i other nonce (.last hout)
        · rename_i hother
          rwa [hframe address (Ne.symm hother)]

end

end ShardNet
