-- SUMMARY: Operations on the nonces of senders as data: what each of them tells its caller, and what it leaves behind.
import ShardNet.Nonce.Reserve
import ShardNet.Proofs.Discipline
import ShardNet.Proofs.Nonce.Ledger

/-!
# Operations on nonces

Anybody may work on the nonces of a sender: reserve one, give one back that may be somebody else's,
forget or reset them. A `NonceOperation` is one such piece of work, done alone, and a session is a
list of them on any senders.

`NonceOperation.on` says what an operation comes to by the nonces of its own sender alone.
`perform_reply` and `perform_slot` say that this is what happens in the memory, and `perform_frame`
that nothing happens to the other senders.
-/

namespace ShardNet

/-- An operation on the nonces of one sender. -/
inductive NonceOperation where
  /-- Reserves a nonce; `fetched` is the answer, if the nonce of the account is asked for. -/
  | reserve (fetched : Except Error UInt64)
  | release (nonce : UInt64)
  | invalidate
  | invalidateIfSole (nonce : UInt64)
  | resync (nonce : UInt64)
  | peek

/-- What an operation tells its caller. -/
inductive NonceReply where
  /-- What came of a reservation, and how often the nonce of the account was asked for. -/
  | reserved (result : Except Error UInt64) (fetches : Nat)
  | verdict (done : Bool)
  | next (nonce : Option UInt64)
  | nothing

namespace NonceOperation

/-- Asks for the nonce of the account. -/
def askNonce : Call Unit (Except Error UInt64) UInt64 := do
  Call.ofExcept (← Call.ask ())

/-- Answers a question, and counts it. -/
def counting (fetched : Except Error UInt64) (_ : Unit) :
    StateT Memory (StateM Nat) (Except Error UInt64) := do
  modifyThe Nat (· + 1)
  return fetched

/-- Carries out an operation alone. -/
def perform (sender : Address) (memory : Memory) : NonceOperation → NonceReply × Memory
  | reserve fetched =>
    let program := (reserveNonce sender askNonce).run
    let ((result, memory), fetches) := ((Program.run (counting fetched) program).run memory).run 0
    (.reserved result fetches, memory)
  | release nonce =>
    let (done, memory) := (Access.releaseNonce sender nonce).apply memory
    (.verdict done, memory)
  | invalidate => (.nothing, ((Access.invalidate sender).apply memory).2)
  | invalidateIfSole nonce =>
    let (done, memory) := (Access.invalidateIfSole sender nonce).apply memory
    (.verdict done, memory)
  | resync nonce => (.nothing, ((Access.resync sender nonce).apply memory).2)
  | peek => (.next ((Access.peek sender).apply memory).1, memory)

/-- Carries out one operation after the other, each on the nonces of some sender. -/
def performAll : List (Address × NonceOperation) → Memory →
    List (Address × NonceOperation × NonceReply) × Memory
  | [], memory => ([], memory)
  | (sender, operation) :: rest, memory =>
    let (reply, later) := operation.perform sender memory
    let (told, last) := performAll rest later
    ((sender, operation, reply) :: told, last)

/-- What an operation tells its caller and leaves behind, by the nonces of its sender. -/
def on (slot : Option Reservation) : NonceOperation → NonceReply × Option Reservation
  | reserve fetched =>
    match slot, fetched with
    | some r, _ => (.reserved (.ok r.next) 0, some r.advance)
    | none, .ok nonce => (.reserved (.ok nonce) 1, some (Reservation.start nonce).advance)
    | none, .error cause => (.reserved (.error cause) 1, none)
  | release nonce =>
    match slot with
    | some r =>
      if r.isLast nonce then (.verdict true, some (r.retreat nonce)) else (.verdict false, some r)
    | none => (.verdict false, none)
  | invalidate => (.nothing, none)
  | invalidateIfSole nonce =>
    match slot with
    | some r => if r.isSole nonce then (.verdict true, none) else (.verdict false, some r)
    | none => (.verdict false, none)
  | resync nonce => (.nothing, some (.start nonce))
  | peek => (.next (slot.map (·.next)), slot)

end NonceOperation

/-! ## Reserving alone -/

/-- The steps of a reservation, one after the other. -/
theorem run_reserveNonce {Query Answer : Type} {sender : Address}
    {fetch : Call Query Answer UInt64} :
    (reserveNonce sender fetch).run =
    .access (.openSlot sender) fun _ => .access (.acquire (.sender sender)) fun _ =>
      .access (.takeNonce sender) fun
      | some nonce => .access (.release (.sender sender)) fun _ => .done (.ok nonce)
      | none => fetch.run.bind fun
        | .ok nonce => .access (.startNonces sender nonce) fun _ =>
            .access (.release (.sender sender)) fun _ => .done (.ok nonce)
        | .error cause => .access (.release (.sender sender)) fun _ => .done (.error cause) := by
  unfold reserveNonce
  rw [Call.run_bind]
  refine congrArg (Program.access _) (funext fun _ => ?_)
  refine Call.run_holding.trans (congrArg (Program.access _) (funext fun _ => ?_))
  rw [Call.run_bind, Program.bind_assoc]
  refine congrArg (Program.access _) (funext fun found => ?_)
  cases found with
  | some nonce => rfl
  | none =>
      refine (congrArg (Program.bind · _) Call.run_bind).trans ?_
      rw [Program.bind_assoc]
      refine congrArg fetch.run.bind (funext fun result => ?_)
      cases result <;> rfl

namespace NonceOperation

variable {sender other : Address} {memory : Memory}

theorem perform_reserve (fetched : Except Error UInt64) :
    (reserve fetched).perform sender memory =
      match (memory.nonces.openSlot sender).take sender, fetched with
      | (some nonce, nonces), _ => (.reserved (.ok nonce) 0, { memory with nonces })
      | (none, nonces), .ok nonce =>
        (.reserved (.ok nonce) 1, { memory with nonces := nonces.start sender nonce })
      | (none, nonces), .error cause => (.reserved (.error cause) 1, { memory with nonces }) := by
  unfold perform
  dsimp only
  rw [run_reserveNonce]
  rcases htake : (memory.nonces.openSlot sender).take sender with ⟨_ | nonce, nonces⟩
  · simp [Program.run, Access.apply, htake]
    cases fetched <;> rfl
  · simp [Program.run, Access.apply, htake]
    rfl

/-- What an operation tells its caller and leaves to its sender depends on the nonces of the sender,
and on nothing else. -/
theorem perform_on (operation : NonceOperation) :
    ((operation.perform sender memory).1,
      (operation.perform sender memory).2.nonces.reservation? sender) =
      operation.on (memory.nonces.reservation? sender) := by
  cases operation with
  | reserve fetched =>
      rw [perform_reserve]
      obtain ⟨r, hslot, htake⟩ | ⟨hslot, htake⟩ :=
          (memory.nonces.openSlot sender).take_cases sender <;>
        rw [NonceBook.reservation?_openSlot] at hslot
      · simp [on, hslot, htake]
      · cases fetched <;> simp [on, hslot, htake, NonceBook.start]
  | release nonce =>
      simp only [perform, Access.apply, NonceBook.release, on]
      cases hslot : memory.nonces.reservation? sender with
      | none => simp [hslot]
      | some r => by_cases hlast : r.isLast nonce <;> simp [hslot, hlast]
  | invalidate =>
      simp only [perform, Access.apply, NonceBook.invalidate, on]
      split
      · simp
      · rename_i hslot
        simp [NonceBook.reservation?, Option.not_isSome_iff_eq_none.1 hslot]
  | invalidateIfSole nonce =>
      simp only [perform, Access.apply, NonceBook.invalidateIfSole, on]
      cases hslot : memory.nonces.reservation? sender with
      | none => simp [hslot]
      | some r => by_cases hsole : r.isSole nonce <;> simp [hslot, hsole]
  | resync nonce => simp [perform, Access.apply, NonceBook.resync, on]
  | peek => rfl

theorem perform_reply (operation : NonceOperation) : (operation.perform sender memory).1 =
    (operation.on (memory.nonces.reservation? sender)).1 :=
  congrArg Prod.fst (perform_on operation)

theorem perform_slot (operation : NonceOperation) :
    (operation.perform sender memory).2.nonces.reservation? sender =
      (operation.on (memory.nonces.reservation? sender)).2 :=
  congrArg Prod.snd (perform_on operation)

/-- An operation leaves the nonces of the other senders as they are. -/
theorem perform_frame (operation : NonceOperation) (hne : other ≠ sender) :
    (operation.perform sender memory).2.nonces.reservation? other =
      memory.nonces.reservation? other := by
  cases operation with
  | reserve fetched =>
      rw [perform_reserve]
      obtain ⟨r, -, htake⟩ | ⟨-, htake⟩ := (memory.nonces.openSlot sender).take_cases sender
      · simp [htake, NonceBook.reservation?_put_of_ne hne]
      · cases fetched <;> simp [htake, NonceBook.start, NonceBook.reservation?_put_of_ne hne]
  | release nonce =>
      simp only [perform, Access.apply]
      obtain ⟨r, -, -, hsent⟩ | ⟨-, hsent⟩ := memory.nonces.release_cases sender nonce
      · simp [hsent, NonceBook.reservation?_put_of_ne hne]
      · simp [hsent]
  | invalidate =>
      simp only [perform, Access.apply, NonceBook.invalidate]
      split
      · exact NonceBook.reservation?_put_of_ne hne
      · rfl
  | invalidateIfSole nonce =>
      simp only [perform, Access.apply]
      obtain ⟨r, -, -, hsent⟩ | ⟨-, hsent⟩ := memory.nonces.invalidateIfSole_cases sender nonce
      · simp [hsent, NonceBook.reservation?_put_of_ne hne]
      · simp [hsent]
  | resync nonce => exact NonceBook.reservation?_put_of_ne hne
  | peek => rfl

/-! ## Sessions -/

theorem performAll_cons (sender : Address) (operation : NonceOperation)
    (rest : List (Address × NonceOperation)) (memory : Memory) :
    (performAll ((sender, operation) :: rest) memory).1 =
      (sender, operation, (operation.perform sender memory).1) ::
        (performAll rest (operation.perform sender memory).2).1 := rfl

/-- Memories that have the same nonces for every sender answer every session alike. -/
theorem performAll_congr (operations : List (Address × NonceOperation)) {memory memory' : Memory}
    (hsame : ∀ sender, memory'.nonces.reservation? sender = memory.nonces.reservation? sender) :
    (performAll operations memory').1 = (performAll operations memory).1 := by
  induction operations generalizing memory memory' with
  | nil => rfl
  | cons step rest ih =>
      obtain ⟨sender, operation⟩ := step
      have hlater : ∀ other, (operation.perform sender memory').2.nonces.reservation? other =
          (operation.perform sender memory).2.nonces.reservation? other := by
        intro other
        by_cases hown : other = sender
        · subst hown
          rw [perform_slot, perform_slot, hsame]
        · rw [perform_frame operation hown, perform_frame operation hown, hsame]
      rw [performAll_cons, performAll_cons, perform_reply, perform_reply, hsame, ih hlater]

end NonceOperation

end ShardNet
