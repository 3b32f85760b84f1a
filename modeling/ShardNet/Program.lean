-- SUMMARY: Programs that ask questions and work on memory they share, step by step.
import ShardNet.Network.Cache
import ShardNet.Nonce.Book

/-!
# Programs

The calls of one client share a memory: the clock, the cached configuration and the nonces. A call
is a program that may fail: it asks questions of the outside, and makes accesses to the memory, one
after the other. Each access is one indivisible step, so a program says exactly where the steps of
other programs can fall between its own.

Some steps belong together. A program holds a lock from `acquire` to `release`, and an access that
is guarded by a lock waits while another program holds it.

`Program.run` runs a program alone, where no lock is ever held by another.
-/

namespace ShardNet

/-- What programs share. -/
structure Memory where
  clock : Moment
  cache : ConfigCache
  nonces : NonceBook

inductive Lock where
  /-- The cached configuration. -/
  | config
  /-- The slot of a sender. -/
  | sender (sender : Address)
  deriving DecidableEq, Repr

/-- One step on the shared memory. -/
inductive Access where
  | acquire (lock : Lock)
  | release (lock : Lock)
  | freshConfig
  | storeConfig (config : NetworkConfig)
  | clearConfig
  | openSlot (sender : Address)
  | takeNonce (sender : Address)
  | startNonces (sender : Address) (nonce : UInt64)
  | releaseNonce (sender : Address) (nonce : UInt64)
  | invalidateIfSole (sender : Address) (nonce : UInt64)
  | invalidate (sender : Address)
  | resync (sender : Address) (nonce : UInt64)
  | peek (sender : Address)

namespace Access

/-- What a step tells the program that makes it. -/
@[reducible] def Reply : Access → Type
  | freshConfig => Option NetworkConfig
  | takeNonce _ => Option UInt64
  | releaseNonce .. => Bool
  | invalidateIfSole .. => Bool
  | peek _ => Option UInt64
  | _ => Unit

/-- The lock that guards a step. -/
def guard? : Access → Option Lock
  | acquire lock | release lock => some lock
  | freshConfig | storeConfig _ | clearConfig => some .config
  | openSlot _ => none
  | takeNonce sender | startNonces sender _ | releaseNonce sender _ | invalidateIfSole sender _
  | invalidate sender | resync sender _ | peek sender => some (.sender sender)

/-- Carries out a step. Locks have no part in the memory. -/
def apply (memory : Memory) : (access : Access) → access.Reply × Memory
  | acquire _ => ((), memory)
  | release _ => ((), memory)
  | freshConfig => (memory.cache.fresh? memory.clock, memory)
  | storeConfig config => ((), { memory with cache := memory.cache.store config memory.clock })
  | clearConfig => ((), { memory with cache := memory.cache.clear })
  | openSlot sender => ((), { memory with nonces := memory.nonces.openSlot sender })
  | takeNonce sender =>
    let (nonce, nonces) := memory.nonces.take sender
    (nonce, { memory with nonces := nonces })
  | startNonces sender nonce => ((), { memory with nonces := memory.nonces.start sender nonce })
  | releaseNonce sender nonce =>
    let (released, nonces) := memory.nonces.release sender nonce
    (released, { memory with nonces := nonces })
  | invalidateIfSole sender nonce =>
    let (forgotten, nonces) := memory.nonces.invalidateIfSole sender nonce
    (forgotten, { memory with nonces := nonces })
  | invalidate sender => ((), { memory with nonces := memory.nonces.invalidate sender })
  | resync sender nonce => ((), { memory with nonces := memory.nonces.resync sender nonce })
  | peek sender => (memory.nonces.peek sender, memory)

end Access

/-- A program that asks questions of type `Query`, and ends with a value. -/
inductive Program (Query Answer α : Type) where
  | done (value : α)
  | ask (query : Query) (next : Answer → Program Query Answer α)
  | access (access : Access) (next : access.Reply → Program Query Answer α)

namespace Program

variable {Query Answer α β : Type}

/-- Goes on with a second program from the value of the first. -/
def bind (program : Program Query Answer α) (next : α → Program Query Answer β) :
    Program Query Answer β :=
  match program with
  | done value => next value
  | ask query rest => ask query fun answer => (rest answer).bind next
  | access step rest => access step fun reply => (rest reply).bind next

instance : Monad (Program Query Answer) where
  pure := done
  bind := bind

theorem bind_done (program : Program Query Answer α) : program.bind done = program := by
  induction program with
  | done value => rfl
  | ask query rest ih => simp [bind, ih]
  | access step rest ih => simp [bind, ih]

theorem bind_assoc {γ : Type} (program : Program Query Answer α)
    (f : α → Program Query Answer β) (g : β → Program Query Answer γ) :
    (program.bind f).bind g = program.bind fun value => (f value).bind g := by
  induction program with
  | done value => rfl
  | ask query rest ih => simp [bind, ih]
  | access step rest ih => simp [bind, ih]

instance : LawfulMonad (Program Query Answer) :=
  LawfulMonad.mk' _ bind_done (fun _ _ => rfl) bind_assoc

/-- Runs a program alone. `answer` answers its questions, and may itself work on the memory. -/
def run {m : Type → Type} [Monad m] (answer : Query → StateT Memory m Answer) :
    Program Query Answer α → StateT Memory m α
  | done value => pure value
  | ask query next => do run answer (next (← answer query))
  | access step next => do
    let (reply, memory) := step.apply (← get)
    set memory
    run answer (next reply)

end Program

/-! ## Calls -/

/-- A program that may fail. -/
abbrev Call (Query Answer α : Type) := ExceptT Error (Program Query Answer) α

namespace Call

variable {Query Answer α : Type}

/-- Asks a question. -/
def ask (query : Query) : Call Query Answer Answer := ExceptT.lift (.ask query .done)

/-- Makes a step on the memory. -/
def access (step : Access) : Call Query Answer step.Reply := ExceptT.lift (.access step .done)

/-- A result that is known already. -/
def ofExcept (result : Except Error α) : Call Query Answer α := ExceptT.mk (.done result)

/-- Holds a lock for the length of a call, however the call ends. -/
def holding (lock : Lock) (call : Call Query Answer α) : Call Query Answer α := do
  access (.acquire lock)
  let result ← ExceptT.lift call.run
  access (.release lock)
  ofExcept result

end Call

end ShardNet
