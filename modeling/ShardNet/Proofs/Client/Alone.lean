-- SUMMARY: A call alone against a service: its result, what it has sent, what it leaves in the memory.
import ShardNet.Proofs.Client.Footprint
import ShardNet.Proofs.Nonce.Operation
import ShardNet.Proofs.Trace

/-!
# Calls that run alone

A `Service` answers requests from a state of its own, in whatever way and in its own time.
`Service.run` runs a call against it, with nobody else at work on the memory, and keeps a list of
the requests. Below stands a rule for each way in which calls are put together, and what is known of
every call: what it sends, it sends after one of its traces, and if it spares the nonces, it leaves
them to every sender as they are.

`Scene.Untouched` says that a run has left no trace: nothing was posted, and no later session on the
nonces can tell that there was one.
-/

namespace ShardNet

/-- Answers to requests, out of a state of the service. The clock may move until an answer is
there. -/
abbrev Service (σ : Type) := Request → StateM (Moment × σ) Answer

/-- The memory that calls work on, and a service with the requests that it has got, the first one
first. -/
structure Scene (σ : Type) where
  memory : Memory
  requests : List Request
  state : σ

variable {σ α β : Type}

namespace Service

/-- What a service answers to a request, which is noted, and what there is then. -/
def respond (service : Service σ) (request : Request) (scene : Scene σ) : Answer × Scene σ :=
  let (answer, clock, state) := (service request).run (scene.memory.clock, scene.state)
  (answer, ⟨{ scene.memory with clock := clock }, scene.requests ++ [request], state⟩)

def answer (service : Service σ) (request : Request) :
    StateT Memory (StateM (List Request × σ)) Answer :=
  fun memory (requests, state) =>
    let (answer, scene) := service.respond request ⟨memory, requests, state⟩
    ((answer, scene.memory), scene.requests, scene.state)

/-- Runs a program alone. -/
def play (service : Service σ) (program : Program Request Answer α) (scene : Scene σ) :
    α × Scene σ :=
  let ((result, memory), requests, state) :=
    ((program.run service.answer).run scene.memory).run (scene.requests, scene.state)
  (result, ⟨memory, requests, state⟩)

/-- Runs a call alone. -/
def run (service : Service σ) (call : Client.Operation α) (scene : Scene σ) :
    Except Error α × Scene σ :=
  service.play call.run scene

variable {service : Service σ} {scene later : Scene σ}

/-! ## Programs -/

theorem play_ask {request : Request} {next : Answer → Program Request Answer α} :
    service.play (.ask request next) scene =
      service.play (next (service.respond request scene).1) (service.respond request scene).2 := rfl

theorem play_access {step : Access} {next : step.Reply → Program Request Answer α} :
    service.play (.access step next) scene =
      service.play (next (step.apply scene.memory).1)
        { scene with memory := (step.apply scene.memory).2 } := rfl

theorem play_bind {program : Program Request Answer α} {next : α → Program Request Answer β} :
    service.play (program.bind next) scene =
      service.play (next (service.play program scene).1) (service.play program scene).2 := by
  induction program generalizing scene with
  | done value => rfl
  | ask request rest ih => rw [Program.bind, play_ask, ih, play_ask]
  | access step rest ih => rw [Program.bind, play_access, ih, play_access]

/-- Every request is sent after a trace of the program. -/
theorem requests_play (program : Program Request Answer α) (scene : Scene σ) :
    ∃ sent, (service.play program scene).2.requests = scene.requests ++ sent ∧
      ∀ request ∈ sent, ∃ trace, program.Sends trace request := by
  induction program generalizing scene with
  | done value => exact ⟨[], (List.append_nil _).symm, nofun⟩
  | ask request next ih =>
      obtain ⟨sent, hrequests, hsent⟩ :=
        ih (service.respond request scene).1 (service.respond request scene).2
      refine ⟨request :: sent, ?_, fun other hmem => ?_⟩
      · rw [play_ask, hrequests]
        exact List.append_assoc ..
      obtain rfl | hmem := List.mem_cons.1 hmem
      · exact ⟨[], .inl ⟨rfl, rfl⟩⟩
      · obtain ⟨trace, hsends⟩ := hsent other hmem
        exact ⟨_, .inr ⟨_, trace, rfl, hsends⟩⟩
  | access step next ih =>
      obtain ⟨sent, hrequests, hsent⟩ := ih (step.apply scene.memory).1
        { scene with memory := (step.apply scene.memory).2 }
      refine ⟨sent, hrequests, fun request hmem => ?_⟩
      obtain ⟨trace, hsends⟩ := hsent request hmem
      exact ⟨_, _, trace, rfl, hsends⟩

/-! ## Calls -/

theorem run_throw {cause : Error} : service.run (throw cause : Client.Operation α) scene =
    (.error cause, scene) := rfl

theorem run_ofExcept {result : Except Error α} :
    service.run (Call.ofExcept result) scene = (result, scene) := rfl

theorem run_bind_ok {call : Client.Operation α} {next : α → Client.Operation β} {value : α}
    (hcall : service.run call scene = (.ok value, later)) :
    service.run (call >>= next) scene = service.run (next value) later := by
  rw [run, Call.run_bind, play_bind, ← run, hcall]
  rfl

theorem run_bind_error {call : Client.Operation α} {next : α → Client.Operation β} {cause : Error}
    (hcall : service.run call scene = (.error cause, later)) :
    service.run (call >>= next) scene = (.error cause, later) := by
  rw [run, Call.run_bind, play_bind, ← run, hcall]
  rfl

/-- A call that spares the nonces leaves them to every sender as they are. -/
theorem reservation?_run {call : Client.Operation α} (hspares : call.SparesNonces)
    (sender : Address) :
    (service.run call scene).2.memory.nonces.reservation? sender =
      scene.memory.nonces.reservation? sender := by
  unfold run
  unfold Call.SparesNonces Call.Only Call.Follows at hspares
  generalize call.run = program at hspares
  induction program generalizing scene with
  | done value => rfl
  | ask request next ih =>
      obtain ⟨_, _, hnext⟩ := hspares
      rw [play_ask, ih _ (hnext _)]
      rfl
  | access step next ih =>
      obtain ⟨_, hstep, hnext⟩ := hspares (step.apply scene.memory).1
      rw [play_access, ih _ hnext]
      exact step.reservation?_of_spares hstep scene.memory sender

end Service

/-! ## No trace -/

/-- Of what happened between two scenes, no trace is left: nothing was posted, the next nonces are
the same, and every session of operations on the nonces is answered in the same way. -/
structure Scene.Untouched (scene later : Scene σ) : Prop where
  sent : ∃ sent, later.requests = scene.requests ++ sent ∧ ∀ request ∈ sent, request.method = .get
  peek : ∀ sender, later.memory.nonces.peek sender = scene.memory.nonces.peek sender
  session : ∀ operations, (NonceOperation.performAll operations later.memory).1 =
    (NonceOperation.performAll operations scene.memory).1

namespace Scene.Untouched

variable {scene middle later : Scene σ}

theorem refl : scene.Untouched scene :=
  ⟨⟨[], (List.append_nil _).symm, nofun⟩, fun _ => rfl, fun _ => rfl⟩

theorem trans (h : scene.Untouched middle) (h' : middle.Untouched later) :
    scene.Untouched later where
  sent := by
    obtain ⟨first, hfirst, hgets⟩ := h.sent
    obtain ⟨second, hsecond, hgets'⟩ := h'.sent
    refine ⟨first ++ second, by rw [hsecond, hfirst, List.append_assoc], fun request hmem => ?_⟩
    exact (List.mem_append.1 hmem).elim (hgets request) (hgets' request)
  peek sender := (h'.peek sender).trans (h.peek sender)
  session operations := (h'.session operations).trans (h.session operations)

/-- It is enough that no sender has other nonces. -/
theorem of_reservation?
    (hsent : ∃ sent, later.requests = scene.requests ++ sent ∧
      ∀ request ∈ sent, request.method = .get)
    (hsame : ∀ sender, later.memory.nonces.reservation? sender =
      scene.memory.nonces.reservation? sender) : scene.Untouched later where
  sent := hsent
  peek sender := congrArg (Option.map _) (hsame sender)
  session operations := NonceOperation.performAll_congr operations hsame

/-- A call that spares the nonces and posts nothing leaves no trace. -/
theorem of_spares {service : Service σ} {call : Client.Operation α} (hspares : call.SparesNonces)
    (hgets : ∀ {trace request}, call.Sends trace request → request.method = .get) :
    scene.Untouched (service.run call scene).2 := by
  obtain ⟨sent, hrequests, hsent⟩ := service.requests_play call.run scene
  refine of_reservation? ⟨sent, hrequests, fun request hmem => ?_⟩
    (service.reservation?_run hspares)
  obtain ⟨trace, hsends⟩ := hsent request hmem
  exact hgets hsends

end Scene.Untouched

end ShardNet
