-- SUMMARY: What a call may do at each stage of its way, and that the calls of a run keep to it.
import ShardNet.Proofs.Interleaving

/-!
# Disciplines

A `Discipline` says by stages which questions a call may ask and which steps it may make, and to
which stage each of them leads. `Program.Follows` is the weakest condition under which a program
keeps to a discipline from a stage onwards, whatever answers and replies it gets, and ends as
required. It is computed along the program, so a call is checked by the rules for the pieces it is
made of.

`Step.keeps` carries the stages through a run: while every call follows its discipline, each event
takes the stage of its caller along a question or a step that the discipline allows. What holds of a
run can then be shown from the stages alone, without the programs.
-/

namespace ShardNet

/-- Which questions and steps are allowed at a stage, and where they lead. -/
structure Discipline (Query σ : Type) where
  asks : σ → Query → σ → Prop
  steps : σ → (access : Access) → access.Reply → σ → Prop

variable {Query Answer σ α β : Type} {D : Discipline Query σ}

namespace Program

/-- Keeps to a discipline from a stage on, and ends in a stage and with a value as required. -/
def Follows (D : Discipline Query σ) (ends : σ → α → Prop) : Program Query Answer α → σ → Prop
  | .done value, stage => ends stage value
  | .ask query next, stage =>
    ∃ later, D.asks stage query later ∧ ∀ answer, (next answer).Follows D ends later
  | .access step next, stage =>
    ∀ reply, ∃ later, D.steps stage step reply later ∧ (next reply).Follows D ends later

theorem Follows.mono {ends ends' : σ → α → Prop}
    (himp : ∀ stage value, ends stage value → ends' stage value) {program : Program Query Answer α}
    {stage : σ} (h : program.Follows D ends stage) :
    program.Follows D ends' stage := by
  induction program generalizing stage with
  | done value => exact himp stage value h
  | ask query next ih =>
      obtain ⟨later, hasks, hnext⟩ := h
      exact ⟨later, hasks, fun answer => ih answer (hnext answer)⟩
  | access step next ih =>
      intro reply
      obtain ⟨later, hsteps, hnext⟩ := h reply
      exact ⟨later, hsteps, ih reply hnext⟩

theorem follows_bind {ends : σ → β → Prop} {program : Program Query Answer α}
    {next : α → Program Query Answer β} {stage : σ} :
    (program.bind next).Follows D ends stage ↔
      program.Follows D (fun stage value => (next value).Follows D ends stage) stage := by
  induction program generalizing stage with
  | done value => rfl
  | ask query rest ih => simp only [bind, Follows, ih]
  | access step rest ih => simp only [bind, Follows, ih]

end Program

/-! ## Calls -/

namespace Call

/-- A call that keeps to a discipline, seen as a program that ends with a value or an error. -/
def Follows (D : Discipline Query σ) (ends : σ → Except Error α → Prop)
    (call : Call Query Answer α) (stage : σ) : Prop :=
  Program.Follows D ends call.run stage

/-- What a result has to satisfy for the rest of a call. -/
def Continues (D : Discipline Query σ) (ends : σ → Except Error β → Prop)
    (next : α → Call Query Answer β) (stage : σ) : Except Error α → Prop
  | .ok value => (next value).Follows D ends stage
  | .error cause => ends stage (.error cause)

variable {ends : σ → Except Error α → Prop} {stage : σ}

theorem Follows.mono {ends' : σ → Except Error α → Prop}
    (himp : ∀ stage result, ends stage result → ends' stage result) {call : Call Query Answer α}
    (h : call.Follows D ends stage) : call.Follows D ends' stage :=
  Program.Follows.mono himp h

theorem run_bind {call : Call Query Answer α} {next : α → Call Query Answer β} :
    (call >>= next).run = call.run.bind fun
      | .ok value => (next value).run
      | .error cause => .done (.error cause) :=
  congrArg call.run.bind (funext fun result => by cases result <;> rfl)

theorem follows_bind {ends : σ → Except Error β → Prop} {call : Call Query Answer α}
    {next : α → Call Query Answer β} :
    (call >>= next).Follows D ends stage ↔ call.Follows D (Continues D ends next) stage := by
  rw [Follows, run_bind, Program.follows_bind, Follows]
  constructor <;> refine Program.Follows.mono fun stage result h => ?_ <;>
    cases result <;> exact h

@[simp] theorem continues_ok {ends : σ → Except Error β → Prop} {next : α → Call Query Answer β}
    {value : α} : Continues D ends next stage (.ok value) ↔ (next value).Follows D ends stage :=
  Iff.rfl

@[simp] theorem continues_error {ends : σ → Except Error β → Prop}
    {next : α → Call Query Answer β} {cause : Error} :
    Continues D ends next stage (.error cause) ↔ ends stage (.error cause) :=
  Iff.rfl

@[simp] theorem follows_pure {value : α} :
    (pure value : Call Query Answer α).Follows D ends stage ↔ ends stage (.ok value) := Iff.rfl

@[simp] theorem follows_throw {cause : Error} :
    (throw cause : Call Query Answer α).Follows D ends stage ↔ ends stage (.error cause) := Iff.rfl

@[simp] theorem follows_ofExcept {result : Except Error α} :
    (ofExcept result : Call Query Answer α).Follows D ends stage ↔ ends stage result := Iff.rfl

@[simp] theorem follows_ask {ends : σ → Except Error Answer → Prop} {query : Query} :
    (ask query : Call Query Answer Answer).Follows D ends stage ↔
      ∃ later, D.asks stage query later ∧ ∀ answer, ends later (.ok answer) := Iff.rfl

@[simp] theorem follows_access {access : Access} {ends : σ → Except Error access.Reply → Prop} :
    (Call.access access : Call Query Answer access.Reply).Follows D ends stage ↔
      ∀ reply, ∃ later, D.steps stage access reply later ∧ ends later (.ok reply) := Iff.rfl

theorem run_holding {lock : Lock} {call : Call Query Answer α} :
    (holding lock call).run = .access (.acquire lock) fun _ =>
      call.run.bind fun result => .access (.release lock) fun _ => .done result := by
  have hlift : (ExceptT.lift call.run : Call Query Answer (Except Error α)).run =
      call.run.bind fun result => .done (.ok result) := rfl
  simp only [holding, run_bind, hlift, Program.bind_assoc]
  rfl

/-- A call under a lock: the lock is acquired, and released after a success as after a failure. -/
theorem follows_holding {lock : Lock} {call : Call Query Answer α} :
    (holding lock call).Follows D ends stage ↔
      ∃ inside, D.steps stage (.acquire lock) () inside ∧
        call.Follows D (fun stage result =>
          ∃ outside, D.steps stage (.release lock) () outside ∧ ends outside result) inside := by
  rw [Follows, run_holding]
  constructor
  · intro h
    obtain ⟨inside, hacquire, hcall⟩ := h ()
    exact ⟨inside, hacquire, (Program.follows_bind.1 hcall).mono fun _ _ hrelease => hrelease ()⟩
  · rintro ⟨inside, hacquire, hcall⟩ _
    exact ⟨inside, hacquire, Program.follows_bind.2 (hcall.mono fun _ _ hrelease _ => hrelease)⟩

theorem run_tryCatch {call : Call Query Answer α} {handler : Error → Call Query Answer α} :
    (tryCatch call handler).run = call.run.bind fun
      | .ok value => .done (.ok value)
      | .error cause => (handler cause).run :=
  congrArg call.run.bind (funext fun result => by cases result <;> rfl)

theorem follows_tryCatch {call : Call Query Answer α} {handler : Error → Call Query Answer α} :
    (tryCatch call handler).Follows D ends stage ↔
      call.Follows D (fun stage result => match result with
        | .ok value => ends stage (.ok value)
        | .error cause => (handler cause).Follows D ends stage) stage := by
  rw [Follows, run_tryCatch, Program.follows_bind, Follows]
  constructor <;> refine Program.Follows.mono fun stage result h => ?_ <;>
    cases result <;> exact h

end Call

/-! ## Footprints -/

/-- The discipline of one stage: any question, and the steps that are `allowed`. -/
def Discipline.only (Query : Type) (allowed : Access → Prop) : Discipline Query Unit where
  asks _ _ _ := True
  steps _ access _ _ := allowed access

/-- A call that makes only steps that are `allowed`. -/
def Call.Only (allowed : Access → Prop) (call : Call Query Answer α) : Prop :=
  call.Follows (.only Query allowed) (fun _ _ => True) ()

namespace Call

variable {allowed : Access → Prop}

theorem only_bind {call : Call Query Answer α} {next : α → Call Query Answer β}
    (hcall : call.Only allowed) (hnext : ∀ value, (next value).Only allowed) :
    (call >>= next).Only allowed := by
  refine follows_bind.2 (hcall.mono fun stage result _ => ?_)
  cases result with
  | ok value => exact hnext value
  | error cause => trivial

@[simp] theorem only_pure {value : α} : (pure value : Call Query Answer α).Only allowed := trivial

@[simp] theorem only_throw {cause : Error} : (throw cause : Call Query Answer α).Only allowed :=
  trivial

@[simp] theorem only_ofExcept {result : Except Error α} :
    (ofExcept result : Call Query Answer α).Only allowed := trivial

@[simp] theorem only_ask {query : Query} : (ask query : Call Query Answer Answer).Only allowed :=
  ⟨(), trivial, fun _ => trivial⟩

@[simp] theorem only_access {access : Access} :
    (Call.access access : Call Query Answer access.Reply).Only allowed ↔
      (access.Reply → allowed access) := by
  constructor
  · intro h reply
    obtain ⟨_, hallowed, _⟩ := h reply
    exact hallowed
  · intro h reply
    exact ⟨(), h reply, trivial⟩

theorem only_holding {lock : Lock} {call : Call Query Answer α} (hacquire : allowed (.acquire lock))
    (hrelease : allowed (.release lock)) (hcall : call.Only allowed) :
    (holding lock call).Only allowed :=
  follows_holding.2 ⟨(), hacquire, hcall.mono fun _ _ _ => ⟨(), hrelease, trivial⟩⟩

/-- A call that makes only certain steps follows every discipline that allows them at some stage
without leaving it, and that allows all questions there. -/
theorem Only.follows {call : Call Query Answer α} (h : call.Only allowed) {stage : σ}
    (hasks : ∀ query, D.asks stage query stage)
    (hsteps : ∀ access reply, allowed access → D.steps stage access reply stage) :
    call.Follows D (fun later _ => later = stage) stage := by
  unfold Only Follows at *
  generalize call.run = program at h
  induction program with
  | done value => rfl
  | ask query next ih =>
      obtain ⟨_, _, hnext⟩ := h
      exact ⟨stage, hasks query, fun answer => ih answer (hnext answer)⟩
  | access step next ih =>
      intro reply
      obtain ⟨_, hallowed, hnext⟩ := h reply
      exact ⟨stage, hsteps step reply hallowed, ih reply hnext⟩

end Call

/-! ## Runs -/

section Runs

variable {ι : Type} {α : ι → Type} [DecidableEq ι]

/-- What is left of every call follows the discipline of the call from its stage on. -/
def Pool.Keeps (pool : Pool Query Answer α) (D : ι → Discipline Query σ)
    (ends : (i : ι) → σ → Except Error (α i) → Prop) (stage : ι → σ) : Prop :=
  ∀ i program, pool.rest i = some program → program.Follows (D i) (ends i) (stage i)

/-- How an event moves the stages of the calls. -/
inductive Moves (D : ι → Discipline Query σ) (stage : ι → σ) :
    Event Query Answer ι → (ι → σ) → Prop where
  | answered {i query answer later} (allowed : (D i).asks (stage i) query later) :
      Moves D stage (.answered i query answer) (Function.update stage i later)
  | stepped {i access reply later} (allowed : (D i).steps (stage i) access reply later) :
      Moves D stage (.stepped i access reply) (Function.update stage i later)
  | dropped {i} : Moves D stage (.dropped i) stage
  | passed {time} : Moves D stage (.passed time) stage

variable {D : ι → Discipline Query σ} {ends : (i : ι) → σ → Except Error (α i) → Prop}
  {stage : ι → σ} {pool later : Pool Query Answer α} {event : Event Query Answer ι}

theorem Pool.Keeps.update {i : ι} {reached : σ}
    {program : Program Query Answer (Except Error (α i))} (hkeeps : pool.Keeps D ends stage)
    (hfollows : program.Follows (D i) (ends i) reached)
    (hrest : later.rest = Function.update pool.rest i (some program)) :
    later.Keeps D ends (Function.update stage i reached) := by
  intro j left hleft
  rw [hrest] at hleft
  obtain rfl | hji := eq_or_ne j i
  · rw [Function.update_self, Option.some.injEq] at hleft
    simpa [← hleft] using hfollows
  · rw [Function.update_of_ne hji] at hleft
    simpa [Function.update_of_ne hji] using hkeeps j left hleft

theorem Step.keeps (step : Step pool event later) (hkeeps : pool.Keeps D ends stage) :
    ∃ stage', Moves D stage event stage' ∧ later.Keeps D ends stage' := by
  cases step with
  | @answered i query next answer left =>
      obtain ⟨reached, hasks, hnext⟩ := hkeeps i _ left
      exact ⟨_, .answered hasks, hkeeps.update (hnext answer) rfl⟩
  | @stepped i access next left admitted =>
      obtain ⟨reached, hsteps, hnext⟩ := hkeeps i _ left (access.apply pool.memory).1
      exact ⟨_, .stepped hsteps, hkeeps.update hnext rfl⟩
  | @dropped i program left unfinished =>
      refine ⟨stage, .dropped, ?_⟩
      intro j left hleft
      obtain rfl | hji := eq_or_ne j i
      · cases (Pool.leave_rest_self ..).symm.trans hleft
      · exact hkeeps j left ((Pool.leave_rest_of_ne hji ..).symm.trans hleft)
  | passed time => exact ⟨stage, .passed, hkeeps⟩

end Runs

end ShardNet
